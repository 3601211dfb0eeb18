import BullsUnicorns.Identity.Lemmas.Requests

/-!
# Redemptions in a run

What the log of a run says of the challenges that are stored and of those that were redeemed.
-/

namespace BullsUnicorns.Identity

namespace WriteStore

/-- The challenge that a call stored. -/
def issuedBy : Event → Option Challenge
  | ⟨_, _, .put c, .ok ()⟩ => some c
  | _ => none

/-- The nonce that was made for a call. -/
def drawnBy : Event → Option String
  | ⟨_, _, .put c, _⟩ => some c.nonce
  | _ => none

/-- The nonce that a request may make. -/
def nonceOf (a : Arrival) : Option String :=
  match a.route with
  | .challenge => some (newNonce a.visit.random)
  | .link => none

/-- The challenge that a call redeemed. -/
def redeemedBy : Event → Option Challenge
  | ⟨_, _, .consume _ _, .ok (some c)⟩ => some c
  | _ => none

/-- A call that may change the register. -/
def isWrite : Event → Bool
  | ⟨_, _, .link _ _ _, _⟩ => true
  | ⟨_, _, .unlink _, _⟩ => true
  | _ => false

theorem issuedBy_eq_some {e : Event} {c : Challenge} (h : issuedBy e = some c) :
    ∃ k q, e = ⟨k, q, .put c, .ok ()⟩ := by
  unfold issuedBy at h
  split at h
  · cases h
    exact ⟨_, _, rfl⟩
  · cases h

theorem isWrite_cases {e : Event} (h : isWrite e = true) :
    (∃ w identity t, e.call = .link w identity t) ∨ ∃ w, e.call = .unlink w := by
  unfold isWrite at h
  split at h
  · exact .inl ⟨_, _, _, rfl⟩
  · exact .inr ⟨_, rfl⟩
  · cases h

/-- Pairwise distinct nonces. -/
def Fresh (log : List Event) : Prop := (log.filterMap drawnBy).Nodup

instance (log : List Event) : Decidable (Fresh log) := inferInstanceAs (Decidable (List.Nodup _))

theorem Fresh.before {log : List Event} {e : Event} (h : Fresh (log ++ [e])) : Fresh log := by
  rw [Fresh, List.filterMap_append] at h
  exact h.of_append_left

/-- What is drawn was not drawn before. -/
theorem Fresh.ne {log : List Event} {e i : Event} {n m : String} (h : Fresh (log ++ [e])) (hi : i ∈ log)
    (hn : drawnBy i = some n) (hm : drawnBy e = some m) : n ≠ m := by
  rw [Fresh, Machine.filterMap_snoc, hm] at h
  intro heq
  exact List.disjoint_of_nodup_append h (List.mem_filterMap.mpr ⟨i, hi, hn⟩) (by simp [heq])

end WriteStore

namespace WriteLaws

open WriteStore

variable {σ : Type} {W : WriteStore σ} (L : WriteLaws W)

/-- The stored challenges were issued, and those that were redeemed are gone for good. -/
structure History (log : List Event) (s : σ) : Prop where
  sound : (L.register s).Sound
  stored : ∀ n c, L.stored s n = some c → c.nonce = n ∧ ∃ i ∈ log, issuedBy i = some c
  issued : ∀ a e b c, log = a ++ e :: b → redeemedBy e = some c → ∃ i ∈ a, issuedBy i = some c
  redeemed : ∀ e ∈ log, ∀ c, redeemedBy e = some c → ∃ t, e.call = .consume c.nonce t ∧ t < c.expiresAtSec
  spent : Fresh log → ∀ n c, L.stored s n = some c → ∀ e ∈ log, ∀ c', redeemedBy e = some c' → c'.nonce ≠ n
  once : Fresh log → (log.filterMap fun e => (redeemedBy e).map Challenge.nonce).Nodup

variable {L}

theorem History.initial : L.History [] W.empty := by
  constructor
  case sound =>
    rw [L.empty.2]
    exact Register.empty_sound
  case stored => simp [L.empty.1]
  all_goals simp

variable {log : List Event} {s s' : σ} {e : Event}

/-- A call that redeems nothing, where what is stored afterwards was stored before or was issued by it. -/
theorem History.extend (h : L.History log s) (hsound : (L.register s').Sound) (hnone : redeemedBy e = none)
    (hstored : ∀ n c, L.stored s' n = some c → L.stored s n = some c ∨ (issuedBy e = some c ∧ c.nonce = n)) :
    L.History (log ++ [e]) s' := by
  have hold {e' : Event} (he' : e' ∈ log ++ [e]) {c : Challenge} (hc : redeemedBy e' = some c) : e' ∈ log := by
    rcases List.mem_append.mp he' with he' | he'
    · exact he'
    · rw [List.mem_singleton.mp he', hnone] at hc
      cases hc
  constructor
  case sound => exact hsound
  case stored =>
    intro n c hc
    rcases hstored n c hc with hc | ⟨hc, hn⟩
    · obtain ⟨hn, i, hi, hissued⟩ := h.stored n c hc
      exact ⟨hn, i, List.mem_append_left _ hi, hissued⟩
    · exact ⟨hn, e, by simp, hc⟩
  case issued =>
    have hlast : ∀ c, redeemedBy e = some c → ∃ i ∈ log, issuedBy i = some c := by
      intro c hc
      rw [hnone] at hc
      cases hc
    exact fun a e' b c heq => Pool.splits_snoc (Q := fun a e => ∀ c, redeemedBy e = some c → ∃ i ∈ a, issuedBy i = some c)
      (fun a e b heq c => h.issued a e b c heq) hlast a e' b heq c
  case redeemed => exact fun e' he' c hc => h.redeemed e' (hold he' hc) c hc
  case spent =>
    intro hfresh n c hc e' he' c' hc'
    have he' := hold he' hc'
    rcases hstored n c hc with hc | ⟨hc, hn⟩
    · exact h.spent hfresh.before n c hc e' he' c' hc'
    · -- a new nonce is not one that was issued before
      obtain ⟨a, b, rfl⟩ := List.mem_iff_append.mp he'
      obtain ⟨i, hi, hissued⟩ := h.issued a e' b c' rfl hc'
      obtain ⟨k, q, rfl⟩ := issuedBy_eq_some hissued
      obtain ⟨k', q', rfl⟩ := issuedBy_eq_some hc
      exact hn ▸ hfresh.ne (List.mem_append_left _ hi) rfl rfl
  case once =>
    intro hfresh
    rw [Machine.filterMap_snoc, hnone]
    simpa using h.once hfresh.before

/-- A call that redeems what is stored. -/
theorem History.redeem (h : L.History log s) {k : ℕ} {q : Arrival} {n : String} {t : ℤ} {c : Challenge}
    (hc : L.stored s n = some c) (ht : t < c.expiresAtSec) (hregister : L.register s' = L.register s)
    (hstored : L.stored s' = Function.update (L.stored s) n none) :
    L.History (log ++ [⟨k, q, .consume n t, .ok (some c)⟩]) s' := by
  obtain ⟨hn, i, hi, hissued⟩ := h.stored n c hc
  have hleft {m : String} {c' : Challenge} (hc' : L.stored s' m = some c') : m ≠ n ∧ L.stored s m = some c' := by
    rw [hstored] at hc'
    by_cases hm : m = n
    · simp [hm] at hc'
    · exact ⟨hm, by simpa [Function.update_of_ne hm] using hc'⟩
  constructor
  case sound => exact hregister ▸ h.sound
  case stored =>
    intro m c' hc'
    obtain ⟨hm, i', hi', hissued'⟩ := h.stored m c' (hleft hc').2
    exact ⟨hm, i', List.mem_append_left _ hi', hissued'⟩
  case issued =>
    have hlast : ∀ c', redeemedBy ⟨k, q, .consume n t, .ok (some c)⟩ = some c' → ∃ i ∈ log, issuedBy i = some c' := by
      rintro c' hc'
      cases hc'
      exact ⟨i, hi, hissued⟩
    exact fun a e' b c' heq => Pool.splits_snoc (Q := fun a e => ∀ c, redeemedBy e = some c → ∃ i ∈ a, issuedBy i = some c)
      (fun a e b heq c => h.issued a e b c heq) hlast a e' b heq c'
  case redeemed =>
    intro e' he' c' hc'
    rcases List.mem_append.mp he' with he' | he'
    · exact h.redeemed e' he' c' hc'
    · obtain rfl := List.mem_singleton.mp he'
      cases hc'
      exact ⟨t, by rw [hn], ht⟩
  case spent =>
    intro hfresh m c' hc' e' he' c'' hc''
    rcases List.mem_append.mp he' with he' | he'
    · exact h.spent hfresh.before m c' (hleft hc').2 e' he' c'' hc''
    · obtain rfl := List.mem_singleton.mp he'
      cases hc''
      exact fun heq => (hleft hc').1 (heq.symm.trans hn)
  case once =>
    intro hfresh
    rw [Machine.filterMap_snoc]
    refine List.Nodup.append (h.once hfresh.before) (by simp [redeemedBy]) ?_
    intro m hm hnew
    obtain ⟨e', he', hm'⟩ := List.mem_filterMap.mp hm
    obtain ⟨c', hc', rfl⟩ := Option.map_eq_some_iff.mp hm'
    refine h.spent hfresh.before n c hc e' he' c' hc' ?_
    simpa [redeemedBy, hn, eq_comm] using hnew

/-- Every served call. -/
theorem History.serve (h : L.History log s) (o : Outside) (k : ℕ) (q : Arrival) (c : Call) :
    L.History (log ++ [⟨k, q, c, (W.serve o c s).1⟩]) (W.serve o c s).2 := by
  have hkept {m : String} {c' : Challenge} {e : Event} {s' : σ} (hsame : L.stored s' = L.stored s)
      (hc' : L.stored s' m = some c') : L.stored s m = some c' ∨ (issuedBy e = some c' ∧ c'.nonce = m) :=
    .inl (hsame ▸ hc')
  unfold WriteStore.serve
  split
  · rename_i err _
    refine h.extend h.sound ?_ fun m c' => hkept rfl
    cases c <;> rfl
  rename_i hserved
  have hbeside := L.beside o c s
  unfold WriteStore.serve at hbeside
  rw [hserved] at hbeside
  cases c with
  | hit buckets start =>
      have hregister := (hbeside (by simp) (by simp)).2
      exact h.extend (hregister ▸ h.sound) rfl fun m c' hc' => .inl (L.hit buckets start s m c' hc')
  | verify token nowSec => exact h.extend h.sound rfl fun m c' => hkept rfl
  | put challenge =>
      have hregister := (hbeside (by simp) (by simp)).2
      rcases L.put challenge s with ⟨hok, hfree, hstored⟩ | ⟨⟨err, herror⟩, hsame⟩
      · refine h.extend (hregister ▸ h.sound) (by simp [redeemedBy]) fun m c' hc' => ?_
        rw [hstored] at hc'
        by_cases hm : m = challenge.nonce
        · subst hm
          rw [Function.update_self] at hc'
          cases hc'
          exact .inr ⟨by simp [hok, issuedBy], rfl⟩
        · exact .inl (by simpa [Function.update_of_ne hm] using hc')
      · exact h.extend (hregister ▸ h.sound) (by simp [redeemedBy]) fun m c' => hkept hsame
  | consume nonce nowSec =>
      have hregister := (hbeside (by simp) (by simp)).2
      rcases L.consume nonce nowSec s with ⟨c, hc, ht, hok, hstored⟩ | ⟨_, hnone, hsame⟩
      · simp only [hok]
        exact h.redeem hc ht hregister hstored
      · simp only [hnone]
        exact h.extend (hregister ▸ h.sound) rfl fun m c' => hkept hsame
  | house => exact h.extend h.sound rfl fun m c' => hkept rfl
  | link wallet identity t =>
      obtain ⟨hsame, hlink⟩ := L.link wallet identity t s h.sound
      refine h.extend ?_ rfl fun m c' => hkept hsame
      rcases hlink with ⟨_, hfree, hregister⟩ | ⟨_, hregister⟩
      · rw [hregister]
        exact Register.link_sound t h.sound hfree
      · rw [hregister]
        exact h.sound
  | unlink wallet =>
      obtain ⟨hsame, hregister⟩ := L.unlink wallet s h.sound
      refine h.extend ?_ rfl fun m c' => hkept hsame
      rw [hregister]
      exact Register.unlink_sound wallet h.sound

variable (L) in
/-- Every run. -/
theorem history_reached (d : WriteDeps) (acts : List Act) :
    Pool.Kept (Calls d) (W.log d acts) ∧ L.History (W.log d acts) (W.reached d acts).shared := by
  obtain ⟨hkeeping, hhistory⟩ := Pool.run_log (endpoint d) W.serve (R := fun _ => AnyResponse)
    (endpoint_obeys (d := d)) (I := L.History) History.initial (fun log s k i r c _ h => h.serve i k r c) acts
  exact ⟨hkeeping.kept, hhistory⟩

end WriteLaws

end BullsUnicorns.Identity
