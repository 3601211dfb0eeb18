import BullsUnicorns.Identity.Lemmas.Redemptions

/-!
# The ceremony is safe in every run

Challenge and link-write requests of anybody, in any interleaving of their store calls: who may change the
register, and that a challenge is good for one change.
-/

namespace BullsUnicorns.Identity

namespace WriteStore

variable {σ : Type} (W : WriteStore σ) (d : WriteDeps)

/-- A request stored a challenge for its own instant; one to link, after Privy vouched for the identity. -/
def Issued (log : List Event) (c : Challenge) : Prop :=
  ∃ k v a b, log = a ++ ⟨k, ⟨.challenge, v⟩, .put c, .ok ()⟩ :: b ∧ c.nonce = newNonce v.random ∧
    c.issuedAtSec = v.nowSec ∧ c.expiresAtSec = v.nowSec + challengeTtlSeconds ∧
    ∀ identity, c.ceremony = .link identity →
      ∃ token, (⟨k, ⟨.challenge, v⟩, .verify token v.nowSec, .ok (.ok identity)⟩ : Event) ∈ a

/-- A link write redeemed a challenge that had been issued before, in time, with a signature of its wallet
over its message, and then read a house list. -/
structure Authorised (log : List Event) (k : ℕ) (v : Visit) (c : Challenge) (house : HouseList) : Prop where
  order : ∃ a b, log = a ++ ⟨k, ⟨.link, v⟩, .consume c.nonce v.nowSec, .ok (some c)⟩ :: b ∧ Issued a c ∧
    (⟨k, ⟨.link, v⟩, .house, .ok house⟩ : Event) ∈ b
  unexpired : v.nowSec < c.expiresAtSec
  accepts : Accepts d v.request c
  known : house.unknown = false

/-- The requests that redeemed a nonce. -/
def Redeems (log : List Event) (k : ℕ) (nonce : String) : Prop :=
  ∃ e ∈ log, e.task = k ∧ ∃ c, redeemedBy e = some c ∧ c.nonce = nonce

structure Safe (acts : List Act) : Prop where
  redeemedOnce : ((W.log d acts).filterMap fun e => (redeemedBy e).map Challenge.nonce).Nodup
  /-- Two calls that may change the register are of requests that redeemed different nonces. -/
  changedOnce : ((W.log d acts).filter isWrite).Pairwise fun e e' =>
    ∀ nonce, Redeems (W.log d acts) e.task nonce → ¬ Redeems (W.log d acts) e'.task nonce
  /-- Only such a call changes the register. -/
  untouched : ∀ a, W.rows (W.reached d (acts ++ [a])).shared ≠ W.rows (W.reached d acts).shared →
    ∃ e, W.log d (acts ++ [a]) = W.log d acts ++ [e] ∧ isWrite e = true
  /-- A row that is new or in a new wallet. -/
  created : ∀ a, ∀ row ∈ W.rows (W.reached d (acts ++ [a])).shared,
    (∀ row' ∈ W.rows (W.reached d acts).shared, row'.xId = row.xId → row'.wallet ≠ row.wallet) →
    ∃ k o v c house identity, a = .serve k o ∧ Authorised d (W.log d acts) k v c house ∧
      c.ceremony = .link identity ∧ identity.xId = row.xId ∧ c.wallet = row.wallet ∧
      row.wallet ∉ house.wallets ∧ Allowed d identity
  /-- A row that is gone. -/
  removed : ∀ a, ∀ row ∈ W.rows (W.reached d acts).shared,
    (∀ row' ∈ W.rows (W.reached d (acts ++ [a])).shared, row'.xId ≠ row.xId) →
    ∃ k o v c house, a = .serve k o ∧ Authorised d (W.log d acts) k v c house ∧
      c.ceremony = .unlink ∧ c.wallet = row.wallet
  /-- A redemption of nothing, or of a challenge that does not answer to the request. -/
  refused : ∀ k q nonce t found, (⟨k, q, .consume nonce t, .ok found⟩ : Event) ∈ W.log d acts →
    (∀ c, found = some c → ¬ Accepts d q.visit.request c) → ∀ e ∈ W.log d acts, e.task = k → isWrite e = false
  /-- An expired challenge is not found, and one that was found is gone. -/
  burned : ∀ k q nonce t c, (⟨k, q, .consume nonce t, .ok (some c)⟩ : Event) ∈ W.log d acts →
    t < c.expiresAtSec ∧ c.nonce = nonce ∧ nonce ∉ W.nonces (W.reached d acts).shared

theorem next_cases (acts : List Act) (a : Act) :
    (W.log d (acts ++ [a]) = W.log d acts ∧ (W.reached d (acts ++ [a])).shared = (W.reached d acts).shared) ∨
    ∃ k o q c, a = .serve k o ∧
      W.log d (acts ++ [a]) = W.log d acts ++ [⟨k, q, c, (W.serve o c (W.reached d acts).shared).1⟩] ∧
      (W.reached d (acts ++ [a])).shared = (W.serve o c (W.reached d acts).shared).2 :=
  Pool.next_cases W.empty acts a

end WriteStore

namespace WriteLaws

open WriteStore

variable {σ : Type} {W : WriteStore σ} {L : WriteLaws W} {d : WriteDeps} {log : List Event} {s : σ}

theorem issued (hkept : Pool.Kept (Calls d) log) {i : Event} (hi : i ∈ log) {c : Challenge} (hc : issuedBy i = some c) :
    Issued log c := by
  obtain ⟨k, ⟨route, v⟩, rfl⟩ := issuedBy_eq_some hc
  obtain ⟨a, b, rfl⟩ := List.mem_iff_append.mp hi
  have hmade := hkept.made a _ b rfl
  cases route with
  | link => exact hmade.elim
  | challenge =>
      obtain ⟨hnonce, hissued, hexpires, hceremony⟩ := hmade
      refine ⟨k, v, a, b, rfl, hnonce, hissued, hexpires, fun identity hlink => ?_⟩
      rw [hlink] at hceremony
      obtain ⟨_, token, before, _, hpast⟩ := hceremony
      obtain ⟨a', q, b', rfl, _, _⟩ := Pool.past_split hpast
      have hq : q = ⟨.challenge, v⟩ := hkept.request ⟨k, q, .verify token v.nowSec, .ok (.ok identity)⟩ (by simp) _ hi rfl
      exact ⟨token, by simp [hq]⟩

theorem authorised {e : Event} (hkept : Pool.Kept (Calls d) (log ++ [e])) (h : L.History log s) {v : Visit}
    (hq : e.request = ⟨.link, v⟩) {c : Challenge} {house : HouseList} {before : List (Reply StoreError Call.Answer)}
    (hredeemed : Redeemed d v c before) (hpast : Pool.past log e.task = before ++ [⟨.house, .ok house⟩])
    (hknown : house.unknown = false) : Authorised d log e.task v c house := by
  have howner {x : Event} (hx : x ∈ log) (hk : x.task = e.task) : x.request = ⟨.link, v⟩ := by
    rw [← hq]
    exact hkept.request x (List.mem_append_left _ hx) e (by simp) hk
  obtain ⟨haccepts, n, counted, _, hbefore⟩ := hredeemed
  obtain ⟨a', q', b', rfl, ha', _⟩ := Pool.past_split hpast
  obtain ⟨a, q, b, rfl, _, _⟩ := Pool.past_split (ha'.trans hbefore)
  have hq' : q' = ⟨.link, v⟩ := howner (x := ⟨_, q', .house, .ok house⟩) (by simp) rfl
  have hqc : q = ⟨.link, v⟩ := howner (x := ⟨_, q, .consume n v.nowSec, .ok (some c)⟩) (by simp) rfl
  subst hq' hqc
  obtain ⟨i, hi, hissued⟩ := h.issued a ⟨e.task, ⟨.link, v⟩, .consume n v.nowSec, .ok (some c)⟩
    (b ++ ⟨e.task, ⟨.link, v⟩, .house, .ok house⟩ :: b') c (by simp) rfl
  obtain ⟨t, hconsume, ht⟩ := h.redeemed ⟨e.task, ⟨.link, v⟩, .consume n v.nowSec, .ok (some c)⟩ (by simp) c rfl
  cases hconsume
  refine ⟨⟨a, b ++ ⟨e.task, ⟨.link, v⟩, .house, .ok house⟩ :: b', by simp, ?_, by simp⟩, ht, haccepts, hknown⟩
  have hbegun : Pool.Kept (Calls d) a := by
    refine Pool.Kept.before (b := ⟨e.task, ⟨.link, v⟩, .consume c.nonce v.nowSec, .ok (some c)⟩ :: b ++
      ⟨e.task, ⟨.link, v⟩, .house, .ok house⟩ :: b' ++ [e]) ?_
    simpa using hkept
  exact issued hbegun hi hissued

/-- A call that may change the register, and the one redemption before it. -/
theorem write_calls (hkept : Pool.Kept (Calls d) log) {a b : List Event} {e : Event} (heq : log = a ++ e :: b)
    (hw : isWrite e = true) :
    ∃ v c house before, e.request = ⟨.link, v⟩ ∧ Redeemed d v c before ∧
      Pool.past a e.task = before ++ [⟨.house, .ok house⟩] ∧ house.unknown = false := by
  have hmade := hkept.made a e b heq
  obtain ⟨k, ⟨route, v⟩, call, answer⟩ := e
  rcases isWrite_cases hw with ⟨w, identity, t, rfl⟩ | ⟨w, rfl⟩
  · cases route with
    | challenge => exact hmade.elim
    | link =>
        obtain ⟨_, _, c, house, before, hredeemed, hpast, hknown, _⟩ := hmade
        exact ⟨v, c, house, before, rfl, hredeemed, hpast, hknown⟩
  · cases route with
    | challenge => exact hmade.elim
    | link =>
        obtain ⟨c, house, before, hredeemed, hpast, hknown, _⟩ := hmade
        exact ⟨v, c, house, before, rfl, hredeemed, hpast, hknown⟩

/-- A redemption is the second call of its request. -/
theorem redeem_calls (hkept : Pool.Kept (Calls d) log) {k : ℕ} {q : Arrival} {nonce : String} {t : ℤ}
    {found : Except StoreError (Option Challenge)} {a b : List Event}
    (heq : log = a ++ ⟨k, q, .consume nonce t, found⟩ :: b) : AfterCount (Pool.past a k) := by
  have hmade := hkept.made a _ b heq
  obtain ⟨route, v⟩ := q
  cases route with
  | challenge => exact hmade.elim
  | link => exact hmade.1

/-- A nonce that is drawn is its request's own, and the first that it draws. -/
theorem drawn_calls (hkept : Pool.Kept (Calls d) log) {a b : List Event} {e : Event} (heq : log = a ++ e :: b)
    {n : String} (hn : drawnBy e = some n) : nonceOf e.request = some n ∧
      ∀ x ∈ Pool.past a e.task, ∀ c, x.1 ≠ .put c := by
  have hmade := hkept.made a e b heq
  obtain ⟨k, ⟨route, v⟩, call, answer⟩ := e
  cases call with
  | put c =>
      cases route with
      | link => exact hmade.elim
      | challenge =>
          cases hn
          obtain ⟨hnonce, -, -, hceremony⟩ := hmade
          refine ⟨congrArg some hnonce.symm, fun x hx c' hput => ?_⟩
          cases hcer : c.ceremony with
          | link identity =>
              rw [hcer] at hceremony
              obtain ⟨-, token, before, ⟨_, _, _, rfl⟩, hpast⟩ := hceremony
              rw [hpast] at hx
              simp only [List.cons_append, List.nil_append, List.mem_cons, List.not_mem_nil, or_false] at hx
              rcases hx with rfl | rfl <;> cases hput
          | unlink =>
              rw [hcer] at hceremony
              obtain ⟨_, _, _, hpast⟩ := hceremony
              rw [hpast] at hx
              obtain rfl := List.mem_singleton.mp hx
              cases hput
  | _ => cases hn

/-- No request makes two calls that may change the register. -/
theorem write_tasks (hkept : Pool.Kept (Calls d) log) {a b : List Event} {e e' : Event} (heq : log = a ++ e' :: b)
    (he : e ∈ a) (hw : isWrite e = true) (hw' : isWrite e' = true) : e.task ≠ e'.task := by
  intro htask
  obtain ⟨_, _, _, _, _, ⟨_, _, _, ⟨_, _, _, rfl⟩, rfl⟩, hpast', _⟩ := write_calls hkept heq hw'
  obtain ⟨a₁, a₂, rfl⟩ := List.mem_iff_append.mp he
  obtain ⟨_, _, _, _, _, ⟨_, _, _, ⟨_, _, _, rfl⟩, rfl⟩, hpast, _⟩ :=
    write_calls hkept (a := a₁) (b := a₂ ++ e' :: b) (by simp [heq]) hw
  rw [← htask, Pool.past_cons, hpast] at hpast'
  have := congrArg List.length hpast'
  simp at this

/-- What a request that writes has redeemed. -/
theorem write_redeemed (hkept : Pool.Kept (Calls d) log) {e : Event} (he : e ∈ log) (hw : isWrite e = true) {q : Arrival}
    {nonce : String} {t : ℤ} {found : Option Challenge}
    (hfound : (⟨e.task, q, .consume nonce t, .ok found⟩ : Event) ∈ log) :
    ∃ c, found = some c ∧ Accepts d q.visit.request c := by
  obtain ⟨a, b, heq⟩ := List.mem_iff_append.mp he
  obtain ⟨v, c, house, _, hq, ⟨haccepts, n, _, ⟨_, _, _, rfl⟩, rfl⟩, hpast, _⟩ := write_calls hkept heq hw
  obtain ⟨a', b', heq'⟩ := List.mem_iff_append.mp hfound
  obtain ⟨_, _, _, hcounted⟩ := redeem_calls hkept heq'
  have hsame : Pool.past (a ++ e :: b) e.task =
      Pool.past (a' ++ ⟨e.task, q, .consume nonce t, .ok found⟩ :: b') e.task := by rw [← heq, ← heq']
  rw [Pool.past_cons a b e, Pool.past_cons a' b' ⟨e.task, q, .consume nonce t, .ok found⟩, hpast, hcounted] at hsame
  obtain rfl : q = e.request := hkept.request _ hfound e he rfl
  simp only [List.cons_append, List.nil_append, List.cons.injEq, Sigma.mk.injEq] at hsame
  obtain ⟨_, ⟨hcall, hanswer⟩, _⟩ := hsame
  cases hcall
  cases hanswer
  exact ⟨c, rfl, hq ▸ haccepts⟩

/-! ## What one call does to the rows -/

/-- A call leaves the rows alone, or is an accepted link, or an unlink. -/
theorem serve_rows (o : Outside) (c : Call) (h : (L.register s).Sound) :
    W.rows (W.serve o c s).2 = W.rows s ∨
    (∃ w identity t, c = .link w identity t ∧ L.register (W.serve o c s).2 = L.register s) ∨
    (∃ w identity t, c = .link w identity t ∧ ¬ (L.register s).Taken w identity.xId ∧
      L.register (W.serve o c s).2 = (L.register s).link w identity t) ∨
    ∃ w, c = .unlink w ∧ L.register (W.serve o c s).2 = (L.register s).unlink w := by
  cases c with
  | link w identity t =>
      unfold WriteStore.serve
      split
      · exact .inl rfl
      · rcases (L.link w identity t s h).2 with ⟨_, hfree, hregister⟩ | ⟨_, hregister⟩
        · exact .inr (.inr (.inl ⟨w, identity, t, rfl, hfree, hregister⟩))
        · exact .inr (.inl ⟨w, identity, t, rfl, hregister⟩)
  | unlink w =>
      unfold WriteStore.serve
      split
      · exact .inl rfl
      · exact .inr (.inr (.inr ⟨w, rfl, (L.unlink w s h).2⟩))
  | _ => exact .inl (L.beside o _ s (by simp) (by simp)).1

theorem created (h : (L.register s).Sound) {o : Outside} {c : Call} {row : RegisterRow}
    (hrow : row ∈ W.rows (W.serve o c s).2) (hnew : ∀ row' ∈ W.rows s, row'.xId = row.xId → row'.wallet ≠ row.wallet) :
    ∃ identity t, c = .link row.wallet identity t ∧ identity.xId = row.xId := by
  have hfresh : ¬ row ∈ W.rows s := fun hmem => hnew row hmem rfl rfl
  have hold {x : String} : ¬ (L.register s).row x = some row := fun hx => hfresh ((L.rows s h row).mpr ⟨x, hx⟩)
  rcases serve_rows (L := L) o c h with hsame | ⟨w, identity, t, rfl, hregister⟩ | ⟨w, identity, t, rfl, hfree, hregister⟩ |
      ⟨w, rfl, hregister⟩
  · exact absurd (hsame ▸ hrow) hfresh
  · obtain ⟨x, hx⟩ := (L.rows _ (hregister ▸ h) row).mp hrow
    exact absurd (hregister ▸ hx) hold
  · have hsound := Register.link_sound t h hfree
    obtain ⟨x, hx⟩ := (L.rows _ (hregister ▸ hsound) row).mp hrow
    rw [hregister] at hx
    rcases Register.row_link w identity t x hx with ⟨hxId, hw, _⟩ | ⟨_, hbefore⟩
    · exact ⟨identity, t, by rw [hw], by rw [hsound.keyed x row hx, hxId]⟩
    · exact absurd hbefore hold
  · obtain ⟨x, hx⟩ := (L.rows _ (hregister ▸ Register.unlink_sound w h) row).mp hrow
    rw [hregister] at hx
    exact absurd (Register.row_unlink.mp hx).1 hold

theorem removed (h : (L.register s).Sound) {o : Outside} {c : Call} {row : RegisterRow} (hrow : row ∈ W.rows s)
    (hgone : ∀ row' ∈ W.rows (W.serve o c s).2, row'.xId ≠ row.xId) : c = .unlink row.wallet := by
  obtain ⟨x, hx⟩ := (L.rows s h row).mp hrow
  have hxId := h.keyed x row hx
  rcases serve_rows (L := L) o c h with hsame | ⟨w, identity, t, rfl, hregister⟩ | ⟨w, identity, t, rfl, hfree, hregister⟩ |
      ⟨w, rfl, hregister⟩
  · exact absurd rfl (hgone row (hsame ▸ hrow))
  · exact absurd rfl (hgone row ((L.rows _ (hregister ▸ h) row).mpr ⟨x, hregister ▸ hx⟩))
  · -- an accepted link leaves every account that had a row a row
    have hsound := Register.link_sound t h hfree
    obtain ⟨row', hrow'⟩ : ∃ row', ((L.register s).link w identity t).row x = some row' := by
      by_cases hlinked : x = identity.xId
      · exact ⟨_, by rw [hlinked]; exact Function.update_self ..⟩
      · exact ⟨row, by simpa [Register.link, Function.update_of_ne hlinked] using hx⟩
    refine absurd ?_ (hgone row' ((L.rows _ (hregister ▸ hsound) row').mpr ⟨x, hregister ▸ hrow'⟩))
    rw [hsound.keyed x row' hrow', hxId]
  · by_cases hw : row.wallet = w
    · rw [hw]
    · have hkept := Register.row_unlink.mpr ⟨hx, hw⟩
      exact absurd rfl (hgone row ((L.rows _ (hregister ▸ Register.unlink_sound w h) row).mpr ⟨x, hregister ▸ hkept⟩))

/-! ## Every run -/

/-- Where the requests bring different nonces, those that are drawn are different. -/
theorem fresh_of_started (L : WriteLaws W) (acts : List Act)
    (h : ((acts.filterMap PoolAct.started).filterMap nonceOf).Nodup) :
    Fresh (W.log d acts) := by
  obtain ⟨hkeeping, -⟩ := Pool.run_log (endpoint d) W.serve (R := fun _ => AnyResponse)
    (endpoint_obeys (d := d)) (I := L.History) History.initial (fun log s k i r c _ h => h.serve i k r c) acts
  have howner : ∀ e ∈ W.log d acts, (acts.filterMap PoolAct.started)[e.task]? = some e.request := by
    intro e he
    have hk := hkeeping.owner e he
    have hrequests : (W.reached d acts).tasks.map Prod.fst = acts.filterMap PoolAct.started :=
      Pool.reached_requests W.empty acts
    rw [← hrequests, List.getElem?_map]
    exact hk
  refine List.pairwise_filterMap.mpr (Pool.pairwise_of_splits fun a e' b heq e he n hn m hm => ?_)
  have hmem : e ∈ W.log d acts := heq ▸ List.mem_append_left _ he
  have hmem' : e' ∈ W.log d acts := heq ▸ List.mem_append_right _ List.mem_cons_self
  obtain ⟨hnonce', hfirst⟩ := drawn_calls hkeeping.kept heq hm
  obtain ⟨x, y, rfl⟩ := List.mem_iff_append.mp he
  obtain ⟨hnonce, -⟩ := drawn_calls hkeeping.kept (a := x) (b := y ++ e' :: b)
    (heq.trans (by simp)) hn
  refine Pool.ne_of_nodup_filterMap h (fun htask => ?_) (howner e hmem) (howner e' hmem') hnonce hnonce'
  obtain ⟨k, q, call, answer⟩ := e
  cases call with
  | put c =>
      refine hfirst ⟨.put c, answer⟩ ?_ c rfl
      rw [← htask, Pool.past_cons]
      simp
  | _ => cases hn

theorem safe (L : WriteLaws W) (d : WriteDeps) (acts : List Act) (hfresh : Fresh (W.log d acts)) : W.Safe d acts := by
  obtain ⟨hkept, h⟩ := L.history_reached d acts
  have hnext := W.next_cases d acts
  have hkept' (a : Act) := (L.history_reached d (acts ++ [a])).1
  constructor
  case redeemedOnce => exact h.once hfresh
  case changedOnce =>
    rw [List.pairwise_filter]
    refine Pool.pairwise_of_splits fun a e' b heq e he hw hw' nonce => ?_
    rintro ⟨r, hr, hk, c, hc, hn⟩ ⟨r', hr', hk', c', hc', hn'⟩
    have hsame : r = r' := Pool.eq_of_nodup_filterMap (h.once hfresh) hr hr' (v := nonce) (by simp [hc, hn]) (by simp [hc', hn'])
    exact write_tasks hkept heq he hw hw' (hk.symm.trans (hsame ▸ hk'))
  case untouched =>
    intro a hchanged
    rcases hnext a with ⟨_, hshared⟩ | ⟨k, o, q, c, _, hlog, hshared⟩
    · exact absurd (congrArg W.rows hshared) hchanged
    · refine ⟨_, hlog, ?_⟩
      rw [hshared] at hchanged
      rcases serve_rows (L := L) o c h.sound with hsame | ⟨w, identity, t, rfl, _⟩ | ⟨w, identity, t, rfl, _⟩ | ⟨w, rfl, _⟩
      · exact absurd hsame hchanged
      · rfl
      · rfl
      · rfl
  case created =>
    intro a row hrow hnew
    rcases hnext a with ⟨_, hshared⟩ | ⟨k, o, q, c, rfl, hlog, hshared⟩
    · refine absurd rfl (hnew row ?_ rfl)
      rwa [hshared] at hrow
    · rw [hshared] at hrow
      obtain ⟨identity, t, rfl, hxId⟩ := created h.sound hrow hnew
      have hmore : Pool.Kept (Calls d) (W.log d acts ++ [⟨k, q, .link row.wallet identity t, _⟩]) := hlog ▸ hkept' (.serve k o)
      have hmade := hmore.made _ _ [] rfl
      obtain ⟨route, v⟩ := q
      cases route with
      | challenge => exact hmade.elim
      | link =>
          obtain ⟨_, hallowed, c, house, before, hredeemed, hpast, hknown, hhouse, hceremony, hwallet⟩ := hmade
          exact ⟨k, o, v, c, house, identity, rfl, authorised hmore h rfl hredeemed hpast hknown, hceremony, hxId, hwallet,
            hhouse, hallowed⟩
  case removed =>
    intro a row hrow hgone
    rcases hnext a with ⟨_, hshared⟩ | ⟨k, o, q, c, rfl, hlog, hshared⟩
    · refine absurd rfl (hgone row ?_)
      rwa [hshared]
    · rw [hshared] at hgone
      obtain rfl := removed h.sound hrow hgone
      have hmore : Pool.Kept (Calls d) (W.log d acts ++ [⟨k, q, .unlink row.wallet, _⟩]) := hlog ▸ hkept' (.serve k o)
      have hmade := hmore.made _ _ [] rfl
      obtain ⟨route, v⟩ := q
      cases route with
      | challenge => exact hmade.elim
      | link =>
          obtain ⟨c, house, before, hredeemed, hpast, hknown, hceremony, hwallet⟩ := hmade
          exact ⟨k, o, v, c, house, rfl, authorised hmore h rfl hredeemed hpast hknown, hceremony, hwallet⟩
  case refused =>
    intro k q nonce t found hfound hnot e he hk
    cases hw : isWrite e with
    | false => rfl
    | true =>
        obtain ⟨c, rfl, haccepts⟩ := write_redeemed hkept he hw (hk ▸ hfound)
        exact absurd haccepts (hnot c rfl)
  case burned =>
    intro k q nonce t c hfound
    obtain ⟨t', hcall, ht⟩ := h.redeemed _ hfound c rfl
    cases hcall
    refine ⟨ht, rfl, fun hmem => ?_⟩
    obtain ⟨c', hc'⟩ := Option.isSome_iff_exists.mp (L.nonces _ _ hmem)
    exact h.spent hfresh _ c' hc' _ hfound c rfl rfl

end WriteLaws

open WriteStore

/-- Over both stores, in every run with pairwise distinct nonces. -/
theorem ceremony_safe (d : WriteDeps) (acts : List Act) (hpg : Fresh (pgWriteStore.log d acts))
    (hmemory : Fresh (memoryWriteStore.log d acts)) : pgWriteStore.Safe d acts ∧ memoryWriteStore.Safe d acts :=
  ⟨pgWriteLaws.safe d acts hpg, memoryWriteLaws.safe d acts hmemory⟩

/-! ## Two redemptions at once -/

def openDeps : WriteDeps where
  publicKey _ := some (List.replicate 32 1)
  ed25519Verify signature _ _ := some (signature = List.replicate 64 0)
  hmac text :=
    if text = "wallet:unknown|BBBBBBBBBBBBBBBBBBBBBBBBBBBBBBBB" then
      "0000000000000000000000000000000000000000000000000000000000000001"
    else "0000000000000000000000000000000000000000000000000000000000000002"
  reservedXIds := none
  reservedHandles := none

def visitWith (body : List (String × Json)) : Visit where
  request := ⟨"POST", some "application/json", none, some (250, some (.obj body)), some "bullsvsunicorns.fun",
    "unknown"⟩
  nowSec := 1800000000
  random := Vector.replicate nonceBytes 0

def askForLink : Act := .start ⟨.challenge, visitWith
  [("wallet", .str "BBBBBBBBBBBBBBBBBBBBBBBBBBBBBBBB"), ("purpose", .str "link"), ("proof", .str "token")]⟩

def redeemIt : Act := .start ⟨.link, visitWith
  [("wallet", .str "BBBBBBBBBBBBBBBBBBBBBBBBBBBBBBBB"), ("nonce", .str (newNonce (Vector.replicate nonceBytes 0))),
   ("signature", .str (String.ofList (List.replicate 86 'A' ++ ['=', '='])))]⟩

/-- One challenge, and two requests that race for it. -/
def atOnce : List Act :=
  let o : Outside := ⟨none, .ok ⟨"7", "bob", "", none⟩, ⟨[], false⟩⟩
  [askForLink, .serve 0 o, .serve 0 o, .serve 0 o, redeemIt, redeemIt, .serve 1 o, .serve 2 o, .serve 2 o, .serve 1 o,
   .serve 2 o, .serve 2 o]

theorem atOnce_started : ((atOnce.filterMap PoolAct.started).filterMap nonceOf).Nodup := List.nodup_singleton _

/-- The second to arrive redeems the challenge and makes the link. -/
theorem ceremony_safe_at_once : pgWriteStore.Safe openDeps atOnce ∧ memoryWriteStore.Safe openDeps atOnce ∧
    ((memoryWriteStore.log openDeps atOnce).filterMap (fun e => (redeemedBy e).map fun _ => e.task),
      ((memoryWriteStore.log openDeps atOnce).filter isWrite).map Served.task,
      (memoryWriteStore.rows (memoryWriteStore.reached openDeps atOnce).shared).map RegisterRow.xId) =
      ([2], [2], ["7"]) := by
  obtain ⟨hpg, hmemory⟩ := ceremony_safe openDeps atOnce (pgWriteLaws.fresh_of_started atOnce atOnce_started)
    (memoryWriteLaws.fresh_of_started atOnce atOnce_started)
  exact ⟨hpg, hmemory, by decide +kernel⟩

end BullsUnicorns.Identity
