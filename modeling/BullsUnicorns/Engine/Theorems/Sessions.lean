import BullsUnicorns.Engine.Lemmas.Sessions

/-!
# Nothing for a socket that has not proven the wallet

What a socket has proven is told from the log alone: from the challenges it was given, the signatures and
tokens that it sent, and the connections that ended meanwhile.
-/

namespace BullsUnicorns.Engine

abbrev SocketLog := List (SocketEvent × Output)

/-- Whether a connection of the socket begins or ends. -/
def SocketEvent.breaks (ws : SocketId) : SocketEvent → Prop
  | .connect c => c = ws
  | .close c => c = ws
  | .message .. => False
  | .pushBalance .. => False
  | .restart _ => True

section
variable (r : Runtime)

/-- The nonce last issued to the socket on this connection, which no accepted proof has used. -/
inductive Outstanding : SocketLog → SocketId → String → Prop where
  | issued {log ws nonce event out} (h : (ws, Reply.authChallenge nonce) ∈ out.sent) :
      Outstanding (log ++ [(event, out)]) ws nonce
  | kept {log ws nonce event out} (h : Outstanding log ws nonce) (same : ¬SocketEvent.breaks ws event)
      (last : ∀ n, (ws, Reply.authChallenge n) ∉ out.sent)
      (unused : ∀ wallet msg token, (ws, Reply.authResult true wallet msg token) ∉ out.sent) :
      Outstanding (log ++ [(event, out)]) ws nonce

/-- The token was handed out for exactly this wallet, which had just been proven by a signature. -/
def Minted (log : SocketLog) (token wallet : String) (expiresAt : ℕ) : Prop :=
  ∃ before ws x m out after nonce sig, log = before ++ (.message ws x m, out) :: after ∧
    Outstanding before ws nonce ∧ Signs r m nonce ∧ m.get? "wallet" = some (.str wallet) ∧
      (ws, Reply.authResult true (some (.str wallet)) none (some token)) ∈ out.sent ∧
        token = Text.join '.' [Gate.sessionPayload (Text.utf8 wallet) expiresAt, sig]

/-- Since it connected, the socket has presented a signature of the wallet over its nonce, or an unexpired
token minted for the wallet after such a proof. -/
inductive Proven : SocketLog → SocketId → Value → Prop where
  | signature {log ws nonce x m out} (h : Outstanding log ws nonce) (signs : Signs r m nonce) :
      Proven (log ++ [(.message ws x m, out)]) ws (.of x.message (m.get? "wallet"))
  | token {log ws x m out wallet token expiresAt} (h : Minted r log token wallet expiresAt)
      (presents : Presents r m wallet token) (unexpired : x.now < expiresAt) :
      Proven (log ++ [(.message ws x m, out)]) ws (.str wallet)
  | later {log ws wallet event out} (h : Proven log ws wallet) (same : ¬SocketEvent.breaks ws event) :
      Proven (log ++ [(event, out)]) ws wallet

/-! ## Conditions on one step -/

/-- HMAC cannot be forged: a payload that carries the secret's code was signed with it. -/
def Unforged (s : Gate) : SocketEvent → Prop
  | .message _ _ m => ∀ wallet token head expiry, Presents r m wallet token →
      Text.split '.' token = [head, expiry, r.hmac s.deployment.SESSION_SECRET (Text.join '.' [head, expiry])] →
        (s.deployment.SESSION_SECRET, Text.join '.' [head, expiry]) ∈ s.signed
  | _ => True

/-- Every open socket that last named the wallet has proven it. -/
def Gate.OwnersOnly (s : Gate) (wallet : Value) (isOpen : SocketId → Bool) : Prop :=
  ∀ c ∈ s.clients, isOpen c = true → s.walletOf c = wallet → s.isAuthed c wallet = true

/-- Balances are pushed past nobody's eyes but the owner's; a wallet that is proven is a text; and a token
that is accepted is of a wallet that may play. -/
def Careful (s : Gate) : SocketEvent → Prop
  | .pushBalance wallet isOpen => s.OwnersOnly wallet isOpen
  | .message ws x m =>
      (∀ nonce, s.nonces ws = some nonce → Signs r m nonce →
        s.deployment.isAllowed (.of x.message (m.get? "wallet")) = true →
          ∃ wallet, m.get? "wallet" = some (.str wallet)) ∧
      ∀ wallet token, Presents r m wallet token → s.resumable r x token = some wallet →
        s.deployment.isAllowed (.str wallet) = true ∧
          ∀ owner, r.text (m.get? "wallet") = .ok owner →
            Gate.OwnersOnly
              ((if truthy (m.get? "wallet") then s.names ws (.of x.message (m.get? "wallet")) else s).trust ws
                (.str wallet)) (.str owner) x.isOpen
  | _ => True

/-- What the process holds has its ground in the log. -/
structure Vouched (log : SocketLog) (s : Gate) : Prop where
  authed : ∀ {ws wallet}, wallet ∈ s.authed ws → Proven r log ws wallet ∧ s.deployment.isAllowed wallet = true
  nonces : ∀ {ws nonce}, s.nonces ws = some nonce → Outstanding log ws nonce
  signed : ∀ {secret payload}, (secret, payload) ∈ s.signed → ∃ wallet expiresAt,
    payload = Gate.sessionPayload (Text.utf8 wallet) expiresAt ∧
      Minted r log (Text.join '.' [payload, r.hmac secret payload]) wallet expiresAt
  absent : ∀ {ws}, ws ∉ s.clients → s.authed ws = [] ∧ s.nonces ws = none

end

section
variable {r : Runtime} {s s' : Gate} {log : SocketLog} {event : SocketEvent} {out : Output}

theorem Vouched.start (d : Deployment) : Vouched r [] (.start d []) :=
  ⟨nofun, nofun, nofun, fun _ => ⟨rfl, rfl⟩⟩

theorem Minted.snoc {token wallet : String} {expiresAt : ℕ} (h : Minted r log token wallet expiresAt)
    (entry : SocketEvent × Output) : Minted r (log ++ [entry]) token wallet expiresAt := by
  obtain ⟨before, ws, x, m, out, after, nonce, sig, rfl, h⟩ := h
  exact ⟨before, ws, x, m, out, after ++ [entry], nonce, sig, by simp, h⟩

/-- What was signed before stays grounded. -/
theorem Vouched.signed_snoc (h : Vouched r log s) (entry : SocketEvent × Output) {secret payload : String}
    (hs : (secret, payload) ∈ s.signed) : ∃ wallet expiresAt,
      payload = Gate.sessionPayload (Text.utf8 wallet) expiresAt ∧
        Minted r (log ++ [entry]) (Text.join '.' [payload, r.hmac secret payload]) wallet expiresAt := by
  obtain ⟨wallet, expiresAt, hpayload, hminted⟩ := h.signed hs
  exact ⟨wallet, expiresAt, hpayload, hminted.snoc entry⟩

/-- An event that ends no connection, issues no nonce and accepts no proof. -/
theorem Vouched.carry (h : Vouched r log s) (same : s.Same s') (hsame : ∀ ws, ¬event.breaks ws)
    (hplain : ∀ y ∈ out.sent, y.2.plain ∨ ∃ wallet, y.2 = .balance wallet) : Vouched r (log ++ [(event, out)]) s' where
  authed := by
    intro ws wallet hw
    rw [same.authed] at hw
    rw [same.deployment]
    obtain ⟨hproven, hallowed⟩ := h.authed hw
    exact ⟨hproven.later (hsame ws), hallowed⟩
  nonces := by
    intro ws nonce hn
    rw [same.nonces] at hn
    refine (h.nonces hn).kept (hsame ws) ?_ ?_
    · intro n hmem
      rcases hplain _ hmem with hp | ⟨_, hp⟩
      · exact hp
      · cases hp
    · intro wallet msg token hmem
      rcases hplain _ hmem with hp | ⟨_, hp⟩
      · cases hp
      · cases hp
  signed := by
    intro secret payload hs
    rw [same.signed] at hs
    exact h.signed_snoc _ hs
  absent := by
    intro ws hws
    rw [same.clients] at hws
    rw [same.authed, same.nonces]
    exact h.absent hws

/-! ## Tokens -/

theorem join_join (a b c : String) : Text.join '.' [Text.join '.' [a, b], c] = Text.join '.' [a, b, c] := by
  apply String.toList_injective
  simp [Text.join]

theorem sessionPayload_inj {head expiry : String} {data : List UInt8} {expiresAt : ℕ} (hhead : '.' ∉ head.toList)
    (hexpiry : '.' ∉ expiry.toList) (h : Text.join '.' [head, expiry] = Gate.sessionPayload data expiresAt) :
    head = Base64.encode data ∧ expiry = toString expiresAt := by
  have hnot : '.' ∉ (toString expiresAt).toList := fun hdot => absurd (Text.isDigit_toString hdot) (by decide)
  rw [Text.toList_toString] at hnot
  have hparts := Text.join_injective (by simp [hhead, hexpiry])
    (by simp [hnot, Base64.encode_clean (by decide : '.' ∉ Base64.alphabet) data]) (List.cons_ne_nil _ _)
    (List.cons_ne_nil _ _) h
  simpa using hparts

theorem toNumber_toString (n : ℕ) : r.toNumber (toString n) = some (n : ℚ) := by
  have hall : (toString n).toList.all Char.isDigit = true := by
    rw [List.all_eq_true]
    exact fun c hc => Text.isDigit_toString hc
  have hne : toString n ≠ "" := by
    intro h
    have h := congrArg String.toList h
    rw [Text.toList_toString] at h
    exact Nat.toDigits_ne_nil h
  rw [Runtime.toNumber, if_pos ⟨hne, hall⟩, Text.toList_toString]
  simp

/-- A token that is accepted was minted for the wallet that it resumes, and has not expired. -/
theorem Vouched.resumable (h : Vouched r log s) {ws : SocketId} {x : Moment} {m : Json} {wallet token : String}
    (hunforged : Unforged r s (.message ws x m)) (presents : Presents r m wallet token)
    (hlive : s.resumable r x token = some wallet) :
    ∃ expiresAt, Minted r log token wallet expiresAt ∧ x.now < expiresAt := by
  unfold Gate.resumable at hlive
  split at hlive
  · rename_i head expiry sig hsplit
    split at hlive
    · rename_i hsig
      split at hlive
      · rename_i hnow
        rw [hsig] at hsplit
        obtain ⟨owner, expiresAt, hpayload, hminted⟩ := h.signed (hunforged _ _ _ _ presents hsplit)
        have hclean : ∀ part ∈ [head, expiry], '.' ∉ part.toList := by
          intro part hpart
          refine Text.sep_notMem_split (s := token) ?_
          rw [hsplit]
          exact List.mem_of_mem_dropLast (l := [head, expiry, _]) hpart
        obtain ⟨rfl, rfl⟩ := sessionPayload_inj (hclean head (by simp)) (hclean expiry (by simp)) hpayload
        rw [toNumber_toString] at hnow
        rw [Base64.decode_encode, Runtime.decoded, Text.ofUtf8_utf8] at hlive
        cases hlive
        refine ⟨expiresAt, ?_, by simpa using hnow⟩
        rwa [join_join, ← hsplit, Text.join_split] at hminted
      · cases hlive
    · cases hlive
  · cases hlive

/-! ## One step -/

theorem pushBalance_plain (s : Gate) (wallet : Value) (isOpen : SocketId → Bool) :
    ∀ y ∈ s.pushBalance wallet isOpen, y.2 = .balance wallet := by
  intro y hy
  obtain ⟨c, -, rfl⟩ := List.mem_map.mp hy
  rfl

/-- The sockets that a balance is pushed to. -/
theorem mem_pushBalance {wallet shown : Value} {isOpen : SocketId → Bool} {c : SocketId}
    (h : (c, Reply.balance shown) ∈ s.pushBalance wallet isOpen) :
    shown = wallet ∧ c ∈ s.clients ∧ isOpen c = true ∧ s.walletOf c = wallet := by
  obtain ⟨c', hc, heq⟩ := List.mem_map.mp h
  cases heq
  simpa using hc

/-- A wallet joins those that a socket has proven. -/
theorem mem_trust {ws c : SocketId} {wallet shown : Value} :
    shown ∈ (s.trust ws wallet).authed c ↔ (c = ws ∧ shown = wallet) ∨ shown ∈ s.authed c := by
  by_cases hc : c = ws
  · subst hc
    simp [Gate.trust]
  · simp [Gate.trust, hc]

theorem Vouched.challenged (h : Vouched r log s) {ws : SocketId} {x : Moment} {m : Json} {nonce : String}
    (hws : ws ∈ s.clients) (same : s.Same s') :
    Vouched r (log ++ [(.message ws x m, .answer ws (.authChallenge nonce))])
      { s' with nonces := Function.update s.nonces ws (some nonce) } where
  authed := by
    intro c wallet hw
    rw [same.authed] at hw
    obtain ⟨hproven, hallowed⟩ := h.authed hw
    exact ⟨hproven.later id, same.deployment ▸ hallowed⟩
  nonces := by
    intro c n hn
    dsimp only at hn
    by_cases hc : c = ws
    · subst hc
      rw [Function.update_self] at hn
      cases hn
      exact .issued (by simp [Output.answer])
    · rw [Function.update_of_ne hc] at hn
      exact (h.nonces hn).kept id (by simp [Output.answer, hc]) (by simp [Output.answer])
  signed := by
    intro secret payload hs
    rw [same.signed] at hs
    exact h.signed_snoc _ hs
  absent := by
    intro c hc
    dsimp only at hc ⊢
    rw [same.clients] at hc
    have hne : c ≠ ws := fun heq => hc (heq ▸ hws)
    rw [same.authed, Function.update_of_ne hne]
    exact h.absent hc

/-- A proof that is accepted makes the wallet the socket's, with a token of its own. -/
theorem Vouched.verified (h : Vouched r log s) {ws : SocketId} {x : Moment} {m : Json} {nonce : String}
    {signed : List (String × String)} (hcareful : Careful r s (.message ws x m)) (hws : ws ∈ s.clients)
    (same : s.Same s') (issued : s.nonces ws = some nonce) (signs : Signs r m nonce)
    (allowed : s.deployment.isAllowed (.of x.message (m.get? "wallet")) = true)
    (minted : ∀ wallet, m.get? "wallet" = some (.str wallet) →
      let payload := Gate.sessionPayload (Text.utf8 wallet) (x.now + s'.deployment.SESSION_TTL_MS)
      signed = (s'.deployment.SESSION_SECRET, payload) :: s.signed ∧
        out = .answer ws (.authResult true (m.get? "wallet") none (some (s'.withSignature r payload)))) :
    Vouched r (log ++ [(.message ws x m, out)])
      { s' with
        authed := Function.update s.authed ws (.of x.message (m.get? "wallet") :: s.authed ws)
        nonces := Function.update s.nonces ws none, signed := signed } := by
  obtain ⟨wallet, hwallet⟩ := hcareful.1 nonce issued signs allowed
  obtain ⟨rfl, rfl⟩ := minted wallet hwallet
  constructor
  case authed =>
    intro c w hw
    dsimp only at hw ⊢
    by_cases hc : c = ws
    · subst hc
      rw [Function.update_self, List.mem_cons] at hw
      rcases hw with rfl | hw
      · exact ⟨.signature (h.nonces issued) signs, same.deployment ▸ allowed⟩
      · obtain ⟨hproven, hallowed⟩ := h.authed hw
        exact ⟨hproven.later id, same.deployment ▸ hallowed⟩
    · rw [Function.update_of_ne hc] at hw
      obtain ⟨hproven, hallowed⟩ := h.authed hw
      exact ⟨hproven.later id, same.deployment ▸ hallowed⟩
  case nonces =>
    intro c n hn
    dsimp only at hn
    by_cases hc : c = ws
    · subst hc
      simp at hn
    · rw [Function.update_of_ne hc] at hn
      exact (h.nonces hn).kept id (by simp [Output.answer]) (by simp [Output.answer, hc])
  case signed =>
    intro secret payload hs
    rcases List.mem_cons.mp hs with heq | hs
    · cases heq
      refine ⟨wallet, _, rfl, log, ws, x, m, _, [], nonce, _, rfl, h.nonces issued, signs, hwallet, ?_, rfl⟩
      rw [hwallet]
      exact List.mem_singleton_self _
    · exact h.signed_snoc _ hs
  case absent =>
    intro c hc
    dsimp only at hc ⊢
    rw [same.clients] at hc
    have hne : c ≠ ws := fun heq => hc (heq ▸ hws)
    rw [Function.update_of_ne hne, Function.update_of_ne hne]
    exact h.absent hc

/-- A token that is accepted makes the wallet the socket's. -/
theorem Vouched.trusted (h : Vouched r log s) {ws : SocketId} {wallet : Value} (hws : ws ∈ s.clients)
    (hproven : Proven r log ws wallet) (hallowed : s.deployment.isAllowed wallet = true) :
    Vouched r log (s.trust ws wallet) where
  authed := by
    intro c w hw
    rcases mem_trust.mp hw with ⟨rfl, rfl⟩ | hw
    · exact ⟨hproven, hallowed⟩
    · exact h.authed hw
  nonces := h.nonces
  signed := h.signed
  absent := by
    intro c hc
    have hne : c ≠ ws := fun heq => hc (heq ▸ hws)
    simp only [Gate.trust, Function.update_of_ne hne]
    exact h.absent hc

theorem message_heard {ws : SocketId} {x : Moment} {m : Json}
    (hstep : (sockets r).step s (.message ws x m) = .ok (s', out)) : ws ∈ s.clients ∧ Heard r s ws x m s' out := by
  simp only [sockets] at hstep
  split at hstep
  · rename_i hws
    have heard : Heard r s ws x m (s.onMessage r ws x m).1 (s.onMessage r ws x m).2 := onMessage_heard
    rw [Except.ok.inj hstep] at heard
    exact ⟨hws, heard⟩
  · cases hstep

theorem Vouched.message (h : Vouched r log s) {ws : SocketId} {x : Moment} {m : Json}
    (hunforged : Unforged r s (.message ws x m)) (hcareful : Careful r s (.message ws x m)) (hws : ws ∈ s.clients)
    (heard : Heard r s ws x m s' out) : Vouched r (log ++ [(.message ws x m, out)]) s' := by
  have hopen : ∀ c, ¬(SocketEvent.message ws x m).breaks c := fun _ => id
  cases heard with
  | silent same => exact h.carry same hopen nofun
  | refused same plain => exact h.carry same hopen (by simpa [Output.answer] using .inl plain)
  | acted same proven => exact h.carry same hopen nofun
  | read same proven => exact h.carry same hopen (by simp [Output.answer])
  | challenged same => exact h.challenged hws same
  | resumed same presents live named names =>
      obtain ⟨expiresAt, hminted, hnow⟩ := h.resumable hunforged presents live
      have hallowed := (hcareful.2 _ _ presents live).1
      refine (h.carry same hopen ?_).trusted (same.clients ▸ hws) (.token hminted presents hnow)
        (same.deployment ▸ hallowed)
      intro y hy
      rcases List.mem_cons.mp hy with rfl | hy
      · exact .inl trivial
      · exact .inr ⟨_, pushBalance_plain _ _ _ y hy⟩
  | verified same issued signs allowed minted replied =>
      exact h.verified hcareful hws same issued signs allowed minted

theorem Vouched.connect (h : Vouched r log s) {ws : SocketId} (hws : ws ∉ s.clients) :
    Vouched r (log ++ [(.connect ws, .nothing)]) { s with clients := ws :: s.clients } where
  authed := by
    intro c wallet hw
    obtain ⟨hproven, hallowed⟩ := h.authed hw
    refine ⟨hproven.later ?_, hallowed⟩
    rintro rfl
    rw [(h.absent hws).1] at hw
    cases hw
  nonces := by
    intro c n hn
    refine (h.nonces hn).kept ?_ nofun nofun
    rintro rfl
    rw [(h.absent hws).2] at hn
    cases hn
  signed := h.signed_snoc _
  absent := fun hc => h.absent fun hmem => hc (List.mem_cons_of_mem _ hmem)

theorem Vouched.close (h : Vouched r log s) (ws : SocketId) :
    Vouched r (log ++ [(.close ws, .nothing)]) (s.cleanup ws) where
  authed := by
    intro c wallet hw
    by_cases hc : c = ws
    · subst hc
      simp [Gate.cleanup] at hw
    · simp only [Gate.cleanup, Function.update_of_ne hc] at hw ⊢
      obtain ⟨hproven, hallowed⟩ := h.authed hw
      exact ⟨hproven.later (Ne.symm hc), hallowed⟩
  nonces := by
    intro c n hn
    by_cases hc : c = ws
    · subst hc
      simp [Gate.cleanup] at hn
    · simp only [Gate.cleanup, Function.update_of_ne hc] at hn
      exact (h.nonces hn).kept (Ne.symm hc) nofun nofun
  signed := h.signed_snoc _
  absent := by
    intro c hc
    by_cases heq : c = ws
    · subst heq
      simp [Gate.cleanup]
    · simp only [Gate.cleanup, Function.update_of_ne heq]
      exact h.absent fun hmem => hc (by simp [Gate.cleanup, hmem, heq])

/-- What every accepted event keeps. -/
theorem Vouched.step (h : Vouched r log s) (hunforged : Unforged r s event) (hcareful : Careful r s event)
    (hstep : (sockets r).step s event = .ok (s', out)) : Vouched r (log ++ [(event, out)]) s' := by
  cases event with
  | connect ws =>
      simp only [sockets] at hstep
      split at hstep
      · cases hstep
      · rename_i hws
        cases hstep
        exact h.connect hws
  | close ws =>
      cases hstep
      exact h.close ws
  | message ws x m =>
      obtain ⟨hws, heard⟩ := message_heard hstep
      exact h.message hunforged hcareful hws heard
  | pushBalance wallet isOpen =>
      cases hstep
      exact h.carry (.refl _) (fun _ => id) fun y hy => .inr ⟨_, pushBalance_plain _ _ _ y hy⟩
  | restart d =>
      cases hstep
      exact ⟨nofun, nofun, h.signed_snoc _, fun _ => ⟨rfl, rfl⟩⟩

/-- Whatever is carried out or shown, the socket holds the wallet. -/
theorem authed_of_shown (hcareful : Careful r s event) (hstep : (sockets r).step s event = .ok (s', out))
    {ws : SocketId} {wallet : Value} (h : out.acted = some (ws, wallet) ∨ (ws, Reply.balance wallet) ∈ out.sent) :
    wallet ∈ s'.authed ws := by
  cases event with
  | connect c =>
      simp only [sockets] at hstep
      split at hstep
      · cases hstep
      · cases hstep
        simp [Output.nothing] at h
  | close c =>
      cases hstep
      simp [Output.nothing] at h
  | pushBalance shown isOpen =>
      cases hstep
      rcases h with h | h
      · cases h
      · obtain ⟨rfl, hc, hopen, hnamed⟩ := mem_pushBalance h
        simpa [Gate.isAuthed] using hcareful ws hc hopen hnamed
  | restart d =>
      cases hstep
      simp [Output.nothing] at h
  | message c x m =>
      obtain ⟨-, heard⟩ := message_heard hstep
      cases heard with
      | silent same => simp [Output.nothing] at h
      | refused same plain =>
          rename_i reply
          rcases h with h | h
          · cases h
          · simp only [Output.answer, List.mem_singleton, Prod.mk.injEq] at h
            rw [← h.2] at plain
            cases plain
      | acted same proven =>
          rw [same.authed]
          simp at h
          obtain ⟨rfl, rfl⟩ := h
          simpa [Gate.isAuthed] using proven
      | read same proven =>
          rw [same.authed]
          simp [Output.answer] at h
          obtain ⟨rfl, rfl⟩ := h
          simpa [Gate.isAuthed] using proven
      | challenged same => simp [Output.answer] at h
      | resumed same presents live named names =>
          rcases h with h | h
          · cases h
          · rcases List.mem_cons.mp h with h | h
            · cases h
            · obtain ⟨rfl, hc, hopen, hnamed⟩ := mem_pushBalance h
              subst names
              simpa [Gate.isAuthed] using (hcareful.2 _ _ presents live).2 _ named ws hc hopen hnamed
      | verified same issued signs allowed minted replied =>
          obtain ⟨reply, rfl, hclosing⟩ := replied
          rcases h with h | h
          · cases h
          · simp only [Output.answer, List.mem_singleton, Prod.mk.injEq] at h
            rw [← h.2] at hclosing
            cases hclosing

end

/-! ## Two runs -/

/-- The neutral element of the curve as a key: under it `R = key`, `S = 0` signs every message. -/
def neutralKey : List UInt8 := 1 :: List.replicate 31 0

def neutralWallet : String := "4uQeVj5tqViQh7yWWGStvkEG1Zmhx6uasJtWCJziofM"

/-- The libraries, as they answer on what the runs below ask of them. -/
def sampleRuntime : Runtime where
  publicKey v :=
    match v with
    | some (.str w) => if w = neutralWallet then .ok neutralKey else .error "Invalid public key input"
    | _ => .error "Invalid public key input"
  detached _ sig key := sig = neutralKey ++ List.replicate 32 0 ∧ key = neutralKey
  hmac _ _ := "wMmPtCORt7iLfqMyDPCvMtsBijkLdU4mvdpIyOZfimU"
  numberText _ := "0"
  number _ := none
  objectText _ := .ok "[object Object]"
  objectBytes _ := .error "The first argument must be of type string"
  replaced _ := ""

def sampleDeployment : Deployment where
  SESSION_SECRET := "bulls-arena-dev-secret"
  SESSION_TTL_MS := 2592000000
  enforced := true
  WHITELIST := neutralWallet
  whitelistFile := none

def atNoon : Moment := ⟨1700000000000, "k3v9x2m1q8", 0, fun _ => true⟩

def signature : Json :=
  .obj [("t", .str "authVerify"), ("wallet", .str neutralWallet), ("signature", .str
    "AQAAAAAAAAAAAAAAAAAAAAAAAAAAAAAAAAAAAAAAAAAAAAAAAAAAAAAAAAAAAAAAAAAAAAAAAAAAAAAAAAAAAA==")]

/-- A wallet proves itself by a signature. -/
def signIn : List SocketEvent :=
  [.connect 0, .message 0 atNoon (.obj [("t", .str "authChallenge"), ("wallet", .str neutralWallet)]),
    .message 0 atNoon signature]

def enterMsg : Json := .obj [("t", .str "enter"), ("wallet", .str neutralWallet), ("stake", .num 5)]

/-- A stranger asks for the prices and names a wallet as it does. -/
def eavesdrop : List SocketEvent :=
  [.connect 7, .message 7 atNoon (.obj [("t", .str "prices"), ("wallet", .str neutralWallet)])]

/-! ## Every run -/

section
variable {r : Runtime}

theorem vouched_run (d : Deployment) (es : List SocketEvent)
    (h : (sockets r).Each (fun s event => Unforged r s event ∧ Careful r s event) (.start d []) es) :
    Vouched r ((sockets r).accepted (.start d []) es) ((sockets r).run (.start d []) es) :=
  Machine.run_history_when (H := Vouched r)
    (fun _ _ _ _ _ hwhen hv hstep => hv.step hwhen.1 hwhen.2 hstep) (.start d) es h

/-- Over every order of messages, disconnects and restarts, whatever the sockets send: what is carried out
for a wallet, or shown of it, is on a socket that has proven it. -/
theorem nothing_for_the_unproven (d : Deployment) {before after : List SocketEvent} {event : SocketEvent}
    (h : (sockets r).Each (fun s event => Unforged r s event ∧ Careful r s event) (.start d [])
      (before ++ event :: after)) {s' : Gate} {out : Output}
    (hstep : (sockets r).step ((sockets r).run (.start d []) before) event = .ok (s', out)) {ws : SocketId}
    {wallet : Value} (hshown : out.acted = some (ws, wallet) ∨ (ws, Reply.balance wallet) ∈ out.sent) :
    Proven r ((sockets r).accepted (.start d []) before ++ [(event, out)]) ws wallet ∧
      s'.deployment.isAllowed wallet = true := by
  obtain ⟨hbefore, ⟨hunforged, hcareful⟩, -⟩ := (Machine.each_append _ _ _ _).mp h
  exact ((vouched_run d before hbefore).step hunforged hcareful hstep).authed (authed_of_shown hcareful hstep hshown)

end

theorem nothing_for_the_unproven_witness :
    let gates := sockets sampleRuntime
    let s := gates.run (.start sampleDeployment []) signIn
    ∃ s' out, gates.step s (.message 0 atNoon enterMsg) = .ok (s', out) ∧
      Proven sampleRuntime (gates.accepted (.start sampleDeployment []) signIn ++ [(.message 0 atNoon enterMsg, out)])
        0 (.str neutralWallet) := by
  intro gates s
  have hother : ∀ ws m, m.get? "t" ≠ some (.str "authResume") → m.get? "t" ≠ some (.str "authVerify") → ∀ s,
      Unforged sampleRuntime s (.message ws atNoon m) ∧ Careful sampleRuntime s (.message ws atNoon m) := by
    intro ws m hresume hverify s
    exact ⟨fun _ _ _ _ h => absurd h.kind hresume, fun _ _ h => absurd h.1 hverify, fun _ _ h => absurd h.kind hresume⟩
  have hacted : (match gates.step s (.message 0 atNoon enterMsg) with
      | .ok y => y.2.acted
      | .error _ => none) = some (0, .str neutralWallet) := by decide +kernel
  cases hstep : gates.step s (.message 0 atNoon enterMsg) with
  | error e => simp [hstep] at hacted
  | ok y =>
      rw [hstep] at hacted
      have hverify : ∀ s, Unforged sampleRuntime s (.message 0 atNoon signature) ∧
          Careful sampleRuntime s (.message 0 atNoon signature) := fun s =>
        ⟨fun _ _ _ _ h => absurd h.kind (by simp [signature, Json.get?, Json.isRecord]),
          fun _ _ _ _ => ⟨neutralWallet, rfl⟩,
          fun _ _ h => absurd h.kind (by simp [signature, Json.get?, Json.isRecord])⟩
      have hrun : gates.Each (fun s event => Unforged sampleRuntime s event ∧ Careful sampleRuntime s event)
          (.start sampleDeployment []) (signIn ++ .message 0 atNoon enterMsg :: []) :=
        ⟨⟨trivial, trivial⟩, hother _ _ (by simp [Json.get?, Json.isRecord]) (by simp [Json.get?, Json.isRecord]) _,
          hverify _, hother _ _ (by simp [enterMsg, Json.get?, Json.isRecord])
            (by simp [enterMsg, Json.get?, Json.isRecord]) _, trivial⟩
      exact ⟨y.1, y.2, rfl, (nothing_for_the_unproven sampleDeployment hrun hstep (.inl hacted)).1⟩

/-- A proof leaves a message of the socket in the log. -/
theorem Proven.spoke {r : Runtime} {log : SocketLog} {ws : SocketId} {wallet : Value} (h : Proven r log ws wallet) :
    ∃ entry ∈ log, ∃ x m, entry.1 = .message ws x m ∧
      (m.get? "t" = some (.str "authVerify") ∨ m.get? "t" = some (.str "authResume")) := by
  induction h with
  | signature h signs => exact ⟨_, List.mem_append_right _ List.mem_cons_self, _, _, rfl, .inl signs.1⟩
  | token h presents unexpired => exact ⟨_, List.mem_append_right _ List.mem_cons_self, _, _, rfl, .inr presents.kind⟩
  | later h same ih =>
      obtain ⟨entry, hentry, hspoke⟩ := ih
      exact ⟨entry, List.mem_append_left _ hentry, hspoke⟩

/-- The next balance of the wallet goes to the stranger too. -/
theorem naming_a_wallet_shows_its_balance :
    let gates := sockets sampleRuntime
    let s := gates.run (.start sampleDeployment []) eavesdrop
    let push : SocketEvent := .pushBalance (.str neutralWallet) fun _ => true
    ∃ s' out, gates.step s push = .ok (s', out) ∧ (7, Reply.balance (.str neutralWallet)) ∈ out.sent ∧
      ¬Proven sampleRuntime (gates.accepted (.start sampleDeployment []) eavesdrop ++ [(push, out)]) 7
        (.str neutralWallet) := by
  intro gates s push
  have hopen : 7 ∈ s.clients.filter fun c => s.walletOf c = .str neutralWallet := by decide +kernel
  refine ⟨_, _, rfl, List.mem_map.mpr ⟨7, by simpa using hopen, rfl⟩, fun hproven => ?_⟩
  obtain ⟨entry, hentry, x, m, hevent, hkind⟩ := hproven.spoke
  rcases List.mem_append.mp hentry with hentry | hentry
  · have hmem := Machine.fst_mem_of_mem_accepted hentry
    rw [hevent] at hmem
    simp only [eavesdrop, List.mem_cons, SocketEvent.message.injEq, reduceCtorEq, List.not_mem_nil, or_false,
      false_or] at hmem
    obtain ⟨-, -, rfl⟩ := hmem
    simp [Json.get?, Json.isRecord] at hkind
  · rw [List.mem_singleton.mp hentry] at hevent
    cases hevent

end BullsUnicorns.Engine
