import BullsUnicorns.Engine.Sessions
import BullsUnicorns.Lib.Word

/-!
# What a message can do
-/

namespace BullsUnicorns.Engine

section
variable (r : Runtime)

/-- The message brings a signature of its wallet over the nonce. -/
def Signs (m : Json) (nonce : String) : Prop :=
  m.get? "t" = some (.str "authVerify") ∧ Gate.checks r (m.get? "wallet") nonce (m.get? "signature") = .ok true

/-- The message asks to resume the wallet by the token. -/
structure Presents (m : Json) (wallet token : String) : Prop where
  kind : m.get? "t" = some (.str "authResume")
  wallet : r.text (orEmpty (m.get? "wallet")) = .ok wallet
  token : r.text (orEmpty (m.get? "token")) = .ok token

/-- Nothing has changed but, perhaps, the wallet that a socket names. -/
structure Gate.Same (s s' : Gate) : Prop where
  deployment : s'.deployment = s.deployment
  clients : s'.clients = s.clients
  authed : s'.authed = s.authed
  nonces : s'.nonces = s.nonces
  signed : s'.signed = s.signed

theorem Gate.Same.refl (s : Gate) : s.Same s := ⟨rfl, rfl, rfl, rfl, rfl⟩

/-- A reply that proves nothing and shows nothing. -/
def Reply.plain : Reply → Prop
  | .authRequired => True
  | .authChallenge _ => False
  | .authResult ok .. => ok = false
  | .authResumed .. => True
  | .balance _ => False
  | .error _ => True

/-- A reply to a proof that is accepted. -/
def Reply.closing : Reply → Prop
  | .authResult ok .. => ok = true
  | .error _ => True
  | _ => False

inductive Heard (s : Gate) (ws : SocketId) (x : Moment) (m : Json) : Gate → Output → Prop where
  | silent {s' : Gate} (same : s.Same s') : Heard s ws x m s' .nothing
  | refused {s' : Gate} {reply : Reply} (same : s.Same s') (plain : reply.plain) :
      Heard s ws x m s' (.answer ws reply)
  | acted {s' : Gate} {wallet : Value} (same : s.Same s') (proven : s.isAuthed ws wallet = true) :
      Heard s ws x m s' ⟨some (ws, wallet), []⟩
  | read {s' : Gate} {wallet : Value} (same : s.Same s') (proven : s.isAuthed ws wallet = true) :
      Heard s ws x m s' (.answer ws (.balance wallet))
  | challenged {s' : Gate} {nonce : String} (same : s.Same s') :
      Heard s ws x m { s' with nonces := Function.update s.nonces ws (some nonce) }
        (.answer ws (.authChallenge nonce))
  | resumed {s' : Gate} {wallet token owner : String} (same : s.Same s') (presents : Presents r m wallet token)
      (live : s.resumable r x token = some wallet) (named : r.text (m.get? "wallet") = .ok owner)
      (names : s' = if truthy (m.get? "wallet") then s.names ws (.of x.message (m.get? "wallet")) else s) :
      Heard s ws x m (s'.trust ws (.str wallet))
        ⟨none, (ws, .authResumed true none) :: (s'.trust ws (.str wallet)).pushBalance (.str owner) x.isOpen⟩
  | verified {s' : Gate} {nonce : String} {out : Output} {signed : List (String × String)} (same : s.Same s')
      (issued : s.nonces ws = some nonce) (signs : Signs r m nonce)
      (allowed : s.deployment.isAllowed (.of x.message (m.get? "wallet")) = true)
      (minted : ∀ wallet, m.get? "wallet" = some (.str wallet) →
        let payload := Gate.sessionPayload (Text.utf8 wallet) (x.now + s'.deployment.SESSION_TTL_MS)
        signed = (s'.deployment.SESSION_SECRET, payload) :: s.signed ∧
          out = .answer ws (.authResult true (m.get? "wallet") none (some (s'.withSignature r payload))))
      (replied : ∃ reply, out = .answer ws reply ∧ reply.closing) :
      Heard s ws x m
        { s' with
          authed := Function.update s.authed ws (.of x.message (m.get? "wallet") :: s.authed ws)
          nonces := Function.update s.nonces ws none, signed := signed } out

end

section
variable {r : Runtime} {s : Gate} {ws : SocketId} {x : Moment} {m : Json}

theorem Gate.same_names (wallet : Value) : s.Same (s.names ws wallet) := ⟨rfl, rfl, rfl, rfl, rfl⟩

theorem Gate.same_named (b : Bool) (wallet : Value) : s.Same (if b then s.names ws wallet else s) := by
  cases b with
  | true => exact Gate.same_names wallet
  | false => exact .refl s

theorem Gate.resumable_same {s' : Gate} (same : s.Same s') (token : String) :
    s'.resumable r x token = s.resumable r x token := by
  simp only [Gate.resumable, same.deployment]

theorem isString_eq {v : Option Json} {t : String} (h : v.bind Json.isString = some t) : v = some (.str t) := by
  obtain ⟨j, rfl, hj⟩ := Option.bind_eq_some_iff.mp h
  cases j with
  | str u => rw [Option.some.inj hj]
  | null => cases hj
  | bool b => cases hj
  | num n => cases hj
  | arr items => cases hj
  | obj fields => cases hj

theorem authResume_heard {s' : Gate} (same : s.Same s')
    (names : s' = if truthy (m.get? "wallet") then s.names ws (.of x.message (m.get? "wallet")) else s)
    (kind : m.get? "t" = some (.str "authResume")) {s'' : Gate} {out : Output}
    (h : s'.authResume r ws x m = .ok (s'', out)) : Heard r s ws x m s'' out := by
  simp only [Gate.authResume, bind_eq_ok, Gate.resume] at h
  obtain ⟨wallet, hwallet, token, htoken, h⟩ := h
  split at h
  · rename_i hresume
    split at hresume
    · rename_i hlive
      cases hresume
      rw [bind_eq_ok] at h
      obtain ⟨owner, howner, h⟩ := h
      cases h
      rw [Gate.resumable_same same] at hlive
      exact .resumed same ⟨kind, hwallet, htoken⟩ hlive howner names
    · cases hresume
  · rename_i hresume
    split at hresume
    · cases hresume
    · cases hresume
      cases h
      exact .refused same trivial

theorem authVerify_heard {s' : Gate} (same : s.Same s') (kind : m.get? "t" = some (.str "authVerify")) :
    Heard r s ws x m (s'.authVerify r ws x m).1 (s'.authVerify r ws x m).2 := by
  rw [Gate.authVerify]
  split
  · exact .refused same rfl
  · rename_i hallowed
    rw [Bool.not_eq_false, same.deployment] at hallowed
    cases hnonce : s'.nonces ws with
    | none =>
        simp only [Gate.verify, hnonce]
        exact .refused same rfl
    | some nonce =>
        cases hchecks : Gate.checks r (m.get? "wallet") nonce (m.get? "signature") with
        | error msg =>
            simp only [Gate.verify, hnonce, hchecks]
            exact .refused same rfl
        | ok valid =>
            cases valid with
            | false =>
                simp only [Gate.verify, hnonce, hchecks]
                exact .refused same rfl
            | true =>
                have hissued : s.nonces ws = some nonce := by rw [← same.nonces, hnonce]
                simp only [Gate.verify, hnonce, hchecks, Gate.mintSession]
                cases hbytes : r.bytes (m.get? "wallet") with
                | error e =>
                    simp only [Gate.trust, same.authed, same.nonces]
                    refine .verified same hissued ⟨kind, hchecks⟩ hallowed (fun wallet hwallet => ?_) ⟨_, rfl, trivial⟩
                    simp [hwallet, Runtime.bytes] at hbytes
                | ok data =>
                    simp only [ok_bind, pure, Except.pure, Gate.trust, Gate.withSignature, same.authed, same.nonces, same.signed]
                    refine .verified same hissued ⟨kind, hchecks⟩ hallowed (fun wallet hwallet => ?_)
                      ⟨.authResult true _ none _, rfl, rfl⟩
                    have hdata : Text.utf8 wallet = data := by simpa [hwallet, Runtime.bytes] using hbytes
                    rw [hdata]
                    exact ⟨rfl, rfl⟩

theorem onMessage_heard : Heard r s ws x m (s.onMessage r ws x m).1 (s.onMessage r ws x m).2 := by
  have hsame : s.Same (if truthy (m.get? "wallet") then s.names ws (.of x.message (m.get? "wallet")) else s) :=
    Gate.same_named _ _
  unfold Gate.onMessage
  split
  · exact .refused (.refl s) trivial
  extract_lets wallet s'
  change s.Same s' at hsame
  split
  · split
    · rename_i hauthed
      refine .acted hsame ?_
      rwa [Gate.isAuthed, hsame.authed] at hauthed
    · exact .refused hsame trivial
  · split
    · simp only [Gate.challenge, hsame.nonces]
      exact .challenged hsame
    · rename_i hkind
      split
      · rename_i result hresult
        exact authResume_heard hsame rfl (isString_eq hkind) hresult
      · exact .refused hsame trivial
    · rename_i hkind
      exact authVerify_heard hsame (isString_eq hkind)
    · split
      · rename_i hauthed
        refine .read hsame ?_
        rwa [Gate.isAuthed, hsame.authed] at hauthed
      · exact .silent hsame
    · exact .silent hsame

end

end BullsUnicorns.Engine
