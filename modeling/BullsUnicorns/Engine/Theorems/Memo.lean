import BullsUnicorns.Engine.Lemmas.Memo

/-!
# No settled round is anchored twice or lost

The account of the rounds is right in every state of a run exactly as long as the answers of the chain tell what
landed and no call fails over a queue of more than 500. A confirmation that does not come for a memo that landed
has its rounds posted again.
-/

namespace BullsUnicorns.Engine

open Memo

variable {env : MemoEnv} {h fates : List Fate} {m m' : Memo}

/-! ## Runs -/

theorem Single.step (hs : Single env m) {act : Memo.Act} (h : Memo.step env m act = .ok (m', fates)) : Single env m' := by
  cases act with
  | anchorRound r loads =>
      obtain ⟨rfl, -⟩ := Prod.mk.inj (Except.ok.inj h)
      exact hs.anchorRound r loads
  | flushMemos loads =>
      obtain ⟨rfl, -⟩ := Prod.mk.inj (Except.ok.inj h)
      exact hs.flushMemos loads
  | memoPause why =>
      obtain ⟨rfl, -⟩ := Prod.mk.inj (Except.ok.inj h)
      exact hs
  | setMemoSigner =>
      obtain ⟨rfl, -⟩ := Prod.mk.inj (Except.ok.inj h)
      exact hs
  | balance k lamports =>
      obtain ⟨c, rfl, hcalls, hsending, hfit, -, h⟩ := hs.answers h
      split at h <;> obtain ⟨rfl, -⟩ := Prod.mk.inj (Except.ok.inj h)
      · exact Or.inl ⟨rfl, by simp [hcalls]⟩
      · exact single_advance hcalls hsending hfit .blockhash
  | blockhash k ok =>
      obtain ⟨c, rfl, hcalls, hsending, hfit, -, h⟩ := hs.answers h
      cases ok with
      | true =>
          obtain ⟨rfl, -⟩ := Prod.mk.inj (Except.ok.inj h)
          exact single_advance hcalls hsending hfit .send
      | false =>
          obtain ⟨rfl, -⟩ := Prod.mk.inj (Except.ok.inj h)
          exact single_catchError hcalls
  | sent k ok landed =>
      obtain ⟨c, rfl, hcalls, hsending, hfit, -, h⟩ := hs.answers h
      cases ok with
      | true =>
          obtain ⟨rfl, -⟩ := Prod.mk.inj (Except.ok.inj h)
          exact single_advance hcalls hsending hfit .confirm
      | false =>
          obtain ⟨rfl, -⟩ := Prod.mk.inj (Except.ok.inj h)
          exact single_catchError hcalls
  | confirmation k ok landed =>
      obtain ⟨c, rfl, hcalls, hsending, hfit, -, h⟩ := hs.answers h
      cases ok with
      | true =>
          obtain ⟨rfl, -⟩ := Prod.mk.inj (Except.ok.inj h)
          exact single_confirmed hcalls hsending
      | false =>
          obtain ⟨rfl, -⟩ := Prod.mk.inj (Except.ok.inj h)
          exact single_catchError hcalls

/-- The answers tell what landed, and no call fails over a queue of more than 500. -/
def Told (m : Memo) : Memo.Act → Prop
  | .blockhash k ok => m.waits k .blockhash = true → ok = true ∨ m.queue.length ≤ 500
  | .sent k ok landed => m.waits k .send = true → ok = true ∨ landed = false ∧ m.queue.length ≤ 500
  | .confirmation k ok landed => m.waits k .confirm = true → landed = ok ∧ (ok = true ∨ m.queue.length ≤ 500)
  | _ => True

theorem Books.step (hs : Single env m) (hb : Books env h m) {act : Memo.Act} (ht : Told m act)
    (hstep : Memo.step env m act = .ok (m', fates)) : Books env (h ++ fates) m' := by
  cases act with
  | anchorRound r loads =>
      obtain ⟨rfl, rfl⟩ := Prod.mk.inj (Except.ok.inj hstep)
      exact hb.anchorRound r loads
  | flushMemos loads =>
      obtain ⟨rfl, rfl⟩ := Prod.mk.inj (Except.ok.inj hstep)
      exact hb.flushMemos loads
  | memoPause why =>
      obtain ⟨rfl, rfl⟩ := Prod.mk.inj (Except.ok.inj hstep)
      exact hb.same rfl rfl rfl
  | setMemoSigner =>
      obtain ⟨rfl, rfl⟩ := Prod.mk.inj (Except.ok.inj hstep)
      exact hb.same rfl rfl rfl
  | balance k lamports =>
      obtain ⟨c, rfl, hcalls, hsending, hfit, hwaits, hstep⟩ := hs.answers hstep
      split at hstep <;> obtain ⟨rfl, rfl⟩ := Prod.mk.inj (Except.ok.inj hstep)
      · exact hb.same rfl rfl rfl
      · exact hb.same rfl rfl rfl
  | blockhash k ok =>
      obtain ⟨c, rfl, hcalls, hsending, hfit, hwaits, hstep⟩ := hs.answers hstep
      cases ok with
      | true =>
          obtain ⟨rfl, rfl⟩ := Prod.mk.inj (Except.ok.inj hstep)
          exact hb.same rfl rfl rfl
      | false =>
          obtain ⟨rfl, rfl⟩ := Prod.mk.inj (Except.ok.inj hstep)
          exact hb.catchError (by simpa [Told, hwaits] using ht) 0
  | sent k ok landed =>
      obtain ⟨c, rfl, hcalls, hsending, hfit, hwaits, hstep⟩ := hs.answers hstep
      cases ok with
      | true =>
          obtain ⟨rfl, rfl⟩ := Prod.mk.inj (Except.ok.inj hstep)
          exact hb.same rfl rfl rfl
      | false =>
          obtain ⟨rfl, hlength⟩ : landed = false ∧ m.queue.length ≤ 500 := by simpa [Told, hwaits] using ht
          obtain ⟨rfl, rfl⟩ := Prod.mk.inj (Except.ok.inj hstep)
          exact hb.catchError hlength 0
  | confirmation k ok landed =>
      obtain ⟨c, rfl, hcalls, hsending, hfit, hwaits, hstep⟩ := hs.answers hstep
      obtain ⟨rfl, hlength⟩ := ht hwaits
      cases landed with
      | true =>
          obtain ⟨rfl, rfl⟩ := Prod.mk.inj (Except.ok.inj hstep)
          exact hb.confirmed hfit 0
      | false =>
          obtain ⟨rfl, rfl⟩ := Prod.mk.inj (Except.ok.inj hstep)
          exact hb.catchError (by simpa using hlength) 0

/-! ## Nothing else is accounted for -/

theorem fates_catchError (m : Memo) (k : ℕ) :
    landedTexts (m.catchError k).2 = [] ∧ removals (m.catchError k).2 = [] := by
  rw [catchError]
  dsimp only
  split
  · exact ⟨rfl, rfl⟩
  · exact ⟨rfl, rfl⟩

theorem fates_confirmed (m : Memo) (k : ℕ) (c : Flush) : landedTexts (confirmed env m k c).2 = [] ∧
    removals (confirmed env m k c).2 = [(m.queue.take c.take, c.text)] := by
  rw [confirmed]
  rcases prepare_cases env { m with queue := m.queue.drop c.take, posted := m.posted + c.take } with
    ⟨-, hp⟩ | ⟨d, c', hp, -⟩ | ⟨d, r, rest, -, hp⟩ <;> rw [hp] <;> exact ⟨rfl, rfl⟩

/-- As many memos on the chain as batches taken off, before a step and after it. -/
theorem Books.counts (hb : Books env h m) (hb' : Books env (h ++ fates) m') :
    (landedTexts fates).length = (removals fates).length := by
  have hlanded := congrArg List.length hb.landed
  have hlanded' := congrArg List.length hb'.landed
  simp only [landedTexts_append, removals_append, List.map_append, List.length_append,
    List.length_map] at hlanded hlanded'
  omega

/-- No round left the queue otherwise. -/
theorem Books.lengths (hb : Books env h m) (hb' : Books env (h ++ fates) m') :
    m.queue.length + (queuedRows fates).length = (leftRows fates).length + m'.queue.length := by
  have hqueue := congrArg List.length hb.queue
  have hqueue' := congrArg List.length hb'.queue
  simp only [queuedRows_append, leftRows_append, List.length_append] at hqueue hqueue'
  omega

theorem short_of_books (hb : Books env h m) {landed : Bool} {c : Flush} {k : ℕ}
    (hb' : Books env (h ++ (landedIf landed c ++ (m.catchError k).2)) (m.catchError k).1) :
    landed = false ∧ m.queue.length ≤ 500 := by
  have hcounts := hb.counts hb'
  have hlengths := hb.lengths hb'
  rw [landedTexts_append, removals_append, (fates_catchError m k).1, (fates_catchError m k).2] at hcounts
  cases landed with
  | true => simp [landedIf, landedTexts, removals] at hcounts
  | false =>
      refine ⟨rfl, not_lt.mp fun hlong => ?_⟩
      simp only [landedIf, catchError, hlong, if_true] at hlengths
      simp [queuedRows, leftRows] at hlengths
      omega

theorem landed_of_books (hb : Books env h m) {landed : Bool} {c : Flush} {k : ℕ}
    (hb' : Books env (h ++ (landedIf landed c ++ (confirmed env m k c).2)) (confirmed env m k c).1) :
    landed = true := by
  have hcounts := hb.counts hb'
  rw [landedTexts_append, removals_append, (fates_confirmed m k c).1, (fates_confirmed m k c).2] at hcounts
  cases landed with
  | true => rfl
  | false => simp [landedIf, landedTexts, removals] at hcounts

/-- The account shows every answer that does not tell what happened. -/
theorem Books.told (hs : Single env m) (hb : Books env h m) {act : Memo.Act}
    (hstep : Memo.step env m act = .ok (m', fates)) (hb' : Books env (h ++ fates) m') : Told m act := by
  cases act with
  | blockhash k ok =>
      intro _
      obtain ⟨c, rfl, -, -, -, -, hstep⟩ := hs.answers hstep
      cases ok with
      | true => exact Or.inl rfl
      | false =>
          obtain ⟨rfl, rfl⟩ := Prod.mk.inj (Except.ok.inj hstep)
          have hb' : Books env (h ++ (landedIf false c ++ (m.catchError 0).2)) (m.catchError 0).1 := hb'
          exact Or.inr (short_of_books hb hb').2
  | sent k ok landed =>
      intro _
      obtain ⟨c, rfl, -, -, -, -, hstep⟩ := hs.answers hstep
      cases ok with
      | true => exact Or.inl rfl
      | false =>
          obtain ⟨rfl, rfl⟩ := Prod.mk.inj (Except.ok.inj hstep)
          exact Or.inr (short_of_books hb hb')
  | confirmation k ok landed =>
      intro _
      obtain ⟨c, rfl, -, -, -, -, hstep⟩ := hs.answers hstep
      cases ok with
      | true =>
          obtain ⟨rfl, rfl⟩ := Prod.mk.inj (Except.ok.inj hstep)
          exact ⟨landed_of_books hb hb', Or.inl rfl⟩
      | false =>
          obtain ⟨rfl, rfl⟩ := Prod.mk.inj (Except.ok.inj hstep)
          obtain ⟨hlanded, hlength⟩ := short_of_books hb hb'
          exact ⟨hlanded, Or.inr hlength⟩
  | _ => trivial

/-- What a run did with the rounds. -/
def fatesOf (env : MemoEnv) (acts : List Memo.Act) : List Fate := ((memo env).accepted fresh acts).flatMap Prod.snd

theorem fates_snoc (log : List (Memo.Act × List Fate)) (act : Memo.Act) (fates : List Fate) :
    (log ++ [(act, fates)]).flatMap Prod.snd = log.flatMap Prod.snd ++ fates := by
  simp

/-- In every run, whatever the chain answers. -/
theorem single_run (env : MemoEnv) (acts : List Memo.Act) : Single env ((memo env).run fresh acts) :=
  Machine.run_invariant (m := memo env) (I := Single env) (fun _ _ _ _ hs h => hs.step h) (Or.inl ⟨rfl, rfl⟩) acts

theorem books_run (acts : List Memo.Act) (hwhen : (memo env).Each Told fresh acts) :
    Books env (fatesOf env acts) ((memo env).run fresh acts) := by
  have hfresh : Single env fresh ∧ Books env [] fresh :=
    ⟨Or.inl ⟨rfl, rfl⟩, rfl, rfl, fun x hx => absurd hx List.not_mem_nil, rfl, rfl⟩
  refine (Machine.run_history_when (H := fun log m => Single env m ∧ Books env (log.flatMap Prod.snd) m) ?_
    (h := []) hfresh acts hwhen).2
  rintro log m act m' fates ht ⟨hs, hb⟩ h
  rw [fates_snoc]
  exact ⟨hs.step h, hb.step hs ht h⟩

/-- Where every round of a run is, and what was posted of it. -/
structure Anchored (env : MemoEnv) (h : List Fate) (m : Memo) : Prop where
  /-- In the queue, in one memo that landed, or given up and counted. -/
  places : ∀ r, (queuedRows h).count r = m.queue.count r + (removedRows h).count r + (unfitRows h).count r
  counted : m.posted = (removedRows h).length ∧ m.failed = (unfitRows h).length + refusals h
  /-- The queue is left from its front. -/
  order : queuedRows h = leftRows h ++ m.queue ∧ (removedRows h).Sublist (queuedRows h)
  /-- The memos on the chain are those whose rounds were taken off, and each is the text of these rounds. -/
  memos : landedTexts h = (removals h).map Prod.snd
  texts : ∀ x ∈ removals h, ∃ withPlayers, x.2 = env.encode x.1 withPlayers
  alone : m.calls.length ≤ 1

theorem Anchored.books (ha : Anchored env h m) : Books env h m :=
  ⟨ha.order.1, ha.memos, ha.texts, ha.counted.1, ha.counted.2⟩

theorem anchored_of_told {acts : List Memo.Act} (hwhen : (memo env).Each Told fresh acts) :
    Anchored env (fatesOf env acts) ((memo env).run fresh acts) := by
  have hb := books_run acts hwhen
  exact
    { places := by
        intro r
        rw [hb.queue, List.count_append, count_leftRows]
        omega
      counted := ⟨hb.posted, hb.failed⟩
      order := by
        refine ⟨hb.queue, ?_⟩
        rw [hb.queue]
        exact (removedRows_sublist _).trans (List.sublist_append_left _ _)
      memos := hb.landed
      texts := hb.texts
      alone := by
        rcases single_run env acts with ⟨-, hcalls⟩ | ⟨c, -, hcalls, -⟩ <;> simp [hcalls] }

/-- An answer that no call waits for tells nothing. -/
theorem told_of_error {act : Memo.Act} {e : Unit} (h : Memo.step env m act = .error e) : Told m act := by
  have hcall : ∀ {k : ℕ} {stage : Wait}, m.waits k stage = true → ∃ c, m.call? k stage = .ok c := by
    intro k stage hwaits
    rw [waits] at hwaits
    cases hc : m.call? k stage with
    | ok c => exact ⟨c, rfl⟩
    | error e => simp [hc, Except.isOk, Except.toBool] at hwaits
  cases act with
  | blockhash k ok =>
      intro hwaits
      obtain ⟨c, hc⟩ := hcall hwaits
      simp [Memo.step, hc] at h
  | sent k ok landed =>
      intro hwaits
      obtain ⟨c, hc⟩ := hcall hwaits
      cases ok <;> simp [Memo.step, hc] at h
  | confirmation k ok landed =>
      intro hwaits
      obtain ⟨c, hc⟩ := hcall hwaits
      simp [Memo.step, hc] at h
  | _ => trivial

theorem run_snoc {acts : List Memo.Act} {act : Memo.Act}
    (h : Memo.step env ((memo env).run fresh acts) act = .ok (m', fates)) :
    (memo env).run fresh (acts ++ [act]) = m' ∧ fatesOf env (acts ++ [act]) = fatesOf env acts ++ fates := by
  have hstep : (memo env).step ((memo env).run fresh acts) act = .ok (m', fates) := h
  have hlog : (memo env).accepted fresh (acts ++ [act]) = (memo env).accepted fresh acts ++ [(act, fates)] := by
    rw [Machine.accepted_append, Machine.accepted, hstep]
    rfl
  constructor
  · rw [Machine.run_append, Machine.run_cons, Machine.run_nil, Machine.attempt_ok hstep]
  · rw [fatesOf, hlog, fates_snoc, fatesOf]

/-- No round is anchored twice or lost in any state of a run, exactly when the answers tell what landed and no call
fails over a queue of more than 500. -/
theorem rounds_anchored_once_iff (env : MemoEnv) (acts : List Memo.Act) :
    (∀ past, past <+: acts → Anchored env (fatesOf env past) ((memo env).run fresh past)) ↔
      (memo env).Each Told fresh acts := by
  constructor
  · intro hall
    induction acts using List.reverseRecOn with
    | nil => trivial
    | append_singleton acts act ih =>
        have hbefore := (hall acts (List.prefix_append acts [act])).books
        have hafter := (hall (acts ++ [act]) List.prefix_rfl).books
        rw [Machine.each_snoc]
        refine ⟨ih fun past hpast => hall past (hpast.trans (List.prefix_append acts [act])), ?_⟩
        cases hstep : Memo.step env ((memo env).run fresh acts) act with
        | error e => exact told_of_error hstep
        | ok next =>
            rw [(run_snoc hstep).1, (run_snoc hstep).2] at hafter
            exact hbefore.told (single_run env acts) hstep hafter
  · rintro hwhen past ⟨rest, rfl⟩
    exact anchored_of_told ((Machine.each_append Told fresh past rest).mp hwhen).1

/-! ## A confirmation that does not come -/

def plainEnv : MemoEnv where
  ON := true
  BATCH := 1
  batch_pos := le_refl 1
  MAX_MEMO_BYTES := 900
  MEMO_MIN_VAULT_SOL := 1 / 20
  sha256 := fun _ => "9f86d081884c7d659a2feaa0c55ad015a3bf4f1b2b0b822cd15d6c15b0f00a08"

def plainRound : RoundAnchor :=
  ⟨"us-extraction", 4746, "ed48e8c454fa77f8837f", "863888d84ca936db7616", "bull", 153 / 20, []⟩

/-- A memo that lands, with or without its confirmation. -/
def post (confirms : Bool) : List Memo.Act :=
  [.balance 0 (some (10 ^ 9)), .blockhash 0 true, .sent 0 true true, .confirmation 0 confirms true]

/-- The round is queued once; its confirmation times out, and the timer posts it again. -/
def postedTwice : List Memo.Act := .anchorRound plainRound true :: post false ++ .flushMemos true :: post true

theorem fatesOf_postedTwice (env : MemoEnv) (hon : env.ON = true) (hbatch : env.BATCH = 1)
    (hvault : env.MEMO_MIN_VAULT_SOL ≤ 1) (hfits : fits env (env.encode [plainRound] true) = true) :
    fatesOf env postedTwice =
      [.queued plainRound, .landed (env.encode [plainRound] true), .refused,
        .landed (env.encode [plainRound] true), .removed [plainRound] (env.encode [plainRound] true)] := by
  have hfunded : ¬ (1 : ℚ) < env.MEMO_MIN_VAULT_SOL := not_lt.mpr hvault
  simp [fatesOf, postedTwice, post, Machine.accepted, memo, step, anchorRound, fresh, hon, hbatch, flushMemos,
    prepare, shrink, hfits, hfunded, call?, advance, catchError, confirmed, landedIf]

theorem plainRound_fits : fits plainEnv (plainEnv.encode [plainRound] true) = true := by
  rw [fits, byteLength, JsString.length_encode]
  decide +kernel

theorem round_lands_twice : queuedRows (fatesOf plainEnv postedTwice) = [plainRound] ∧
    landedTexts (fatesOf plainEnv postedTwice) =
      [plainEnv.encode [plainRound] true, plainEnv.encode [plainRound] true] ∧
    ¬ Anchored plainEnv (fatesOf plainEnv postedTwice) ((memo plainEnv).run fresh postedTwice) := by
  rw [fatesOf_postedTwice plainEnv rfl rfl (by norm_num [plainEnv]) plainRound_fits]
  refine ⟨rfl, rfl, fun h => ?_⟩
  have hlength := congrArg List.length h.memos
  cases hlength

end BullsUnicorns.Engine
