import BullsUnicorns.Engine.Memo
import BullsUnicorns.Lib.Word

/-!
# Calls and accounts of the anchoring

A call of `flushMemos` is alone while it waits, and its memo is the text of the front of the queue, whatever is
queued meanwhile. So a confirmed memo takes exactly its own rounds off. The account of the rounds is kept by every
function that moves them.
-/

namespace BullsUnicorns.Engine

open Memo

variable {env : MemoEnv} {h fates : List Fate} {m m' : Memo}

/-! ## What the fates say -/

/-- The rounds that were queued, in order. -/
def queuedRows (h : List Fate) : List RoundAnchor :=
  h.filterMap fun fate =>
    match fate with
    | .queued r => some r
    | _ => none

/-- The rounds that were taken off as posted, with the text of the call. -/
def removals (h : List Fate) : List (List RoundAnchor × JsString) :=
  h.filterMap fun fate =>
    match fate with
    | .removed rows text => some (rows, text)
    | _ => none

def removedRows (h : List Fate) : List RoundAnchor := (removals h).flatMap Prod.fst

/-- The rounds that were given up because no memo can hold them. -/
def unfitRows (h : List Fate) : List RoundAnchor :=
  h.filterMap fun fate =>
    match fate with
    | .unfit r => some r
    | _ => none

/-- The memos on the chain, in order. -/
def landedTexts (h : List Fate) : List JsString :=
  h.filterMap fun fate =>
    match fate with
    | .landed text => some text
    | _ => none

/-- What left the queue, posted or given up, in order. -/
def leftRows (h : List Fate) : List RoundAnchor :=
  h.flatMap fun fate =>
    match fate with
    | .removed rows _ => rows
    | .unfit r => [r]
    | _ => []

def refusals (h : List Fate) : ℕ := h.count .refused

@[simp]
theorem queuedRows_append (h h' : List Fate) : queuedRows (h ++ h') = queuedRows h ++ queuedRows h' :=
  List.filterMap_append

@[simp]
theorem removals_append (h h' : List Fate) : removals (h ++ h') = removals h ++ removals h' := List.filterMap_append

@[simp]
theorem removedRows_append (h h' : List Fate) : removedRows (h ++ h') = removedRows h ++ removedRows h' := by
  simp [removedRows]

@[simp]
theorem unfitRows_append (h h' : List Fate) : unfitRows (h ++ h') = unfitRows h ++ unfitRows h' :=
  List.filterMap_append

@[simp]
theorem landedTexts_append (h h' : List Fate) : landedTexts (h ++ h') = landedTexts h ++ landedTexts h' :=
  List.filterMap_append

@[simp]
theorem leftRows_append (h h' : List Fate) : leftRows (h ++ h') = leftRows h ++ leftRows h' := List.flatMap_append

@[simp]
theorem refusals_append (h h' : List Fate) : refusals (h ++ h') = refusals h + refusals h' := List.count_append

/-- What was posted left the queue in this order. -/
theorem removedRows_sublist (h : List Fate) : (removedRows h).Sublist (leftRows h) := by
  induction h with
  | nil => exact List.Sublist.refl _
  | cons fate h ih =>
      rw [← List.singleton_append, removedRows_append, leftRows_append]
      refine List.Sublist.append ?_ ih
      cases fate with
      | removed rows text => simp [removedRows, removals, leftRows]
      | _ => simp [removedRows, removals]

/-- What left the queue was posted or given up. -/
theorem count_leftRows (h : List Fate) (r : RoundAnchor) :
    (leftRows h).count r = (removedRows h).count r + (unfitRows h).count r := by
  induction h with
  | nil => rfl
  | cons fate h ih =>
      rw [← List.singleton_append, leftRows_append, removedRows_append, unfitRows_append, List.count_append,
        List.count_append, List.count_append, ih]
      cases fate with
      | _ => simp [leftRows, removedRows, removals, unfitRows] <;> omega

/-! ## One call at a time -/

/-- The memo of a call is the text of the front of the queue. -/
def OfFront (env : MemoEnv) (queue : List RoundAnchor) (c : Flush) : Prop :=
  c.take ≤ queue.length ∧ c.text = env.encode (queue.take c.take) c.withPlayers

/-- No call is under way, or one that sends. -/
def Single (env : MemoEnv) (m : Memo) : Prop :=
  (m.sending = false ∧ m.calls = []) ∨ ∃ c, m.sending = true ∧ m.calls = [c] ∧ OfFront env m.queue c

theorem shrink_le (queue : List RoundAnchor) (n : ℕ) : shrink env queue n ≤ n := by
  fun_induction shrink env queue n with
  | case1 n hfits => exact le_refl _
  | case2 n hfits ih => omega
  | case3 n => exact le_refl _

/-- How a turn of the loop begins: the queue is empty, a batch is found, or its first round fits no memo. -/
theorem prepare_cases (env : MemoEnv) (m : Memo) :
    (m.queue = [] ∧ prepare env m = ({ m with sending := false }, none, [])) ∨
    (∃ d c, prepare env m = ({ m with degraded := d }, some c, []) ∧ OfFront env m.queue c) ∨
    (∃ d r rest, m.queue = r :: rest ∧ prepare env m =
      ({ m with queue := rest, degraded := d, failed := m.failed + 1, sending := false }, none, [.unfit r])) := by
  have htake : shrink env m.queue (min m.queue.length env.BATCH) ≤ m.queue.length :=
    le_trans (shrink_le _ _) (min_le_left _ _)
  unfold prepare
  split
  case h_1 hqueue => exact Or.inl ⟨hqueue, rfl⟩
  case h_2 r rest hqueue =>
    right
    dsimp only
    split
    · exact Or.inl ⟨m.degraded, ⟨_, true, env.encode (m.queue.take _) true, .balance⟩, rfl, htake, rfl⟩
    · split
      · exact Or.inl ⟨m.degraded + 1, ⟨_, false, env.encode (m.queue.take _) false, .balance⟩, rfl, htake, rfl⟩
      · exact Or.inr ⟨m.degraded + 1, r, rest, hqueue, rfl⟩

/-- A round behind the queue changes no memo that is under way. -/
theorem OfFront.push {queue : List RoundAnchor} {c : Flush} (hc : OfFront env queue c) (r : RoundAnchor) :
    OfFront env (queue ++ [r]) c := by
  obtain ⟨htake, htext⟩ := hc
  exact ⟨by simp; omega, by rw [List.take_append_of_le_length htake, htext]⟩

/-- An answer reaches the only call. -/
theorem Single.answers (hs : Single env m) {k : ℕ} {stage : Wait} {next : Flush → Except Unit (Memo × List Fate)}
    {x : Memo × List Fate} (h : (m.call? k stage >>= next) = .ok x) :
    ∃ c, k = 0 ∧ m.calls = [c] ∧ m.sending = true ∧ OfFront env m.queue c ∧ m.waits k stage = true ∧
      next c = .ok x := by
  obtain ⟨c, h, hnext⟩ := bind_eq_ok.mp h
  have hwaits : m.waits k stage = true := by rw [waits, h]; rfl
  rw [Memo.call?] at h
  rcases hs with ⟨-, hcalls⟩ | ⟨c', hsending, hcalls, hfit⟩
  case inl => simp [hcalls] at h
  case inr =>
    rw [hcalls] at h
    cases k with
    | zero =>
        rw [List.getElem?_cons_zero] at h
        dsimp only at h
        split at h
        · cases h
          exact ⟨_, rfl, hcalls, hsending, hfit, hwaits, hnext⟩
        · cases h
    | succ k => simp at h

theorem Single.flushMemos (hs : Single env m) (loads : Bool) : Single env (flushMemos env m loads).1 := by
  rw [Memo.flushMemos]
  split
  · exact hs
  · rename_i hidle
    split
    · have hnone : m.calls = [] := by
        rcases hs with ⟨-, hcalls⟩ | ⟨c, hsending, -⟩
        · exact hcalls
        · simp [hsending] at hidle
      rcases prepare_cases env { m with kp := true, sending := true } with
        ⟨-, hp⟩ | ⟨d, c, hp, hfit⟩ | ⟨d, r, rest, -, hp⟩ <;> rw [hp]
      · exact Or.inl ⟨rfl, by simp [hnone]⟩
      · exact Or.inr ⟨c, rfl, by simp [hnone], hfit⟩
      · exact Or.inl ⟨rfl, by simp [hnone]⟩
    · exact hs

theorem Single.anchorRound (hs : Single env m) (r : RoundAnchor) (loads : Bool) :
    Single env (anchorRound env m r loads).1 := by
  have hpush : Single env { m with queue := m.queue ++ [r] } := by
    rcases hs with hs | ⟨c, hsending, hcalls, hfit⟩
    · exact Or.inl hs
    · exact Or.inr ⟨c, hsending, hcalls, hfit.push r⟩
  rw [Memo.anchorRound]
  split
  · dsimp only
    split
    · exact hpush.flushMemos loads
    · exact hpush
  · exact hs

theorem single_catchError {c : Flush} (hcalls : m.calls = [c]) : Single env (m.catchError 0).1 := by
  rw [catchError]
  dsimp only
  split
  · exact Or.inl ⟨rfl, by simp [hcalls]⟩
  · exact Or.inl ⟨rfl, by simp [hcalls]⟩

theorem single_confirmed {c : Flush} (hcalls : m.calls = [c]) (hsending : m.sending = true) :
    Single env (confirmed env m 0 c).1 := by
  rw [confirmed]
  rcases prepare_cases env { m with queue := m.queue.drop c.take, posted := m.posted + c.take } with
    ⟨-, hp⟩ | ⟨d, c', hp, hfit⟩ | ⟨d, r, rest, -, hp⟩ <;> rw [hp]
  · exact Or.inl ⟨rfl, by simp [hcalls]⟩
  · exact Or.inr ⟨c', hsending, by simp [hcalls], hfit⟩
  · exact Or.inl ⟨rfl, by simp [hcalls]⟩

/-- An answer that the call goes on from. -/
theorem single_advance {c : Flush} (hcalls : m.calls = [c]) (hsending : m.sending = true) (hfit : OfFront env m.queue c)
    (stage : Wait) : Single env (m.advance 0 c stage) :=
  Or.inr ⟨{ c with stage := stage }, hsending, by simp [advance, hcalls], hfit⟩

/-! ## The account of the rounds -/

/-- Every round is in its place: what is queued, posted and given up adds up, and the chain holds what was posted. -/
structure Books (env : MemoEnv) (h : List Fate) (m : Memo) : Prop where
  queue : queuedRows h = leftRows h ++ m.queue
  landed : landedTexts h = (removals h).map Prod.snd
  texts : ∀ x ∈ removals h, ∃ withPlayers, x.2 = env.encode x.1 withPlayers
  posted : m.posted = (removedRows h).length
  failed : m.failed = (unfitRows h).length + refusals h

theorem Books.next (hb : Books env h m) (hqueue : m.queue ++ queuedRows fates = leftRows fates ++ m'.queue)
    (hlanded : landedTexts fates = (removals fates).map Prod.snd)
    (htexts : ∀ x ∈ removals fates, ∃ withPlayers, x.2 = env.encode x.1 withPlayers)
    (hposted : m'.posted = m.posted + (removedRows fates).length)
    (hfailed : m'.failed = m.failed + ((unfitRows fates).length + refusals fates)) : Books env (h ++ fates) m' where
  queue := by rw [queuedRows_append, leftRows_append, hb.queue, List.append_assoc, List.append_assoc, hqueue]
  landed := by rw [landedTexts_append, removals_append, List.map_append, hb.landed, hlanded]
  texts := by
    intro x hx
    rw [removals_append] at hx
    rcases List.mem_append.mp hx with hx | hx
    · exact hb.texts x hx
    · exact htexts x hx
  posted := by rw [removedRows_append, List.length_append, hposted, hb.posted]
  failed := by
    rw [unfitRows_append, refusals_append, List.length_append, hfailed, hb.failed]
    omega

/-- Nothing that is accounted for changes. -/
theorem Books.same (hb : Books env h m) (hqueue : m'.queue = m.queue) (hposted : m'.posted = m.posted)
    (hfailed : m'.failed = m.failed) : Books env (h ++ []) m' := by
  rw [List.append_nil]
  exact ⟨by rw [hb.queue, hqueue], hb.landed, hb.texts, by rw [hposted, hb.posted], by rw [hfailed, hb.failed]⟩

theorem Books.prepare (hb : Books env h m) : Books env (h ++ (prepare env m).2.2) (prepare env m).1 := by
  rcases prepare_cases env m with ⟨-, hp⟩ | ⟨d, c, hp, -⟩ | ⟨d, r, rest, hqueue, hp⟩ <;> rw [hp]
  case inl => exact hb.same rfl rfl rfl
  case inr.inl => exact hb.same rfl rfl rfl
  case inr.inr =>
    apply hb.next
    case hqueue =>
      rw [hqueue]
      exact List.append_nil _
    case hlanded => rfl
    case htexts => exact fun x hx => absurd hx List.not_mem_nil
    case hposted => rfl
    case hfailed => rfl

theorem Books.flushMemos (hb : Books env h m) (loads : Bool) :
    Books env (h ++ (flushMemos env m loads).2) (flushMemos env m loads).1 := by
  rw [Memo.flushMemos]
  split
  · exact hb.same rfl rfl rfl
  · split
    · have hstart : Books env h { m with kp := true, sending := true } :=
        ⟨hb.queue, hb.landed, hb.texts, hb.posted, hb.failed⟩
      have hprepared := hstart.prepare
      exact ⟨hprepared.queue, hprepared.landed, hprepared.texts, hprepared.posted, hprepared.failed⟩
    · exact hb.same rfl rfl rfl

theorem Books.anchorRound (hb : Books env h m) (r : RoundAnchor) (loads : Bool) :
    Books env (h ++ (anchorRound env m r loads).2) (anchorRound env m r loads).1 := by
  have hpush : Books env (h ++ [.queued r]) { m with queue := m.queue ++ [r] } := by
    apply hb.next
    case hqueue => rfl
    case hlanded => rfl
    case htexts => exact fun x hx => absurd hx List.not_mem_nil
    case hposted => rfl
    case hfailed => rfl
  rw [Memo.anchorRound]
  split
  · dsimp only
    split
    · have hflush := hpush.flushMemos loads
      rwa [List.append_assoc] at hflush
    · exact hpush
  · exact hb.same rfl rfl rfl

/-- A failed attempt over a queue that is not too long. -/
theorem Books.catchError (hb : Books env h m) (hlength : m.queue.length ≤ 500) (k : ℕ) :
    Books env (h ++ (m.catchError k).2) (m.catchError k).1 := by
  rw [Memo.catchError]
  dsimp only
  rw [if_neg (not_lt.mpr hlength)]
  apply hb.next
  case hqueue => exact List.append_nil _
  case hlanded => rfl
  case htexts => exact fun x hx => absurd hx List.not_mem_nil
  case hposted => rfl
  case hfailed => rfl

/-- A memo that landed and was confirmed takes its own rounds off the queue. -/
theorem Books.confirmed (hb : Books env h m) {c : Flush} (hfit : OfFront env m.queue c) (k : ℕ) :
    Books env (h ++ (.landed c.text :: (confirmed env m k c).2)) (confirmed env m k c).1 := by
  have hposted : Books env (h ++ [.landed c.text, .removed (m.queue.take c.take) c.text])
      { m with queue := m.queue.drop c.take, posted := m.posted + c.take } := by
    apply hb.next
    case hqueue =>
      rw [show leftRows [Fate.landed c.text, .removed (m.queue.take c.take) c.text] = m.queue.take c.take by
        simp [leftRows]]
      exact (List.append_nil _).trans (List.take_append_drop _ _).symm
    case hlanded => rfl
    case htexts =>
      intro x hx
      rw [List.mem_singleton.mp hx]
      exact ⟨c.withPlayers, hfit.2⟩
    case hposted => simp [removedRows, removals, hfit.1]
    case hfailed => rfl
  have hprepared := hposted.prepare
  rw [List.append_assoc] at hprepared
  exact ⟨hprepared.queue, hprepared.landed, hprepared.texts, hprepared.posted, hprepared.failed⟩

end BullsUnicorns.Engine
