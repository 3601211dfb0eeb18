import BullsUnicorns.Engine.Memo

/-!
# What the results hash commits to

The text of the results tells apart any two rounds with different results. It is the same for every order of the
rows as long as no two different rows carry one id; the rows of a wallet on both sides stay in the order of the
entries.
-/

namespace BullsUnicorns.Engine

open Battle

variable {r r' : RoundAnchor}

/-- The results of two anchors are the same, their rows in any order. -/
def SameResults (r r' : RoundAnchor) : Prop :=
  r.arena = r'.arena ∧ r.round = r'.round ∧ r.winner = r'.winner ∧ r.seedHash = r'.seedHash ∧ r.seed = r'.seed ∧
    r.rows.Perm r'.rows

/-- Every id is that of a wallet or a bot. -/
def WordIds (r : RoundAnchor) : Prop := ∀ f ∈ r.players, Collate.IsWord f.id

def OneRowPerId (r : RoundAnchor) : Prop := ∀ x ∈ r.rows, ∀ y ∈ r.rows, x.id = y.id → x = y

/-- The rows of one id, in the order of the entries. -/
def RoundAnchor.rowsOf (r : RoundAnchor) (id : String) : List ResultRow := r.rows.filter (·.id = id)

theorem ResultRow.doc_injective : Function.Injective ResultRow.doc := by
  intro x y h
  obtain ⟨id, side, inTok, outA, outB⟩ := x
  obtain ⟨id', side', inTok', outA', outB'⟩ := y
  simpa [ResultRow.doc] using h

theorem word_of_row (h : WordIds r) : ∀ x ∈ r.rows, Collate.IsWord x.id := by
  intro x hx
  obtain ⟨f, hf, rfl⟩ := List.mem_map.mp hx
  exact h f hf

theorem sortRows_eq_iff {l l' : List ResultRow} (hl : ∀ x ∈ l, Collate.IsWord x.id)
    (hl' : ∀ x ∈ l', Collate.IsWord x.id) :
    sortRows l = sortRows l' ↔ ∀ id, l.filter (·.id = id) = l'.filter (·.id = id) := by
  apply Stable.mergeSort_eq_iff
  case htrans => exact fun x y z => Collate.le_trans x.id y.id z.id
  case htotal => exact fun x y => Collate.le_total x.id y.id
  case hkey =>
    intro x y h
    rw [h]
    exact Collate.le_refl y.id
  case hanti => exact fun x hx y hy => Collate.eq_of_le (hl x hx) (hl' y hy)

/-- What the text of the results tells: all but the order of rows with different ids. -/
theorem resultsPayload_eq_iff (hr : WordIds r) (hr' : WordIds r') : resultsPayload r = resultsPayload r' ↔
    r.arena = r'.arena ∧ r.round = r'.round ∧ r.winner = r'.winner ∧ r.seedHash = r'.seedHash ∧ r.seed = r'.seed ∧
      ∀ id, r.rowsOf id = r'.rowsOf id := by
  have hdoc : resultsPayload r = resultsPayload r' ↔ r.doc = r'.doc := by
    rw [resultsPayload, resultsPayload, String.ofList_inj]
    exact (Doc.stringify_injective Number.decimals).eq_iff
  have hrows := sortRows_eq_iff (word_of_row hr) (word_of_row hr')
  have hlists : (sortRows r.rows).map ResultRow.doc = (sortRows r'.rows).map ResultRow.doc ↔
      sortRows r.rows = sortRows r'.rows := (List.map_injective_iff.mpr ResultRow.doc_injective).eq_iff
  have hround : (r.round : ℤ) * 10 ^ 6 = r'.round * 10 ^ 6 ↔ r.round = r'.round := by omega
  rw [hdoc]
  simp only [RoundAnchor.doc, Doc.obj.injEq, List.cons.injEq, Prod.mk.injEq, Doc.str.injEq, Doc.num.injEq,
    Doc.arr.injEq, true_and, and_true, hround, hlists, hrows, RoundAnchor.rowsOf]

/-- Different results are never written alike. -/
theorem sameResults_of_resultsPayload (hr : WordIds r) (hr' : WordIds r')
    (h : resultsPayload r = resultsPayload r') : SameResults r r' := by
  obtain ⟨harena, hround, hwinner, hhash, hseed, hrows⟩ := (resultsPayload_eq_iff hr hr').mp h
  exact ⟨harena, hround, hwinner, hhash, hseed, Stable.perm_of_filter_eq hrows⟩

/-- Two rows of one id can stand in either order, so a text for every order has only one. -/
theorem swapped_rows {f g : AnchorPlayer} {rest : List AnchorPlayer} (hr : WordIds r)
    (hplayers : r.players.Perm (f :: g :: rest)) (hid : f.id = g.id)
    (h : ∀ r', WordIds r' → (resultsPayload r' = resultsPayload r ↔ SameResults r' r)) : f.row = g.row := by
  have hsame : ∀ {l : List AnchorPlayer}, r.players.Perm l →
      WordIds { r with players := l } ∧ resultsPayload { r with players := l } = resultsPayload r := by
    intro l hl
    have hwords : WordIds { r with players := l } := fun f hf => hr f (hl.mem_iff.mpr hf)
    exact ⟨hwords, (h _ hwords).mpr ⟨rfl, rfl, rfl, rfl, rfl, (hl.map AnchorPlayer.row).symm⟩⟩
  obtain ⟨hwords, heq⟩ := hsame hplayers
  obtain ⟨hwords', heq'⟩ := hsame (hplayers.trans (.swap g f rest))
  have hrows := ((resultsPayload_eq_iff hwords hwords').mp (heq.trans heq'.symm)).2.2.2.2.2 f.id
  simp only [RoundAnchor.rowsOf, RoundAnchor.rows, List.map_cons] at hrows
  have hf : f.row.id = f.id := rfl
  have hg : g.row.id = f.id := hid.symm
  rw [List.filter_cons_of_pos (by simpa using hf), List.filter_cons_of_pos (by simpa using hg),
    List.filter_cons_of_pos (by simpa using hg)] at hrows
  exact (List.cons.inj hrows).1

/-- The text of the results commits to them, whatever the order of the rows, exactly when no two different rows
carry one id. -/
theorem results_committed_iff (hr : WordIds r) :
    (∀ r', WordIds r' → (resultsPayload r' = resultsPayload r ↔ SameResults r' r)) ↔ OneRowPerId r := by
  constructor
  · intro h x hx y hy hid
    obtain ⟨f, hf, rfl⟩ := List.mem_map.mp hx
    obtain ⟨g, hg, rfl⟩ := List.mem_map.mp hy
    by_cases hfg : f = g
    · rw [hfg]
    · have hg' : g ∈ r.players.erase f := (List.mem_erase_of_ne (Ne.symm hfg)).mpr hg
      have hplayers : r.players.Perm (f :: g :: (r.players.erase f).erase g) :=
        (List.perm_cons_erase hf).trans ((List.perm_cons_erase hg').cons f)
      exact swapped_rows hr hplayers hid h
  · intro hone r' hr'
    constructor
    · exact sameResults_of_resultsPayload hr' hr
    · rintro ⟨harena, hround, hwinner, hhash, hseed, hrows⟩
      refine (resultsPayload_eq_iff hr' hr).mpr ⟨harena, hround, hwinner, hhash, hseed, ?_⟩
      exact fun id => (Stable.filter_eq_of_perm hone hrows.symm id).symm

/-- A settled round in which each wallet has one entry. -/
theorem anchorOf_oneRowPerId (nameFor : String → String) (aid : ArenaId) {st : RoundState Entry RoundResult}
    (result : RoundResult) (h : (st.entries.map fun e => walletOf e.id).Nodup) :
    OneRowPerId (anchorOf nameFor aid st result) := by
  intro x hx y hy hid
  simp only [RoundAnchor.rows, anchorOf, List.map_map, List.mem_map, Function.comp_apply] at hx hy
  obtain ⟨e, he, rfl⟩ := hx
  obtain ⟨e', he', rfl⟩ := hy
  rw [List.inj_on_of_nodup_map h he he' hid]

/-! ## A wallet on both sides -/

/-- A round with one wallet on each side. -/
def onBothSides : RoundAnchor where
  arena := "us-normal"
  round := 7
  seedHash := "9f2c"
  seed := "51ab"
  winner := "bull"
  pot := 30
  players := [⟨"7xKXtg2CW87d97TXJSDpbD5jBkheTqA83TZRuJosgAsU", none, "bull", false, 10, 12, 3⟩,
    ⟨"7xKXtg2CW87d97TXJSDpbD5jBkheTqA83TZRuJosgAsU", none, "uwu", false, 20, 0, 14⟩]

theorem onBothSides_words : WordIds onBothSides := by
  intro f hf
  rcases List.mem_pair.mp hf with rfl | rfl <;> decide

/-- The settled round of two wallets, one on each side. -/
def ownSides : RoundAnchor :=
  anchorOf (fun _ => "") ⟨.us, .normal⟩
    { round := 7, phase := .settle, seedHashPublished := "9f2c", seed := some "51ab", secretRevealed := none,
      entries := [⟨"7xKXtg2CW87d97TXJSDpbD5jBkheTqA83TZRuJosgAsU|bull", .bull, 10⟩,
        ⟨"BULLso1ana1111111111111111111111111111111111|uwu", .uwu, 20⟩],
      result := none, multiplier := 1, openedAt := 0, closesAt := 9000, battleMs := none }
    { seedHash := "9f2c", fighters := [], winner := .bull, hits := [], settlement := .empty, endTick := 0 }

theorem ownSides_words : WordIds ownSides := by
  intro f hf
  rcases List.mem_pair.mp hf with rfl | rfl <;> decide +kernel

/-- One entry for a wallet commits to the round, two do not. -/
theorem results_committed_iff_witness :
    (∀ r', WordIds r' → (resultsPayload r' = resultsPayload ownSides ↔ SameResults r' ownSides)) ∧
      ¬ ∀ r', WordIds r' → (resultsPayload r' = resultsPayload onBothSides ↔ SameResults r' onBothSides) := by
  constructor
  · exact (results_committed_iff ownSides_words).mpr (anchorOf_oneRowPerId _ _ _ (by decide +kernel))
  · rw [results_committed_iff onBothSides_words]
    intro h
    exact absurd (h _ List.mem_cons_self _ (List.mem_cons_of_mem _ List.mem_cons_self) rfl) (by decide)

theorem results_order_shows : ¬ ∀ r r', WordIds r → WordIds r' →
    (resultsPayload r = resultsPayload r' ↔ SameResults r r') := by
  intro h
  have hswap : (onBothSides.players.reverse).Perm onBothSides.players := List.reverse_perm _
  have hwords := onBothSides_words
  have hwords' : WordIds { onBothSides with players := onBothSides.players.reverse } := fun f hf =>
    hwords f (hswap.mem_iff.mp hf)
  have hpayload := (h _ _ hwords hwords').mpr ⟨rfl, rfl, rfl, rfl, rfl, (hswap.map AnchorPlayer.row).symm⟩
  have hrows := ((resultsPayload_eq_iff hwords hwords').mp hpayload).2.2.2.2.2
    "7xKXtg2CW87d97TXJSDpbD5jBkheTqA83TZRuJosgAsU"
  revert hrows
  decide

end BullsUnicorns.Engine
