import BullsUnicorns.Engine.Lemmas.Ledger

/-!
# The money record of a player

What a player has deposited, withdrawn and staked never shrinks, SOL in and out is a part of all in and out, and
who has a referrer has staked. No handler that is not a turn of a round moves a counter or a round number.
-/

namespace BullsUnicorns.Engine

open Battle

structure Clean (a : Account) : Prop where
  dep : 0 ≤ a.dep
  depIn : 0 ≤ a.depIn
  wOut : 0 ≤ a.wOut
  refEarned : 0 ≤ a.refEarned
  solIn : a.depInSol ≠ 0 → 0 < a.depIn
  solOut : a.wOutSol ≠ 0 → 0 < a.wOut
  referred : a.refBy ≠ "" → 0 < a.dep

def Candid (l : Ledger) : Prop := ∀ id a, l.get id = some a → a.isBot = false → Clean a

/-- A change that keeps the record clean. -/
def Tidy (g : Account → Account) : Prop := ∀ a, (g a).isBot = a.isBot ∧ (a.isBot = false → Clean a → Clean (g a))

/-- The ledger stays candid, and no counter, round number or record of a round moves. -/
structure Passes (e e' : State) : Prop where
  candid : Candid e.ledger → Candid e'.ledger
  counts : e'.roundsByArena = e.roundsByArena
  rounds : e'.roundOf = e.roundOf
  settled : e'.settled = e.settled

section
variable {l l' : Ledger} {id : String} {a a' : Account} {f : Field} {g : Account → Account}

/-! ## Ledgers -/

theorem Clean.of_skeleton (h : Clean a) (hsk : a'.skeleton = a.skeleton) : Clean a' := by
  have hclean : Clean a.skeleton := ⟨h.dep, h.depIn, h.wOut, h.refEarned, h.solIn, h.solOut, h.referred⟩
  rw [← hsk] at hclean
  exact ⟨hclean.dep, hclean.depIn, hclean.wOut, hclean.refEarned, hclean.solIn, hclean.solOut, hclean.referred⟩

theorem Clean.fresh (id : String) (side : Side) (isBot : Bool) : Clean (Account.fresh id side isBot) :=
  ⟨le_refl _, le_refl _, le_refl _, le_refl _, fun h => absurd rfl h, fun h => absurd rfl h, fun h => absurd rfl h⟩

theorem Candid.of_same (h : Candid l) (hs : l.Same l') : Candid l' := by
  intro id a' ha' hbot
  obtain ⟨a, ha, hsk⟩ := hs.symm.get ha'
  have hplayer : a.skeleton.isBot = a'.skeleton.isBot := congrArg Account.isBot hsk
  exact (h id a ha (hplayer.trans hbot)).of_skeleton hsk.symm

theorem Candid.set (h : Candid l) (ha : a.isBot = false → Clean a) (id : String) : Candid (l.set id a) := by
  intro k b hb hbot
  rw [OrderedMap.get_set] at hb
  split at hb
  · cases hb
    exact ha hbot
  · exact h k b hb hbot

theorem Candid.modify (h : Candid l) (hg : Tidy g) (id : String) : Candid (l.modify id g) := by
  intro k b hb hbot
  rw [Ledger.get_modify] at hb
  split at hb
  · obtain ⟨a, ha, rfl⟩ := Option.map_eq_some_iff.mp hb
    obtain ⟨hsame, hclean⟩ := hg a
    rw [hsame] at hbot
    exact hclean hbot (h id a ha hbot)
  · exact h k b hb hbot

theorem Candid.acct (h : Candid l) (wallet : String) (side : Side) : Candid (acct l wallet side) := by
  unfold Engine.acct
  split
  · exact h
  · exact h.set (fun _ => .fresh wallet side false) wallet

theorem Candid.treasury (h : Candid l) : Candid (treasuryAcct l) := by
  unfold treasuryAcct
  split
  · exact h
  · exact h.set (fun hbot => by cases hbot) TREASURY_ID

/-- Only what the record does not hold changes. -/
theorem Tidy.of_eq (hbot : ∀ a, (g a).isBot = a.isBot) (hdep : ∀ a, (g a).dep = a.dep)
    (hrecord : ∀ a, ((g a).depIn, (g a).wOut, (g a).refEarned, (g a).depInSol, (g a).wOutSol, (g a).refBy) =
      (a.depIn, a.wOut, a.refEarned, a.depInSol, a.wOutSol, a.refBy)) : Tidy g := by
  intro a
  refine ⟨hbot a, fun _ h => ?_⟩
  have hr := hrecord a
  simp only [Prod.mk.injEq] at hr
  obtain ⟨h1, h2, h3, h4, h5, h6⟩ := hr
  constructor
  case dep => rw [hdep a]; exact h.dep
  case depIn => rw [h1]; exact h.depIn
  case wOut => rw [h2]; exact h.wOut
  case refEarned => rw [h3]; exact h.refEarned
  case solIn => rw [h4, h1]; exact h.solIn
  case solOut => rw [h5, h2]; exact h.solOut
  case referred => rw [h6, hdep a]; exact h.referred

theorem Clean.stake {x : ℚ} (h : Clean a) (hx : 0 ≤ x) : Clean { a with dep := a.dep + x } :=
  ⟨add_nonneg h.dep hx, h.depIn, h.wOut, h.refEarned, h.solIn, h.solOut,
    fun href => add_pos_of_pos_of_nonneg (h.referred href) hx⟩

theorem Tidy.stake {x : ℚ} (hx : 0 ≤ x) : Tidy fun a => { a with dep := a.dep + x } :=
  fun _ => ⟨rfl, fun _ h => h.stake hx⟩

end

/-! ## Money that moves between accounts -/

section
variable {pool : List String} {f : Field}

theorem takeFromPool_same (f : Field) (ids : List String) (left : ℚ) (l : Ledger) : l.Same (takeFromPool f ids left l).1 := by
  induction ids generalizing left l with
  | nil => exact .refl l
  | cons id ids ih =>
      rw [takeFromPool]
      split
      · exact .refl l
      extract_lets take
      split
      · exact ih left l
      · exact Ledger.Same.add.trans (ih _ _)

theorem drawBank_same (pool : List String) (l : Ledger) (f : Field) (want spread : ℚ) :
    l.Same (drawBank pool l f want spread).1 := by
  unfold drawBank
  split
  · exact .refl l
  extract_lets share target
  split
  · exact .refl l
  · exact takeFromPool_same f _ target l

theorem returnBank_same (pool : List String) (l : Ledger) (f : Field) (amount : ℚ) : l.Same (returnBank pool l f amount) := by
  unfold returnBank
  split
  · exact .refl l
  split
  · exact .refl l
  · exact .add

theorem handBack_same (s : Settings) (l : Ledger) (id : String) (f : Field) : l.Same (handBack s l id f) := by
  unfold handBack
  extract_lets left
  split
  · exact .refl l
  · intro k
    have hback := returnBank_same s.pool l f left
    rw [Ledger.get_modify, ← hback k]
    split
    · next hk =>
        subst hk
        rw [Option.map_map]
        rfl
    · rfl

end

/-! ## States -/

section
variable {s : Settings} {e e' e'' : State} {id : String}

theorem Passes.refl (e : State) : Passes e e := ⟨fun h => h, rfl, rfl, rfl⟩

theorem Passes.trans (h : Passes e e') (h' : Passes e' e'') : Passes e e'' :=
  ⟨fun hc => h'.candid (h.candid hc), h'.counts.trans h.counts, h'.rounds.trans h.rounds, h'.settled.trans h.settled⟩

theorem Passes.foldl {σ α : Type} (view : σ → State) {f : σ → α → σ} (h : ∀ st x, Passes (view st) (view (f st x)))
    (l : List α) (st : σ) : Passes (view st) (view (l.foldl f st)) := by
  induction l generalizing st with
  | nil => exact .refl _
  | cons x l ih => exact (h st x).trans (ih _)

theorem Passes.ledger {l : Ledger} (h : Candid e.ledger → Candid l) : Passes e { e with ledger := l } where
  candid := h
  counts := rfl
  rounds := by
    funext arena
    cases arena <;> rfl
  settled := rfl

theorem Passes.same {l : Ledger} (h : e.ledger.Same l) : Passes e { e with ledger := l } :=
  .ledger fun hc => hc.of_same h

/-- The ledger, the runners and the records are as they were. -/
theorem Passes.aside (hl : e'.ledger = e.ledger) (hc : e'.roundsByArena = e.roundsByArena) (htwo : e'.two = e.two)
    (hmany : e'.many = e.many) (hs : e'.settled = e.settled) : Passes e e' where
  candid := fun h => hl ▸ h
  counts := hc
  rounds := by
    funext arena
    cases arena with
    | two aid => simp [State.roundOf, htwo]
    | many aid => simp [State.roundOf, hmany]
  settled := hs

theorem Passes.post (e : State) (arena : Arena) (round : ℕ) (id : String) (f : Field) (x : ℚ) :
    Passes e (e.post arena round id f x) :=
  (Passes.same (l := e.ledger.add id f x) .add).trans (.aside rfl rfl rfl rfl rfl)

theorem Passes.touch {g : Account → Account} (hg : Tidy g) (e : State) (id : String) : Passes e (e.touch id g) :=
  .ledger fun h => h.modify hg id

theorem Passes.bankFee (e : State) (arena : Arena) (round : ℕ) (f : Field) (tokens : ℚ) :
    Passes e (e.bankFee arena round f tokens) := by
  unfold State.bankFee
  split
  · exact .refl e
  · exact (Passes.ledger fun h => h.treasury).trans (.post _ arena round _ f tokens)

theorem Passes.freeze (e : State) (arena : Arena) (round : ℕ) (f : Field) (q : Quotes) :
    Passes e (e.freeze arena round f q) := .aside rfl rfl rfl rfl rfl

theorem Passes.botsFor (e : State) (arena : String) : Passes e (botsFor e arena).2 := by
  unfold Engine.botsFor
  extract_lets all
  split
  · exact .refl e
  · exact .aside rfl rfl rfl rfl rfl

/-! ## Bots -/

theorem Passes.makeBot (s : Settings) (e : State) (q : Quotes) {a : Account} (ha : a.isBot = true) (f : Field)
    (want spread : ℚ) : Passes e (makeBot s e q a f want spread).1 := by
  have hbank : e.ledger.Same (bankFor s e.ledger f want spread).1 := by
    unfold bankFor
    split
    · exact drawBank_same s.pool e.ledger f want spread
    · exact .refl _
  unfold Engine.makeBot
  rcases hdrawn : bankFor s e.ledger f want spread with ⟨l, got⟩
  rw [hdrawn] at hbank
  dsimp only at hbank ⊢
  split
  · exact .same (hbank.trans (returnBank_same s.pool l f got))
  · refine .ledger fun h => (h.of_same hbank).set (fun hbot => ?_) a.id
    have hsame : (a.add f got).isBot = a.isBot := rfl
    rw [hsame, ha] at hbot
    cases hbot

theorem Passes.newBot (s : Settings) (e : State) (q : Quotes) (aid : ArenaId) (side : Side) (d : BotDraw) :
    Passes e (newBot s e q aid side d).1 := by
  unfold Engine.newBot
  extract_lets e₁ fresh a f spreadN
  have hseq : Passes e e₁ := .aside rfl rfl rfl rfl rfl
  exact hseq.trans (.makeBot s e₁ q rfl f _ spreadN)

theorem Passes.newBotN (s : Settings) (e : State) (q : Quotes) (aid : NArena) (d : BotDraw) :
    Passes e (newBotN s e q aid d).1 := by
  unfold Engine.newBotN
  extract_lets e₁ team fresh a f
  have hseq : Passes e e₁ := .aside rfl rfl rfl rfl rfl
  exact hseq.trans (.makeBot s e₁ q rfl f _ _)

theorem tidy_retired : Tidy fun a => { a with retired := true } :=
  .of_eq (fun _ => rfl) (fun _ => rfl) fun _ => rfl

theorem tidy_side (side : Side) : Tidy fun a => { a with side } := .of_eq (fun _ => rfl) (fun _ => rfl) fun _ => rfl

theorem tidy_games (usd : ℚ) : Tidy fun a => { a with games := a.games + 1, ret := a.ret + usd } :=
  .of_eq (fun _ => rfl) (fun _ => rfl) fun _ => rfl

theorem Passes.retireBot (s : Settings) (e : State) (id : String) : Passes e (retireBot s e id) := by
  have hback := ((handBack_same s e.ledger id .bull).trans (handBack_same s _ id .uwu)).trans (handBack_same s _ id .sol)
  exact .ledger fun h => (h.of_same hback).modify tidy_retired id

theorem Passes.capPopulation (s : Settings) (e : State) (q : Quotes) (aid : ArenaId) :
    Passes e (capPopulation s e q aid) := by
  have hscan := Passes.botsFor e aid.text
  unfold Engine.capPopulation
  rcases hbots : Engine.botsFor e aid.text with ⟨bots, e₁⟩
  rw [hbots] at hscan
  dsimp only at hscan ⊢
  generalize max 6 _ = target
  split
  · exact hscan
  · exact hscan.trans (.foldl (fun e => e) (.retireBot s) _ e₁)

theorem Passes.levelBots (s : Settings) (e : State) (q : Quotes) : Passes e (levelBots s e q) := by
  have hfield : ∀ e id f, Passes e (levelField s q e id f) := by
    intro e id f
    unfold levelField
    extract_lets px usd skimTok
    split
    · exact .refl e
    split
    · exact .refl e
    · exact .same (Ledger.Same.add.trans (returnBank_same s.pool _ f skimTok))
  have hbot : ∀ e id, Passes e (levelBot s q e id) := by
    intro e id
    unfold levelBot
    extract_lets a
    split
    · exact .refl e
    · exact .foldl (fun e => e) (fun e f => hfield e id f) _ e
  unfold Engine.levelBots
  split
  · exact .refl e
  · exact .foldl (fun e => e) hbot _ e

end

end BullsUnicorns.Engine
