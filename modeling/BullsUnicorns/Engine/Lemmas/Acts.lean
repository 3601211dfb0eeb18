import BullsUnicorns.Engine.Lemmas.Ledger
import BullsUnicorns.Engine.Lemmas.Names
import BullsUnicorns.Engine.Lemmas.RoundPrices
import Mathlib.Logic.Relation

/-!
# What the server can do

Every function of the server is a chain of a few acts: money moves inside the house, a stake is placed, a
round turns. An act carries what the server has checked before it.
-/

namespace BullsUnicorns.Engine

open Battle

/-! ## Small steps of the state -/

section
variable (e : State) (arena : Arena) (round : ℕ) (id : String) (f : Field) (x : ℚ) (g : Account → Account)

@[simp]
theorem State.post_two : (e.post arena round id f x).two = e.two := rfl

@[simp]
theorem State.post_many : (e.post arena round id f x).many = e.many := rfl

@[simp]
theorem State.post_ledger : (e.post arena round id f x).ledger = e.ledger.add id f x := rfl

@[simp]
theorem State.post_roundOf : (e.post arena round id f x).roundOf = e.roundOf := by
  funext a
  cases a <;> rfl

@[simp]
theorem State.touch_two : (e.touch id g).two = e.two := rfl

@[simp]
theorem State.touch_many : (e.touch id g).many = e.many := rfl

@[simp]
theorem State.touch_flows : (e.touch id g).flows = e.flows := rfl

@[simp]
theorem State.touch_ledger : (e.touch id g).ledger = e.ledger.modify id g := rfl

@[simp]
theorem State.touch_roundOf : (e.touch id g).roundOf = e.roundOf := by
  funext a
  cases a <;> rfl

end

/-! ## The prices of the open rounds -/

/-- The round that an arena is in has lost no price. -/
def State.Remembers (e : State) (arena : Arena) : Prop := (arena, e.roundOf arena) ∉ e.forgotten

/-- The prices of the open rounds stay, except where it is on the record that they were forgotten. -/
structure KeepsPx (e e' : State) : Prop where
  forgotten : ∀ k ∈ e.forgotten, k ∈ e'.forgotten
  px : ∀ arena f, (arena, e.roundOf arena) ∉ e'.forgotten → 0 < e.roundPx (arena, e.roundOf arena, f) →
    e'.roundPx (arena, e.roundOf arena, f) = e.roundPx (arena, e.roundOf arena, f)

theorem KeepsPx.of_eq {e e' : State} (hprices : e'.prices = e.prices) (hforgotten : e'.forgotten = e.forgotten) :
    KeepsPx e e' where
  forgotten := fun _ hk => hforgotten ▸ hk
  px := fun arena f _ _ => by rw [State.roundPx, State.roundPx, hprices]

theorem KeepsPx.trans {e e' e'' : State} (h : KeepsPx e e') (h' : KeepsPx e' e'') (hround : e'.roundOf = e.roundOf) :
    KeepsPx e e'' where
  forgotten := fun k hk => h'.forgotten k (h.forgotten k hk)
  px := by
    intro arena f hnot hpos
    have hfirst := h.px arena f (fun hk => hnot (h'.forgotten _ hk)) hpos
    have hthen := h'.px arena f
    rw [hround, hfirst] at hthen
    exact hthen hnot hpos

/-- A round that has kept its prices so far had kept them before. -/
theorem KeepsPx.remembers {e e' : State} (h : KeepsPx e e') {arena : Arena}
    (hround : e'.roundOf arena = e.roundOf arena) (hkept : e'.Remembers arena) : e.Remembers arena := by
  intro hmem
  refine hkept ?_
  rw [hround]
  exact h.forgotten _ hmem

theorem roundPx_pos {e : State} {arena : Arena} {round : ℕ} {f : Field} (h : 0 < e.roundPx (arena, round, f)) :
    ∃ m, e.prices.get (arena, round) = some m ∧ m f = e.roundPx (arena, round, f) := by
  cases hget : e.prices.get (arena, round) with
  | some m => exact ⟨m, rfl, by simp [State.roundPx, hget]⟩
  | none => simp [State.roundPx, hget] at h

theorem KeepsPx.freeze (e : State) (arena : Arena) (round : ℕ) (f : Field) (q : Quotes) :
    KeepsPx e (e.freeze arena round f q) where
  forgotten := fun _ hk => List.mem_append_left _ hk
  px := by
    intro arena' f' hnot hpos
    obtain ⟨m, hget, hm⟩ := roundPx_pos hpos
    obtain ⟨m', hget'⟩ : ∃ m', (frozen e.prices (arena, round) f q).get (arena', e.roundOf arena') = some m' := by
      by_contra hlost
      refine hnot (List.mem_append_right _ (List.mem_filter.mpr ⟨?_, ?_⟩))
      · exact List.mem_map.mpr ⟨_, OrderedMap.get_eq_some.mp hget, rfl⟩
      · simpa [Option.eq_none_iff_forall_ne_some] using hlost
    have hkept : m' f' = m f' := RoundPrices.pxForRound_keeps hget (hm.symm ▸ hpos) hget'
    rw [← hm, ← hkept]
    exact congrArg (fun r => (Option.getD r fun _ => (0 : ℚ)) f') hget'

@[simp]
theorem freeze_ledger (e : State) (arena : Arena) (round : ℕ) (f : Field) (q : Quotes) :
    (e.freeze arena round f q).ledger = e.ledger := rfl

/-! ## Accounts through an act -/

/-- An account goes on: the same one, with at least the record that it had. -/
structure Account.Continues (a a' : Account) : Prop where
  id : a'.id = a.id
  born : (a'.temper, a'.skip, a'.nteam) = (a.temper, a.skip, a.nteam)
  isBot : a.isBot → a'.isBot
  retired : a.retired → a'.retired
  games : a.games ≤ a'.games
  dep : a.dep ≤ a'.dep

theorem Account.Continues.refl (a : Account) : a.Continues a := ⟨rfl, rfl, fun h => h, fun h => h, le_refl _, le_refl _⟩

theorem Account.Continues.trans {a a' a'' : Account} (h : a.Continues a') (h' : a'.Continues a'') : a.Continues a'' :=
  ⟨h'.id.trans h.id, h'.born.trans h.born, fun hb => h'.isBot (h.isBot hb), fun hr => h'.retired (h.retired hr),
    h.games.trans h'.games, h.dep.trans h'.dep⟩

/-- A change of an account that moves no tokens. -/
structure Cosmetic (g : Account → Account) : Prop where
  bal : ∀ a, (g a).bal = a.bal
  isBot : ∀ a, (g a).isBot = a.isBot
  retired : ∀ a, (g a).retired = a.retired
  continues : ∀ a, Account.Continues a (g a)

/-- Every account is under its own id. -/
def Keyed (l : Ledger) : Prop := ∀ id a, l.get id = some a → a.id = id

/-- A bot of an arena, and one that has not been retired. -/
def BotOf (arena : Arena) (l : Ledger) (id : String) : Prop :=
  ∃ a, l.get id = some a ∧ a.isBot = true ∧ Text.startsWith id (arena.text ++ ":") = true

def Alive (arena : Arena) (l : Ledger) (id : String) : Prop :=
  ∃ a, l.get id = some a ∧ a.isBot = true ∧ Text.startsWith id (arena.text ++ ":") = true ∧ a.retired = false

theorem Alive.botOf {arena : Arena} {l : Ledger} {id : String} (h : Alive arena l id) : BotOf arena l id := by
  obtain ⟨a, ha, hb, hp, -⟩ := h
  exact ⟨a, ha, hb, hp⟩

/-! ## Acts -/

/-- Prices are frozen, counters move on: no account, runner or record changes. -/
structure Quiet (e e' : State) : Prop where
  ledger : e'.ledger = e.ledger
  two : e'.two = e.two
  many : e'.many = e.many
  seq : e'.seq = e.seq
  boot : e'.boot = e.boot
  flows : e'.flows = e.flows
  settled : e'.settled = e.settled
  payments : e'.payments = e.payments
  px : KeepsPx e e'

inductive Kind where
  /-- Nothing leaves the house or a player's account. -/
  | house
  | newBot (arena : Arena)
  | retire (id : String)
  | stake (arena : Arena)
  | player (m : EnterMsg)
  | playerN (m : EnterNMsg)
  /-- A round is fought, settled or opened. -/
  | turn (arena : Arena)

section
variable {E R S : Type} (p : Platform) (env : RoundEnv) (c : RunnerClass E R S)

/-- A runner when its lobby has closed. -/
structure Fought (r r' : Runner E R) : Prop where
  lobby : r.state.phase = .lobby
  phase : r'.state.phase = .battle
  round : r'.state.round = r.state.round
  entries : r'.state.entries = r.state.entries
  result : ∃ seed, r'.state.result = some (c.fight seed r.state.entries r.state.multiplier)

/-- A runner while its settlement is under way. -/
def settling (r : Runner E R) : Runner E R := { r with state := { r.state with phase := .settle } }

/-- A call of `tick`: it waits, fights, or settles, or the round has nothing to settle. -/
theorem tick_turns (r : Runner E R) (now : ℚ) (d : Draw) :
    tick p env c r now d = (r, .returns false) ∨
    (∃ r', tick p env c r now d = (r', .returns false) ∧ Fought c r r') ∨
    (∃ result, tick p env c r now d = (settling r, .awaits result) ∧
      (r.state.phase = .battle ∧ r.state.closesAt ≤ now) ∧
      r.state.result = some result) ∨
    (tick p env c r now d = (freshLobby p env (r.state.round + 1) d, .returns true) ∧ r.state.phase = .battle ∧
      r.state.result = none) := by
  by_cases hlobby : r.state.phase = .lobby ∧ r.state.closesAt ≤ now
  · obtain ⟨ms, h⟩ := tick_leaves p env c d hlobby
    exact .inr (.inl ⟨_, h, hlobby.1, rfl, rfl, rfl, _, rfl⟩)
  by_cases hbattle : r.state.phase = .battle ∧ r.state.closesAt ≤ now
  · cases hresult : r.state.result with
    | some result => exact .inr (.inr (.inl ⟨result, tick_settles p env c d hbattle hresult, hbattle, rfl⟩))
    | none =>
        refine .inr (.inr (.inr ⟨?_, hbattle.1, rfl⟩))
        simp only [tick, if_neg hlobby, if_pos hbattle, hresult]
  · exact .inl (tick_idle p env c d hlobby hbattle)

end

variable (s : Settings)

/-- The payouts of a round, while its runner waits. -/
def settleRound (q : Quotes) (aid : ArenaId) (r : RoundResult) (e : State) : State :=
  r.settlement.entries.foldl (payFighter q aid (e.two aid).state.round)
    { e with two := Function.update e.two aid (settling (e.two aid)) }

def settleRoundN (q : Quotes) (aid : NArena) (r : ResultN) (e : State) : State :=
  r.settlement.entries.foldl (payFighterN s q aid (e.many aid).state.round)
    { e with many := Function.update e.many aid (settling (e.many aid)) }

/-- The next lobby of an arena, once its round has been settled. -/
def reopen (aid : ArenaId) (d : Draw) (e : State) : State :=
  let st := (e.two aid).state
  let lobby := freshLobby s.platform s.round (st.round + 1) d
  { e with
    two := Function.update e.two aid lobby
    settled := e.settled ++ [⟨.two aid, st.round, st.entries.map (·.id)⟩] }

def reopenN (aid : NArena) (d : Draw) (e : State) : State :=
  let st := (e.many aid).state
  let lobby := freshLobby s.platform s.round (st.round + 1) d
  { e with
    many := Function.update e.many aid lobby
    settled := e.settled ++ [⟨.many aid, st.round, st.entries.map (·.id)⟩] }

/-- One act of the server, with what was checked before it. -/
inductive Act : Kind → State → State → Prop
  | quiet {e e' : State} : Quiet e e' → Act .house e e'
  | touch (e : State) (id : String) {g : Account → Account} : Cosmetic g → Act .house e (e.touch id g)
  | join (e : State) {wallet : String} (side : Side) : IsKey wallet →
      Act .house e { e with ledger := acct e.ledger wallet side }
  | topUp {e : State} {arena : Arena} {id : String} (f : Field) (amount : ℚ) : Alive arena e.ledger id →
      Act .house e (topUp s e id f amount).1
  | skim {e : State} (q : Quotes) {id : String} {a : Account} (f : Field) : e.ledger.get id = some a →
      a.isBot = true → a.retired = false → id ∉ s.pool → Act .house e (levelField s q e id f)
  | newBot (e : State) (q : Quotes) (aid : ArenaId) (side : Side) (d : BotDraw) :
      Act (.newBot (.two aid)) e (newBot s e q aid side d).1
  | newBotN (e : State) (q : Quotes) (aid : NArena) (d : BotDraw) :
      Act (.newBot (.many aid)) e (newBotN s e q aid d).1
  | retire {e : State} {id : String} {a : Account} : e.ledger.get id = some a → a.isBot = true → ':' ∈ id.toList →
      Act (.retire id) e (retireBot s e id)
  | stakeBot {e : State} {aid : ArenaId} {id : String} {side : Side} {tokens usd : ℚ} : Alive (.two aid) e.ledger id →
      (e.two aid).state.phase = .lobby → side = .bull ∨ side = .uwu →
      0 < usd → 0 < tokens → tokens ≤ e.ledger.bal id (slotField aid side) →
      (e.Remembers (.two aid) → usd = tokens * e.roundPx (.two aid, e.roundOf (.two aid), slotField aid side)) →
      Act (.stake (.two aid)) e (deployBot s e aid id side tokens usd)
  | stakeBotN {e : State} {aid : NArena} {id : String} {team tokens usd : ℚ} : Alive (.many aid) e.ledger id →
      team = (if aid.teams = 0 then 0 else (((e.account id).nteam.getD 0 : ℕ) : ℚ)) →
      (e.many aid).state.phase = .lobby → 0 < usd → 0 < tokens → tokens ≤ e.ledger.bal id (aid.field team) →
      (e.Remembers (.many aid) → usd = tokens * e.roundPx (.many aid, e.roundOf (.many aid), aid.field team)) →
      Act (.stake (.many aid)) e (deployBotN s e aid id team tokens usd)
  | stakePlayer {e : State} {m : EnterMsg} {stake px : ℚ} : (e.ledger.get m.wallet).isSome →
      (e.two m.aid).state.phase = .lobby → 0 < px → 0 < stake →
      stake ≤ e.ledger.bal m.wallet (slotField m.aid m.side) →
      px = e.roundPx (.two m.aid, e.roundOf (.two m.aid), slotField m.aid m.side) →
      Act (.player m) e (deployPlayer s e m stake px)
  | stakePlayerN {e : State} {m : EnterNMsg} {stake usd : ℚ} : (e.ledger.get m.wallet).isSome →
      (e.many m.aid).state.phase = .lobby → 0 < usd → 0 < stake →
      stake ≤ e.ledger.bal m.wallet (m.aid.field m.slot) →
      usd = stake * e.roundPx (.many m.aid, e.roundOf (.many m.aid), m.aid.field m.slot) →
      Act (.playerN m) e (deployPlayerN s e m stake usd)
  | fight {e : State} {aid : ArenaId} {r : Runner Entry RoundResult} :
      Fought (RoundRunner s.platform s.round aid.eco) (e.two aid) r →
      Act (.turn (.two aid)) e { e with two := Function.update e.two aid r }
  | fightN {e : State} {aid : NArena} {r : Runner EntryN ResultN} :
      Fought (RoundRunnerN s.platform s.round aid.eco aid.teams) (e.many aid) r →
      Act (.turn (.many aid)) e { e with many := Function.update e.many aid r }
  | settle {e : State} (q : Quotes) {aid : ArenaId} {r : RoundResult} : (e.two aid).state.phase = .battle →
      (e.two aid).state.result = some r → Act (.turn (.two aid)) e (settleRound q aid r e)
  | settleN {e : State} (q : Quotes) {aid : NArena} {r : ResultN} : (e.many aid).state.phase = .battle →
      (e.many aid).state.result = some r → Act (.turn (.many aid)) e (settleRoundN s q aid r e)
  | reopen {e : State} {aid : ArenaId} (d : Draw) : (e.two aid).state.phase = .settle →
      Act (.turn (.two aid)) e (reopen s aid d e)
  | reopenN {e : State} {aid : NArena} (d : Draw) : (e.many aid).state.phase = .settle →
      Act (.turn (.many aid)) e (reopenN s aid d e)

/-- A chain of acts of the kinds in `K`. -/
def Acts (K : Kind → Prop) : State → State → Prop := Relation.ReflTransGen fun e e' => ∃ k, K k ∧ Act s k e e'

end BullsUnicorns.Engine
