import BullsUnicorns.Engine.Theorems.RoundPrices

/-!
# The lengths of rounds, and the arenas that are on

While a round is open, every other arena opens only so many: the longest round bounds the time, and the shortest
how often a runner can begin anew in it. Where they fit the map beside those that it forgets, no open round goes.
-/

namespace BullsUnicorns.Engine

open Battle

/-- A lobby, and a battle that is decided at once. -/
def shortestRound (env : RoundEnv) : ℚ := env.LOBBY_MS + min env.BATTLE_MS 1000

/-- A lobby, and a battle to the clock, each of which ends so late. -/
def longestRound (env : RoundEnv) (late : ℚ) : ℚ := env.LOBBY_MS + env.BATTLE_MS + 2 * late

/-- How many rounds another arena can have during one round. -/
def roundsMeanwhile (env : RoundEnv) (late : ℚ) : ℕ := ⌊longestRound env late / shortestRound env⌋₊ + 2

/-- The clock as a turn of a runner reads it. -/
def PriceEvent.now : PriceEvent → Option ℚ
  | .battle _ now _ => some now
  | .settle _ now => some now
  | _ => none

/-- No runner has overslept: the server ticks them all on a timer of its own. -/
def Prompt (enabled : Arena → Bool) (late : ℚ) (w : PriceWorld) (e : PriceEvent) : Prop :=
  ∀ now, e.now = some now → ∀ arena, enabled arena → now ≤ (w.turn arena).closesAt + late

instance (enabled : Arena → Bool) (late : ℚ) (w : PriceWorld) (e : PriceEvent) :
    Decidable (Prompt enabled late w e) :=
  decidable_of_iff (∀ now ∈ e.now.toList, ∀ arena ∈ allArenas, enabled arena → now ≤ (w.turn arena).closesAt + late)
    (by simp [Prompt, mem_allArenas])

/-- Lengths that make sense. -/
structure RoundLengths (env : RoundEnv) (late : ℚ) : Prop where
  lobby : 0 ≤ env.LOBBY_MS
  battle : 0 ≤ env.BATTLE_MS
  late : 0 ≤ late
  positive : 0 < shortestRound env

variable {env : RoundEnv} {enabled : Arena → Bool} {late now : ℚ} {w w' : PriceWorld} {a b arena : Arena}

theorem battleLength_le (env : RoundEnv) (endTick : ℕ) : battleLength env endTick ≤ env.BATTLE_MS := min_le_left _ _

theorem le_battleLength (env : RoundEnv) (endTick : ℕ) : min env.BATTLE_MS 1000 ≤ battleLength env endTick := by
  refine min_le_min_left _ ?_
  have hticks : (0 : ℚ) ≤ endTick := endTick.cast_nonneg
  linarith

/-! ## One runner -/

/-- What the runner of an arena keeps to, whose round was opened at a time. -/
structure OnTime (env : RoundEnv) (late : ℚ) (on : Prop) (opened now : ℚ) (t : ArenaTurn) : Prop where
  begun : opened ≤ now
  lobby : t.phase = .lobby → t.closesAt = opened + env.LOBBY_MS
  battle : t.phase = .battle → opened + shortestRound env ≤ t.closesAt
  close : on → t.closesAt ≤ opened + (env.LOBBY_MS + late + env.BATTLE_MS)
  prompt : on → now ≤ t.closesAt + late

variable {on : Prop} {opened : ℚ} {t : ArenaTurn}

/-- A round has not been open longer than the longest. -/
theorem OnTime.open_le (h : OnTime env late on opened w.now t) (hon : on) :
    w.now - opened ≤ longestRound env late := by
  have hclose := h.close hon
  have hprompt := h.prompt hon
  rw [longestRound]
  linarith

theorem OnTime.later (h : OnTime env late on opened w.now t) (hnow : w.now ≤ now)
    (hprompt : on → now ≤ t.closesAt + late) : OnTime env late on opened now t where
  begun := h.begun.trans hnow
  lobby := h.lobby
  battle := h.battle
  close := h.close
  prompt := hprompt

theorem OnTime.opening (hlen : RoundLengths env late) (on : Prop) (now : ℚ) (round : ℕ) :
    OnTime env late on now now ⟨round, .lobby, now + env.LOBBY_MS⟩ := by
  have hlobby := hlen.lobby
  have hbattle := hlen.battle
  have hlate := hlen.late
  constructor
  case begun => exact le_refl now
  case lobby => exact fun _ => rfl
  case battle => exact fun hphase => nomatch hphase
  case close =>
      intro _
      change now + env.LOBBY_MS ≤ _
      linarith
  case prompt =>
      intro _
      change now ≤ now + env.LOBBY_MS + late
      linarith

theorem OnTime.fighting (h : OnTime env late on opened w.now t) (hlen : RoundLengths env late) (endTick : ℕ)
    (hnow : w.now ≤ now) (hphase : t.phase = .lobby) (hclosed : t.closesAt ≤ now)
    (hprompt : on → now ≤ t.closesAt + late) :
    OnTime env late on opened now ⟨t.round, .battle, now + battleLength env endTick⟩ := by
  have hlobby := h.lobby hphase
  have hshort := le_battleLength env endTick
  have hlong := battleLength_le env endTick
  have hlate := hlen.late
  have hpositive : 0 ≤ battleLength env endTick := (le_min hlen.battle (by norm_num)).trans hshort
  constructor
  case begun => exact h.begun.trans hnow
  case lobby => exact fun hphase => nomatch hphase
  case battle =>
      intro _
      change _ ≤ now + battleLength env endTick
      rw [shortestRound]
      linarith
  case close =>
      intro hon
      have hlast := hprompt hon
      change now + battleLength env endTick ≤ _
      linarith
  case prompt =>
      intro _
      change now ≤ now + battleLength env endTick + late
      linarith

/-! ## All of them -/

/-- When the round of each arena was opened, and the round that each other arena was in then. -/
structure Openings where
  time : Arena → ℚ
  round : Arena → Arena → ℕ

/-- The runners are on time, and two rounds of one arena are opened a shortest round apart. -/
structure Paced (env : RoundEnv) (enabled : Arena → Bool) (late : ℚ) (o : Openings) (w : PriceWorld) : Prop where
  turns : ∀ a, OnTime env late (enabled a) (o.time a) w.now (w.turn a)
  self : ∀ a, o.round a a = (w.turn a).round
  since : ∀ a b, o.round a b ≤ (w.turn b).round
  apart : ∀ a b, o.round a b < (w.turn b).round →
    (((w.turn b).round - o.round a b - 1 : ℕ) : ℚ) * shortestRound env ≤ o.time b - o.time a

variable {o : Openings}

theorem Paced.boot (hlen : RoundLengths env late) (round : Arena → ℕ) (now : ℚ) :
    Paced env enabled late ⟨fun _ => now, fun _ => round⟩ (PriceWorld.boot env round now) where
  turns a := OnTime.opening hlen (enabled a) now (round a)
  self _ := rfl
  since _ _ := le_refl _
  apart _ _ hlt := absurd hlt (lt_irrefl _)

/-- So few rounds has another arena had since. -/
theorem Paced.rounds_le (h : Paced env enabled late o w) (hlen : RoundLengths env late) (hon : enabled a) (b : Arena) :
    (w.turn b).round + 1 - o.round a b ≤ roundsMeanwhile env late := by
  rw [roundsMeanwhile]
  by_cases hlt : o.round a b < (w.turn b).round
  · have htime : o.time b - o.time a ≤ longestRound env late :=
      (sub_le_sub_right (h.turns b).begun _).trans ((h.turns a).open_le hon)
    have hfloor := Nat.le_floor ((le_div_iff₀ hlen.positive).mpr ((h.apart a b hlt).trans htime))
    omega
  · omega

/-- Turns that leave every round as it was. -/
theorem Paced.same (h : Paced env enabled late o w)
    (hturns : ∀ a, OnTime env late (enabled a) (o.time a) w'.now (w'.turn a))
    (hround : ∀ a, (w'.turn a).round = (w.turn a).round) : Paced env enabled late o w' := by
  constructor
  case turns => exact hturns
  case self =>
      intro a
      rw [hround]
      exact h.self a
  case since =>
      intro a b
      rw [hround]
      exact h.since a b
  case apart =>
      intro a b
      rw [hround]
      exact h.apart a b

theorem Paced.battle (h : Paced env enabled late o w) (hlen : RoundLengths env late) (endTick : ℕ)
    (hnow : w.now ≤ now) (hphase : (w.turn arena).phase = .lobby) (hclosed : (w.turn arena).closesAt ≤ now)
    (hprompt : ∀ a, enabled a → now ≤ (w.turn a).closesAt + late) :
    let t : ArenaTurn := ⟨(w.turn arena).round, .battle, now + battleLength env endTick⟩
    Paced env enabled late o { w with turn := Function.update w.turn arena t, now := now } := by
  refine h.same ?_ ?_
  · refine (Function.forall_update_iff _ fun a t => OnTime env late (enabled a) (o.time a) now t).mpr ⟨?_, ?_⟩
    · exact (h.turns arena).fighting hlen endTick hnow hphase hclosed (hprompt arena)
    · exact fun a _ => (h.turns a).later hnow (hprompt a)
  · exact (Function.forall_update_iff _ fun a (t : ArenaTurn) => t.round = (w.turn a).round).mpr ⟨rfl, fun _ _ => rfl⟩

/-- An arena opens its next round: that is when it was opened, and where the others are. -/
def Openings.next (o : Openings) (w : PriceWorld) (arena : Arena) (now : ℚ) : Openings where
  time := Function.update o.time arena now
  round := Function.update o.round arena fun b => (w.turn b).round + if b = arena then 1 else 0

theorem settled_round (w : PriceWorld) (arena : Arena) (now : ℚ) (b : Arena) :
    ((w.settled env arena now).turn b).round = (w.turn b).round + if b = arena then 1 else 0 := by
  by_cases hb : b = arena
  · rw [hb, if_pos rfl]
    simp [PriceWorld.settled]
  · rw [if_neg hb]
    simp [PriceWorld.settled, Function.update_of_ne hb]

theorem Paced.settled (h : Paced env enabled late o w) (hlen : RoundLengths env late) (hnow : w.now ≤ now)
    (hphase : (w.turn arena).phase = .battle) (hclosed : (w.turn arena).closesAt ≤ now)
    (hprompt : ∀ a, enabled a → now ≤ (w.turn a).closesAt + late) :
    Paced env enabled late (o.next w arena now) (w.settled env arena now) := by
  have hother {b : Arena} (hb : b ≠ arena) : (o.next w arena now).round b = o.round b ∧
      (o.next w arena now).time b = o.time b := by
    simp [Openings.next, Function.update_of_ne hb]
  have hself : (o.next w arena now).time arena = now := by
    simp [Openings.next]
  have hnext (b : Arena) : (o.next w arena now).round arena b = ((w.settled env arena now).turn b).round := by
    rw [settled_round]
    simp [Openings.next]
  constructor
  case turns =>
      intro a
      by_cases ha : a = arena
      · rw [ha, hself]
        simpa [PriceWorld.settled] using OnTime.opening hlen (enabled arena) now ((w.turn arena).round + 1)
      · rw [(hother ha).2]
        simpa [PriceWorld.settled, Function.update_of_ne ha] using (h.turns a).later hnow (hprompt a)
  case self =>
      intro a
      by_cases ha : a = arena
      · rw [ha]
        exact hnext arena
      · rw [(hother ha).1, settled_round, if_neg ha]
        exact h.self a
  case since =>
      intro a b
      by_cases ha : a = arena
      · rw [ha, hnext]
      · rw [(hother ha).1, settled_round]
        exact (h.since a b).trans (Nat.le_add_right _ _)
  case apart =>
      intro a b hlt
      by_cases ha : a = arena
      · rw [ha, hnext] at hlt
        exact absurd hlt (lt_irrefl _)
      rw [(hother ha).1, settled_round] at hlt ⊢
      rw [(hother ha).2]
      by_cases hb : b = arena
      · -- the round that has ended took a shortest round at least
        subst hb
        rw [if_pos rfl] at hlt ⊢
        rw [hself]
        have hlong := (h.turns b).battle hphase
        have hshort := hlen.positive
        have hcount : (w.turn b).round + 1 - o.round a b - 1 = (w.turn b).round - o.round a b := by omega
        rw [hcount]
        rcases Nat.lt_succ_iff_lt_or_eq.mp hlt with hlt | heq
        · have hold := h.apart a b hlt
          have hone : (w.turn b).round - o.round a b = (w.turn b).round - o.round a b - 1 + 1 := by omega
          rw [hone, Nat.cast_add_one, add_one_mul]
          linarith
        · rw [heq, Nat.sub_self, Nat.cast_zero, zero_mul]
          linarith [(h.turns a).begun]
      · rw [(hother hb).2]
        rw [if_neg hb] at hlt ⊢
        exact h.apart a b hlt

/-! ## The keys of the map -/

def PriceWorld.keys (w : PriceWorld) : List RoundKey := w.prices.roundPx.entries.map Prod.fst

/-- Keys stand in the order of their rounds: behind the key of an open round, none is of an older round than
was open then. -/
structure Aged (enabled : Arena → Bool) (o : Openings) (w : PriceWorld) : Prop where
  on : ∀ k ∈ w.keys, enabled k.1
  past : ∀ k ∈ w.keys, k.2 ≤ (w.turn k.1).round
  newer : w.keys.Pairwise fun k k' => k.2 = (w.turn k.1).round → o.round k.1 k'.1 ≤ k'.2

theorem Aged.boot (o : Openings) (round : Arena → ℕ) (now : ℚ) : Aged enabled o (PriceWorld.boot env round now) where
  on _ hk := nomatch hk
  past _ hk := nomatch hk
  newer := List.Pairwise.nil

/-- A call for a price adds the key of its round, or none; the oldest may go. -/
theorem priced_keys (w : PriceWorld) (arena : Arena) (f : Field) (feed : Feed) :
    (w.priced arena f feed).keys = w.keys ∨ ∃ n, (w.priced arena f feed).keys = w.keys.drop n ++ [w.key arena] := by
  have hset : (w.priced arena f feed).keys = (w.prices.openPx (w.key arena)).2.roundPx.entries.map Prod.fst := by
    change (w.prices.pxForRound feed (w.key arena) f).2.roundPx.entries.map Prod.fst = _
    by_cases hpos : 0 < (w.prices.openPx (w.key arena)).1 f
    · rw [RoundPrices.pxForRound]
      dsimp only
      rw [if_pos hpos]
    · rw [(RoundPrices.pxForRound_asked hpos).2.1]
      exact OrderedMap.keys_set (RoundPrices.openPx_get _ _).1
  rw [hset]
  cases hget : w.prices.roundPx.get (w.key arena) with
  | some m =>
      rw [RoundPrices.openPx_found hget]
      exact .inl rfl
  | none =>
      rw [RoundPrices.openPx_new hget]
      change (remember _ _ _).entries.map Prod.fst = _ ∨ ∃ n, (remember _ _ _).entries.map Prod.fst = _
      rw [remember, OrderedMap.keys_setBounded_new hget (by decide)]
      split
      · exact .inr ⟨FORGOTTEN_ROUNDS, rfl⟩
      · exact .inr ⟨0, rfl⟩

theorem keys_congr (hpx : w'.prices.roundPx = w.prices.roundPx) : w'.keys = w.keys := by
  rw [PriceWorld.keys, hpx, PriceWorld.keys]

theorem Aged.same (h : Aged enabled o w) (hkeys : w'.keys = w.keys)
    (hround : ∀ a, (w'.turn a).round = (w.turn a).round) : Aged enabled o w' := by
  constructor
  case on =>
      rw [hkeys]
      exact h.on
  case past =>
      simp only [hkeys, hround]
      exact h.past
  case newer =>
      simp only [hkeys, hround]
      exact h.newer

theorem Aged.priced (h : Aged enabled o w) (hpaced : Paced env enabled late o w) (hon : enabled arena) (f : Field)
    (feed : Feed) : Aged enabled o (w.priced arena f feed) := by
  rcases priced_keys w arena f feed with hkeys | ⟨n, hkeys⟩
  · exact h.same hkeys fun _ => rfl
  · constructor
    case on =>
        rw [hkeys]
        intro k hk
        rcases List.mem_append.mp hk with hk | hk
        · exact h.on k (List.mem_of_mem_drop hk)
        · cases List.mem_singleton.mp hk
          exact hon
    case past =>
        rw [hkeys]
        intro k hk
        rcases List.mem_append.mp hk with hk | hk
        · exact h.past k (List.mem_of_mem_drop hk)
        · cases List.mem_singleton.mp hk
          exact le_refl _
    case newer =>
        rw [hkeys]
        refine List.pairwise_append.mpr ⟨h.newer.drop, List.pairwise_singleton _ _, ?_⟩
        intro k _ k' hk' _
        cases List.mem_singleton.mp hk'
        exact hpaced.since k.1 arena

/-- No key is of the round that an arena opens now. -/
theorem Aged.settled (h : Aged enabled o w) (hkeys : (w.settled env arena now).keys = w.keys) :
    Aged enabled (o.next w arena now) (w.settled env arena now) := by
  constructor
  case on =>
      rw [hkeys]
      exact h.on
  case past =>
      rw [hkeys]
      intro k hk
      rw [settled_round]
      exact (h.past k hk).trans (Nat.le_add_right _ _)
  case newer =>
      rw [hkeys]
      refine h.newer.imp_of_mem fun {k k'} hk _ hnewer hopen => ?_
      rw [settled_round] at hopen
      by_cases hk1 : k.1 = arena
      · rw [if_pos hk1] at hopen
        have hpast := h.past k hk
        omega
      · rw [if_neg hk1] at hopen
        have hround : (o.next w arena now).round k.1 = o.round k.1 := by
          simp [Openings.next, Function.update_of_ne hk1]
        rw [hround]
        exact hnewer hopen

/-! ## Not so many newer keys -/

/-- Of the arenas that are on, all but one have so few rounds that the map need not forget that one's. -/
def RoomForRounds (env : RoundEnv) (enabled : Arena → Bool) (late : ℚ) : Prop :=
  ((allArenas.filter enabled).length - 1) * roundsMeanwhile env late ≤ KEPT_ROUNDS - FORGOTTEN_ROUNDS

/-- The keys of the rounds that the other arenas had since the round of this one was opened. -/
theorem Paced.card_le (h : Paced env enabled late o w) (hlen : RoundLengths env late) (hon : enabled a)
    {keys : List RoundKey} (hkeys : keys.Nodup)
    (hnewer : ∀ k ∈ keys, k.1 ≠ a ∧ enabled k.1 ∧ o.round a k.1 ≤ k.2 ∧ k.2 ≤ (w.turn k.1).round) :
    keys.length ≤ ((allArenas.filter enabled).length - 1) * roundsMeanwhile env late := by
  let others := (allArenas.filter enabled).toFinset.erase a
  let rounds (b : Arena) : Finset RoundKey := (Finset.Icc (o.round a b) (w.turn b).round).image fun r => (b, r)
  have hsubset : keys.toFinset ⊆ others.biUnion rounds := by
    intro k hk
    obtain ⟨hne, honk, hfrom, hto⟩ := hnewer k (List.mem_toFinset.mp hk)
    refine Finset.mem_biUnion.mpr ⟨k.1, ?_, ?_⟩
    · exact Finset.mem_erase.mpr ⟨hne, List.mem_toFinset.mpr (List.mem_filter.mpr ⟨mem_allArenas k.1, honk⟩)⟩
    · exact Finset.mem_image.mpr ⟨k.2, Finset.mem_Icc.mpr ⟨hfrom, hto⟩, rfl⟩
  have hothers : others.card = (allArenas.filter enabled).length - 1 := by
    have hmem : a ∈ (allArenas.filter enabled).toFinset :=
      List.mem_toFinset.mpr (List.mem_filter.mpr ⟨mem_allArenas a, hon⟩)
    rw [Finset.card_erase_of_mem hmem, List.toFinset_card_of_nodup (allArenas_nodup.filter _)]
  calc keys.length = keys.toFinset.card := (List.toFinset_card_of_nodup hkeys).symm
    _ ≤ (others.biUnion rounds).card := Finset.card_le_card hsubset
    _ ≤ others.card * roundsMeanwhile env late := by
        refine Finset.card_biUnion_le_card_mul _ _ _ fun b _ => ?_
        refine Finset.card_image_le.trans ?_
        rw [Nat.card_Icc]
        exact h.rounds_le hlen hon b
    _ = _ := by rw [hothers]

/-- So a call forgets no open round at all. -/
theorem Aged.spares (h : Aged enabled o w) (hpaced : Paced env enabled late o w) (hlen : RoundLengths env late)
    (hroom : RoomForRounds env enabled late) (hon : enabled arena) : SparesFor w arena := by
  intro hnew hfull other m hmem
  exfalso
  have hold : w.key other ∈ w.keys.take FORGOTTEN_ROUNDS := by
    rw [PriceWorld.keys, ← List.map_take]
    exact List.mem_map_of_mem hmem
  have hkeys : (w.keys.take FORGOTTEN_ROUNDS ++ w.keys.drop FORGOTTEN_ROUNDS).Nodup := by
    rw [List.take_append_drop]
    exact w.prices.roundPx.keyed
  have hnewer := h.newer
  rw [← List.take_append_drop FORGOTTEN_ROUNDS w.keys] at hnewer
  obtain ⟨-, hdrop, hapart⟩ := List.nodup_append.mp hkeys
  have hfresh : w.key arena ∉ w.keys := by
    intro hin
    obtain ⟨e, he, hek⟩ := List.mem_map.mp hin
    have hget : w.prices.roundPx.get (w.key arena) = some e.2 := OrderedMap.get_eq_some.mpr (hek ▸ he)
    rw [hnew] at hget
    cases hget
  -- the newer half and the new key are of other arenas, and of rounds since
  have hrecent : (w.keys.drop FORGOTTEN_ROUNDS ++ [w.key arena]).Nodup :=
    hdrop.append (List.nodup_singleton _) fun k hk hk' => by
      rw [List.mem_singleton.mp hk'] at hk
      exact hfresh (List.mem_of_mem_drop hk)
  have hcount := hpaced.card_le hlen (h.on _ (List.mem_of_mem_take hold)) hrecent fun k hk => ?_
  · have hlong : KEPT_ROUNDS ≤ w.keys.length := by
      rw [PriceWorld.keys, List.length_map]
      exact hfull
    rw [List.length_append, List.length_drop, List.length_singleton] at hcount
    have hle := hcount.trans hroom
    omega
  rcases List.mem_append.mp hk with hk | hk
  · have hin := List.mem_of_mem_drop hk
    have hsince := (List.pairwise_append.mp hnewer).2.2 _ hold k hk rfl
    have hpast := h.past k hin
    refine ⟨fun heq => ?_, h.on k hin, hsince, hpast⟩
    -- the one key of its own open round would stand twice
    rw [heq] at hsince hpast
    change o.round other other ≤ k.2 at hsince
    rw [hpaced.self other] at hsince
    exact hapart _ hold k hk (Prod.ext heq.symm (le_antisymm hsince hpast))
  · cases List.mem_singleton.mp hk
    refine ⟨fun heq => ?_, hon, hpaced.since other arena, le_refl _⟩
    rw [show other = arena from heq.symm] at hold
    exact hfresh (List.mem_of_mem_take hold)

/-! ## Every run -/

theorem paced_step {e : PriceEvent} {r : Unit} (hlen : RoundLengths env late)
    (h : ∃ o, Paced env enabled late o w ∧ Aged enabled o w) (hprompt : Prompt enabled late w e)
    (hstep : (priceRounds env enabled).step w e = .ok (w', r)) :
    ∃ o, Paced env enabled late o w' ∧ Aged enabled o w' := by
  obtain ⟨o, hpaced, haged⟩ := h
  have hprices := price_step hstep
  change (if e.arena.all enabled then w.step env e else .error ()) = .ok (w', r) at hstep
  split at hstep
  case isFalse => cases hstep
  next hon =>
  cases e with
  | price arena f feed =>
      cases hstep
      exact ⟨o, hpaced.same hpaced.turns fun _ => rfl, haged.priced hpaced hon f feed⟩
  | quote f feed =>
      cases hstep
      exact ⟨o, hpaced.same hpaced.turns fun _ => rfl,
        haged.same (keys_congr (RoundPrices.usdPerUnitSafe_maps feed f w.prices).1) fun _ => rfl⟩
  | flow aid f out into fee =>
      obtain ⟨_, _, _, he, -⟩ | ⟨hpx, -, -⟩ := hprices
      · cases he
      cases hstep
      exact ⟨o, hpaced.same hpaced.turns fun _ => rfl, haged.same (keys_congr hpx) fun _ => rfl⟩
  | battle arena now endTick =>
      simp only [PriceWorld.step] at hstep
      split at hstep
      case isFalse => cases hstep
      next hturn =>
      obtain ⟨hnow, hphase, hclosed⟩ := hturn
      cases hstep
      refine ⟨o, hpaced.battle hlen endTick hnow hphase hclosed (hprompt now rfl), haged.same rfl ?_⟩
      exact (Function.forall_update_iff _ fun a (t : ArenaTurn) => t.round = (w.turn a).round).mpr
        ⟨rfl, fun _ _ => rfl⟩
  | settle arena now =>
      obtain ⟨_, _, _, he, -⟩ | ⟨hpx, -, -⟩ := hprices
      · cases he
      simp only [PriceWorld.step] at hstep
      split at hstep
      case isFalse => cases hstep
      next hturn =>
      obtain ⟨hnow, hphase, hclosed⟩ := hturn
      cases hstep
      exact ⟨o.next w arena now, hpaced.settled hlen hnow hphase hclosed (hprompt now rfl),
        haged.settled (keys_congr hpx)⟩

theorem spares_of_lengths (hlen : RoundLengths env late) (hroom : RoomForRounds env enabled late)
    (round : Arena → ℕ) (now : ℚ) {events : List PriceEvent}
    (hprompt : (priceRounds env enabled).Each (Prompt enabled late) (PriceWorld.boot env round now) events) :
    (priceRounds env enabled).Each (Spares enabled) (PriceWorld.boot env round now) events := by
  refine Machine.each_imp (I := fun w => ∃ o, Paced env enabled late o w ∧ Aged enabled o w) ?_
    (fun _ _ _ _ h hprompt hstep => paced_step hlen h hprompt hstep)
    ⟨_, Paced.boot hlen round now, Aged.boot _ round now⟩ hprompt
  rintro w e ⟨o, hpaced, haged⟩ -
  cases e with
  | price arena f feed => exact fun hon => haged.spares hpaced hlen hroom hon
  | quote f feed => trivial
  | flow aid f out into fee => trivial
  | battle arena now endTick => trivial
  | settle arena now => trivial

/-- Where the lengths leave room for the arenas that are on, and the runners are on time, a round is priced once. -/
theorem priced_once_of_lengths (hlen : RoundLengths env late) (hroom : RoomForRounds env enabled late)
    (round : Arena → ℕ) (now : ℚ) (events : List PriceEvent)
    (hprompt : (priceRounds env enabled).Each (Prompt enabled late) (PriceWorld.boot env round now) events) :
    PricedOnce ((priceRounds env enabled).run (PriceWorld.boot env round now) events).calls :=
  (Priced.run round now events (spares_of_lengths hlen hroom round now hprompt)).once

/-! ## The usual lengths -/

theorem usual_lengths : RoundLengths usualLengths 250 where
  lobby := by norm_num [usualLengths]
  battle := by norm_num [usualLengths]
  late := by norm_num
  positive := by norm_num [shortestRound, usualLengths]

theorem usual_roundsMeanwhile : roundsMeanwhile usualLengths 250 = 6 := by
  have hfloor : ⌊longestRound usualLengths 250 / shortestRound usualLengths⌋₊ = 4 := by
    norm_num [Nat.floor_eq_iff, longestRound, shortestRound, usualLengths]
  rw [roundsMeanwhile, hfloor]

theorem usual_room (hsix : (allArenas.filter enabled).length ≤ 6) : RoomForRounds usualLengths enabled 250 := by
  rw [RoomForRounds, usual_roundsMeanwhile]
  change _ ≤ 32
  omega

/-- With the lengths of the settings, and ticks every 250 ms, six arenas can be on. -/
theorem usual_lengths_priced_once (hsix : (allArenas.filter enabled).length ≤ 6) (round : Arena → ℕ) (now : ℚ)
    (events : List PriceEvent) (hprompt : (priceRounds usualLengths enabled).Each (Prompt enabled 250)
      (PriceWorld.boot usualLengths round now) events) :
    PricedOnce ((priceRounds usualLengths enabled).run (PriceWorld.boot usualLengths round now) events).calls :=
  priced_once_of_lengths usual_lengths (usual_room hsix) round now events hprompt

def twoTeams : Arena → Bool
  | .two _ => true
  | .many _ => false

/-- Eleven quick rounds of the arenas of two teams are more than the map keeps; then a price is asked for twice. -/
def quickRun : List PriceEvent :=
  ((List.range 11).flatMap fun n => quickRounds (allArenas.filter twoTeams) (fun _ => n + 1) (n * 10000)) ++
    [.price slowArena .bull fun _ => 12, .price slowArena .bull fun _ => 20]

def afterQuickRun : PriceWorld :=
  (priceRounds usualLengths twoTeams).run (PriceWorld.boot usualLengths (fun _ => 1) 0) quickRun

theorem quickRun_prompt : (priceRounds usualLengths twoTeams).Each (Prompt twoTeams 250)
    (PriceWorld.boot usualLengths (fun _ => 1) 0) quickRun := by
  decide +kernel

/-- The map has forgotten the older rounds, and the open one is still at its first price. -/
theorem priced_once_iff_spared_witness : afterQuickRun.keys.length = 35 ∧
    afterQuickRun.calls.filter (fun c => c.key = (slowArena, 12)) =
      [⟨(slowArena, 12), .bull, 12⟩, ⟨(slowArena, 12), .bull, 12⟩] ∧ PricedOnce afterQuickRun.calls := by
  refine ⟨by decide +kernel, by decide +kernel, ?_⟩
  have hspares := spares_of_lengths usual_lengths (usual_room (by decide)) (fun _ => 1) 0 quickRun_prompt
  exact (priced_once_iff_spared usualLengths twoTeams (fun _ => 1) 0 quickRun).2.1 hspares

end BullsUnicorns.Engine
