import BullsUnicorns.Chain.Layout

/-!
# The bytes of a round

A state and its bytes determine each other, and the table of offsets is the layout that alignment gives.
-/

namespace BullsUnicorns.Chain

open Layout

/-! ## The program and the IDL -/

/-- Alignment leaves no hole in a round. -/
theorem RoundState.layout_gapless : RoundState.layout.flatSize = RoundState.layout.size := rfl

theorem Fighter.layout_size : Fighter.layout.size = 64 := rfl

theorem Fighter.layout_align : Fighter.layout.align = 8 := rfl

theorem RoundState.layout_size : RoundState.layout.size = 3240 := rfl

namespace FighterBuffer

theorem map_ofVal_toVal {n : ℕ} (fs : Vector FighterBuffer n) : (fs.map toVal).map ofVal = fs := by
  rw [Vector.map_map]
  exact Vector.map_id fs

theorem map_toVal_ofVal {n : ℕ} (vs : Vector Fighter.layout.Val n) : (vs.map ofVal).map toVal = vs := by
  rw [Vector.map_map]
  exact Vector.map_id vs

end FighterBuffer

namespace RoundBuffer

variable (r : RoundBuffer)

theorem ofVal_toVal : ofVal r.toVal = r := by
  have hmap := FighterBuffer.map_ofVal_toVal r.fighters
  show { r with fighters := (r.fighters.map FighterBuffer.toVal).map FighterBuffer.ofVal } = r
  rw [hmap]

theorem toVal_ofVal : (v : RoundState.layout.Val) → (ofVal v).toVal = v
  | (arena, roundNo, phase, winner, fighterCount, bump, houseSwept, padding, tickCount, pot, penaltiesCollected,
      feesCollected, seedCommit, seed, lobbyOpenedAt, lobbyClosesAt, fightStartedAt, fighters, _) =>
      congrArg (fun fs : Vector Fighter.layout.Val maxFighters =>
        ((arena, roundNo, phase, winner, fighterCount, bump, houseSwept, padding, tickCount, pot, penaltiesCollected,
          feesCollected, seedCommit, seed, lobbyOpenedAt, lobbyClosesAt, fightStartedAt, fs, ()) :
            RoundState.layout.Val)) (FighterBuffer.map_toVal_ofVal fighters)

theorem length_bytes : r.bytes.length = 3240 := Ty.length_encode RoundState.layout_gapless r.toVal

theorem view_bytes (rest : List UInt8) : ofVal (RoundState.layout.view (r.bytes ++ rest)) = r := by
  rw [bytes, Ty.view_encode RoundState.layout_gapless, ofVal_toVal]

theorem bytes_view {bs : List UInt8} (h : 3240 ≤ bs.length) :
    (ofVal (RoundState.layout.view bs)).bytes ++ bs.drop 3240 = bs := by
  rw [bytes, toVal_ofVal]
  exact Ty.encode_view RoundState.layout_gapless h

end RoundBuffer

/-- The wrapper adds no byte. -/
theorem Round.view_state (bs : List UInt8) : (Round.layout.view bs).1 = RoundState.layout.view bs := by
  show RoundState.layout.view (bs.drop 0) = _
  rw [List.drop_zero]

theorem decodeRound_eq_loadRound (data : List UInt8) : decodeRound data = loadRound data := by
  unfold decodeRound loadRound
  by_cases hdisc : data.take 8 = Round.DISCRIMINATOR
  · rw [if_pos (show data.take 8 = Idl.discriminator from hdisc)]
    rcases Nat.lt_or_ge (data.drop 8).length RoundState.layout.size with hlt | hle
    · have hshort : Idl.Round.decode (data.drop 8) = none := RoundState.layout.reads.short (data.drop 8) hlt
      rw [if_neg fun h => absurd h.2 (Nat.not_le.mpr hlt), hshort]
      rfl
    · have hview : Idl.Round.decode (data.drop 8) =
          some (RoundState.layout.view (data.drop 8), (data.drop 8).drop RoundState.layout.size) :=
        RoundState.layout.decode_eq_view RoundState.layout_gapless hle
      rw [if_pos ⟨hdisc, hle⟩, hview, Round.view_state]
      rfl
  · rw [if_neg (show ¬data.take 8 = Idl.discriminator from hdisc), if_neg fun h => hdisc h.1]

theorem loadRound_eq_some {data : List UInt8} {r : RoundBuffer} :
    loadRound data = some r ↔ ∃ rest, data = r.account ++ rest := by
  unfold loadRound
  constructor
  · intro h
    split at h
    · next hok =>
        obtain ⟨hdisc, hle⟩ := hok
        rw [Round.view_state] at h
        have hbytes := RoundBuffer.bytes_view hle
        rw [Option.some.inj h] at hbytes
        refine ⟨(data.drop 8).drop 3240, ?_⟩
        rw [RoundBuffer.account, List.append_assoc, hbytes, ← hdisc, List.take_append_drop]
    · cases h
  · rintro ⟨rest, rfl⟩
    have htake : (r.account ++ rest).take 8 = Round.DISCRIMINATOR := by rw [RoundBuffer.account, List.append_assoc]; rfl
    have hdrop : (r.account ++ rest).drop 8 = r.bytes ++ rest := by rw [RoundBuffer.account, List.append_assoc]; rfl
    have hle : Round.layout.size ≤ (r.bytes ++ rest).length := by
      rw [List.length_append, r.length_bytes]
      exact Nat.le_add_right 3240 rest.length
    rw [htake, hdrop, if_pos ⟨rfl, hle⟩, Round.view_state, r.view_bytes]

/-! ## The table of offsets -/

/-- The fighter whose fields stand where the table has them. -/
def fighterAt (d : List UInt8) (i : ℕ) : FighterBuffer where
  wallet := subarray32 d (ROUND.fighters + i * FIGHTER_SIZE + FIGHTER.wallet)
  stake := readBigUInt64LE d (ROUND.fighters + i * FIGHTER_SIZE + FIGHTER.stake)
  hp := readBigUInt64LE d (ROUND.fighters + i * FIGHTER_SIZE + FIGHTER.hp)
  banked := readBigUInt64LE d (ROUND.fighters + i * FIGHTER_SIZE + FIGHTER.banked)
  side := readUInt8 d (ROUND.fighters + i * FIGHTER_SIZE + FIGHTER.side)
  dead := readUInt8 d (ROUND.fighters + i * FIGHTER_SIZE + FIGHTER.dead)
  padding := Vector.ofFn fun j : Fin 6 => readUInt8 d (ROUND.fighters + i * FIGHTER_SIZE + FIGHTER.dead + 1 + j)

theorem fighter_view_at (d : List UInt8) (i : ℕ) :
    FighterBuffer.ofVal (Fighter.layout.view (d.drop (176 + i * 64))) = fighterAt d i := by
  simp [Fighter.layout, pubkey, Fields.ofList, Ty.view, Fields.view, FighterBuffer.ofVal, roundUp, Ty.align, Ty.size,
    List.drop_drop, fighterAt, ROUND, FIGHTER, FIGHTER_SIZE, subarray32, readUInt8, readBigUInt64LE]
  rfl

/-- The table is the layout: every field stands at the offset that the table gives it. -/
theorem view_at (d : List UInt8) : RoundBuffer.ofVal (RoundState.layout.view (d.drop 8)) =
    { arena := subarray32 d ROUND.arena
      roundNo := readBigUInt64LE d ROUND.roundNo
      phase := readUInt8 d ROUND.phase
      winner := readUInt8 d ROUND.winner
      fighterCount := readUInt16LE d ROUND.fighterCount
      bump := readUInt8 d ROUND.bump
      houseSwept := readUInt8 d ROUND.houseSwept
      padding := Vector.ofFn fun j : Fin 2 => readUInt8 d (ROUND.padding + j)
      tickCount := readBigUInt64LE d ROUND.tickCount
      pot := readBigUInt64LE d ROUND.pot
      penaltiesCollected := readBigUInt64LE d ROUND.penaltiesCollected
      feesCollected := readBigUInt64LE d ROUND.feesCollected
      seedCommit := subarray32 d ROUND.seedCommit
      seed := subarray32 d ROUND.seed
      lobbyOpenedAt := readBigInt64LE d ROUND.lobbyOpenedAt
      lobbyClosesAt := readBigInt64LE d ROUND.lobbyClosesAt
      fightStartedAt := readBigInt64LE d ROUND.fightStartedAt
      fighters := Vector.ofFn fun i : Fin maxFighters => fighterAt d i } := by
  simp [RoundState.layout, pubkey, Fields.ofList, Ty.view, Fields.view, RoundBuffer.ofVal, roundUp, Ty.align, Ty.size,
    List.drop_drop, ROUND, subarray32, readUInt8, readUInt16LE, readBigUInt64LE, readBigInt64LE, Fighter.layout_size,
    Fighter.layout_align, Function.comp_def, fighter_view_at]
  rfl

def FighterBuffer.reading (f : FighterBuffer) : FighterReading := ⟨f.wallet, f.side, f.dead, f.stake, f.hp, f.banked⟩

namespace RoundBuffer

variable (r : RoundBuffer)

/-- What the script has of a round. -/
def reading : RoundReading where
  phase := r.phase
  fighterCount := r.fighterCount
  pot := r.pot
  penaltiesCollected := r.penaltiesCollected
  feesCollected := r.feesCollected
  houseSwept := r.houseSwept
  lobbyOpenedAt := r.lobbyOpenedAt
  lobbyClosesAt := r.lobbyClosesAt
  fighters := (r.fighters.toList.take r.fighterCount.toNat).map FighterBuffer.reading

/-- The ranges by which the script tells that its offsets are right. -/
structure Aligned : Prop where
  swept : r.houseSwept = 0 ∨ r.houseSwept = 1
  padding : r.padding[0] = 0 ∧ r.padding[1] = 0
  count : r.fighterCount.toNat ≤ maxFighters

end RoundBuffer

theorem readFighters {d : List UInt8} {n : ℕ} (hn : n ≤ maxFighters) :
    (List.range n).map (readFighter d) =
      ((Vector.ofFn fun i : Fin maxFighters => fighterAt d i).toList.take n).map FighterBuffer.reading := by
  apply List.ext_getElem
  · simp [hn]
  · intro i h h'
    simp [readFighter, fighterAt, FighterBuffer.reading]

/-- The script reads an account exactly as long as its ranges hold, and then it has the fields of the state. -/
theorem readRound_eq_ok {d : List UInt8} {v : RoundReading} :
    readRound (some d) = .ok v ↔
      d.length = ROUND_SIZE ∧ (RoundBuffer.ofVal (RoundState.layout.view (d.drop 8))).Aligned ∧
        v = (RoundBuffer.ofVal (RoundState.layout.view (d.drop 8))).reading := by
  rw [view_at]
  simp only [readRound, bind_eq_ok, okOr_eq_ok, require_eq_ok, Option.some.injEq]
  constructor
  · rintro ⟨_, rfl, _, hshort, _, hlong, _, hswept, _, hpadding, _, hcount, h⟩
    refine ⟨by omega, ⟨hswept, by simpa using hpadding, hcount⟩, ?_⟩
    cases h
    rw [RoundBuffer.reading, ← readFighters hcount]
  · rintro ⟨hlen, ⟨hswept, hpadding, hcount⟩, rfl⟩
    refine ⟨d, rfl, (), by omega, (), by omega, (), hswept, (), by simpa using hpadding, (), hcount, ?_⟩
    rw [RoundBuffer.reading, ← readFighters hcount]
    rfl

end BullsUnicorns.Chain
