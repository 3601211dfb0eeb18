import BullsUnicorns.Lib.Base
import BullsUnicorns.Mirror.Lemmas.HitEvents
import BullsUnicorns.Mirror.Lemmas.Parity
import BullsUnicorns.Mirror.Lemmas.Verifier

/-!
# Results about the mirrors and the verifier
-/

/-!
## The program and its mirrors agree

Wherever no ring is past the exact ones, and for as many steps as a double can count, a run of the
fight is the same in the program and in both mirrors.
-/

namespace BullsUnicorns.Mirror

open Word Replay
open Chain (Bytes32 Pubkey Fighter exchange advanceFight settleSides zeroBytes)

/-- Both mirrors return from `steps` steps of `round` with the program's fighters and its winner. -/
def Agrees (sha256 : List UInt8 → Bytes32) (name : Pubkey → String) (seed : Bytes32)
    (fs : Vector Fighter Chain.maxFighters) (n cursor steps : ℕ) (round : ERRound) : Prop :=
  let gs := advanceFight sha256 fs n seed cursor steps
  (∃ out, Engine.tick sha256 round steps = .ok out ∧ out.fighters = lineup name gs n ∧
    (settle out).2 = (settleSides gs n).toNat) ∧
  (∃ out hits, ErDemo.tick sha256 round steps = .ok (out, hits) ∧ out.fighters = lineup name gs n ∧
    (settle out).2 = (settleSides gs n).toNat)

section
variable {sha256 : List UInt8 → Bytes32} {name : Pubkey → String} {seed : Bytes32}
  {fs : Vector Fighter Chain.maxFighters} {n : ℕ} {round : ERRound}

/-- Past what a double can count the loop has no last turn: it runs into a cursor that throws. -/
theorem tickFrom_ne_ok {steps : ℕ} (hsteps : 2 ^ 53 < steps) {s : ℕ} (hs : s ≤ 2 ^ 53)
    (hlen : 2 ≤ round.fighters.length) : ∀ out, tickFrom sha256 round s steps ≠ .ok out := by
  fun_induction tickFrom sha256 round s steps with
  | case1 round s hlt hfew => omega
  | case2 round s hlt hfew e hstep => simp
  | case3 round s hlt hfew r hstep e hrest ih => simp
  | case4 round s hlt hfew r hstep next hits hrest ih =>
      exact absurd hrest (ih (Number.ofNat_succ_le hs) ((tickStep_cursor hstep).2.2 ▸ hlen) _)
  | case5 round s hge => omega

end

/-- The program's fight and both mirrors agree on every lineup of exact rings, and so does what they
charge for leaving. -/
theorem rust_and_mirrors_agree (sha256 : List UInt8 → Bytes32) (name : Pubkey → String)
    (hname : Function.Injective name) (seed : Bytes32) (fs : Vector Fighter Chain.maxFighters) (n : ℕ)
    (hk : n ≤ Chain.maxFighters) (hfit : Prefix.sum Fighter.holds fs n < 2 ^ 64)
    (hring : Prefix.All (fun f => f.hp ≤ exactRing) fs n) (cursor steps : ℕ)
    (hend : cursor + steps < 2 ^ 64) (hsteps : 2 ≤ n → steps ≤ 2 ^ 53) (round : ERRound)
    (hseed : round.seed = seed.toList) (hfs : round.fighters = lineup name fs n)
    (hcur : round.tickCount = cursor) :
    Agrees sha256 name seed fs n cursor steps round ∧
      ∀ taken count reached : ℕ, taken < 2 ^ 64 → splitExtraction taken count reached =
        (((Chain.splitExtraction taken count reached).1 : ℤ),
          ((Chain.splitExtraction taken count reached).2 : ℤ)) := by
  refine ⟨?_, fun taken count reached htaken => splitExtraction_eq htaken count reached⟩
  obtain ⟨ht, out, hits, hrun, hout⟩ := tickFrom_lineup hname sha256 hk ⟨hfit, hring⟩ hend
    hsteps hseed hfs hcur
  have hwinner := settle_eq ht.fits hout
  refine ⟨⟨out, ?_, hout, hwinner⟩, ⟨out, hits, hrun, hout, hwinner⟩⟩
  rw [Engine.tick, hrun]

def pair : Vector Fighter Chain.maxFighters :=
  ⟨(⟨Vector.replicate 32 1, 5000, 5000, 0, 0, 0⟩ :: ⟨Vector.replicate 32 2, 7000, 7000, 0, 1, 0⟩ ::
    List.replicate 46 Fighter.blank).toArray, rfl⟩

def pairRound : ERRound :=
  { newRound zeroBytes.toList with fighters := lineup (fun w => Base58.encode w.toList) pair 2 }

theorem rust_and_mirrors_agree_witness :
    Agrees (fun _ => zeroBytes) (fun w => Base58.encode w.toList) zeroBytes pair 2 0 20 pairRound :=
  (rust_and_mirrors_agree (fun _ => zeroBytes) _ (Base58.encode_injective 32) zeroBytes pair 2 (by decide)
    (by decide +kernel) (by decide +kernel) 0 20 (by decide) (fun _ => by decide) pairRound rfl rfl rfl).1

/-- Asked for two steps more than a double can count, `tick` does not return. -/
theorem tick_never_returns_past_doubles :
    Prefix.sum Fighter.holds pair 2 < 2 ^ 64 ∧ Prefix.All (fun f => f.hp ≤ exactRing) pair 2 ∧
      0 + (2 ^ 53 + 2) < 2 ^ 64 ∧ Function.Injective (fun w : Pubkey => Base58.encode w.toList) ∧
      ¬ Agrees (fun _ => zeroBytes) (fun w => Base58.encode w.toList) zeroBytes pair 2 0 (2 ^ 53 + 2)
        pairRound := by
  refine ⟨by decide +kernel, by decide +kernel, by norm_num, (Base58.encode_injective 32), ?_⟩
  rintro ⟨-, out, hits, hrun, -⟩
  exact tickFrom_ne_ok (by norm_num) (by norm_num) (by decide) (out, hits) hrun

end BullsUnicorns.Mirror

/-!
## When the verifier is fair to an honest round

The verdict on a settled round follows from one comparison, of its fighters with the fight that nobody
leaves. An extracted fighter who would have ended that fight just as they left it hides the extract.
-/

namespace BullsUnicorns.Mirror

open Word Replay
open Chain (Bytes32 Pubkey Fighter Arena RoundCall roundMachine openedRound extractsOf zeroBytes)

/-- The verifier answers, with no accusation, and says "verified" where nobody extracted. -/
def FairVerdict (sha256 : List UInt8 → Bytes32) (toBase58 : Pubkey → String)
    (extracts : List (ℤ × Pubkey)) (r : Chain.RoundState) : Prop :=
  ∃ res, verifyRound toBase58 sha256 (toPlainRound r) = .ok res ∧
    (extracts = [] → res.verdict = .verified) ∧
    (res.verdict = .verified ∨ res.verdict = .extractionLikely)

section
variable (sha256 : List UInt8 → Bytes32) (opened : ℤ) (roundNo : ℕ) (seedCommit : Bytes32)
  (lobbySeconds : UInt32) (calls : List RoundCall)

theorem verifiable_run
    (hs : ((roundMachine sha256).run (openedRound opened roundNo seedCommit lobbySeconds) calls).phase =
      .settled)
    (hring : Prefix.All (fun f => f.stake ≤ exactRing)
      ((roundMachine sha256).run (openedRound opened roundNo seedCommit lobbySeconds) calls).fighters
      ((roundMachine sha256).run (openedRound opened roundNo seedCommit lobbySeconds) calls).fighterCount) :
    Verifiable ((roundMachine sha256).run (openedRound opened roundNo seedCommit lobbySeconds) calls) where
  inv := Chain.inv_reachable opened roundNo seedCommit lobbySeconds calls
  settled := hs
  verdict := Chain.verdict_run (fun h => by simp [openedRound] at h) calls
  bell := Chain.withinBell_run (Chain.openedRound_inv _ _ _ _) (Nat.zero_le _) calls
  rings := hring

theorem reproduced_of_no_extract
    (hs : ((roundMachine sha256).run (openedRound opened roundNo seedCommit lobbySeconds) calls).phase =
      .settled)
    (hx : extractsOf ((roundMachine sha256).accepted
      (openedRound opened roundNo seedCommit lobbySeconds) calls) = [])
    (hv : Verifiable ((roundMachine sha256).run
      (openedRound opened roundNo seedCommit lobbySeconds) calls)) :
    Reproduced sha256
      ((roundMachine sha256).run (openedRound opened roundNo seedCommit lobbySeconds) calls) := by
  have hu := Chain.untouched_run (Chain.openedRound_inv opened roundNo seedCommit lobbySeconds)
    (Chain.openedRound_untouched opened roundNo seedCommit lobbySeconds) calls hx
  intro i _
  exact congrArg (fun v => v[i]) ((hu.revealed (Or.inr hs)).trans hv.unextracted_eq.symm)

end

/-- The verdict on a settled round is fair exactly when the fight without extracts leaves some fighter
out of play otherwise than the account does, or leaves every fighter as the account does. -/
theorem fair_verdict_iff (sha256 : List UInt8 → Bytes32) (toBase58 : Pubkey → String)
    (h58 : Function.Injective toBase58) (opened : ℤ) (roundNo : ℕ) (seedCommit : Bytes32)
    (lobbySeconds : UInt32) (calls : List RoundCall) :
    let m := roundMachine sha256
    let r₀ := openedRound opened roundNo seedCommit lobbySeconds
    let r := m.run r₀ calls
    r.phase = .settled → Prefix.All (fun f => f.stake ≤ exactRing) r.fighters r.fighterCount →
      (FairVerdict sha256 toBase58 (extractsOf (m.accepted r₀ calls)) r ↔
        Fingerprinted sha256 r ∨ Reproduced sha256 r) := by
  intro m r₀ r hs hring
  have hv : Verifiable r := verifiable_run sha256 opened roundNo seedCommit lobbySeconds calls hs hring
  obtain ⟨res, hres, hverdict⟩ := hv.verdict_eq sha256 h58
  constructor
  · rintro ⟨res', hres', -, hfair⟩
    obtain rfl : res = res' := Except.ok.inj (hres.symm.trans hres')
    by_cases hrep : Reproduced sha256 r
    · exact Or.inr hrep
    by_cases hfp : Fingerprinted sha256 r
    · exact Or.inl hfp
    · rw [hverdict, if_neg hrep, if_neg hfp] at hfair
      rcases hfair with hf | hf
      · cases hf
      · cases hf
  · intro hexplained
    refine ⟨res, hres, fun hx => ?_, ?_⟩
    · have hrep := reproduced_of_no_extract sha256 opened roundNo seedCommit lobbySeconds calls hs hx hv
      rw [hverdict, if_pos hrep]
    · rw [hverdict]
      by_cases hrep : Reproduced sha256 r
      · rw [if_pos hrep]
        exact Or.inl rfl
      · rw [if_neg hrep, if_pos (hexplained.resolve_right hrep)]
        exact Or.inr rfl

/-! ## A round the verifier is unfair to -/

/-- The SHA-256 of the seed of thirty-two tens, and of that seed with the steps 0 to 5. -/
def digestsOfTen : List Bytes32 := [
  #v[185, 176, 125, 212, 231, 113, 132, 84, 71, 111, 4, 237, 235, 147, 80, 34,
    174, 79, 77, 144, 147, 74, 183, 206, 145, 63, 242, 12, 139, 174, 179, 153],
  #v[136, 64, 156, 244, 164, 157, 37, 4, 255, 32, 40, 84, 166, 203, 27, 90,
    109, 100, 133, 254, 43, 128, 33, 84, 178, 146, 159, 239, 192, 246, 127, 188],
  #v[85, 250, 197, 58, 136, 8, 211, 73, 184, 141, 234, 0, 8, 12, 145, 203,
    152, 58, 215, 79, 239, 31, 66, 107, 189, 234, 87, 246, 36, 149, 25, 172],
  #v[53, 211, 107, 225, 147, 242, 69, 133, 227, 4, 92, 68, 207, 131, 196, 182,
    241, 237, 113, 73, 123, 25, 102, 179, 224, 124, 17, 39, 227, 41, 132, 233],
  #v[152, 130, 247, 105, 137, 195, 175, 253, 39, 200, 70, 124, 151, 28, 130, 222,
    45, 155, 139, 214, 240, 176, 188, 159, 74, 211, 183, 24, 142, 236, 14, 205],
  #v[203, 171, 129, 229, 53, 120, 146, 239, 174, 72, 114, 217, 205, 209, 219, 18,
    7, 6, 58, 251, 152, 182, 78, 42, 1, 87, 61, 135, 125, 129, 54, 139],
  #v[112, 20, 124, 63, 145, 61, 8, 40, 231, 247, 128, 206, 126, 100, 166, 19,
    117, 228, 163, 29, 85, 204, 182, 204, 1, 227, 166, 206, 27, 214, 55, 192]]

/-- SHA-256 on what a fight of six steps from the seed of thirty-two tens hashes. -/
def sha256OfTen (m : List UInt8) : Bytes32 :=
  digestsOfTen.getD (if m.length = 40 then (m.getD 32 0).toNat + 1 else 0) zeroBytes

/-- One against two, everybody down to dust; the first player may leave at the opening bell. -/
def duelOfThree (leaves : Bool) : List RoundCall :=
  let arena : Arena := ⟨zeroBytes, 1, ⟨0, Nat.zero_le _⟩⟩
  [.ix 1 arena (.enter (Vector.replicate 32 1) 0 1000),
    .ix 2 arena (.enter (Vector.replicate 32 2) 1 800),
    .ix 3 arena (.enter (Vector.replicate 32 3) 1 1000),
    .ix 20 arena (.closeLobbyAndDraw none), .ix 20 arena (.callbackSeed (Vector.replicate 32 10))] ++
  (if leaves then [.ix 20 arena (.extract (Vector.replicate 32 1))] else []) ++ [.ix 21 arena .resolve]

def roundOfThree (leaves : Bool) : Chain.RoundState :=
  (roundMachine sha256OfTen).run (openedRound 0 1 zeroBytes 20) (duelOfThree leaves)

theorem fair_verdict_witness :
    FairVerdict sha256OfTen (fun w => Base58.encode w.toList)
      (extractsOf ((roundMachine sha256OfTen).accepted (openedRound 0 1 zeroBytes 20) (duelOfThree false)))
      (roundOfThree false) :=
  (fair_verdict_iff sha256OfTen _ (Base58.encode_injective 32) 0 1 zeroBytes 20 (duelOfThree false)
    (by decide +kernel) (by decide +kernel)).mpr (Or.inr (by decide +kernel))

/-- The player who leaves keeps 800 and pays 200; the fight without the extract has them raid 800 and
then die. The others are not where that fight leaves them, and stand. -/
theorem extract_is_taken_for_a_mismatch :
    (roundOfThree true).phase = .settled ∧ (roundOfThree true).tickCount = 6 ∧
      (roundOfThree true).penaltiesCollected = 200 ∧
      Prefix.All (fun f => f.stake ≤ exactRing) (roundOfThree true).fighters
        (roundOfThree true).fighterCount ∧
      extractsOf ((roundMachine sha256OfTen).accepted (openedRound 0 1 zeroBytes 20) (duelOfThree true)) =
        [(20, Vector.replicate 32 1)] ∧
      ∃ res, verifyRound (fun w => Base58.encode w.toList) sha256OfTen (toPlainRound (roundOfThree true)) =
        .ok res ∧ res.verdict = .mismatch := by
  have hs : (roundOfThree true).phase = .settled := by decide +kernel
  have hring : Prefix.All (fun f => f.stake ≤ exactRing) (roundOfThree true).fighters
      (roundOfThree true).fighterCount := by decide +kernel
  have hv : Verifiable (roundOfThree true) :=
    verifiable_run sha256OfTen 0 1 zeroBytes 20 (duelOfThree true) hs hring
  refine ⟨hs, by decide +kernel, by decide +kernel, hring, by decide +kernel, ?_⟩
  obtain ⟨res, hres, hverdict⟩ := hv.verdict_eq sha256OfTen (Base58.encode_injective 32)
  refine ⟨res, hres, ?_⟩
  rw [hverdict, if_neg (by decide +kernel), if_neg (by decide +kernel)]

end BullsUnicorns.Mirror

/-!
## The list of exchanges carries the whole fight

Whoever plays the list back, with the same players leaving at the same places, has the fighters that
`tick` and `extract` left.
-/

namespace BullsUnicorns.Mirror

open Chain (Bytes32)

variable {sha256 : List UInt8 → Bytes32}

/-! ## A fight returns while its cursor is a u64 -/

/-- How many turns the moves ask for. -/
def turns : List Move → ℕ
  | [] => 0
  | .run steps :: moves => steps + turns moves
  | .leave _ :: moves => turns moves

theorem Tale.fair {c c' : ℤ} {fs gs : List ERFighter} {told before after : List Told} {event : HitEvent}
    (h : Tale c fs told gs c') (ht : told = before ++ .hit event :: after) :
    ∃ ms A D, playBack fs before = .ok ms ∧ Fair ms event A D ∧ (NonNeg fs → 0 < event.amount) ∧
      ∀ earlier wallet cursor later ls i, before = earlier ++ .left wallet cursor :: later →
        playBack fs earlier = .ok ls → leaver ls wallet = some i →
          i ≠ event.attackerId ∧ i ≠ event.defenderId := by
  obtain ⟨m, ms, hbefore, hafter⟩ := h.cut ht
  obtain ⟨A, D, hfair⟩ : ∃ A D, Fair ms event A D := by
    cases hafter with
    | hit _ hfair _ _ => exact ⟨_, _, hfair⟩
  refine ⟨ms, A, D, hbefore.playedBack, hfair, ?_, ?_⟩
  · intro h0
    have hms := hbefore.nonNeg h0
    exact hfair.least (hms A (List.mem_of_getElem? hfair.attacker))
      (hms D (List.mem_of_getElem? hfair.defender))
  · intro earlier wallet cursor later ls i hb hls hi
    obtain ⟨m', ms', hearlier, hlater⟩ := hbefore.cut hb
    obtain rfl : ms' = ls := Except.ok.inj (hearlier.playedBack.symm.trans hls)
    cases hlater with
    | left _ hrest =>
        have hdown := hrest.down (leaver_down hi cursor)
        exact ⟨(hfair.down hdown).1, (hfair.down hdown).2.1⟩

end BullsUnicorns.Mirror
