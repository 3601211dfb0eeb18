import BullsUnicorns.Chain.Instructions

/-!
# The program

The arena, its treasury and its round accounts, and every instruction on them. A round account is
addressed by its number; while it is delegated the base layer cannot open it.
-/

namespace BullsUnicorns.Chain

open Word

structure RoundAccount where
  round : RoundState
  delegated : Bool
deriving DecidableEq

structure World where
  arena : Arena
  treasury : Option Treasury
  rounds : ℕ → Option RoundAccount

/-- The program's own errors, and the refusals of the account constraints. -/
inductive ProgramError where
  | arena (e : ArenaError)
  | constraintHasOne
  | accountAlreadyInUse
  | accountNotInitialized
  | accountOwnedByWrongProgram
deriving DecidableEq

inductive Instruction where
  | initTreasury (signer : Pubkey)
  | setFeeBps (signer : Pubkey) (feeBps : UInt16)
  | openRound (signer : Pubkey) (roundNo : UInt64) (seedCommit : Bytes32) (lobbySeconds : UInt32)
  | delegateRound (signer : Pubkey) (roundNo : UInt64)
  | onRound (roundNo : UInt64) (i : RoundIx)
  | sweepHouseTake (roundNo : UInt64)
  | closeRoundAccount (signer : Pubkey) (roundNo : UInt64)

structure Call where
  now : ℤ
  ix : Instruction

def arenaError {α : Type} (x : Except ArenaError α) : Except ProgramError α :=
  x.mapError .arena

namespace World

def setRound (w : World) (roundNo : ℕ) (a : Option RoundAccount) : World :=
  { w with rounds := Function.update w.rounds roundNo a }

def account (w : World) (roundNo : ℕ) : Except ProgramError RoundAccount :=
  okOr (w.rounds roundNo) .accountNotInitialized

/-- The account of a round that this program owns. -/
def ownedAccount (w : World) (roundNo : ℕ) : Except ProgramError RoundAccount := do
  let a ← w.account roundNo
  require (a.delegated = false) .accountOwnedByWrongProgram
  pure a

def hasOneAuthority (w : World) (signer : Pubkey) : Except ProgramError Unit :=
  require (signer = w.arena.authority) .constraintHasOne

end World

abbrev Answer := Except ProgramError (World × Option Event)

def feeBpsOf (feeBps : UInt16) : Except ProgramError FeeBps :=
  if h : feeBps.toNat ≤ maxFeeBps then .ok ⟨feeBps.toNat, h⟩ else .error (.arena .feeTooHigh)

/-- The accounts right after `init_arena`. -/
def World.initial (authority : Pubkey) (feeBps : FeeBps) : World :=
  ⟨⟨authority, 0, feeBps⟩, none, fun _ => none⟩

def initArena (authority : Pubkey) (feeBps : UInt16) : Except ProgramError World := do
  let feeBps ← feeBpsOf feeBps
  pure (World.initial authority feeBps)

def initTreasury (w : World) (signer : Pubkey) : Answer := do
  w.hasOneAuthority signer
  require (w.treasury = none) .accountAlreadyInUse
  pure ({ w with treasury := some ⟨0, 0, 0⟩ }, none)

def setFeeBps (w : World) (signer : Pubkey) (feeBps : UInt16) : Answer := do
  w.hasOneAuthority signer
  let feeBps ← feeBpsOf feeBps
  pure ({ w with arena := { w.arena with feeBps } },
    some (.feeBpsChanged w.arena.feeBps feeBps))

/-- The counter is a `u64`; a round number one past its top is no `u64` and is never equal. -/
def openRound (w : World) (now : ℤ) (signer : Pubkey) (roundNo : UInt64) (seedCommit : Bytes32)
    (lobbySeconds : UInt32) : Answer := do
  w.hasOneAuthority signer
  require ((w.rounds roundNo.toNat).isNone = true) .accountAlreadyInUse
  require (roundNo.toNat = w.arena.roundCounter + 1) (.arena .roundOutOfOrder)
  let r := openedRound now roundNo.toNat seedCommit lobbySeconds
  let w := w.setRound roundNo.toNat (some ⟨r, false⟩)
  pure ({ w with arena := { w.arena with roundCounter := roundNo.toNat } },
    some (.roundOpened roundNo.toNat seedCommit r.lobbyOpenedAt r.lobbyClosesAt))

def delegateRound (w : World) (signer : Pubkey) (roundNo : UInt64) : Answer := do
  w.hasOneAuthority signer
  let a ← w.ownedAccount roundNo.toNat
  pure (w.setRound roundNo.toNat (some { a with delegated := true }), none)

/-- The instructions that end with `commit_and_undelegate`. -/
def RoundIx.undelegates : RoundIx → Bool
  | .abandonRound => true
  | .closeRound => true
  | _ => false

def sweepHouseTake (w : World) (roundNo : UInt64) : Answer := do
  let a ← w.ownedAccount roundNo.toNat
  let t ← okOr w.treasury .accountNotInitialized
  let (r, t, fees, penalties) ← arenaError (applySweep a.round t)
  let w := w.setRound roundNo.toNat (some { a with round := r })
  pure ({ w with treasury := some t },
    some (.houseSwept r.roundNo fees penalties t.feesAccrued t.penaltiesAccrued))

def closeRoundAccount (w : World) (signer : Pubkey) (roundNo : UInt64) : Answer := do
  w.hasOneAuthority signer
  let a ← w.ownedAccount roundNo.toNat
  arenaError (checkClosePermitted a.round w.arena.roundCounter)
  pure (w.setRound roundNo.toNat none, some (.roundAccountClosed a.round.roundNo))

section
variable (sha256 : List UInt8 → Bytes32)

def onRound (w : World) (now : ℤ) (roundNo : UInt64) (i : RoundIx) : Answer := do
  let a ← w.account roundNo.toNat
  let (r, e) ← arenaError (i.exec sha256 a.round w.arena now)
  let delegated := a.delegated && !i.undelegates
  pure (w.setRound roundNo.toNat (some ⟨r, delegated⟩), e)

def Instruction.exec (w : World) (now : ℤ) : Instruction → Answer
  | .initTreasury signer => Chain.initTreasury w signer
  | .setFeeBps signer feeBps => Chain.setFeeBps w signer feeBps
  | .openRound signer roundNo seedCommit lobbySeconds =>
      Chain.openRound w now signer roundNo seedCommit lobbySeconds
  | .delegateRound signer roundNo => Chain.delegateRound w signer roundNo
  | .onRound roundNo i => Chain.onRound sha256 w now roundNo i
  | .sweepHouseTake roundNo => Chain.sweepHouseTake w roundNo
  | .closeRoundAccount signer roundNo => Chain.closeRoundAccount w signer roundNo

def program : Machine World Call (Option Event) ProgramError where
  step w c := c.ix.exec sha256 w c.now

end

end BullsUnicorns.Chain
