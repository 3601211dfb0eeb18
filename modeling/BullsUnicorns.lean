import BullsUnicorns.Lib.Word
import BullsUnicorns.Lib.Base
import BullsUnicorns.Lib.Machine
import BullsUnicorns.Lib.Prefix
import BullsUnicorns.Lib.Replay
import BullsUnicorns.Chain.State
import BullsUnicorns.Chain.Rules
import BullsUnicorns.Chain.Books
import BullsUnicorns.Chain.Instructions
import BullsUnicorns.Chain.Program
import BullsUnicorns.Chain.Lemmas.Fight
import BullsUnicorns.Chain.Lemmas.Steps
import BullsUnicorns.Chain.Lemmas.Invariants
import BullsUnicorns.Chain.Lemmas.Frozen
import BullsUnicorns.Chain.Lemmas.Clock
import BullsUnicorns.Chain.Lemmas.Unextracted
import BullsUnicorns.Chain.Lemmas.World
import BullsUnicorns.Chain.Lemmas.Ledger
import BullsUnicorns.Chain.Theorems.Conservation
import BullsUnicorns.Chain.Theorems.Outcome
import BullsUnicorns.Chain.Theorems.Availability
import BullsUnicorns.Chain.Theorems.Treasury
import BullsUnicorns.Chain.Theorems.Lifecycle
import BullsUnicorns.Chain.Theorems.Settlement
import BullsUnicorns.Mirror.ErSim
import BullsUnicorns.Mirror.VerifyRound
import BullsUnicorns.Mirror.Lemmas.Parity
import BullsUnicorns.Mirror.Lemmas.Verifier
import BullsUnicorns.Mirror.Theorems
import BullsUnicorns.Keeper.LobbyPolicy
import BullsUnicorns.Keeper.Theorems.Lobby
import BullsUnicorns.Keeper.Closer
import BullsUnicorns.Keeper.Lemmas.Scan
import BullsUnicorns.Keeper.Lemmas.Closer
import BullsUnicorns.Keeper.Lemmas.Passes
import BullsUnicorns.Keeper.Theorems.CloseCursor
import BullsUnicorns.Keeper.Theorems.Burn
import BullsUnicorns.Keeper.StatusContract
import BullsUnicorns.Keeper.StatusFile
import BullsUnicorns.Keeper.Theorems.Status
import BullsUnicorns.Identity.PgStore
import BullsUnicorns.Identity.Lemmas.PgRegister
import BullsUnicorns.Identity.MemoryStore
import BullsUnicorns.Identity.Lemmas.MemoryRegister
import BullsUnicorns.Identity.Ingest
import BullsUnicorns.Identity.Theorems.Register
import BullsUnicorns.Repeat.AutoDeploy
import BullsUnicorns.Repeat.UseAutoDeploy
import BullsUnicorns.Repeat.Lemmas.Attempts
import BullsUnicorns.Repeat.Lemmas.Page
import BullsUnicorns.Repeat.Theorems.Bounds
import BullsUnicorns.Repeat.Lemmas.Books
import BullsUnicorns.Repeat.Theorems.Charged
import BullsUnicorns.Identity.Challenge
import BullsUnicorns.Lib.Task
import BullsUnicorns.Identity.Ceremony
import BullsUnicorns.Identity.Lemmas.WriteLaws
import BullsUnicorns.Identity.Lemmas.Requests
import BullsUnicorns.Identity.Lemmas.Redemptions
import BullsUnicorns.Identity.Theorems.Ceremony
import BullsUnicorns.Lib.Loop
import BullsUnicorns.Battle.Game
import BullsUnicorns.Battle.Purses
import BullsUnicorns.Battle.Lemmas.Blows
import BullsUnicorns.Battle.Lemmas.Steps
import BullsUnicorns.Battle.Lemmas.Start
import BullsUnicorns.Battle.Theorems.Conservation
import BullsUnicorns.Battle.GameN
import BullsUnicorns.Battle.Browser
import BullsUnicorns.Battle.Lemmas.Parity
import BullsUnicorns.Battle.Theorems.Parity
import BullsUnicorns.Battle.Round
import BullsUnicorns.Battle.Lemmas.Canon
import BullsUnicorns.Battle.Lemmas.Rounds
import BullsUnicorns.Battle.Theorems.CommitReveal
import BullsUnicorns.Engine.Arenas
import BullsUnicorns.Engine.Ledger
import BullsUnicorns.Engine.Bots
import BullsUnicorns.Engine.Server
import BullsUnicorns.Battle.Lemmas.Payouts
import BullsUnicorns.Battle.Lemmas.Bags
import BullsUnicorns.Battle.Lemmas.Moments
import BullsUnicorns.Battle.Lemmas.Shares
import BullsUnicorns.Engine.Teams
import BullsUnicorns.Engine.Process
import BullsUnicorns.Engine.Lemmas.Ledger
import BullsUnicorns.Engine.Lemmas.Acts
import BullsUnicorns.Engine.Lemmas.Books
import BullsUnicorns.Engine.Lemmas.Stakes
import BullsUnicorns.Engine.Lemmas.Names
import BullsUnicorns.Engine.Lemmas.Sound
import BullsUnicorns.Engine.Lemmas.Kept
import BullsUnicorns.Engine.Lemmas.Serve
import BullsUnicorns.Engine.Lemmas.Renew
import BullsUnicorns.Engine.Lemmas.Thrift
import BullsUnicorns.Engine.Lemmas.Boot
import BullsUnicorns.Engine.Theorems.Thrift
import BullsUnicorns.Chain.Lemmas.Strike
import BullsUnicorns.Chain.Theorems.Fight
import BullsUnicorns.Chain.Theorems.Extraction
import BullsUnicorns.Chain.Buffers
import BullsUnicorns.Chain.Theorems.Buffers
import BullsUnicorns.Mirror.HitEvents
import BullsUnicorns.Mirror.Lemmas.HitEvents
import BullsUnicorns.Keeper.Sweeper
import BullsUnicorns.Keeper.Theorems.Sweeper
import BullsUnicorns.Keeper.HouseBank
import BullsUnicorns.Keeper.Lemmas.House
import BullsUnicorns.Keeper.Lemmas.HousePlan
import BullsUnicorns.Keeper.Theorems.House
import BullsUnicorns.Engine.Sessions
import BullsUnicorns.Engine.Lemmas.Sessions
import BullsUnicorns.Engine.Theorems.Sessions
import BullsUnicorns.Keeper.Reclamation
import BullsUnicorns.Keeper.Theorems.Brake
import BullsUnicorns.Keeper.Theorems.SweepGap
import BullsUnicorns.Keeper.Theorems.Scan
import BullsUnicorns.Lib.History
import BullsUnicorns.Keeper.LoopWatchdog
import BullsUnicorns.Keeper.Theorems.Watchdog
import BullsUnicorns.Lib.FixedWindow
import BullsUnicorns.Lib.Text
import BullsUnicorns.Identity.Lemmas.RateRows
import BullsUnicorns.Identity.Theorems.RateLimit
import BullsUnicorns.Identity.Lemmas.Instants
import BullsUnicorns.Identity.Theorems.Messages
import BullsUnicorns.Lib.Cursor
import BullsUnicorns.Repeat.Lemmas.Profit
import BullsUnicorns.Repeat.Theorems.Profit
import BullsUnicorns.Lib.SingleFlight
import BullsUnicorns.Identity.HouseWallets
import BullsUnicorns.Identity.Theorems.HouseWallets
import BullsUnicorns.Identity.PrivyIdentity
import BullsUnicorns.Identity.Theorems.PrivyKeys
import BullsUnicorns.Lib.Utf16
import BullsUnicorns.Lib.Netstring
import BullsUnicorns.Lib.Whole
import BullsUnicorns.Identity.XLink
import BullsUnicorns.Identity.Lemmas.Attest
import BullsUnicorns.Identity.Theorems.Attestation
import BullsUnicorns.Lib.OrderedMap
import BullsUnicorns.Engine.Reconcile
import BullsUnicorns.Engine.Theorems.RecoverFloat
import BullsUnicorns.Engine.Theorems.Reconcile
import BullsUnicorns.Repeat.HistoryScan
import BullsUnicorns.Repeat.Theorems.HistoryScan
import BullsUnicorns.Battle.Theorems.Teams
import BullsUnicorns.Battle.Lemmas.Owners
import BullsUnicorns.Battle.Theorems.OwnWallet
import BullsUnicorns.Engine.RoundPrices
import BullsUnicorns.Engine.Theorems.RoundPrices
import BullsUnicorns.Engine.Convert
import BullsUnicorns.Engine.Lemmas.Otc
import BullsUnicorns.Engine.Lemmas.Convert
import BullsUnicorns.Engine.Theorems.Convert
import BullsUnicorns.Engine.Host
import BullsUnicorns.Engine.Lemmas.Store
import BullsUnicorns.Engine.Lemmas.Candid
import BullsUnicorns.Engine.Lemmas.Passes
import BullsUnicorns.Engine.Lemmas.Cash
import BullsUnicorns.Engine.Lemmas.Host
import BullsUnicorns.Engine.Lemmas.HostRuns
import BullsUnicorns.Engine.Theorems.Restart
import BullsUnicorns.Repeat.LostRounds
import BullsUnicorns.Repeat.Lemmas.LostRounds
import BullsUnicorns.Repeat.Theorems.LostRounds
import BullsUnicorns.Engine.Lemmas.Pool
import BullsUnicorns.Engine.Theorems.Pool
import BullsUnicorns.Lib.Stringify
import BullsUnicorns.Lib.Decimal
import BullsUnicorns.Lib.Collate
import BullsUnicorns.Engine.Memo
import BullsUnicorns.Engine.Theorems.Results
import BullsUnicorns.Engine.Lemmas.Memo
import BullsUnicorns.Engine.Theorems.Memo
import BullsUnicorns.Battle.Verify
import BullsUnicorns.Battle.Theorems.Verify
import BullsUnicorns.Engine.Lemmas.Tally
import BullsUnicorns.Engine.Theorems.Balance
import BullsUnicorns.Engine.Theorems.Refund
import BullsUnicorns.Engine.Custody
import BullsUnicorns.Engine.Lemmas.Custody
import BullsUnicorns.Engine.Theorems.Custody
import BullsUnicorns.Lib.Layout
import BullsUnicorns.Chain.Layout
import BullsUnicorns.Chain.Lemmas.Layout
import BullsUnicorns.Chain.Theorems.Layout
import BullsUnicorns.Engine.Lemmas.RoundPrices
import BullsUnicorns.Engine.Theorems.RoundLengths
