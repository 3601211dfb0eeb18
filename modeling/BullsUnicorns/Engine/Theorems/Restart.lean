import BullsUnicorns.Engine.Lemmas.HostRuns
import BullsUnicorns.Engine.Theorems.Convert
import BullsUnicorns.Engine.Theorems.Thrift

/-!
# What a restart keeps

The ledger is saved, read back by a new process, and every account and counter is compared with what it was. Only
SOL that no deposit of SOL backs, and the counters of an engine that nobody has played on, do not come back.
-/

namespace BullsUnicorns.Engine

open Battle

/-! ## The statement -/

/-- What a player has of an account. -/
def Account.money (a : Account) : (Field → ℚ) × ℚ × ℚ × ℚ × ℚ × String × ℚ :=
  (a.bal, a.depIn, a.wOut, a.depInSol, a.wOutSol, a.refBy, a.refEarned)

/-- The account of a wallet in the next process: one that was not saved is made when it is asked for. -/
def Host.broughtBack (h : Host) (id : String) (side : Side) : Account :=
  ((acct (restored h.saved.db).1 id side).get id).getD default

/-- What a save and a start keep of the state that they find. -/
structure Keeps (h : Host) : Prop where
  money : ∀ id a, h.engine.ledger.get id = some a → a.isBot = false → ∀ side, (h.broughtBack id side).money = a.money
  accounts : ∀ id a, h.engine.ledger.get id = some a → (∃ f, a.bal f ≠ 0) → ((restored h.saved.db).1.get id).isSome
  counters : (restored h.saved.db).2 = h.engine.roundsByArena
  intact : ∀ throws snap n, n ≤ snap.statements.length → throws n = true → writeSnapshot throws snap h.db = h.db

/-- No player holds SOL beyond what deposits of SOL back, and rounds were only played where somebody was active. -/
structure Backed (h : Host) : Prop where
  sol : ∀ id a, h.engine.ledger.get id = some a → a.isBot = false →
    a.bal .sol ≤ max 0 (a.depInSol - a.wOutSol) + 1 / 10000
  counters : h.Idle → ∀ arena, h.engine.roundsByArena arena = 0

variable {env : HostEnv} {h : Host}

/-! ## What comes back -/

/-- An account that nothing was done with is as it would be made. -/
theorem inactive_money {a : Account} (hc : Clean a) (hbal : ∀ f, 0 ≤ a.bal f) (hact : hasActivity a = false)
    (id : String) (side : Side) : a.money = (Account.fresh id side false).money := by
  simp only [hasActivity, Bool.or_eq_false_iff, decide_eq_false_iff_not, not_lt] at hact
  obtain ⟨⟨⟨⟨⟨⟨⟨⟨⟨-, hbull⟩, huwu⟩, hsol⟩, hdep⟩, -⟩, -⟩, hin⟩, hout⟩, href⟩ := hact
  have hbals : a.bal = fun _ => 0 := by
    funext f
    cases f with
    | bull => exact le_antisymm hbull (hbal _)
    | uwu => exact le_antisymm huwu (hbal _)
    | sol => exact le_antisymm hsol (hbal _)
  have hsolIn : a.depInSol = 0 := by
    by_contra hne
    exact absurd (hc.solIn hne) (not_lt.mpr hin)
  have hsolOut : a.wOutSol = 0 := by
    by_contra hne
    exact absurd (hc.solOut hne) (not_lt.mpr hout)
  have hrefBy : a.refBy = "" := by
    by_contra hne
    exact absurd (hc.referred hne) (not_lt.mpr hdep)
  rw [Account.money, hbals, le_antisymm hin hc.depIn, le_antisymm hout hc.wOut, hsolIn, hsolOut, hrefBy,
    le_antisymm href hc.refEarned]
  rfl

theorem broughtBack_active (hk : Keyed h.engine.ledger) {id : String} {a : Account}
    (ha : h.engine.ledger.get id = some a) (hact : hasActivity a = true) (side : Side) :
    h.broughtBack id side = writeOff a := by
  have hget : (restored h.saved.db).1.get id = some (writeOff a) := by
    rw [restored_accounts hk]
    exact (restore_get hk).mpr ⟨a, ha, hact, rfl⟩
  simp [Host.broughtBack, acct, hget]

theorem broughtBack_inactive (hk : Keyed h.engine.ledger) {id : String} {a : Account}
    (ha : h.engine.ledger.get id = some a) (hact : hasActivity a = false) (side : Side) :
    h.broughtBack id side = Account.fresh id side false := by
  have hget : (restored h.saved.db).1.get id = none := by
    rw [restored_accounts hk]
    cases hb : (restore (snapshot h.engine)).get id with
    | none => rfl
    | some b =>
        obtain ⟨a', ha', hact', -⟩ := (restore_get hk).mp hb
        rw [ha] at ha'
        cases ha'
        rw [hact] at hact'
        cases hact'
  simp [Host.broughtBack, acct, hget, OrderedMap.get_set]

/-- A write-off takes nothing exactly where a deposit backs all of the SOL. -/
theorem writeOff_money {a : Account} (hbot : a.isBot = false) :
    (writeOff a).money = a.money ↔ a.bal .sol ≤ max 0 (a.depInSol - a.wOutSol) + 1 / 10000 := by
  unfold writeOff
  rw [if_neg (by simp [hbot])]
  extract_lets backed
  split
  · next hover =>
      constructor
      case mp =>
          intro heq
          have hsol := congrFun (congrArg Prod.fst heq) .sol
          have hbacked : backed = a.bal .sol := by simpa [Account.money] using hsol
          rw [hbacked] at hover
          linarith
      case mpr => exact fun hle => absurd hover (not_lt.mpr hle)
  · next hwithin => exact iff_of_true rfl (not_lt.mp hwithin)

/-- A save and a start keep everything exactly where SOL is backed and the counters have an account beside them. -/
theorem Ordered.keeps_iff (ho : Ordered env h) : Keeps h ↔ Backed h := by
  have hk := ho.sound.keyed
  obtain ⟨hidle, hbusy⟩ := restored_counters hk
  have hbal : ∀ id a, h.engine.ledger.get id = some a → ∀ f, 0 ≤ a.bal f :=
    fun id a ha f => Ledger.bal_of_get ha ▸ ho.sound.nonneg id f
  constructor
  case mp =>
      intro hkeeps
      refine ⟨fun id a ha hbot => ?_, fun hi arena => ?_⟩
      · cases hact : hasActivity a with
        | true =>
            rw [← writeOff_money hbot, ← broughtBack_active hk ha hact a.side]
            exact hkeeps.money id a ha hbot a.side
        | false =>
            have hnone : a.money = _ := inactive_money (ho.candid id a ha hbot) (hbal id a ha) hact id a.side
            have hsol : a.bal .sol = 0 := congrFun (congrArg Prod.fst hnone) .sol
            rw [hsol]
            positivity
      · rw [← hkeeps.counters, hidle hi]
  case mpr =>
      intro hbacked
      constructor
      case money =>
          intro id a ha hbot side
          cases hact : hasActivity a with
          | true =>
              rw [broughtBack_active hk ha hact side, writeOff_money hbot]
              exact hbacked.sol id a ha hbot
          | false =>
              rw [broughtBack_inactive hk ha hact side]
              exact (inactive_money (ho.candid id a ha hbot) (hbal id a ha) hact id side).symm
      case accounts =>
          rintro id a ha ⟨f, hf⟩
          have hact : hasActivity a = true := by
            cases hbot : a.isBot with
            | true => exact hasActivity_bot hbot
            | false =>
                by_contra hnot
                have hinactive : hasActivity a = false := by simpa using hnot
                have hnone := inactive_money (ho.candid id a ha hbot) (hbal id a ha) hinactive id a.side
                exact hf (congrFun (congrArg Prod.fst hnone) f)
          have hget : (restore (snapshot h.engine)).get id = some (writeOff a) :=
            (restore_get hk).mpr ⟨a, ha, hact, rfl⟩
          rw [restored_accounts hk, hget]
          rfl
      case counters =>
          by_cases hi : h.Idle
          · rw [hidle hi]
            funext arena
            exact (hbacked.counters hi arena).symm
          · exact hbusy hi
      case intact => exact fun throws snap n hn hthrows => writeSnapshot_throws hn hthrows

/-- In every state of every run a restart keeps the money of every player, every account that holds any and every
counter exactly where no player's SOL goes beyond its deposits and somebody has played the rounds that were counted;
and no number of a round is settled twice while the restarts find their counters. -/
theorem restart_keeps_iff_backed (env : HostEnv) (b : BootDraw) (vault : Field → ℚ) (events : List HostEvent) :
    (Keeps ((host env).run (Host.first env b vault) events) ↔ Backed ((host env).run (Host.first env b vault) events)) ∧
      ((host env).Each (CountersLast env) (Host.first env b vault) events →
        ((host env).run (Host.first env b vault) events).used.Nodup) :=
  ⟨(run_ordered b vault events).keeps_iff, fun hlast => (run_numbered b vault events hlast).once⟩

/-! ## A player who has changed a token into SOL -/

def smallHost : HostEnv where
  settings := oneArena
  convert := { swapsOnly with
    pool := ["house"]
    pool_nodup := List.nodup_singleton "house"
    pool_wallets := fun id h => by
      obtain rfl := List.mem_singleton.mp h
      unfold IsWallet
      decide }
  pool := rfl

/-- Ten of a token are deposited and swapped for a twentieth of a SOL, at a hundred dollars. -/
def swapped : Host :=
  (host smallHost).run (Host.first smallHost plainBoot fun _ => 100)
    [.deposit "player" .bull 10,
      .convert (.convert ⟨"player", some .sol, some .bull, none⟩ ⟨false, 100000, fun _ => 1, 100, 100, fun _ => 0⟩),
      .convert (.quoted 0 (some ⟨50000000, 0⟩) true), .convert (.lands 0 50000000), .convert (.confirmed 0)]

theorem swapped_account :
    (swapped.engine.ledger.get "player").map (fun a => (a.isBot, a.bal .sol, a.depIn, a.depInSol)) =
    some (false, 4985 / 1000, 10, 0) := by
  decide +kernel

theorem swapped_broughtBack : (swapped.broughtBack "player" .bull).bal .sol = 0 := by decide +kernel

/-- A player puts up five tokens for the bulls. -/
def playersFive : EnterMsg where
  wallet := "player"
  aid := ⟨.au, .normal⟩
  side := .bull
  stake := some 5
  ref := none
  key := ⟨by decide, by decide, by decide⟩

/-- A player deposits ten tokens and plays a round alone. -/
def playedOnce : List HostEvent :=
  [.deposit "player" .bull 10, .serve (.enter par (fun _ => 0) playersFive),
    .serve (.tick par ⟨.au, .normal⟩ 9000 ⟨"secret", 0, 0⟩ fun _ => plainBot),
    .serve (.tick par ⟨.au, .normal⟩ 49000 ⟨"secret", 0, 0⟩ fun _ => plainBot)]

/-- A round is settled before a restart and one after it. -/
def playedTwice : List HostEvent := playedOnce ++ .restart (some par) plainBoot :: playedOnce

def firstHost : Host := Host.first smallHost plainBoot fun _ => 100

theorem playedOnce_active :
    ((((host smallHost).run firstHost playedOnce).leaving smallHost (some par)).engine.ledger.get "player").any
      hasActivity = true := by
  decide +kernel

theorem playedTwice_last : (host smallHost).Each (CountersLast smallHost) firstHost playedTwice := by
  refine (Machine.each_append _ _ _ _).mpr ⟨⟨trivial, trivial, trivial, trivial, trivial⟩, fun hidle => ?_, trivial,
    trivial, trivial, trivial, trivial⟩
  obtain ⟨a, ha, hact⟩ := (Option.any_eq_true _ _).mp playedOnce_active
  exact absurd (hidle "player" a ha) (by simp [hact])

theorem playedTwice_used : ((host smallHost).run firstHost playedTwice).used =
    [(.two ⟨.au, .normal⟩, 1), (.two ⟨.au, .normal⟩, 2)] := by
  decide +kernel

/-- The process that comes up goes on with the next number. -/
theorem restart_keeps_iff_backed_witness : ((host smallHost).run firstHost playedTwice).used.Nodup ∧
    ((host smallHost).run firstHost playedTwice).used.length = 2 :=
  ⟨(restart_keeps_iff_backed smallHost plainBoot (fun _ => 100) playedTwice).2 playedTwice_last,
    congrArg List.length playedTwice_used⟩

/-- The SOL of that player is gone after a restart. -/
theorem swapped_sol_is_written_off : ¬Keeps swapped := by
  intro hkeeps
  obtain ⟨a, ha, hparts⟩ := Option.map_eq_some_iff.mp swapped_account
  simp only [Prod.mk.injEq] at hparts
  obtain ⟨hbot, hsol, -, -⟩ := hparts
  have hmoney := congrFun (congrArg Prod.fst (hkeeps.money "player" a ha hbot .bull)) .sol
  change (swapped.broughtBack "player" .bull).bal .sol = a.bal .sol at hmoney
  rw [swapped_broughtBack, hsol] at hmoney
  norm_num at hmoney

end BullsUnicorns.Engine
