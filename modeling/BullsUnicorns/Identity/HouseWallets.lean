import BullsUnicorns.Lib.SingleFlight
import BullsUnicorns.Identity.Ceremony

/-!
# The house list

`houseWallets.ts`: the keeper's wallets, read at most once at a time and kept. Acts are the calls of `get`, in any
order with the outcomes of the fetches and with the ends of their promises. A timeout is one way to throw.
-/

namespace BullsUnicorns.Identity

open SingleFlight

def REFRESH_SECONDS : ℚ := 60

def HOUSE_LIST_UNKNOWN : HouseList := ⟨[], true⟩

/-- One bad entry invalidates the whole list. -/
def houseWalletsFrom (body : Json) : Option (List String) :=
  match body.get? "wallets" with
  | some (.arr wallets) => (wallets.mapM fun w : Json => w.isString.filter (· ≠ "")).map List.eraseDups
  | _ => none

structure HouseListDeps where
  url : String
  token : String

/-- What a fetch comes to; a body is absent where it is no JSON. -/
inductive FetchOutcome where
  | threw
  | response (status : ℕ) (body : Option Json)

inductive HouseEffect where
  | fetch (url authorization : String)
  | warn (text : String)
  | answer (list : HouseList)
deriving DecidableEq

def unauthorised (deps : HouseListDeps) : String :=
  "[houseWallets] " ++ deps.url ++ " returned 401. KEEPER_HOUSE_TOKEN does not match the " ++
    "keeper's secret; every X link is being withheld until it does."

/-- `res.ok`. -/
def statusOk (status : ℕ) : Bool := 200 ≤ status && status ≤ 299

/-- `fetchOnce`, from the outcome on. -/
def fetchedWallets : FetchOutcome → Option (List String)
  | .threw => none
  | .response status body =>
      if status = 401 then none
      else if !statusOk status then none
      else body.bind houseWalletsFrom

/-- The one failure that earns a line. -/
def fetchWarnings (deps : HouseListDeps) : FetchOutcome → List HouseEffect
  | .response status _ => if status = 401 then [.warn (unauthorised deps)] else []
  | .threw => []

structure Cached where
  list : HouseList
  atSec : ℚ

structure HouseListCache where
  cached : Option Cached
  flights : Flights ℚ HouseList
  /-- The promise that each waiting caller has been given. -/
  waiting : List ℕ

def HouseListCache.new : HouseListCache := ⟨none, .idle, []⟩

/-- `refresh`, once its fetch has come back: what is cached now, and the answer. -/
def refreshed (cached : Option Cached) (nowSec : ℚ) : Option (List String) → Option Cached × HouseList
  | some fetched => (some ⟨⟨fetched, false⟩, nowSec⟩, ⟨fetched, false⟩)
  | none => (cached, (cached.map Cached.list).getD HOUSE_LIST_UNKNOWN)

inductive HouseAct where
  | get (nowSec : ℚ)
  | settled (id : ℕ) (outcome : FetchOutcome)
  /-- `finally`, and the callers of the promise go on. -/
  | released (id : ℕ)

namespace HouseListCache

def get (deps : HouseListDeps) (s : HouseListCache) (now : ℚ) : HouseListCache × List HouseEffect :=
  match s.cached.filter fun c => now - c.atSec < REFRESH_SECONDS with
  | some c => (s, [.answer c.list])
  | none =>
      match s.flights.inflight with
      | some id => ({ s with waiting := s.waiting ++ [id] }, [])
      | none =>
          ({ s with flights := s.flights.start now, waiting := s.waiting ++ [s.flights.begun] },
            [.fetch deps.url ("Bearer " ++ deps.token)])

def settle (s : HouseListCache) (id : ℕ) (nowSec : ℚ) (outcome : FetchOutcome) : HouseListCache :=
  { s with
    cached := (refreshed s.cached nowSec (fetchedWallets outcome)).1
    flights := s.flights.settle id (refreshed s.cached nowSec (fetchedWallets outcome)).2 }

def release (s : HouseListCache) (id : ℕ) (list : HouseList) : HouseListCache × List HouseEffect :=
  ({ s with flights := s.flights.release id, waiting := s.waiting.filter (· ≠ id) },
    (s.waiting.filter (· = id)).map fun _ => .answer list)

end HouseListCache

/-- Only a fetch that runs comes back, and only a promise that has its value ends. -/
def houseListCache (deps : HouseListDeps) : Machine HouseListCache HouseAct (List HouseEffect) Unit where
  step
    | s, .get now => .ok (s.get deps now)
    | s, .settled id outcome =>
        match s.flights.find? id with
        | some ⟨_, began, none⟩ => .ok (s.settle id began outcome, fetchWarnings deps outcome)
        | _ => .error ()
    | s, .released id =>
        match s.flights.find? id with
        | some ⟨_, _, some list⟩ => .ok (s.release id list)
        | _ => .error ()

end BullsUnicorns.Identity
