import BullsUnicorns.Identity.Register

/-!
# Ingestions beside the statements

`xlink-ingest.ts`: an ingestion finds its row, fetches the picture, and then writes it. Anything may
run between the two store calls, so an ingestion is two acts of the site.
-/

namespace BullsUnicorns.Identity

def reservedMockXIds : List String :=
  ["9990000000000001", "9990000000000002", "9990000000000003", "9990000000000004", "9990000000000005",
   "9990000000000006"]

/-- What `reencode` answers. -/
structure IngestedAvatar where
  bytes : List UInt8
  hash : String
deriving DecidableEq, Repr

/-- `ingestOne` up to the fetch: a row that is shown, has a picture and is not a fixture's. -/
def ingestFetches (xId : String) : Option IngestTarget → Bool
  | none => false
  | some target => !target.suppressed && target.avatarUrl.isSome && !reservedMockXIds.contains xId

/-- The store, and the ids whose ingestion is fetching. -/
structure Site (σ : Type) where
  store : σ
  fetching : List String

inductive SiteAct where
  | statement (a : RegisterAct)
  | find (xId : String)
  /-- A fetch ends, with a picture or with a refusal. -/
  | fetched (k : ℕ) (picture : Option IngestedAvatar) (atSec : ℤ)
deriving DecidableEq, Repr

variable {σ : Type}

namespace RegisterStore

variable (S : RegisterStore σ)

/-- The statement that an act runs, if any. -/
def statementOf (s : Site σ) : SiteAct → Option RegisterAct
  | .statement a => some a
  | .find _ => none
  | .fetched k picture atSec =>
      match s.fetching[k]?, picture with
      | some xId, some out => some (.putAvatar xId out.hash out.bytes atSec)
      | _, _ => none

def fetchingAfter (s : Site σ) : SiteAct → List String
  | .statement _ => s.fetching
  | .find xId =>
      if ingestFetches xId (S.links.findForIngest xId s.store) then s.fetching ++ [xId] else s.fetching
  | .fetched k _ _ => s.fetching.eraseIdx k

/-- One act: its statement, if it runs one, and where the ingestions then stand. -/
def siteStep (s : Site σ) (a : SiteAct) : Site σ × Answer :=
  match statementOf s a with
  | some act => (⟨(S.perform s.store act).2, S.fetchingAfter s a⟩, (S.perform s.store act).1)
  | none => (⟨s.store, S.fetchingAfter s a⟩, .found false)

def site : Machine (Site σ) SiteAct Answer Empty where
  step s a := .ok (S.siteStep s a)

/-- The site after a run from an empty register. -/
def reached (acts : List SiteAct) : Site σ := S.site.run ⟨S.empty, []⟩ acts

/-- The acts of a run with their answers. -/
def log (acts : List SiteAct) : List (SiteAct × Answer) := S.site.accepted ⟨S.empty, []⟩ acts

@[simp]
theorem reached_nil : S.reached [] = ⟨S.empty, []⟩ := rfl

theorem reached_snoc (acts : List SiteAct) (a : SiteAct) :
    S.reached (acts ++ [a]) = (S.siteStep (S.reached acts) a).1 := by
  rw [reached, Machine.run_append]
  rfl

end RegisterStore

/-! ## Reading a log -/

end BullsUnicorns.Identity
