import AccessPages.Common.Table
import AccessPages.Common.Prog
import AccessPages.Pages.Model
/-!
# Pages — the store

`PageStore` and its `CleanupQueue` as programs over single file and
database operations, so that an error or a crash can fall between any
two of them. A file is written by an atomic rename; what can still fail
after it is the `sync`. Every operation may fail: whether it does, and
what the clock and the remote service say, stands in the list of ticks
the host has left. The store's lock makes its methods follow one
another.
-/

namespace AccessPages

namespace Pages

/-! ## The disk -/

/-- A file of the directory, under the stem of its name. -/
inductive Path where
  | page (id : String)
  | marker (id : String)
  deriving DecidableEq, Repr

/-- Why `json.loads(path.read_text())` raised: an `OSError`, a
`JSONDecodeError`, or another `ValueError` such as a decoding error. -/
inductive ReadError where
  | os (text : String)
  | jsonDecode (text : String)
  | value
  deriving DecidableEq, Repr

/-- What a file reads as. -/
abbrev Content := Except ReadError Json

/-- A row of `cleanup`: a link that has to be deleted upstream. -/
structure CleanupRow where
  page : String
  grantId : String
  resource : String
  qurl : String
  due : Instant
  attempts : Nat
  deriving DecidableEq, Repr

/-- What is owed upstream for a grant. -/
structure Obligation where
  grantId : String
  resource : String
  qurl : String
  deriving DecidableEq, Repr

/-- `grant.get("resource_crid") or grant.get("resource_id")`. -/
def Grant.resource (g : Grant) : String :=
  if g.resourceCrid = "" then g.resourceId else g.resourceCrid

/-- The obligation of a grant, if it has both parts. -/
def Grant.obligation (g : Grant) : Option Obligation :=
  if g.qurlId = "" ∨ g.resource = "" then none else some ⟨g.id, g.resource, g.qurlId⟩

/-- The outcome of a deletion upstream: success, a `LayerVError` with the
delay it asks for, or another exception. -/
inductive Upstream where
  | success
  | layerVError (retryAfter : Option Int)
  | raises
  deriving DecidableEq, Repr

/-- What one operation meets: whether it fails, or is blind where it tests for a
file; the time; and the service. -/
structure Tick where
  fault : Bool
  blind : Bool
  now : Instant
  upstream : Upstream
  deriving DecidableEq, Repr

/-- The directory and the queue. `deleted` records the deletions reported
successful, `written` what every page file that was written held: neither
is read by the programs. -/
structure Disk where
  files : Table (Path × Content) Prod.fst
  cleanup : Table CleanupRow fun r => (r.resource, r.qurl)
  deleted : List (String × String)
  written : List (String × Json)

/-- A new directory. -/
def Disk.empty : Disk := ⟨.empty, .empty, [], []⟩

/-- What a path holds, if the file is there. -/
def Disk.content (d : Disk) (p : Path) : Option Content := (d.files.find? p).map Prod.snd

/-- The stems of the pages in the directory. -/
def Disk.pages (d : Disk) : List String :=
  d.files.rows.filterMap fun f => match f.1 with | .page id => some id | .marker _ => none

/-- The stems of the markers. -/
def Disk.markers (d : Disk) : List String :=
  d.files.rows.filterMap fun f => match f.1 with | .marker id => some id | .page _ => none

/-- A disk, and what its next operations meet. -/
structure Host where
  disk : Disk
  ticks : List Tick

/-! ## Operations -/

inductive FileOp where
  | ensureDirectory
  | isFile (path : Path)
  | read (path : Path)
  | write (path : Path) (value : Json)
  | sync
  | unlink (path : Path)
  | globPages
  | globMarkers
  | enqueue (pageId : String) (grant : Grant)
  | selectDue
  | deleteQurl (row : CleanupRow)
  | complete (resource qurl : String)
  | retry (row : CleanupRow) (retryAfter : Option Int)

def FileOp.Res : FileOp → Type
  | isFile _ => Bool
  | read _ => Content
  | globPages => List String
  | globMarkers => List String
  | selectDue => List CleanupRow
  | deleteQurl _ => Except (Option Int) Unit
  | _ => Unit

abbrev FileOp.Ans (e : FileOp) : Type := Except PageError e.Res

/-- What an operation raises when it fails. A failed read is the reader's
`OSError`, which it handles by name; `exists()` and `is_file()` raise
nothing, and answer `False`. -/
def FileOp.failed : (e : FileOp) → e.Ans
  | read _ => .ok (.error (.os ""))
  | isFile _ => .ok false
  | globPages => .error .os
  | globMarkers => .error .os
  | ensureDirectory => .error .os
  | write .. => .error .os
  | sync => .error .os
  | unlink _ => .error .os
  | enqueue .. => .error .database
  | selectDue => .error .database
  | deleteQurl _ => .error .os
  | complete .. => .error .database
  | retry .. => .error .database

/-- The row `enqueue` inserts. -/
def cleanupRow (pageId : String) (o : Obligation) (now : Instant) : CleanupRow :=
  ⟨pageId, o.grantId, o.resource, o.qurl, now, 0⟩

/-- The delay of the next attempt, in seconds. -/
def retryDelay (attempts : Nat) (retryAfter : Option Int) : Int :=
  max 1 (retryAfter.getD (min 3600 (2 ^ min (attempts + 1) 12)))

/-- A file, renamed into place. -/
def Disk.write (d : Disk) (p : Path) (v : Json) : Disk :=
  { d with
    files := d.files.insertOrReplace (p, .ok v)
    written := match p with | .page id => (id, v) :: d.written | .marker _ => d.written }

def Disk.unlink (d : Disk) (p : Path) : Disk :=
  { d with files := d.files.deleteWhere fun f => f.1 = p }

/-- `INSERT OR IGNORE`, of a grant that owes something. -/
def Disk.enqueue (d : Disk) (pageId : String) (g : Grant) (now : Instant) : Disk :=
  match g.obligation with
  | none => d
  | some o => { d with cleanup := d.cleanup.insertOrIgnore (cleanupRow pageId o now) }

def Disk.reportDeleted (d : Disk) (r : CleanupRow) : Disk :=
  { d with deleted := (r.resource, r.qurl) :: d.deleted }

def Disk.complete (d : Disk) (resource qurl : String) : Disk :=
  { d with cleanup := d.cleanup.deleteWhere fun r => r.resource = resource ∧ r.qurl = qurl }

def Disk.postpone (d : Disk) (r : CleanupRow) (retryAfter : Option Int) (now : Instant) : Disk :=
  { d with
    cleanup := d.cleanup.updateWhere (fun q => q.resource = r.resource ∧ q.qurl = r.qurl)
      (fun q => { q with
        due := now + second * retryDelay r.attempts retryAfter
        attempts := q.attempts + 1 })
      fun _ => rfl }

/-- An operation that succeeds, at the given tick. -/
def FileOp.perform (t : Tick) : (e : FileOp) → Disk → e.Ans × Disk
  | ensureDirectory, d => (.ok (), d)
  | isFile p, d => (.ok (d.content p).isSome, d)
  | read p, d => (.ok ((d.content p).getD (.error (.os ""))), d)
  | write p v, d => (.ok (), d.write p v)
  | sync, d => (.ok (), d)
  | unlink p, d => if (d.content p).isSome then (.ok (), d.unlink p) else (.error .os, d)
  | globPages, d => (.ok d.pages, d)
  | globMarkers, d => (.ok d.markers, d)
  | enqueue pageId g, d => (.ok (), d.enqueue pageId g t.now)
  | selectDue, d => (.ok ((d.cleanup.rows.filter fun r => r.due ≤ t.now).take 50), d)
  | deleteQurl r, d =>
      match t.upstream with
      | .success => (.ok (.ok ()), d.reportDeleted r)
      | .layerVError retryAfter => (.ok (.error retryAfter), d)
      | .raises => (.error .os, d)
  | complete resource qurl, d => (.ok (), d.complete resource qurl)
  | retry r retryAfter, d => (.ok (), d.postpone r retryAfter t.now)

/-- Whether an operation fails. -/
def FileOp.fails (t : Tick) : FileOp → Bool
  | isFile _ => t.blind
  | _ => t.fault

/-- No test for a file is blind. -/
def Sighted (ticks : List Tick) : Prop := ∀ t ∈ ticks, t.blind = false

instance (ticks : List Tick) : Decidable (Sighted ticks) :=
  inferInstanceAs (Decidable (∀ t ∈ ticks, t.blind = false))

/-- One operation. When the ticks have run out nothing fails. -/
def FileOp.step (e : FileOp) (w : Host) : e.Ans × Host :=
  match w.ticks with
  | [] => ((e.perform ⟨false, false, 0, .success⟩ w.disk).1, ⟨(e.perform ⟨false, false, 0, .success⟩ w.disk).2, []⟩)
  | t :: ticks =>
      if e.fails t then (e.failed, ⟨w.disk, ticks⟩)
      else ((e.perform t w.disk).1, ⟨(e.perform t w.disk).2, ticks⟩)

/-- A method of the store: it asks for one operation after another, and may
raise. -/
abbrev FileM := ExceptT PageError (Prog FileOp FileOp.Ans)

/-- Ask for one operation. -/
def ask (e : FileOp) : FileM e.Res := ExceptT.mk (Prog.call e)

/-! ## Methods -/

section Methods

variable [Python]

/-- `_path` and `_revoking_path` check the identifier; the name of the file
is the identifier as given. -/
def checkId (id : String) : FileM Unit := do
  let _ ← (liftM (validatePageId (.str id)) : FileM _)

/-- `path.exists()`. -/
def isFile (path : Path) : FileM Bool := ask (.isFile path)

/-- Raise `PageNotFoundError` unless the page has a file. -/
def requireFile (id : String) : FileM Unit := do
  if ← isFile (.page id) then return () else throw (.notFound id)

/-- `_write`. -/
def write (path : Path) (value : Json) : FileM Unit := do
  ask .ensureDirectory
  ask (.write path value)
  ask .sync

/-- `_load_unlocked`. -/
def loadUnlocked (id : String) : FileM Page := do
  checkId id
  requireFile id
  match ← ask (.read (.page id)) with
  | .error (.os text) => throw (.config ("Could not read page configuration: " ++ text))
  | .error (.jsonDecode text) => throw (.config ("Could not read page configuration: " ++ text))
  | .error .value => throw (.python .valueError)
  | .ok payload => do
      let page ← (liftM (validatePage payload (some id)) : FileM Page)
      if ← isFile (.marker id) then return { page with accessGrants := [] }
      else return page

/-- The grants a marker lists. -/
def markerGrants : Content → Except PageError (List Grant)
  | .ok (.obj fields) =>
      match Json.get? fields "grants" with
      | some v => validateAccessGrants v
      | none => .error (.python .valueError)
  | _ => .error (.python .valueError)

def enqueueAll (id : String) : List Grant → FileM Unit
  | [] => return ()
  | g :: gs => do
      ask (.enqueue id g)
      enqueueAll id gs

/-- The page file without its grants. -/
def eraseGrants (id : String) : FileM Unit := do
  if ← isFile (.page id) then
    match ← ask (.read (.page id)) with
    | .error (.os _) => throw .os
    | .error _ => throw (.python .valueError)
    | .ok v => do
        let page ← (liftM (validatePage v (some id)) : FileM Page)
        write (.page id) { page with accessGrants := [] }.toJson
  else return ()

/-- `_recover_revocation_unlocked`. -/
def recoverRevocationUnlocked (id : String) : FileM Unit := do
  checkId id
  if ← isFile (.marker id) then
    match markerGrants (← ask (.read (.marker id))) with
    | .error _ => throw (.config "Invalid durable revocation record")
    | .ok grants => do
        enqueueAll id grants
        eraseGrants id
        ask (.unlink (.marker id))
        ask .sync
  else return ()

def recoverEach : List String → FileM Unit
  | [] => return ()
  | id :: ids => do
      recoverRevocationUnlocked id
      recoverEach ids

/-- `sorted(self.directory.glob(...))`, by the names of the files. -/
def sortedStems (suffix : String) (stems : List String) : List String :=
  stems.insertionSort fun a b => a ++ suffix ≤ b ++ suffix

/-- `recover_pending_revocations`. -/
def recoverPendingRevocations : FileM Unit := do
  ask .ensureDirectory
  recoverEach (sortedStems ".revoking" (← ask .globMarkers))

/-- What a marker holds. -/
def markerJson (grants : List Grant) : Json := .obj [("grants", .arr (grants.map Grant.toJson))]

/-- `revoke_page_access_grants`. -/
def revokePageAccessGrants (id : String) : FileM (Page × List Grant) := do
  recoverRevocationUnlocked id
  let page ← loadUnlocked id
  let grants := page.accessGrants
  if grants = [] then return (page, grants)
  else do
    write (.marker id) (markerJson grants)
    recoverRevocationUnlocked id
    return ({ page with accessGrants := [] }, grants)

/-- `create`. -/
def create (payload : Json) : FileM Page := do
  let page ← (liftM (validatePage payload none) : FileM Page)
  if ← isFile (.page page.id) then
    throw (.config ("A page with the ID '" ++ page.id ++ "' already exists"))
  else do
    write (.page page.id) page.toJson
    return page

/-- `{**payload, "access_grants": grants}`. -/
def withGrants (grants : List Grant) : Json → Json
  | .obj fields =>
      .obj (fields.filter (·.1 ≠ "access_grants") ++
        [("access_grants", .arr (grants.map Grant.toJson))])
  | v => v

/-- `update`. Grants are never accepted from the payload. -/
def update (id : String) (payload : Json) : FileM Page := do
  checkId id
  requireFile id
  let current ← loadUnlocked id
  let page ← (liftM (validatePage (withGrants current.accessGrants payload) (some id)) :
    FileM Page)
  write (.page id) page.toJson
  return page

/-- `_replace_unlocked`. -/
def replaceUnlocked (id : String) (page : Json) : FileM Page := do
  checkId id
  requireFile id
  let validated ← (liftM (validatePage page (some id)) : FileM Page)
  write (.page id) validated.toJson
  return validated

omit [Python] in
theorem Grant.stripped_forgetLink (g : Grant) : ∀ s ∈ [g.createdAt, g.expiresAt, "", g.qurlSite,
    g.resourceId, g.qurlId, g.type, g.resourceCrid], strip s = s := by
  have hstripped := g.stripped
  simp only [List.mem_cons, List.not_mem_nil, or_false, forall_eq_or_imp, forall_eq] at hstripped ⊢
  exact ⟨hstripped.1, hstripped.2.1, rfl, hstripped.2.2.2⟩

/-- A grant without the owner's copy of the invitation. -/
def Grant.forgetLink (g : Grant) : Grant :=
  { g with
    qurlLink := ""
    stripped := g.stripped_forgetLink }

/-- `remove_saved_guest_link`. -/
def removeSavedGuestLink (id grantId : String) : FileM Page := do
  let page ← loadUnlocked id
  if page.accessGrants.all (·.id ≠ grantId) then throw (.notFound grantId)
  else replaceUnlocked id { page with
    accessGrants := page.accessGrants.map fun g : Grant =>
      if g.id = grantId then g.forgetLink else g }.toJson

/-- `remove_access_grant`. -/
def removeAccessGrant (id grantId : String) : FileM Page := do
  let page ← loadUnlocked id
  let grants := page.accessGrants
  let remaining := grants.filter (·.id ≠ grantId)
  if remaining.length = grants.length then throw (.notFound grantId)
  else do
    enqueueAll id (grants.filter (·.id = grantId))
    replaceUnlocked id { page with accessGrants := remaining }.toJson

/-- Whether a grant has expired. The text was validated when the page was
loaded. -/
def hasExpired (now : Instant) (g : Grant) : Except PageError Bool :=
  match awareTime g.expiresAt with
  | some t => .ok (t ≤ now)
  | none => .error (.python .valueError)

/-- The expired and the active grants. -/
def splitExpired (now : Instant) : List Grant → Except PageError (List Grant × List Grant)
  | [] => .ok ([], [])
  | g :: gs => do
      let gone ← hasExpired now g
      let (expired, active) ← splitExpired now gs
      return if gone then (g :: expired, active) else (expired, g :: active)

/-- `expire_access_grants`. -/
def expireAccessGrants (id : String) (now : Instant) : FileM (Page × List Grant) := do
  let page ← loadUnlocked id
  let (expired, active) ← (liftM (splitExpired now page.accessGrants) : FileM _)
  if expired = [] then return (page, expired)
  else do
    enqueueAll id expired
    return (← replaceUnlocked id { page with accessGrants := active }.toJson, expired)

/-- A load whose `PageConfigError` and `PageNotFoundError` skip the page. -/
def loadOrSkip (id : String) : FileM (Option Page) :=
  tryCatch (do return some (← loadUnlocked id)) fun
    | .config _ => return none
    | .notFound _ => return none
    | e => throw e

def loadEach : List String → FileM (List Page)
  | [] => return []
  | id :: ids => do
      let page ← loadOrSkip id
      return page.toList ++ (← loadEach ids)

/-- `list_pages`. -/
def listPages : FileM (List PageSummary) := do
  ask .ensureDirectory
  let pages ← loadEach (sortedStems ".json" (← ask .globPages))
  return (pages.map pageAdminSummary).insertionSort fun a b =>
    ¬ Python.lower b.title < Python.lower a.title

def revokeEach : List String → FileM (Nat × List (String × Grant))
  | [] => return (0, [])
  | id :: ids => do
      match ← loadOrSkip id with
      | none => revokeEach ids
      | some page =>
          if page.accessGrants = [] then revokeEach ids
          else do
            let _ ← revokePageAccessGrants page.id
            let (n, revoked) ← revokeEach ids
            return (n + 1, page.accessGrants.map (page.id, ·) ++ revoked)

/-- `revoke_all_access_grants`. -/
def revokeAllAccessGrants : FileM (Nat × List (String × Grant)) := do
  recoverPendingRevocations
  ask .ensureDirectory
  revokeEach (sortedStems ".json" (← ask .globPages))

/-- `delete`. -/
def delete (id : String) : FileM Unit := do
  checkId id
  requireFile id
  let _ ← revokePageAccessGrants id
  ask (.unlink (.page id))
  ask .sync

end Methods

def drainRows : List CleanupRow → FileM Unit
  | [] => return ()
  | r :: rs => do
      match ← ask (.deleteQurl r) with
      | .error retryAfter => ask (.retry r retryAfter)
      | .ok () => ask (.complete r.resource r.qurl)
      drainRows rs

/-- `CleanupQueue.drain`. -/
def drain : FileM Unit := do
  drainRows (← ask .selectDue)

end Pages

end AccessPages
