import AccessPages.Common.Server
import AccessPages.Pages.Store
/-!
# LayerV — the broker's records and what surrounds them

The LayerV broker owns resources and invitations that exist upstream. It
keeps four records of them: the resource database of `GuestResources`,
the journal of `PendingInvitations`, one mapping file for each grant, and
the queue of deferred revocations. Each transaction and each request to
the outside is one question. What a question meets is a tick: whether it
fails, whether a request that fails was applied upstream all the same,
and what other threads, the gateway and its cleanup queue do before it.
-/

namespace AccessPages

namespace LayerV

open Pages (UpstreamScope CleanupRow)

/-! ## Failures -/

/-- Which constraint an `sqlite3.IntegrityError` is about. -/
inductive Constraint where
  | primaryKey | unique
  deriving DecidableEq, Repr

/-- The exceptions of the broker: the two of its own, those of a page
store, of the file system, of SQLite and of the language. -/
inductive Failure where
  | layerV (message : String) (status : Option Nat) (retryAfter : Option Int)
  | policy (message : String) (status : Nat)
  | pageConfig
  | os
  | integrity (c : Constraint)
  | database
  | python (e : PyError)
  deriving DecidableEq, Repr

/-! ## Records -/

inductive Phase where
  | creating | ready | retiring | revoked
  deriving DecidableEq, Repr

/-- A row of `resources`. -/
structure Resource where
  page : String
  grantId : String
  connectorId : String
  target : String
  crid : Option String
  publicKey : Option String
  phase : Phase
  createdAt : Instant
  recoveryDue : Instant
  recoveryAttempts : Nat
  deriving DecidableEq, Repr

/-- A row of `retirements`. -/
structure Retirement where
  page : String
  grantId : String
  crid : String
  due : Instant
  attempts : Nat
  qurlId : String
  managementOnly : Bool
  deriving DecidableEq, Repr

/-- The database of `GuestResources`. `gate` is the row `orphan_publication`
of `recovery_gates`; the row of `enrollment_state` is the publisher's. -/
structure Registry where
  resources : Table Resource fun r => (r.page, r.grantId)
  generations : Table (String × Nat) Prod.fst
  retirements : Table Retirement fun r => (r.page, r.grantId)
  gate : Option Instant

/-- A row of `mints`. -/
structure Mint where
  page : String
  grantId : String
  resource : String
  label : String
  created : Instant
  due : Instant
  attempts : Nat
  deriving DecidableEq, Repr

/-- A row of `revocations`. -/
structure Revocation where
  page : String
  grantId : String
  due : Instant
  attempts : Nat
  deriving DecidableEq, Repr

/-- A grant mapping. The fields one of its writers leaves out are
optional. -/
structure Mapping where
  pageId : String
  grantId : String
  qurlId : String
  resourceId : String
  resourceCrid : Option String
  upstreamScope : Option UpstreamScope
  deriving DecidableEq, Repr

/-- The name of the file of a mapping. -/
def mappingPath (page grantId : String) : String := page ++ "--" ++ grantId ++ ".json"

/-! ## What is outside -/

/-- An invitation upstream, with the grant it was asked for and the settings
it has there. -/
structure Invitation where
  resource : String
  qurlId : String
  label : String
  page : String
  grantId : String
  scope : UpstreamScope
  oneTimeUse : Bool
  sessionDuration : Int
  targetPath : String
  deriving DecidableEq, Repr

/-- LayerV. What was published and created stays on record, and so does
what was reported deleted or already absent; the broker reads only the
invitations that are there. -/
structure Cloud where
  published : List String
  created : List Invitation
  invitations : List Invitation
  deletedQurls : List (String × String)
  deletedResources : List String

/-- What the broker reads of a grant in the gateway's store. -/
structure GatewayGrant where
  id : String
  qurlId : String
  resourceCrid : String
  deriving DecidableEq, Repr

/-- What `create_grant` returned for a grant. -/
structure Issued where
  pageId : String
  grantId : String
  qurlId : String
  resourceId : String
  resourceCrid : String
  upstreamScope : UpstreamScope
  deriving DecidableEq, Repr

/-- `grant.get("resource_crid") or grant.get("resource_id")`. -/
def Issued.resource (g : Issued) : String :=
  if g.resourceCrid = "" then g.resourceId else g.resourceCrid

/-- How the gateway stores it. -/
def Issued.stored (g : Issued) : GatewayGrant := ⟨g.grantId, g.qurlId, g.resourceCrid⟩

/-- The gateway: its pages as they load, its cleanup queue with the drain
in progress, the grants it was sent, those whose cleanup it queued, and
the grants whose deletion was accepted. -/
structure Gateway where
  pages : List (String × List GatewayGrant)
  disk : Pages.Disk
  drain : Prog Pages.FileOp Pages.FileOp.Ans (Except Pages.PageError Unit)
  issued : List Issued
  owed : List Issued
  acknowledged : List (String × String)

/-- The gateway's grants of a page. -/
def grantsOf (pages : List (String × List GatewayGrant)) (page : String) : List GatewayGrant :=
  ((pages.find? (·.1 = page)).map Prod.snd).getD []

/-- What the last question about a grant or a page was about, and what the
stores held then. -/
structure Look where
  page : String
  grantId : String
  pages : List (String × List GatewayGrant)
  policy : List String

/-- The broker's records, what is outside, and the last look at it, which
no program reads. -/
structure World where
  registry : Registry
  mints : Table Mint fun m => (m.page, m.grantId)
  mappings : Table (String × Mapping) Prod.fst
  revocations : Table Revocation fun r => (r.page, r.grantId)
  cloud : Cloud
  gateway : Gateway
  policy : List String
  look : Look

/-- A new installation. -/
def World.empty : World where
  registry := ⟨.empty, .empty, .empty, none⟩
  mints := .empty
  mappings := .empty
  revocations := .empty
  cloud := ⟨[], [], [], [], []⟩
  gateway := ⟨[], .empty, .ret (.ok ()), [], [], []⟩
  policy := []
  look := ⟨"", "", [], []⟩

/-! ## The resource database -/

/-- `page_generations`. -/
def Registry.generation (g : Registry) (page : String) : Nat :=
  ((g.generations.find? page).map Prod.snd).getD 0

/-- The name a page pool is put away under. -/
def retiredName (generation : Nat) : String := "__retired_page_" ++ toString generation ++ "__"

/-- Columns of a row outside its key. -/
def Registry.setResource (g : Registry) (page grantId : String)
    (f : Resource → Resource) (hf : ∀ r, ((f r).page, (f r).grantId) = (r.page, r.grantId)) :
    Registry :=
  { g with resources := g.resources.updateWhere (fun r => r.page = page ∧ r.grantId = grantId) f hf }

def Registry.setPhase (g : Registry) (page grantId : String) (phase : Phase) : Registry :=
  g.setResource page grantId (fun r => { r with phase }) fun _ => rfl

/-- The pool of a page under the name of its generation, and the next
generation. -/
def Registry.putAway (g : Registry) (page : String) : Option Registry := do
  let name := retiredName (g.generation page)
  let resources ← g.resources.update? (fun r => r.page = page ∧ r.grantId = "__page__")
    fun r => { r with grantId := name }
  return { g with
    resources
    generations := g.generations.insertOrReplace (page, g.generation page + 1) }

/-- `INSERT OR IGNORE INTO retirements`. -/
def Registry.retire (g : Registry) (page grantId crid : String) (now : Instant) : Registry :=
  { g with retirements := g.retirements.insertOrIgnore ⟨page, grantId, crid, now, 0, "", false⟩ }

inductive RegistryOp where
  | binding (page owner : String)
  | generation (page : String) (revoked : Bool)
  | insert (page owner connectorId target : String)
  | bind (page owner crid publicKey : String)
  | beginRetire (page grantId crid qurlId : String)
  | managementOnly (page grantId : String)
  | finishRetire (page grantId : String)
  | selectRetirements
  | postponeRetirement (page grantId : String) (delay : Int)
  | selectOrphans (graceSeconds : Int)
  | postponeOrphan (page grantId : String) (delay : Int) (rateLimited : Bool)
  | selectPools
  | invalidate

@[reducible] def RegistryOp.Res : RegistryOp → Type
  | binding .. => Option Resource
  | generation .. => Nat
  | managementOnly .. => Bool
  | selectRetirements => List Retirement
  | selectOrphans _ => Option (List Resource)
  | selectPools => List Resource
  | _ => Unit

/-- A page pool is put away with its retirement, if it has one; another row
keeps its name. -/
def Registry.rename (g : Registry) (r : Resource) : Option (String × Registry) :=
  if r.grantId = "__page__" then do
    let name := retiredName (g.generation r.page)
    let retirements ← g.retirements.update?
      (fun q => q.page = r.page ∧ q.grantId = "__page__") fun q => { q with grantId := name }
    let g ← g.putAway r.page
    return (name, { g with retirements })
  else some (r.grantId, g)

/-- One turn of the loop of `invalidate_for_reset`. -/
def Registry.invalidateRow (now : Instant) (g : Registry) (r : Resource) : Option Registry := do
  let (name, g) ← g.rename r
  match r.crid.filter (· ≠ "") with
  | some crid => return (g.setPhase r.page name .retiring).retire r.page name crid now
  | none => return g.setPhase r.page name .revoked

def Registry.invalidateRows (now : Instant) (g : Registry) : List Resource → Option Registry
  | [] => some g
  | r :: rs => do (← g.invalidateRow now r).invalidateRows now rs

/-- The transactions of `GuestResources`. One that breaks a constraint is
rolled back. -/
def RegistryOp.perform (now : Instant) : (e : RegistryOp) → Registry →
    Except Failure e.Res × Registry
  | binding page owner, g => (.ok (g.resources.find? (page, owner)), g)
  | generation page revoked, g =>
      if revoked then
        match g.putAway page with
        | some g' => (.ok (g'.generation page), g')
        | none => (.error (.integrity .primaryKey), g)
      else (.ok (g.generation page), g)
  | insert page owner connectorId target, g =>
      if g.resources.rows.any (·.connectorId = connectorId) then
        (.error (.integrity .unique), g)
      else
        match g.resources.insert
          ⟨page, owner, connectorId, target, none, none, .creating, now, 0, 0⟩ with
        | some resources => (.ok (), { g with resources })
        | none => (.error (.integrity .primaryKey), g)
  | bind page owner crid publicKey, g =>
      if g.resources.rows.any fun r => r.crid = some crid ∧ ¬(r.page = page ∧ r.grantId = owner) then
        (.error (.integrity .unique), g)
      else
        (.ok (), g.setResource page owner
          (fun r => { r with crid := some crid, publicKey := some publicKey, phase := .ready })
          fun _ => rfl)
  | beginRetire page grantId crid qurlId, g =>
      let g := (g.setPhase page grantId .retiring).retire page grantId crid now
      (.ok (), { g with
        retirements := g.retirements.updateWhere
          (fun q => q.page = page ∧ q.grantId = grantId ∧ qurlId ≠ "")
          (fun q => { q with qurlId }) fun _ => rfl })
  | managementOnly page grantId, g =>
      (.ok (((g.retirements.find? (page, grantId)).map (·.managementOnly)).getD false), g)
  | finishRetire page grantId, g =>
      (.ok (), { g.setPhase page grantId .revoked with
        retirements := g.retirements.deleteWhere fun q => q.page = page ∧ q.grantId = grantId })
  | selectRetirements, g =>
      -- rows left retiring by earlier versions get their retirement here
      let g := g.resources.rows.foldl (fun g r =>
        match r.phase, r.crid with
        | .retiring, some crid => g.retire r.page r.grantId crid now
        | _, _ => g) g
      (.ok ((g.retirements.rows.filter fun q => q.due ≤ now).take 50), g)
  | postponeRetirement page grantId delay, g =>
      (.ok (), { g with
        retirements := g.retirements.updateWhere (fun q => q.page = page ∧ q.grantId = grantId)
          (fun q => { q with due := now + second * max 1 delay, attempts := q.attempts + 1 })
          fun _ => rfl })
  | selectOrphans graceSeconds, g =>
      if g.gate.any fun due => now < due then (.ok none, g)
      else
        (.ok (some ((g.resources.rows.filter fun r =>
          r.grantId ≠ "__page__" ∧ (r.phase = .creating ∨ r.phase = .ready) ∧
            r.createdAt ≤ now - second * graceSeconds ∧ r.recoveryDue ≤ now).take 50)), g)
  | postponeOrphan page grantId delay rateLimited, g =>
      let due := now + second * delay
      (.ok (), { g with
        resources := g.resources.updateWhere
          (fun r => r.page = page ∧ r.grantId = grantId ∧ (r.phase = .creating ∨ r.phase = .ready))
          (fun r => { r with recoveryDue := due, recoveryAttempts := r.recoveryAttempts + 1 })
          fun _ => rfl
        gate := if rateLimited then some due else g.gate })
  | selectPools, g =>
      (.ok (g.resources.rows.filter fun r => r.grantId = "__page__" ∧ r.phase = .ready), g)
  | invalidate, g =>
      match g.invalidateRows now (g.resources.rows.filter fun r => r.phase ≠ .revoked) with
      | some g' =>
          (.ok (), { g' with
            retirements := g'.retirements.updateWhere (fun _ => true)
              (fun q => { q with managementOnly := true }) fun _ => rfl })
      | none => (.error (.integrity .primaryKey), g)

/-! ## Questions -/

/-- What the publisher answers, where it is a text. -/
structure Published where
  crid : Option String
  resourceId : Option String
  targetUrl : Option String
  status : Option String
  deriving DecidableEq, Repr

/-- What LayerV answers to a new invitation: the parts that are checked. -/
structure Minted where
  qurlId : String
  qurlLink : String
  resourceId : String
  targetPath : String
  expiresAt : Option IsoTime
  requestedAt : Instant
  deriving DecidableEq, Repr

/-- What a new invitation is asked to be. -/
structure Wanted where
  label : String
  lifetimeSeconds : Int
  targetPath : String
  oneTimeUse : Bool
  sessionSeconds : Int
  deriving DecidableEq, Repr

inductive Op where
  | registry (e : RegistryOp)
  | prepareMint (page grantId resource label : String)
  | completeMint (page grantId : String)
  | selectMints
  | postponeMint (page grantId : String) (delay : Int)
  | mappingExists (page grantId : String)
  | readMapping (page grantId : String)
  | writeMapping (mapping : Mapping)
  | unlinkMapping (page grantId : String)
  | syncData
  | insertRevocation (page grantId : String)
  | selectRevocations
  | postponeRevocation (page grantId : String) (delay : Int)
  | deleteRevocation (page grantId : String)
  | loadPolicy (page : String)
  | loadGateway (page : String)
  | pageTarget (page : String)
  | outside
  | publish (connectorId target : String)
  | ensureReady (publicKey : String)
  | mint (crid : String) (scope : UpstreamScope) (page grantId : String) (wanted : Wanted)
  | listQurls (crid : String)
  | deleteQurl (resource qurlId : String)
  | deleteResource (crid : String)
  | cleanup (crid : String)

@[reducible] def Op.Res : Op → Type
  | registry e => e.Res
  | selectMints => List Mint
  | mappingExists .. => Bool
  | readMapping .. => Option Mapping
  | insertRevocation .. => Instant
  | selectRevocations => List Revocation
  | loadPolicy _ => Bool
  | loadGateway _ => Option (List GatewayGrant)
  | pageTarget _ => Option String
  | outside => Bool
  | publish .. => Published
  | mint .. => Minted
  | listQurls _ => List Invitation
  | deleteQurl .. => Bool
  | deleteResource _ => Bool
  | _ => Unit

abbrev Op.Ans (e : Op) : Type := Except Failure e.Res

/-! ## What others do -/

/-- What may happen before a question: another thread queues the revocation
of a mapped grant and answers, the policy store or the gateway's pages
change, the gateway queues the cleanup of a grant it was sent, or its
drain starts, dies or goes on. -/
inductive Meanwhile where
  | queue (page grantId : String) (due : Instant)
  | policy (pages : List String)
  | gateway (pages : List (String × List GatewayGrant))
  | owe (grant : Issued) (now : Instant)
  | drain
  | die
  | turn (t : Pages.Tick)

/-- The row of the cleanup queue for a grant. -/
def Issued.row (g : Issued) (now : Instant) : CleanupRow :=
  ⟨g.pageId, g.grantId, g.resource, g.qurlId, now, 0⟩

/-- `INSERT OR IGNORE INTO revocations`. -/
def World.queueRevocation (w : World) (page grantId : String) (due : Instant) : World :=
  { w with revocations := w.revocations.insertOrIgnore ⟨page, grantId, due, 0⟩ }

/-- A grant in the gateway's new pages was there before, or was sent by the
broker. -/
def Gateway.mayHold (g : Gateway) (pages : List (String × List GatewayGrant)) : Bool :=
  pages.all fun p => p.2.all fun a =>
    a ∈ grantsOf g.pages p.1 || g.issued.any fun i => i.pageId = p.1 ∧ i.stored = a

/-- The deletion of a grant the gateway was sent is accepted. -/
def Gateway.acknowledge (g : Gateway) (page grantId : String) : Gateway :=
  if g.issued.any fun i => i.pageId = page ∧ i.grantId = grantId then
    { g with acknowledged := (page, grantId) :: g.acknowledged }
  else g

/-- The cleanup of a grant is queued. -/
def Gateway.owe (g : Gateway) (grant : Issued) (now : Instant) : Gateway :=
  { g with
    disk := { g.disk with cleanup := g.disk.cleanup.insertOrIgnore (grant.row now) }
    owed := grant :: g.owed }

/-- What the drain of the cleanup queue meets. It is told that a deletion is
done only if the broker accepted it; otherwise the request or its reply
was lost. -/
def Gateway.tick (g : Gateway) (t : Pages.Tick) : Pages.FileOp → Pages.Tick
  | .deleteQurl row =>
      if (row.page, row.grantId) ∈ g.acknowledged then t
      else { t with upstream := match t.upstream with | .success => .raises | u => u }
  | _ => t

/-- One question of the drain. -/
def Gateway.turn (g : Gateway) (t : Pages.Tick) : Gateway :=
  match g.drain with
  | .ret _ => g
  | .op e k =>
      let out := Pages.FileOp.step e ⟨g.disk, [g.tick t e]⟩
      { g with disk := out.2.disk, drain := k out.1 }

def Meanwhile.apply (w : World) : Meanwhile → World
  | queue page grantId due =>
      if w.cloud.created.any fun i => i.page = page ∧ i.grantId = grantId then
        let w := w.queueRevocation page grantId due
        { w with gateway := w.gateway.acknowledge page grantId }
      else w
  | policy pages => { w with policy := pages }
  | gateway pages => if w.gateway.mayHold pages then { w with gateway.pages := pages } else w
  | owe grant now =>
      if grant ∈ w.gateway.issued then { w with gateway := w.gateway.owe grant now } else w
  | drain => { w with gateway.drain := Pages.drain.run }
  | die => { w with gateway.drain := .ret (.ok ()) }
  | turn t => { w with gateway := w.gateway.turn t }

/-! ## Ticks -/

/-- What a question meets. Identifiers LayerV and the publisher issue carry
no surrounding blanks. Under a `blind` tick the file system does not tell
whether a file exists, and `exists()` and `is_file()` answer `False`. -/
structure Tick where
  meanwhile : List Meanwhile
  now : Instant
  blind : Bool
  fault : Bool
  error : Failure
  applied : Bool
  answer : Bool
  target : Option String
  published : Published
  minted : Minted
  effective : Wanted

/-- What a question raises when it fails. -/
def Op.failure (t : Tick) : Op → Failure
  | registry _ => .database
  | prepareMint .. => .database
  | completeMint .. => .database
  | selectMints => .database
  | postponeMint .. => .database
  | readMapping .. => .os
  | writeMapping _ => .os
  | unlinkMapping .. => .os
  | syncData => .os
  | insertRevocation .. => .database
  | selectRevocations => .database
  | postponeRevocation .. => .database
  | deleteRevocation .. => .database
  | _ => t.error

/-- The invitation a request creates. No identifier is issued twice. -/
def Cloud.create (c : Cloud) (t : Tick) (crid : String) (scope : UpstreamScope)
    (page grantId : String) (wanted : Wanted) : Option Cloud :=
  let invitation : Invitation :=
    ⟨crid, strip t.minted.qurlId, wanted.label, page, grantId, scope, t.effective.oneTimeUse,
      t.effective.sessionSeconds, t.effective.targetPath⟩
  if c.created.any fun i => i.resource = crid ∧ i.qurlId = invitation.qurlId then none
  else some { c with
    created := invitation :: c.created
    invitations := c.invitations ++ [invitation] }

def Cloud.deleteQurl (c : Cloud) (resource qurlId : String) : Cloud :=
  { c with
    invitations := c.invitations.filter fun i => ¬(i.resource = resource ∧ i.qurlId = qurlId) }

/-- Deleting a resource deletes every invitation on it. -/
def Cloud.deleteResource (c : Cloud) (crid : String) : Cloud :=
  { c with invitations := c.invitations.filter (·.resource ≠ crid) }

/-- What a request does upstream, whether or not its reply arrives. -/
def Op.apply (t : Tick) (w : World) : Op → World
  | publish connectorId _ => { w with cloud.published := connectorId :: w.cloud.published }
  | mint crid scope page grantId wanted =>
      { w with cloud := (w.cloud.create t crid scope page grantId wanted).getD w.cloud }
  | deleteQurl resource qurlId => { w with cloud := w.cloud.deleteQurl resource qurlId }
  | deleteResource crid => { w with cloud := w.cloud.deleteResource crid }
  | cleanup crid => { w with cloud := w.cloud.deleteResource crid }
  | _ => w

/-- An existence test answers, whatever the file system does. -/
def Op.raises : Op → Bool
  | mappingExists .. => false
  | _ => true

/-- A question that raises nothing of its own. -/
def Op.perform (t : Tick) : (e : Op) → World → e.Ans × World
  | registry e, w => ((e.perform t.now w.registry).1,
      { w with registry := (e.perform t.now w.registry).2 })
  | prepareMint page grantId resource label, w =>
      (.ok (), { w with
        mints := w.mints.insertOrIgnore
          ⟨page, grantId, resource, label, t.now, t.now + 300 * second, 0⟩ })
  | completeMint page grantId, w =>
      (.ok (), { w with mints := w.mints.deleteWhere fun m => m.page = page ∧ m.grantId = grantId })
  | selectMints, w => (.ok ((w.mints.rows.filter fun m => m.due ≤ t.now).take 50), w)
  | postponeMint page grantId delay, w =>
      (.ok (), { w with
        mints := w.mints.updateWhere (fun m => m.page = page ∧ m.grantId = grantId)
          (fun m => { m with due := t.now + second * max 1 delay, attempts := m.attempts + 1 })
          fun _ => rfl })
  | mappingExists page grantId, w =>
      (.ok (!t.blind && (w.mappings.find? (mappingPath page grantId)).isSome),
        { w with look := ⟨page, grantId, w.gateway.pages, w.policy⟩ })
  | readMapping page grantId, w =>
      (.ok ((w.mappings.find? (mappingPath page grantId)).map Prod.snd), w)
  | writeMapping m, w =>
      (.ok (), { w with
        mappings := w.mappings.insertOrReplace (mappingPath m.pageId m.grantId, m) })
  | unlinkMapping page grantId, w =>
      (.ok (), { w with mappings := w.mappings.deleteWhere (·.1 = mappingPath page grantId) })
  | syncData, w => (.ok (), w)
  | insertRevocation page grantId, w =>
      let w := w.queueRevocation page grantId (t.now + 15 * second)
      (.ok (((w.revocations.find? (page, grantId)).map (·.due)).getD (0 : Instant)), w)
  | selectRevocations, w => (.ok ((w.revocations.rows.filter fun r => r.due ≤ t.now).take 50), w)
  | postponeRevocation page grantId delay, w =>
      (.ok (), { w with
        revocations := w.revocations.updateWhere (fun r => r.page = page ∧ r.grantId = grantId)
          (fun r => { r with due := t.now + second * max 5 delay, attempts := r.attempts + 1 })
          fun _ => rfl })
  | deleteRevocation page grantId, w =>
      (.ok (), { w with
        revocations := w.revocations.deleteWhere fun r => r.page = page ∧ r.grantId = grantId })
  | loadPolicy page, w =>
      (.ok (!t.blind && decide (page ∈ w.policy)),
        { w with look := ⟨page, "", w.gateway.pages, w.policy⟩ })
  | loadGateway page, w =>
      (.ok (if t.blind then none else (w.gateway.pages.find? (·.1 = page)).map Prod.snd),
        { w with look := { w.look with pages := w.gateway.pages } })
  | pageTarget _, w => (.ok t.target, w)
  | outside, w => (.ok t.answer, w)
  | publish connectorId target, w =>
      (.ok { t.published with resourceId := t.published.resourceId.map strip },
        (publish connectorId target).apply t w)
  | ensureReady _, w => (.ok (), w)
  | mint crid scope page grantId wanted, w =>
      (if (w.cloud.create t crid scope page grantId wanted).isSome then
        .ok { t.minted with qurlId := strip t.minted.qurlId } else .error t.error,
        (mint crid scope page grantId wanted).apply t w)
  | listQurls crid, w => (.ok (w.cloud.invitations.filter (·.resource = crid)), w)
  | deleteQurl resource qurlId, w =>
      let w := (deleteQurl resource qurlId).apply t w
      (.ok t.answer,
        { w with cloud.deletedQurls := (resource, qurlId) :: w.cloud.deletedQurls })
  | deleteResource crid, w =>
      let w := (deleteResource crid).apply t w
      (.ok t.answer, { w with cloud.deletedResources := crid :: w.cloud.deletedResources })
  | cleanup crid, w =>
      let w := (cleanup crid).apply t w
      (.ok (), { w with cloud.deletedResources := crid :: w.cloud.deletedResources })

/-- One question, after what others did. A request that fails may have been
applied. -/
def Op.step (t : Tick) (e : Op) (w : World) : e.Ans × World :=
  let w := t.meanwhile.foldl Meanwhile.apply w
  if t.fault ∧ e.raises then (.error (e.failure t), if t.applied then e.apply t w else w)
  else e.perform t w

/-- A function of the broker. -/
abbrev BrokerM := ExceptT Failure (Prog Op Op.Ans)

/-- Ask one question. -/
def ask (e : Op) : BrokerM e.Res := ExceptT.mk (Prog.call e)

def askRegistry (e : RegistryOp) : BrokerM e.Res := ask (.registry e)

end LayerV

end AccessPages
