import AccessPages.Common.CappedLog
import AccessPages.Common.IsoText
import AccessPages.Common.Table
/-!
# Activity — the activity store

`GuestActivityStore` of `activity.py`: the guests, what they did, and the
security events of the pages. Every call is one transaction: it takes
effect as a whole, or raises and leaves the database as it was. A time is
stored as its text, and texts are what the statements compare.
-/

namespace AccessPages

namespace Activity

/-! ## The tables -/

def retentionDays : Int := 30

def maxActionsPerGuest : Nat := 1000

def maxSecurityEventsPerPage : Nat := 1000

/-- `timedelta(days=RETENTION_DAYS)`. -/
def retention : Int := retentionDays * 86400 * second

def safeSecurityDetailKeys : List String := ["action_id", "reason", "resource_id"]

def safeParameterKeys : List String :=
  ["brightness_pct", "hvac_mode", "option", "percentage", "position", "source", "temperature",
    "target_temp_high", "target_temp_low", "value", "volume_level"]

/-- A row of `guests`. -/
structure Guest where
  grantId : String
  pageId : String
  label : String
  createdAt : String
  expiresAt : String
  revokedAt : Option String
  purgeAfter : Option String
  firstAccessAt : Option String
  deriving DecidableEq, Repr

/-- A row of `actions`; the parameters are what their JSON text says. -/
structure Action where
  id : Nat
  grantId : String
  occurredAt : String
  entityId : String
  entityName : String
  actionId : String
  parameters : List (String × Json)
  outcome : String
  error : String

/-- A row of `security_events`. -/
structure Event where
  id : Nat
  pageId : String
  grantId : Option String
  occurredAt : String
  eventType : String
  details : List (String × Json)

/-- The database; a row gets the number after the last one given. -/
structure Store where
  guests : Table Guest Guest.grantId
  actions : List Action
  events : List Event
  nextAction : Nat
  nextEvent : Nat

def Store.empty : Store := ⟨.empty, [], [], 1, 1⟩

/-- What a page store's grant says here. -/
structure Grant where
  id : String
  label : String
  createdAt : String
  expiresAt : String

structure ActionRecord where
  grantId : String
  entityId : String
  entityName : String
  actionId : String
  parameters : List (String × Json)
  outcome : String
  error : String

structure EventRecord where
  pageId : String
  eventType : String
  grantId : Option String
  details : Option (List (String × Json))

/-! ## Statements -/

/-- `isinstance(value, (str, int, float, bool))`. -/
def isPlain : Json → Bool
  | .str _ => true
  | .int _ => true
  | .float _ => true
  | .bool _ => true
  | _ => false

/-- The plain values under the keys that may be stored. -/
def safeFields (keys : List String) (fields : List (String × Json)) : List (String × Json) :=
  fields.filter fun f => f.1 ∈ keys && isPlain f.2

/-- `DELETE FROM guests WHERE ...`: what a guest did, and the events about
the guest, are deleted with it. -/
def Store.deleteGuests (s : Store) (p : Guest → Bool) : Store :=
  let gone (grantId : String) : Bool := s.guests.rows.any fun g => g.grantId = grantId && p g
  { s with
    guests := s.guests.deleteWhere p
    actions := s.actions.filter fun a => !gone a.grantId
    events := s.events.filter fun e => !(e.grantId.any gone) }

/-- `_upsert_guest`. -/
def Store.upsertGuest (s : Store) (pageId : String) (grant : Grant) : Store :=
  let label := slice grant.label 120
  match s.guests.find? grant.id with
  | none =>
      let row : Guest :=
        ⟨grant.id, pageId, label, grant.createdAt, grant.expiresAt, none, none, none⟩
      { s with guests := s.guests.insertOrReplace row }
  | some _ =>
      let update (g : Guest) : Guest := { g with
        pageId := pageId
        label := label
        createdAt := grant.createdAt
        expiresAt := grant.expiresAt }
      { s with guests := s.guests.updateWhere (·.grantId = grant.id) update fun _ => rfl }

/-- What the clock says to one call, and whether the database fails it. The
clock is one of the years a time may have, thirty days into them. -/
structure Tick where
  fault : Bool
  now : Int
  cutoff : Int
  purge : Int
  first : InCalendar (now - retention)
  last : InCalendar purge
  ordered : now ≤ cutoff ∧ cutoff ≤ purge

/-- `_purge`: the guests whose history is over, and the events older than
the retention. -/
def Store.purge (s : Store) (t : Tick) : Store :=
  let s := s.deleteGuests fun g => g.purgeAfter.any fun after => after ≤ zulu t.purge
  { s with events := s.events.filter fun e => !(e.occurredAt ≤ zulu (t.cutoff - retention)) }

def actionColumns : CappedLog.Columns Action String String := ⟨Action.grantId, Action.occurredAt, Action.id⟩

def eventColumns : CappedLog.Columns Event String String := ⟨Event.pageId, Event.occurredAt, Event.id⟩

/-- The row `record_action` inserts. -/
def Store.actionRow (s : Store) (t : Tick) (r : ActionRecord) : Action where
  id := s.nextAction
  grantId := r.grantId
  occurredAt := zulu t.now
  entityId := slice r.entityId 255
  entityName := slice r.entityName 120
  actionId := slice r.actionId 80
  parameters := safeFields safeParameterKeys r.parameters
  outcome := r.outcome
  error := slice (strip r.error) 240

/-- The row `record_security_event` inserts. -/
def Store.eventRow (s : Store) (t : Tick) (r : EventRecord) : Event where
  id := s.nextEvent
  pageId := slice r.pageId 64
  grantId := r.grantId.filter (· ≠ "")
  occurredAt := zulu t.now
  eventType := slice r.eventType 80
  details := safeFields safeSecurityDetailKeys (r.details.getD [])

def Store.registered (s : Store) (grantId : String) : Bool := (s.guests.find? grantId).isSome

/-- `record_action`; a guest that is not registered has no actions. -/
def Store.recordAction (s : Store) (t : Tick) (r : ActionRecord) : Option Store :=
  if s.registered r.grantId then
    let actions := CappedLog.trim actionColumns r.grantId maxActionsPerGuest
      (s.actions ++ [s.actionRow t r])
    some ({ s with actions := actions, nextAction := s.nextAction + 1 }.purge t)
  else none

/-- `record_security_event`; an event may be about no guest. The page is cut
to 64 characters where it is stored, not where it is counted. -/
def Store.recordSecurityEvent (s : Store) (t : Tick) (r : EventRecord) : Option Store :=
  if (s.eventRow t r).grantId.all s.registered then
    let events := CappedLog.trim eventColumns r.pageId maxSecurityEventsPerPage
      (s.events ++ [s.eventRow t r])
    some ({ s with events := events, nextEvent := s.nextEvent + 1 }.purge t)
  else none

/-- The calls of the store. The three that only read purge first. -/
inductive Op where
  | registerGuest (pageId : String) (grant : Grant)
  | markRevoked (pageId : String) (grant : Grant) (revokedAt : Option Int)
  | recordAction (r : ActionRecord)
  | recordRegisteredInitialAccess (pageId grantId : String)
  | recordSecurityEvent (r : EventRecord)
  | read
  | deleteRevokedGuest (pageId grantId : String)
  | deletePage (pageId : String)

/-- The transaction of a call; nothing where it raises. -/
def Store.perform (s : Store) (t : Tick) : Op → Option Store
  | .registerGuest pageId grant => some ((s.upsertGuest pageId grant).purge t)
  | .markRevoked pageId grant revokedAt =>
      let revoked := revokedAt.getD t.now
      let s := s.upsertGuest pageId grant
      let update (g : Guest) : Guest := { g with
        revokedAt := some (zulu revoked)
        purgeAfter := some (zulu (revoked + retention)) }
      let guests := s.guests.updateWhere (·.grantId = grant.id) update fun _ => rfl
      some ({ s with guests := guests }.purge t)
  | .recordAction r => s.recordAction t r
  | .recordRegisteredInitialAccess pageId grantId =>
      let first (g : Guest) : Bool :=
        g.pageId = pageId && g.grantId = grantId && g.firstAccessAt.isNone
      let update (g : Guest) : Guest := { g with firstAccessAt := some (zulu t.now) }
      some ({ s with guests := s.guests.updateWhere first update fun _ => rfl }.purge t)
  | .recordSecurityEvent r => s.recordSecurityEvent t r
  | .read => some (s.purge t)
  | .deleteRevokedGuest pageId grantId =>
      some (s.deleteGuests fun g => g.pageId = pageId && g.grantId = grantId && g.revokedAt.isSome)
  | .deletePage pageId =>
      let events := s.events.filter fun e => e.pageId ≠ pageId
      some ({ s with events := events }.deleteGuests fun g => g.pageId = pageId)

/-- A call, at a tick. -/
abbrev Call := Tick × Op

def Store.transact (s : Store) (x : Call) : Option Store := if x.1.fault then none else s.perform x.1 x.2

def Store.step (s : Store) (x : Call) : Store := (s.transact x).getD s

def Store.after (s : Store) (xs : List Call) : Store := xs.foldl Store.step s

def Store.actionsOf (s : Store) (grantId : String) : List Action :=
  CappedLog.ofOwner actionColumns grantId s.actions

def Store.eventsOf (s : Store) (pageId : String) : List Event :=
  CappedLog.ofOwner eventColumns pageId s.events

end Activity

end AccessPages
