import AccessPages.Common.Python
/-!
# Pages — page documents

`pages.py`: a page with its resources and access grants, and the
validation every document goes through when it is read, created, edited
or replaced. Validation is written in the order of the source, since the
first check that fails names the error. What it returns is typed: a
grant carries the syntax of its identifier and that its texts are
stripped, a proximity policy its range.
-/

namespace AccessPages

namespace Pages

/-! ## Errors -/

/-- The exceptions a page operation raises: the two of its own, one that
escapes from a conversion, an `OSError`, or one of SQLite. -/
inductive PageError where
  | config (message : String)
  | notFound (what : String)
  | python (e : PyError)
  | os
  | database
  deriving DecidableEq, Repr

/-- Raise `PageConfigError` unless the condition holds. -/
def require (c : Prop) [Decidable c] (message : String) : Except PageError (PLift c) :=
  if h : c then .ok ⟨h⟩ else .error (.config message)

/-- A conversion whose `ValueError` and `TypeError` become a
`PageConfigError`. -/
def converting {α : Type} (message : String) : Except PyError α → Except PageError α
  | .ok a => .ok a
  | .error .valueError => .error (.config message)
  | .error .typeError => .error (.config message)
  | .error e => .error (.python e)

/-! ## Syntax -/

def isLowerAlnum (c : Char) : Bool := c.isLower || c.isDigit

def isIdChar (c : Char) : Bool := isLowerAlnum c || c = '_' || c = '-'

def isTokenChar (c : Char) : Bool := c.isAlphanum || c = '_' || c = '-'

/-- `PAGE_ID_RE`, which is `ACTION_ID_RE` too. -/
def pageIdRe (s : String) : Bool :=
  match s.toList with
  | [] => false
  | c :: cs => isLowerAlnum c && matchesClass isIdChar 0 63 cs

/-- `TOKEN_HASH_RE`. -/
def tokenHashRe (s : String) : Bool :=
  matchesClass (fun c => c.isDigit || ('a' ≤ c && c ≤ 'f')) 64 64 s.toList

/-- `grant_[A-Za-z0-9_-]{16}`. -/
def grantIdRe (s : String) : Bool :=
  s.toList.take 6 = "grant_".toList && matchesClass isTokenChar 16 16 (s.toList.drop 6)

/-- `notify\.mobile_app_[a-z0-9_]+`. -/
def notifyTargetRe (s : String) : Bool :=
  let lead := "notify.mobile_app_".toList
  s.toList.take lead.length = lead && s.toList.drop lead.length ≠ [] &&
    (s.toList.drop lead.length).all fun c => isLowerAlnum c || c = '_'

/-- `entity_id.split(".", 1)[0]`. -/
def entityDomain (entityId : String) : String :=
  String.ofList (entityId.toList.takeWhile (· ≠ '.'))

/-- `timestamp.replace("Z", "+00:00")`. -/
def isoText (s : String) : String :=
  String.join (s.toList.map fun c => if c = 'Z' then "+00:00" else String.ofList [c])

/-- `text.lower()`, of the letters that matter for a hash: no other letter
has one of these as its lower case. -/
def lower (s : String) : String := String.ofList (s.toList.map Char.toLower)

/-! ## Documents -/

inductive Widget where
  | auto | readOnly | thermostat | sensor | toggle
  deriving DecidableEq, Repr

def Widget.name : Widget → String
  | auto => "auto"
  | readOnly => "read_only"
  | thermostat => "thermostat"
  | sensor => "sensor"
  | toggle => "toggle"

/-- `ALLOWED_WIDGETS`. -/
def Widget.ofName? (s : String) : Option Widget :=
  [auto, readOnly, thermostat, sensor, toggle].find? (·.name = s)

inductive UpstreamScope where
  | page | guest
  deriving DecidableEq, Repr

def UpstreamScope.name : UpstreamScope → String
  | page => "page"
  | guest => "guest"

inductive NotificationEvent where
  | initialLogin | successfulAction | failedAction
  deriving DecidableEq, Repr

def NotificationEvent.name : NotificationEvent → String
  | initialLogin => "initial_login"
  | successfulAction => "successful_action"
  | failedAction => "failed_action"

def NotificationEvent.ofName? (s : String) : Option NotificationEvent :=
  [initialLogin, successfulAction, failedAction].find? (·.name = s)

structure Notifications where
  targets : List String
  events : List NotificationEvent
  deriving DecidableEq, Repr

/-- A guest's permission to open a page. -/
structure Grant where
  id : String
  tokenHash : String
  createdAt : String
  expiresAt : String
  label : String
  lifetime : String
  oneTimeUse : Bool
  qurlLink : String
  qurlSite : String
  resourceId : String
  qurlId : String
  type : String
  verificationRequired : Bool
  notifications : Notifications
  targetPathApplied : Bool
  resourceCrid : String
  upstreamScope : UpstreamScope
  id_re : grantIdRe id = true
  tokenHash_re : tokenHashRe tokenHash = true
  stripped : ∀ s ∈ [createdAt, expiresAt, qurlLink, qurlSite, resourceId, qurlId, type,
    resourceCrid], strip s = s
  deriving DecidableEq

structure Action where
  id : String
  name : String
  service : String
  deriving DecidableEq, Repr

structure Resource where
  id : String
  name : String
  entityId : String
  domain : String
  widget : Widget
  actions : List Action
  cameraRefreshInterval : Option Int
  id_re : pageIdRe id = true
  domain_eq : domain = entityDomain entityId
  deriving DecidableEq

structure Proximity where
  enabled : Bool
  radiusMeters : Int
  bounds : 50 ≤ radiusMeters ∧ radiusMeters ≤ 50000
  deriving DecidableEq

theorem radius_bounds : (50 : Int) ≤ 500 ∧ (500 : Int) ≤ 50000 := by decide

structure Page where
  id : String
  title : String
  description : String
  proximity : Proximity
  resources : List Resource
  accessGrants : List Grant
  id_re : pageIdRe id = true
  deriving DecidableEq

/-! ## What is written -/

def Notifications.toJson (n : Notifications) : Json :=
  .obj [("targets", .arr (n.targets.map .str)), ("events", .arr (n.events.map (.str ·.name)))]

/-- The fields of a grant in the page file. -/
def Grant.fields (g : Grant) : List (String × Json) :=
  [("id", .str g.id), ("token_hash", .str g.tokenHash), ("created_at", .str g.createdAt),
    ("expires_at", .str g.expiresAt), ("label", .str g.label), ("lifetime", .str g.lifetime),
    ("one_time_use", .bool g.oneTimeUse), ("qurl_link", .str g.qurlLink),
    ("qurl_site", .str g.qurlSite), ("resource_id", .str g.resourceId),
    ("qurl_id", .str g.qurlId), ("type", .str g.type),
    ("verification_required", .bool g.verificationRequired),
    ("notifications", g.notifications.toJson),
    ("target_path_applied", .bool g.targetPathApplied),
    ("credential_flow", .str "bootstrap-v1"), ("resource_crid", .str g.resourceCrid),
    ("upstream_scope", .str g.upstreamScope.name)]

def Grant.toJson (g : Grant) : Json := .obj g.fields

def Action.toJson (a : Action) : Json :=
  .obj [("id", .str a.id), ("name", .str a.name), ("service", .str a.service)]

def Resource.toJson (r : Resource) : Json :=
  .obj ([("id", .str r.id), ("name", .str r.name), ("entity_id", .str r.entityId),
    ("domain", .str r.domain), ("widget", .str r.widget.name),
    ("actions", .arr (r.actions.map Action.toJson))] ++
    r.cameraRefreshInterval.toList.map fun n => ("camera_refresh_interval", .int n))

def Proximity.toJson (p : Proximity) : Json :=
  .obj [("enabled", .bool p.enabled), ("radius_meters", .int p.radiusMeters)]

/-- The fields of a page document. -/
def Page.fields (p : Page) : List (String × Json) :=
  [("id", .str p.id), ("title", .str p.title), ("description", .str p.description),
    ("proximity", p.proximity.toJson), ("resources", .arr (p.resources.map Resource.toJson)),
    ("access_grants", .arr (p.accessGrants.map Grant.toJson))]

def Page.toJson (p : Page) : Json := .obj p.fields

/-! ## Validation -/

section Validate

variable [Python]

/-- `validate_page_id`. -/
def validatePageId (v : Json) : Except PageError { id : String // pageIdRe id = true } := do
  let id := strip v.toStr
  let ⟨h⟩ ← require (pageIdRe id = true)
    ("Page ID must use lowercase letters, numbers, hyphens, or " ++
      "underscores and be no longer than 64 characters")
  return ⟨id, h⟩

/-- `validate_notifications`. -/
def validateNotifications : Option Json → Except PageError Notifications
  | none => .ok ⟨[], []⟩
  | some .null => .ok ⟨[], []⟩
  | some (.obj raw) => do
      let invalid := "Invalid guest notification settings"
      let _ ← require (∀ k ∈ raw.map Prod.fst, k ∈ ["targets", "events"]) invalid
      match Json.getD raw "targets" (.arr []), Json.getD raw "events" (.arr []) with
      | .arr targets, .arr events =>
          let targets := (targets.map fun v => strip v.toStr).eraseDups
          let events := (events.map fun v => strip v.toStr).eraseDups
          if targets = [] ∧ events = [] then .ok ⟨[], []⟩
          else do
            let _ ← require (∀ t ∈ targets, t = "email" ∨ notifyTargetRe t = true)
              "Invalid guest notification target"
            let _ ← require (targets ≠ [] ∧ events ≠ [] ∧
              ∀ e ∈ events, (NotificationEvent.ofName? e).isSome)
              "Notification targets and events are required"
            .ok ⟨targets, events.filterMap NotificationEvent.ofName?⟩
      | _, _ => .error (.config invalid)
  | some _ => .error (.config "Invalid guest notification settings")

/-- The fields an access grant may have. `access_url` is the alias of the
admin response, accepted and never persisted. -/
def allowedFields : List String :=
  ["id", "token_hash", "created_at", "expires_at", "label", "lifetime", "one_time_use",
    "qurl_link", "access_url", "qurl_site", "resource_id", "qurl_id", "type",
    "verification_required", "notifications", "target_path_applied", "credential_flow",
    "resource_crid", "upstream_scope"]

/-- A timestamp that parses and is timezone-aware. -/
def awareTime (s : String) : Option Instant :=
  match Python.fromIsoFormat (isoText s) with
  | some (.aware t) => some t
  | _ => none

/-- `upstream_scope not in {"page", "guest"}`: a list or an object does not
hash. -/
def validateScope : Json → Except PageError UpstreamScope
  | .str "page" => .ok .page
  | .str "guest" => .ok .guest
  | .arr _ => .error (.python .typeError)
  | .obj _ => .error (.python .typeError)
  | _ => .error (.config "Invalid upstream resource scope")

/-- `value == text`. -/
def isText (v : Option Json) (s : String) : Bool :=
  match v with
  | some (.str t) => t = s
  | _ => false

/-- One turn of the loop of `validate_access_grants`. -/
def validateGrant (seen : List String) : Json → Except PageError Grant
  | .obj raw => do
      let unexpected := (raw.map Prod.fst).eraseDups.filter (· ∉ allowedFields)
      let _ ← require (unexpected = []) ("Access grant contains unsupported fields: " ++
        ", ".intercalate (unexpected.insertionSort (· ≤ ·)))
      let id := Json.text raw "id" ""
      let tokenHash := lower (Json.text raw "token_hash" "")
      let expiresAt := Json.text raw "expires_at" ""
      let createdAt := Json.text raw "created_at" ""
      let _ ← require (id ≠ "" ∧ id.length ≤ 80) "Invalid access grant ID"
      let _ ← require (id ∉ seen) "Duplicate access grant ID"
      let ⟨hhash⟩ ← require (tokenHashRe tokenHash = true) "Invalid access-token hash"
      let _ ← require (isText (Json.get? raw "credential_flow") "bootstrap-v1" = true)
        "Invalid guest credential flow"
      let ⟨hid⟩ ← require (grantIdRe id = true) "Invalid scoped grant ID"
      let scope ← validateScope (Json.getD raw "upstream_scope" (.str "page"))
      let _ ← require (scope = .guest → (Json.getD raw "resource_crid" .null).truthy = true)
        "Guest resource requires scoped credentials and a CRID"
      let _ ← require (expiresAt ≠ "" ∧ createdAt ≠ "") "Access grant is missing timestamps"
      let _ ← require ((awareTime createdAt).isSome ∧ (awareTime expiresAt).isSome)
        "Access grant timestamps must be valid and timezone-aware"
      let notifications ← validateNotifications (Json.get? raw "notifications")
      .ok
        { id, tokenHash, createdAt, expiresAt
          label := slice (Json.text raw "label" "") 120
          lifetime := slice (Json.text raw "lifetime" "") 20
          oneTimeUse := (Json.getD raw "one_time_use" (.bool false)).truthy
          qurlLink := Json.text raw "qurl_link" ""
          qurlSite := Json.text raw "qurl_site" ""
          resourceId := Json.text raw "resource_id" ""
          qurlId := Json.text raw "qurl_id" ""
          type := Json.text raw "type" ""
          verificationRequired := (Json.getD raw "verification_required" (.bool false)).truthy
          notifications
          targetPathApplied := (Json.getD raw "target_path_applied" (.bool false)).truthy
          resourceCrid := Json.text raw "resource_crid" ""
          upstreamScope := scope
          id_re := hid
          tokenHash_re := hhash
          stripped := by simp [createdAt, expiresAt, Json.text] }
  | _ => .error (.config "Each access grant must be an object")

/-- The loop of `validate_access_grants`. -/
def validateGrants (seen : List String) : List Json → Except PageError (List Grant)
  | [] => .ok []
  | raw :: rest => do
      let g ← validateGrant seen raw
      let gs ← validateGrants (g.id :: seen) rest
      return g :: gs

/-- `grants.sort(key=created_at, reverse=True)`, which is stable. -/
def sortGrants (gs : List Grant) : List Grant :=
  gs.insertionSort fun a b => ¬ a.createdAt < b.createdAt

/-- `validate_access_grants`. -/
def validateAccessGrants : Json → Except PageError (List Grant)
  | .null => .ok []
  | .arr raws => do return sortGrants (← validateGrants [] raws)
  | _ => .error (.config "access_grants must be a list")

/-- One turn of the loop over `actions`. -/
def validateAction (entityId : String) (seen : List String) : Json → Except PageError Action
  | .obj raw => do
      let id := Json.text raw "id" ""
      let _ ← require (pageIdRe id = true)
        ("Invalid action ID for " ++ entityId ++ ": " ++ Json.reprStr id)
      let _ ← require (id ∉ seen) ("Duplicate action ID for " ++ entityId ++ ": " ++ id)
      let name := Json.text raw "name" id
      let service := Json.text raw "service" ""
      let _ ← require (name ≠ "" ∧ name.length ≤ 60) ("Invalid action name for " ++ entityId)
      let _ ← require (service ≠ "" ∧ '.' ∉ service.toList)
        ("Invalid service for " ++ entityId ++ ": " ++ Json.reprStr service)
      .ok ⟨id, name, service⟩
  | _ => .error (.config ("Invalid action for " ++ entityId))

def validateActions (entityId : String) (seen : List String) :
    List Json → Except PageError (List Action)
  | [] => .ok []
  | raw :: rest => do
      let a ← validateAction entityId seen raw
      let as ← validateActions entityId (a.id :: seen) rest
      return a :: as

/-- `CAMERA_REFRESH_INTERVALS`. -/
def cameraRefreshIntervals : List Int := [0, 15, 30, 60, 120, 300]

/-- The refresh interval of a resource, which only a camera has. A `bool`
is an `int` to Python and is refused by name. -/
def validateInterval (entityId domain : String) (raw : List (String × Json)) :
    Except PageError (Option Int) := do
  let _ ← require (domain = "camera" ∨ Json.get? raw "camera_refresh_interval" = none)
    "Still-image refresh is supported only for camera entities"
  if domain = "camera" then
    match Json.getD raw "camera_refresh_interval" (.int 30) with
    | .int n => do
        let _ ← require (n ∈ cameraRefreshIntervals)
          ("Unsupported still-image refresh interval for " ++ entityId)
        return some n
    | _ => .error (.config ("Invalid still-image refresh interval for " ++ entityId))
  else return none

/-- A widget that fits the domain. -/
def validateWidget (entityId domain : String) (raw : List (String × Json)) :
    Except PageError Widget := do
  let name := Json.text raw "widget" "auto"
  let name := if name = "" then "auto" else name
  match Widget.ofName? name with
  | none =>
      .error (.config ("Invalid widget for " ++ entityId ++ ": " ++ Json.reprStr name))
  | some widget => do
      let _ ← require (widget = .thermostat → domain = "climate")
        "Thermostat widgets require a climate entity"
      let _ ← require (widget = .sensor → domain = "sensor")
        "Sensor widgets require a sensor entity"
      let _ ← require (widget = .toggle → domain = "switch" ∨ domain = "input_boolean")
        "Toggle widgets require a switch or input_boolean"
      return widget

/-- One turn of the loop over `resources`. -/
def validateResource (seen : List String) : Json → Except PageError Resource
  | .obj raw => do
      let id := Json.text raw "id" ""
      let ⟨hid⟩ ← require (pageIdRe id = true) ("Invalid resource ID: " ++ Json.reprStr id)
      let _ ← require (id ∉ seen) ("Duplicate resource ID: " ++ id)
      let entityId := Json.text raw "entity_id" ""
      let _ ← require ('.' ∈ entityId.toList)
        ("Invalid Home Assistant entity ID: " ++ Json.reprStr entityId)
      let domain := Json.text raw "domain" ""
      let ⟨hdomain⟩ ← require (domain = entityDomain entityId)
        ("Domain mismatch for " ++ entityId)
      let name := Json.text raw "name" entityId
      let _ ← require (name ≠ "" ∧ name.length ≤ 100)
        ("Invalid resource name for " ++ entityId)
      let widget ← validateWidget entityId domain raw
      let cameraRefreshInterval ← validateInterval entityId domain raw
      match Json.getD raw "actions" (.arr []) with
      | .arr rawActions => do
          let _ ← require
            (rawActions.isEmpty = false ∨ widget = .readOnly ∨ widget = .sensor ∨
              domain = "sensor")
            (entityId ++ " must have at least one approved action")
          let actions ← validateActions entityId [] rawActions
          .ok ⟨id, name, entityId, domain, widget, actions, cameraRefreshInterval, hid, hdomain⟩
      | _ => .error (.config ("Actions for " ++ entityId ++ " must be a list"))
  | _ => .error (.config "Each resource must be an object")

def validateResources (seen : List String) : List Json → Except PageError (List Resource)
  | [] => .ok []
  | raw :: rest => do
      let r ← validateResource seen raw
      let rs ← validateResources (r.id :: seen) rest
      return r :: rs

/-- The proximity policy of a page. -/
def validateProximity : Json → Except PageError Proximity
  | .null => radius [] false
  | .obj raw =>
      match Json.getD raw "enabled" (.bool false) with
      | .bool enabled => radius raw enabled
      | _ => .error (.config "Proximity enabled must be true or false")
  | _ => .error (.config "proximity must be an object")
where
  radius (raw : List (String × Json)) (enabled : Bool) : Except PageError Proximity := do
    let n ← converting "Proximity radius must be a whole number"
      (Json.getD raw "radius_meters" (.int 500)).toInt
    let ⟨h⟩ ← require (50 ≤ n ∧ n ≤ 50000) "Proximity radius must be between 50 and 50000 metres"
    return ⟨enabled, n, h⟩

/-- `validate_page`. -/
def validatePage (payload : Json) (requiredId : Option String) : Except PageError Page :=
  match payload with
  | .obj raw => do
      let ⟨id, hid⟩ ← validatePageId (Json.getD raw "id" (.str ""))
      let _ ← require (∀ r ∈ requiredId, id = r) "The page ID cannot be changed after creation"
      let title := Json.text raw "title" ""
      let _ ← require (title ≠ "" ∧ title.length ≤ 80) "Page title must contain 1–80 characters"
      let description := Json.text raw "description" ""
      let _ ← require (description.length ≤ 240)
        "Page description must be no longer than 240 characters"
      let proximity ← validateProximity (Json.getD raw "proximity" (.obj []))
      match Json.getD raw "resources" (.arr []) with
      | .arr rawResources => do
          let resources ← validateResources [] rawResources
          let accessGrants ← validateAccessGrants (Json.getD raw "access_grants" (.arr []))
          .ok ⟨id, title, description, proximity, resources, accessGrants, hid⟩
      | _ => .error (.config "resources must be a list")
  | _ => .error (.config "Page must be a JSON object")

end Validate

/-! ## Summaries -/

/-- `page_admin_summary`. -/
structure PageSummary where
  id : String
  title : String
  description : String
  proximityEnabled : Bool
  resourceCount : Nat
  accessPath : String
  grantCount : Nat
  deriving DecidableEq, Repr

def pageAdminSummary (p : Page) : PageSummary :=
  ⟨p.id, p.title, p.description, p.proximity.enabled, p.resources.length, "/access/" ++ p.id,
    p.accessGrants.length⟩

end Pages

end AccessPages
