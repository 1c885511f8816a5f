import AccessPages.LayerV.Lifecycle
/-!
# LayerV — the enrollment of the agent

`ConnectorPublisher` publishes resources through one enrolled agent. It
enrolls the agent when it finds nothing of one: no file of it, and a row
of `enrollment_state` that says so. The calls of `GuestResources` are run
with the publisher's own steps in the place of its answers, on files that
may be lost, replaced or left behind at any time.
-/

namespace AccessPages

namespace LayerV

namespace Publisher

open Pages (UpstreamScope)

/-! ## The state of the agent -/

/-- What `lstat` finds under a name. A foreign entry is no regular file of
the broker's. -/
inductive Entry where
  | absent | plain | foreign
  deriving DecidableEq, Repr

/-- The files of the agent. `other` is any other entry of the state
directory. -/
inductive AgentFile where
  | bootstrapComplete | wrappingKey | agentState | runtimeMode | localShares | other
  deriving DecidableEq, Repr

/-- The files inside the state directory. -/
def AgentFile.inState : List AgentFile := [.agentState, .runtimeMode, .localShares, .other]

/-- The row of `enrollment_state`. A database of an earlier version has no
such table. -/
inductive Enrollment where
  | older | unset | status (s : String)
  deriving DecidableEq, Repr

/-- What is on record of the life of an agent: an enrollment token was asked
for, `login` was started, the administrator reset the connection. -/
inductive Mark where
  | token | login | reset
  deriving DecidableEq, Repr

/-- The files, the database as far as it is the publisher's, the memory of
the process, and the marks, the latest first. -/
structure Agent where
  files : AgentFile → Entry
  database : Option Enrollment
  closed : Bool
  daemon : Bool
  recoveryRequired : Bool
  marks : List Mark

/-- The broker and its agent. -/
structure Installation where
  broker : World
  agent : Agent

/-- Nothing is there yet. -/
def Installation.empty : Installation where
  broker := .empty
  agent := ⟨fun _ => .absent, none, false, false, false, []⟩

/-- What is read of a wrapping key. -/
inductive KeyRead where
  | usable | exposed | wrongLength
  deriving DecidableEq, Repr

/-! ## Questions -/

/-- The steps of the publisher. The commands `publish` and `delete` and the
readiness of a resource are the broker's questions of these names. -/
inductive Question where
  | broker (e : Op)
  | lstat (f : AgentFile)
  | anyState
  | databaseExists
  | hasStateTable
  | anyAllocation
  | status
  | anyReady
  | mintToken
  | advance (previous : List String) (current : String)
  | createKey
  | readKey
  | createTokenFile
  | unlinkTokenFile
  | login
  | isFile (f : AgentFile)
  | fileExists (f : AgentFile)
  | createMarker
  | isClosed
  | daemonRunning
  | spawnDaemon
  | awaitDaemon
  | ipc
  | credentialRejected
  | requireRecovery
  | recoveryRequired
  | restart

@[reducible] def Question.Res : Question → Type
  | broker e => e.Res
  | lstat _ => Entry
  | anyState => Bool
  | databaseExists => Bool
  | hasStateTable => Bool
  | anyAllocation => Bool
  | status => Option String
  | anyReady => Bool
  | advance .. => Bool
  | readKey => KeyRead
  | isFile _ => Bool
  | fileExists _ => Bool
  | isClosed => Bool
  | daemonRunning => Bool
  | awaitDaemon => Bool
  | credentialRejected => Bool
  | recoveryRequired => Bool
  | _ => Unit

abbrev Question.Ans (q : Question) : Type := Except Failure q.Res

/-- What a question meets: what the broker's question meets, the files that
changed before it, whether the broker is shutting down, the failure it ends
in, whether the `stat` of the database fails, what the command leaves
behind, and the answers that are not the installation's. -/
structure Turn where
  broker : Tick
  changes : List (AgentFile × Entry)
  stops : Bool
  fault : Option Failure
  blind : Bool
  leaves : List (AgentFile × Entry)
  key : KeyRead
  answer : Bool

/-! ## Steps -/

/-- Entries that appear, vanish or are replaced. -/
def Agent.change (a : Agent) (cs : List (AgentFile × Entry)) : Agent :=
  { a with files := fun f => (cs.lookup f).getD (a.files f) }

/-- What became of the agent before a question. -/
def Agent.meet (a : Agent) (t : Turn) : Agent :=
  { a.change t.changes with closed := a.closed || t.stops }

/-- `_connect` makes the table, whatever becomes of the transaction. -/
def Agent.opened (a : Agent) : Agent :=
  { a with database := match a.database with
    | none => some .unset
    | some .older => some .unset
    | some e => some e }

/-- Anything is allocated. -/
def allocated (g : Registry) : Bool :=
  !g.resources.rows.isEmpty || !g.retirements.rows.isEmpty || !g.generations.rows.isEmpty

/-- A transaction of `GuestResources`: `_connect` writes the row if there is
none, before the transaction does its work. -/
def Agent.connected (a : Agent) (g : Registry) : Agent :=
  { a with database := match a.database with
    | some (.status s) => some (.status s)
    | _ => some (.status (if allocated g then "enrolled" else "fresh")) }

/-- `invalidate_for_reset` allows another enrollment. -/
def Agent.reset (a : Agent) : Agent :=
  { a with database := some (.status "reset-authorized"), marks := .reset :: a.marks }

/-- What a question of the broker does to the database besides, given the
registry before it. -/
def Agent.after (a : Agent) (t : Turn) (g : Registry) : (e : Op) → e.Ans → Agent
  | .registry .invalidate, .ok _ => (a.connected g).reset
  | .registry _, .ok _ => a.connected g
  | .registry _, .error _ => if t.answer then a.opened else a
  | _, _ => a

/-- `UPDATE enrollment_state … WHERE status IN (…)`. -/
def Agent.advance (a : Agent) (previous : List String) (current : String) : Option (Bool × Agent) :=
  match a.database with
  | some (.status s) =>
      if s ∈ previous then some (true, { a with database := some (.status current) })
      else some (false, a)
  | some .unset => some (false, a)
  | _ => none

/-- `login` was started, and leaves what it leaves. -/
def Agent.loggedIn (a : Agent) (t : Turn) : Agent :=
  { a.change t.leaves with marks := .login :: a.marks }

/-- The marker is created, unless there is one. -/
def Agent.marked (a : Agent) : Agent :=
  if a.files .bootstrapComplete = .absent then a.change [(.bootstrapComplete, .plain)] else a

/-- `Path.exists` and `Path.is_file` answer `False` where the `stat` fails.
What they say of a foreign entry depends on what it is. -/
def Agent.test (a : Agent) (t : Turn) (f : AgentFile) : Bool :=
  t.fault.isNone && match a.files f with
    | .absent => false
    | .plain => true
    | .foreign => t.answer

/-- A question that does not raise. -/
def Question.perform (t : Turn) : (q : Question) → Installation → q.Ans × Installation
  | broker e, i =>
      let out := Op.step t.broker e i.broker
      (out.1, ⟨out.2, i.agent.after t i.broker.registry e out.1⟩)
  | lstat f, i => (.ok (i.agent.files f), i)
  | anyState, i => (.ok (AgentFile.inState.any fun f => i.agent.files f ≠ .absent), i)
  | databaseExists, i => (.ok (!t.blind && i.agent.database.isSome), i)
  | hasStateTable, i => (.ok (decide (i.agent.database ≠ none ∧ i.agent.database ≠ some .older)), i)
  | anyAllocation, i => (.ok (allocated i.broker.registry), i)
  | status, i =>
      (.ok (match i.agent.database with
        | some (.status s) => some s
        | _ => none), i)
  | anyReady, i => (.ok (i.broker.registry.resources.rows.any (·.phase = .ready)), i)
  | mintToken, i => (.ok (), { i with agent.marks := .token :: i.agent.marks })
  | advance previous current, i =>
      match i.agent.advance previous current with
      | some (b, a) => (.ok b, { i with agent := a })
      | none => (.error .database, i)
  | createKey, i =>
      if i.agent.files .wrappingKey = .absent then
        (.ok (), { i with agent := i.agent.change [(.wrappingKey, .plain)] })
      else (.error .os, i)
  | readKey, i => (if i.agent.files .wrappingKey = .absent then .error .os else .ok t.key, i)
  | createTokenFile, i => (.ok (), i)
  | unlinkTokenFile, i => (.ok (), i)
  | login, i => (.ok (), { i with agent := i.agent.loggedIn t })
  | isFile f, i => (.ok (i.agent.test t f), i)
  | fileExists f, i => (.ok (i.agent.test t f), i)
  | createMarker, i => (.ok (), { i with agent := i.agent.marked })
  | isClosed, i => (.ok i.agent.closed, i)
  | daemonRunning, i => (.ok (i.agent.daemon && t.answer), i)
  | spawnDaemon, i => (.ok (), { i with agent.daemon := true })
  | awaitDaemon, i => (.ok t.answer, { i with agent.daemon := t.answer })
  | ipc, i => (.ok (), i)
  | credentialRejected, i => (.ok t.answer, i)
  | requireRecovery, i => (.ok (), { i with agent.recoveryRequired := true })
  | recoveryRequired, i => (.ok i.agent.recoveryRequired, i)
  | restart, i =>
      (.ok (), { i with agent := { i.agent with
        closed := false, daemon := false, recoveryRequired := false } })

/-- What a question that raises does: a request that was sent is on record,
and a command leaves what it leaves. -/
def Question.applied (t : Turn) : Question → Installation → Installation
  | mintToken, i => { i with agent.marks := .token :: i.agent.marks }
  | login, i => { i with agent := i.agent.loggedIn t }
  | advance previous current, i =>
      match t.answer, i.agent.advance previous current with
      | true, some (_, a) => { i with agent := a }
      | _, _ => i
  | _, i => i

/-- What does not raise: what is only read or written in memory, and the
tests of existence. -/
def Question.total : Question → Bool
  | databaseExists => true
  | isFile _ => true
  | fileExists _ => true
  | isClosed => true
  | credentialRejected => true
  | requireRecovery => true
  | recoveryRequired => true
  | restart => true
  | _ => false

/-- One question, after what became of the files. The broker's questions
fail as they fail there. -/
def Question.step (t : Turn) (q : Question) (i : Installation) : q.Ans × Installation :=
  let i := { i with agent := i.agent.meet t }
  match q, t.fault with
  | broker e, _ => (broker e).perform t i
  | q, none => q.perform t i
  | q, some f => if q.total then q.perform t i else (.error f, q.applied t i)

/-! ## The publisher -/

/-- A method of the publisher. -/
abbrev AgentM := ExceptT Failure (Prog Question Question.Ans)

/-- Ask one question. -/
def ask (q : Question) : AgentM q.Res := ExceptT.mk (Prog.call q)

/-- A block with an `except` clause. -/
def attempt {α : Type} (x : AgentM α) : AgentM (Except Failure α) :=
  ExceptT.mk (x.run >>= fun r => Prog.ret (.ok r))

/-- `AgentRecoveryRequired`. -/
def recovery (message : String) : Failure := .layerV message (some 503) none

/-- The same, remembered by the publisher. -/
def failForRecovery {α : Type} (message : String) : AgentM α := do
  ask .requireRecovery
  throw (recovery (message ++ "; explicit administrator recovery is required"))

/-- `_present`. -/
def present (f : AgentFile) : AgentM Bool := do return (← ask (.lstat f)) ≠ .absent

/-- What the database says of a fresh installation. -/
def freshDatabase : AgentM Bool := do
  if ← ask .hasStateTable then
    match ← ask .status with
    | none => return false
    | some s =>
        if s = "fresh" ∨ s = "reset-authorized" then return !(← ask .anyReady) else return false
  -- a database of an earlier version with any allocation is established
  else return !(← ask .anyAllocation)

/-- `_fresh`. -/
def fresh : AgentM Bool := do
  if ← present .bootstrapComplete then return false
  else if ← present .wrappingKey then return false
  else if ← ask .anyState then return false
  else if ← ask .databaseExists then freshDatabase
  else return true

/-- `_advance_enrollment`. -/
def advanceEnrollment (previous : List String) (current : String) : AgentM Unit := do
  if ← ask .databaseExists then
    if ← ask (.advance previous current) then return ()
    else failForRecovery "LayerV Agent enrollment state changed"
  else return ()

/-- The loop of `_require_enrolled`. -/
def requireEach : List AgentFile → AgentM Unit
  | [] => return ()
  | f :: fs => do
      match ← ask (.lstat f) with
      | .absent => failForRecovery "Persisted LayerV Agent state is missing or incompatible"
      | .foreign => throw (.layerV "Unsafe privileged Agent state" (some 503) none)
      | .plain => requireEach fs

/-- `_require_enrolled`. -/
def requireEnrolled : AgentM Unit :=
  requireEach [.bootstrapComplete, .wrappingKey, .agentState, .runtimeMode]

/-- `_read_wrapping_key`, as the pipe of the key begins with it. -/
def readWrappingKey : AgentM Unit := do
  match ← attempt (ask .readKey) with
  | .ok .usable => return ()
  | .ok .exposed => throw (.layerV "Unsafe privileged Agent wrapping key" (some 503) none)
  | .ok .wrongLength => throw (.layerV "Invalid privileged Agent wrapping key" (some 503) none)
  | .error .os => failForRecovery "LayerV Agent wrapping key is unavailable"
  | .error e => throw e

/-- `_run` of a command that needs the agent. -/
def runCommand (e : Op) : AgentM e.Res := do
  requireEnrolled
  readWrappingKey
  match ← attempt (ask (.broker e)) with
  | .ok a => return a
  | .error f => do
      -- exit code 4: the persisted credential of the agent is rejected
      if ← ask .credentialRejected then ask .requireRecovery
      throw f

/-- `_run` of the login. -/
def runLogin : AgentM Unit := do
  let established := recovery
    "LayerV Agent enrollment already exists; explicit administrator recovery is required"
  if ← present .bootstrapComplete then throw established
  else if ← present .agentState then throw established
  else do
    readWrappingKey
    ask .login

/-- The steps of `_bootstrap` whose `OSError` is caught. -/
def enroll : AgentM Unit := do
  ask .createKey
  ask .createTokenFile
  let result ← attempt runLogin
  ask .unlinkTokenFile
  match result with
  | .ok _ => return ()
  | .error e => throw e

/-- `_mark_bootstrapped`. -/
def markBootstrapped : AgentM Unit := do
  if ← present .bootstrapComplete then return ()
  else ask .createMarker

/-- `_bootstrap`, after its check. -/
def bootstrapFresh : AgentM Unit := do
  ask .mintToken
  advanceEnrollment ["fresh", "reset-authorized"] "enrolling"
  match ← attempt enroll with
  | .ok _ => do
      let durable :=
        .layerV "LayerV Agent enrollment did not establish durable state" (some 503) none
      if ← ask (.isFile .agentState) then
        if ← ask (.isFile .runtimeMode) then do
          advanceEnrollment ["enrolling", "enrolling"] "enrolled"
          markBootstrapped
        else throw durable
      else throw durable
  | .error .os => throw (.layerV "LayerV Agent enrollment state is unavailable" (some 503) none)
  | .error e => throw e

/-- `_bootstrap`. -/
def bootstrap : AgentM Unit := do
  if ← fresh then bootstrapFresh
  else failForRecovery "LayerV Agent enrollment is incomplete"

def shuttingDown : Failure := .layerV "Shared Connector is shutting down" (some 503) none

/-- `_start`. -/
def start : AgentM Unit := do
  if ← ask .isClosed then throw shuttingDown
  else do
    requireEnrolled
    if ← ask .daemonRunning then ask .ipc
    else do
      readWrappingKey
      ask .spawnDaemon
      if ← ask .awaitDaemon then return ()
      else throw (.layerV "Shared Connector is not ready" (some 503) (some 2))

/-- `__call__`, the publication of a resource. -/
def publish (connectorId target : String) : AgentM Published := do
  if ← ask .isClosed then throw shuttingDown
  else do
    if ← fresh then bootstrap
    requireEnrolled
    start
    ask .ipc
    runCommand (.publish connectorId target)

/-- `cleanup`. -/
def cleanup (crid : String) : AgentM Unit := runCommand (.cleanup crid)

/-- `ensure_ready`. -/
def ensureReady (publicKey : String) : AgentM Unit := do
  start
  ask (.broker (.ensureReady publicKey))

/-- `restore`. -/
def restore : AgentM Unit := do
  if ← fresh then return ()
  else do
    requireEnrolled
    if ← ask (.fileExists .localShares) then start

/-- `healthy`. -/
def healthy : AgentM Bool := do
  if ← ask .recoveryRequired then return false
  else if ← fresh then return true
  else
    match ← attempt requireEnrolled with
    | .error (.layerV ..) => return false
    | .error e => throw e
    | .ok _ =>
        if ← ask (.fileExists .localShares) then
          if ← ask .daemonRunning then
            match ← attempt (ask .ipc) with
            | .ok _ => return true
            | .error .os => return false
            | .error (.python .valueError) => return false
            | .error e => throw e
          else return false
        else return true

/-! ## The installation -/

/-- What the publisher is called for. -/
def answer : (e : Op) → Prog Question Question.Ans e.Ans
  | .publish connectorId target => (publish connectorId target).run
  | .cleanup crid => (cleanup crid).run
  | .ensureReady publicKey => (ensureReady publicKey).run
  | e => Prog.call (Question.broker e)

/-- A call of `GuestResources`, a start of the broker, or a look at its
health. -/
inductive Request where
  | guest (c : Call)
  | start
  | healthy

inductive Reply where
  | client (c : Option Client)
  | started
  | health (b : Bool)

/-- The start of the broker: a new publisher restores its daemon. -/
def boot : AgentM Unit := do
  ask .restart
  restore

def Request.serve (cfg : Config) : Request → Prog Question Question.Ans (Except Failure Reply)
  | guest c => (c.run cfg).run.expand answer >>= fun r => Prog.ret (r.map Reply.client)
  | start => boot.run >>= fun r => Prog.ret (r.map fun _ => Reply.started)
  | healthy => Publisher.healthy.run >>= fun r => Prog.ret (r.map Reply.health)

/-- The calls run one after another, under the locks of the resources and
of the publisher. -/
def installation (cfg : Config) :
    Server Request Turn Question Question.Ans (Except Failure Reply) Installation where
  serve := Request.serve cfg
  perform := Question.step
  reply _ _ i := i

/-! ## Marks -/

/-- What is on record since the last reset. -/
def since (marks : List Mark) : List Mark := marks.takeWhile (· ≠ .reset)

@[simp] theorem since_reset (ms : List Mark) : since (.reset :: ms) = [] := rfl

theorem since_cons {m : Mark} (ms : List Mark) (hm : m ≠ .reset) :
    since (m :: ms) = m :: since ms :=
  List.takeWhile_cons_of_pos (by simpa using hm)

/-- After a login nothing but a reset. -/
def Once : List Mark → Prop
  | [] => True
  | m :: ms => (m ≠ .reset → .login ∉ since ms) ∧ Once ms

theorem Once.of_append {later ms : List Mark} (h : Once (later ++ ms)) : Once ms := by
  induction later with
  | nil => exact h
  | cons m later ih => exact ih h.2

/-- Between a login and whatever follows it there is a reset. -/
theorem Once.reset_mem {later between before : List Mark} {m : Mark}
    (h : Once (later ++ m :: between ++ .login :: before)) (hm : m ≠ .reset) :
    .reset ∈ between := by
  rw [List.append_assoc] at h
  have hlogin : Mark.login ∉ since (between ++ .login :: before) := h.of_append.1 hm
  by_contra hno
  refine hlogin ?_
  have hall : ∀ x ∈ between, decide (x ≠ Mark.reset) = true := by
    intro x hx
    exact decide_eq_true (ne_of_mem_of_not_mem hx hno)
  rw [since, List.takeWhile_append_of_pos hall]
  exact List.mem_append_right _ (by simp)

/-! ## The invariant -/

/-- A login since the last reset is on record in the database, nothing came
after it but a reset, and a database that is not there has no rows. -/
structure Sound (i : Installation) : Prop where
  once : Once i.agent.marks
  recorded : .login ∈ since i.agent.marks → ∃ s, i.agent.database = some (.status s) ∧
    s ≠ "fresh" ∧ s ≠ "reset-authorized"
  known : i.agent.database = none → i.broker.registry.resources.rows = []

/-- What holds between two questions. -/
def Good (i : Installation) : Prop := Sound i ∧ i.broker.registry.Inv

/-- The broker, the database and the marks are as they were. -/
structure Same (i i' : Installation) : Prop where
  broker : i'.broker = i.broker
  database : i'.agent.database = i.agent.database
  marks : i'.agent.marks = i.agent.marks

theorem Same.refl (i : Installation) : Same i i := ⟨rfl, rfl, rfl⟩

theorem Same.trans {i j k : Installation} (h : Same i j) (h' : Same j k) : Same i k :=
  ⟨h'.broker.trans h.broker, h'.database.trans h.database, h'.marks.trans h.marks⟩

theorem Sound.same {i i' : Installation} (h : Sound i) (hs : Same i i') : Sound i' := by
  refine ⟨hs.marks ▸ h.once, fun hl => ?_, fun hd => ?_⟩
  · rw [hs.database]
    exact h.recorded (hs.marks ▸ hl)
  · rw [hs.broker]
    exact h.known (hs.database ▸ hd)

theorem Good.same {i i' : Installation} (h : Good i) (hs : Same i i') : Good i' :=
  ⟨h.1.same hs, hs.broker ▸ h.2⟩

/-- No question of these changes the broker, the database or the marks. -/
def Quiet : Question → Prop
  | .broker _ => False
  | .mintToken => False
  | .advance .. => False
  | .login => False
  | _ => True

theorem same_change (i : Installation) (cs : List (AgentFile × Entry)) :
    Same i { i with agent := i.agent.change cs } := ⟨rfl, rfl, rfl⟩

theorem same_meeting (i : Installation) (t : Turn) :
    Same i { i with agent := i.agent.meet t } := ⟨rfl, rfl, rfl⟩

theorem same_marked (i : Installation) : Same i { i with agent := i.agent.marked } := by
  unfold Agent.marked
  split
  · exact same_change i _
  · exact .refl i

theorem same_perform {q : Question} (t : Turn) (i : Installation) (hq : Quiet q) :
    Same i (q.perform t i).2 := by
  cases q with
  | broker e => exact hq.elim
  | mintToken => exact hq.elim
  | advance previous current => exact hq.elim
  | login => exact hq.elim
  | createKey =>
      rw [Question.perform]
      split
      · exact same_change i _
      · exact .refl i
  | createMarker => exact same_marked i
  | _ => exact ⟨rfl, rfl, rfl⟩

theorem same_applied {q : Question} (t : Turn) (i : Installation) (hq : Quiet q) :
    Same i (q.applied t i) := by
  cases q with
  | broker e => exact hq.elim
  | mintToken => exact hq.elim
  | advance previous current => exact hq.elim
  | login => exact hq.elim
  | _ => exact .refl i

/-- What a question does that is not the broker's. -/
theorem step_cases (t : Turn) (q : Question) (i : Installation) (hq : ∀ e, q ≠ .broker e) :
    let j : Installation := { i with agent := i.agent.meet t }
    Question.step t q i = q.perform t j ∨ ∃ f, Question.step t q i = (.error f, q.applied t j) := by
  intro j
  unfold Question.step
  rcases hf : t.fault with _ | f
  · left
    cases q <;> rfl
  · cases q with
    | broker e => exact absurd rfl (hq e)
    | databaseExists => exact .inl rfl
    | isFile f => exact .inl rfl
    | fileExists f => exact .inl rfl
    | isClosed => exact .inl rfl
    | credentialRejected => exact .inl rfl
    | requireRecovery => exact .inl rfl
    | recoveryRequired => exact .inl rfl
    | restart => exact .inl rfl
    | _ => exact .inr ⟨f, rfl⟩

theorem same_step {q : Question} (t : Turn) (i : Installation) (hq : Quiet q) :
    Same i (Question.step t q i).2 := by
  have hne : ∀ e, q ≠ .broker e := by
    rintro e rfl
    exact hq
  have hs := same_meeting i t
  rcases step_cases t q i hne with he | ⟨f, he⟩ <;> rw [he]
  · exact hs.trans (same_perform t _ hq)
  · exact hs.trans (same_applied t _ hq)

/-! ## What the other questions keep -/

/-- The row allows an enrollment. -/
def Free (i : Installation) : Prop :=
  ∃ s, i.agent.database = some (.status s) ∧ (s = "fresh" ∨ s = "reset-authorized")

theorem Sound.not_login {i : Installation} (h : Sound i) (hf : Free i) :
    .login ∉ since i.agent.marks := by
  intro hl
  obtain ⟨s, hs, hs'⟩ := hf
  obtain ⟨s', hd, hne, hne'⟩ := h.recorded hl
  obtain rfl : s = s' := by
    rw [hs] at hd
    exact Enrollment.status.inj (Option.some.inj hd)
  rcases hs' with rfl | rfl
  · exact hne rfl
  · exact hne' rfl

theorem Sound.mark {i : Installation} {m : Mark} {a : Agent} (h : Sound i)
    (hl : .login ∉ since i.agent.marks) (hd : a.database = i.agent.database)
    (hm : a.marks = m :: i.agent.marks)
    (hs : m = .login → ∃ s, i.agent.database = some (.status s) ∧ s ≠ "fresh" ∧
      s ≠ "reset-authorized") : Sound { i with agent := a } := by
  refine ⟨?_, fun hmem => ?_, fun hn => h.known (hd ▸ hn)⟩
  · show Once a.marks
    rw [hm]
    exact ⟨fun _ => hl, h.once⟩
  · show ∃ s, a.database = _ ∧ _
    rw [hd]
    have hmem : Mark.login ∈ since a.marks := hmem
    rw [hm] at hmem
    by_cases hmr : m = .reset
    · rw [hmr, since_reset] at hmem
      exact absurd hmem List.not_mem_nil
    · rw [since_cons _ hmr] at hmem
      rcases List.mem_cons.mp hmem with he | he
      · exact hs he.symm
      · exact absurd he hl

/-- The row is moved on, or is not as expected. -/
theorem advance_cases {a a' : Agent} {previous : List String} {current : String} {b : Bool}
    (h : a.advance previous current = some (b, a')) :
    (b = true ∧ (∃ s ∈ previous, a.database = some (.status s)) ∧
      a' = { a with database := some (.status current) }) ∨ b = false ∧ a' = a := by
  rcases hd : a.database with _ | _ | _ | s <;> simp only [Agent.advance, hd] at h
  · cases h
  · cases h
  · cases h
    exact .inr ⟨rfl, rfl⟩
  · by_cases hs : s ∈ previous
    · rw [if_pos hs] at h
      cases h
      exact .inl ⟨rfl, ⟨s, hs, rfl⟩, rfl⟩
    · rw [if_neg hs] at h
      cases h
      exact .inr ⟨rfl, rfl⟩

theorem Sound.advance {i : Installation} {previous : List String} {current : String} {b : Bool}
    {a : Agent} (h : Sound i) (ha : i.agent.advance previous current = some (b, a))
    (hc : current ≠ "fresh") (hc' : current ≠ "reset-authorized") :
    Sound { i with agent := a } := by
  rcases advance_cases ha with ⟨-, -, rfl⟩ | ⟨-, rfl⟩
  · exact ⟨h.once, fun _ => ⟨current, rfl, hc, hc'⟩, (by rintro ⟨⟩)⟩
  · exact h

/-! ## The broker's questions -/

/-- A transaction that raises is rolled back. -/
theorem perform_eq_error {e : RegistryOp} {now : Instant} {g : Registry} {f : Failure}
    (h : (e.perform now g).1 = .error f) : (e.perform now g).2 = g := by
  cases e with
  | generation page revoked =>
      simp only [RegistryOp.perform] at h ⊢
      split at h
      · rcases hg : g.putAway page with _ | g'
        · rw [if_pos ‹_›]
        · rw [hg] at h
          cases h
      · cases h
  | insert page owner connectorId target =>
      simp only [RegistryOp.perform] at h ⊢
      split at h
      · rw [if_pos ‹_›]
      · rw [if_neg ‹_›]
        split at h
        · cases h
        · rfl
  | bind page owner crid publicKey =>
      simp only [RegistryOp.perform] at h ⊢
      split at h
      · rw [if_pos ‹_›]
      · cases h
  | selectOrphans graceSeconds =>
      simp only [RegistryOp.perform] at h
      split at h <;> cases h
  | invalidate =>
      simp only [RegistryOp.perform] at h ⊢
      split at h
      · cases h
      · rfl
  | _ => cases h

/-- A question that is not of the registry leaves it as it is. -/
theorem registry_eq {t : Tick} {e : Op} {w : World} (he : ∀ r, e ≠ .registry r) :
    (Op.step t e w).2.registry = w.registry := by
  have hs := same_meet t w
  rcases LayerV.step_cases t e w with h | h | h <;> rw [h]
  · exact hs.registry
  · cases e <;> exact hs.registry
  · cases e with
    | registry r => exact absurd rfl (he r)
    | _ => exact hs.registry

theorem registry_eq_of_error {t : Tick} {e : RegistryOp} {w : World} {f : Failure}
    (h : (Op.step t (.registry e) w).1 = .error f) :
    (Op.step t (.registry e) w).2.registry = w.registry := by
  have hs := same_meet t w
  rcases LayerV.step_cases t (.registry e) w with he | he | he <;> rw [he] at h ⊢
  · exact hs.registry
  · exact hs.registry
  · exact (perform_eq_error h).trans hs.registry

/-- What a transaction that ends well leaves. -/
theorem Sound.connected {i : Installation} {w : World} (h : Sound i) (g : Registry) :
    Sound ⟨w, i.agent.connected g⟩ := by
  refine ⟨h.once, fun hl => ?_, fun hn => ?_⟩
  · obtain ⟨s, hs, hs'⟩ := h.recorded hl
    refine ⟨s, ?_, hs'⟩
    simp only [Agent.connected, hs]
  · simp only [Agent.connected] at hn
    split at hn <;> cases hn

theorem Sound.reset {i : Installation} (h : Sound i) : Sound { i with agent := i.agent.reset } :=
  ⟨⟨fun hm => absurd rfl hm, h.once⟩, fun hl => absurd hl List.not_mem_nil, (by rintro ⟨⟩)⟩

theorem Sound.opened {i : Installation} (h : Sound i) :
    Sound { i with agent := i.agent.opened } := by
  refine ⟨h.once, fun hl => ?_, fun hn => ?_⟩
  · obtain ⟨s, hs, hs'⟩ := h.recorded hl
    refine ⟨s, ?_, hs'⟩
    simp only [Agent.opened, hs]
  · simp only [Agent.opened] at hn
    split at hn <;> cases hn

/-- The broker's own questions keep what is on record of its agent. -/
theorem Sound.broker {i : Installation} (h : Sound i) (t : Turn) (e : Op) :
    Sound (Question.step t (.broker e) i).2 := by
  have hi := h.same (same_meeting i t)
  show Sound ⟨(Op.step t.broker e i.broker).2,
    (i.agent.meet t).after t i.broker.registry e (Op.step t.broker e i.broker).1⟩
  by_cases he : ∃ r, e = .registry r
  · obtain ⟨r, rfl⟩ := he
    rcases hr : (Op.step t.broker (.registry r) i.broker).1 with f | a
    · have hw := registry_eq_of_error hr
      have hw' : Sound ⟨(Op.step t.broker (.registry r) i.broker).2, i.agent.meet t⟩ :=
        ⟨hi.once, hi.recorded, fun hn => hw ▸ hi.known hn⟩
      cases r <;> simp only [Agent.after] <;> split <;> first | exact hw'.opened | exact hw'
    · have hw := hi.connected (w := (Op.step t.broker (.registry r) i.broker).2) i.broker.registry
      cases r with
      | invalidate => exact hw.reset
      | _ => exact hw
  · have hne : ∀ r, e ≠ .registry r := fun r hr => he ⟨r, hr⟩
    have hw := registry_eq (t := t.broker) (w := i.broker) hne
    have hsame : (i.agent.meet t).after t i.broker.registry e
        (Op.step t.broker e i.broker).1 = i.agent.meet t := by
      cases e with
      | registry r => exact absurd rfl (hne r)
      | _ => rfl
    rw [hsame]
    exact ⟨hi.once, hi.recorded, fun hn => hw ▸ hi.known hn⟩

/-! ## The rule -/

variable {α β : Type} {i : Installation}

/-- A turn on which the database is seen if it is there. -/
abbrev SightedTurn := { t : Turn // t.blind = false }

/-- **The rule a method of the publisher is checked by**: whatever its
questions meet, unless the `stat` of the database fails, the records are
sound wherever it may stop, and `Q` holds of its outcome. -/
structure Runs (x : AgentM α) (Q : Except Failure α → Installation → Prop) (i : Installation) :
    Prop where
  holds : x.run.Holds (fun t : SightedTurn => Question.step t.1) Good (fun _ => True) Q i

theorem runs_mono {x : AgentM α} {Q Q' : Except Failure α → Installation → Prop} (h : Runs x Q i)
    (hQ : ∀ r i', Good i' → Q r i' → Q' r i') : Runs x Q' i :=
  ⟨Prog.holds_mono h.holds hQ⟩

theorem runs_pure {a : α} {Q : Except Failure α → Installation → Prop} (hi : Good i)
    (h : Q (.ok a) i) : Runs (pure a) Q i := ⟨hi, h⟩

theorem runs_throw {f : Failure} {Q : Except Failure α → Installation → Prop} (hi : Good i)
    (h : Q (.error f) i) : Runs (throw f) Q i := ⟨hi, h⟩

theorem runs_bind {x : AgentM α} {k : α → AgentM β} {P : Except Failure α → Installation → Prop}
    {Q : Except Failure β → Installation → Prop} (h : Runs x P i)
    (hok : ∀ a i', Good i' → P (.ok a) i' → Runs (k a) Q i')
    (herr : ∀ f i', Good i' → P (.error f) i' → Q (.error f) i') : Runs (x >>= k) Q i := by
  refine ⟨Prog.holds_except_bind (Prog.holds_mono h.holds fun r i' hi hr => ?_)⟩
  cases r with
  | ok a => exact (hok a i' hi hr).holds
  | error f => exact herr f i' hi hr

theorem runs_ask {q : Question} {Q : Except Failure q.Res → Installation → Prop} (hi : Good i)
    (h : ∀ t, t.blind = false → Good (Question.step t q i).2 ∧
      Q (Question.step t q i).1 (Question.step t q i).2) : Runs (ask q) Q i :=
  ⟨hi, fun t => ⟨trivial, h t.1 t.2⟩⟩

theorem runs_attempt {x : AgentM α} {Q : Except Failure α → Installation → Prop} (h : Runs x Q i) :
    Runs (attempt x) (fun r i' => ∃ o, r = .ok o ∧ Q o i') i := by
  refine ⟨?_⟩
  show Prog.Holds _ Good (fun _ => True)
    (x.run >>= fun r => Prog.ret (Except.ok r : Except Failure (Except Failure α))) _ i
  rw [Prog.holds_bind]
  exact Prog.holds_mono h.holds fun r i' hi hr => ⟨hi, r, rfl, hr⟩

/-- A method that asks nothing else leaves the broker, the database and the
marks alone. -/
theorem runs_quiet {x : AgentM α} (h : Prog.Returns Quiet x fun _ => True) (hi : Good i) :
    Runs x (fun _ i' => Same i i') i := by
  have hq : x.run.Holds (fun t : SightedTurn => Question.step t.1) (Same i) (fun _ => True)
      (fun r _ => ∀ a, r = .ok a → True) i :=
    h.ends.holds (Same.refl i) fun t q i' hq hs => hs.trans (same_step t.1 i' hq)
  exact ⟨Prog.holds_imp (Prog.holds_mono hq fun _ _ hs _ => hs) (fun _ hs => hi.same hs)
    fun _ _ _ _ _ => trivial⟩

/-- What such a question answers. -/
theorem runs_ask_quiet {q : Question} {A : q.Res → Prop} (hq : Quiet q) (hi : Good i)
    (hA : ∀ t j, t.blind = false → Same i j → ∀ a, (q.perform t j).1 = .ok a → A a) :
    Runs (ask q) (fun r i' => Same i i' ∧ ∀ a, r = .ok a → A a) i := by
  refine runs_ask hi fun t ht => ⟨hi.same (same_step t i hq), same_step t i hq, fun a ha => ?_⟩
  have hne : ∀ e, q ≠ .broker e := by
    rintro e rfl
    exact hq
  rcases step_cases t q i hne with he | ⟨f, he⟩ <;> rw [he] at ha
  · exact hA t _ ht (same_meeting i t) a ha
  · cases ha

/-! ## Methods that only look -/

section Quiet

open Prog (Returns returns_pure returns_throw returns_bind returns_mono)

theorem returns_ask {q : Question} (hq : Quiet q) : Returns Quiet (ask q) fun _ => True :=
  ⟨⟨hq, fun _ _ _ => trivial⟩⟩

theorem returns_attempt {x : AgentM α} (h : Returns Quiet x fun _ => True) :
    Returns Quiet (attempt x) fun _ => True := by
  refine ⟨?_⟩
  show Prog.Ends Quiet _
    (x.run >>= fun r => Prog.ret (Except.ok r : Except Failure (Except Failure α)))
  exact Prog.ends_bind (Prog.ends_mono h.ends fun r _ a _ => trivial)

theorem quiet_failForRecovery {message : String} :
    Returns Quiet (failForRecovery message : AgentM α) fun _ => True :=
  returns_bind (returns_ask trivial) fun _ _ => returns_throw

theorem quiet_present (f : AgentFile) : Returns Quiet (present f) fun _ => True :=
  returns_bind (returns_ask trivial) fun _ _ => returns_pure trivial

theorem quiet_freshDatabase : Returns Quiet freshDatabase fun _ => True := by
  refine returns_bind (returns_ask trivial) fun b _ => ?_
  cases b with
  | false => exact returns_bind (returns_ask trivial) fun _ _ => returns_pure trivial
  | true =>
      refine returns_bind (returns_ask trivial) fun o _ => ?_
      cases o with
      | none => exact returns_pure trivial
      | some s =>
          show Returns Quiet (if s = "fresh" ∨ s = "reset-authorized" then _ else _) _
          split
          · exact returns_bind (returns_ask trivial) fun _ _ => returns_pure trivial
          · exact returns_pure trivial

theorem quiet_fresh : Returns Quiet fresh fun _ => True := by
  refine returns_bind (quiet_present _) fun b _ => ?_
  cases b with
  | true => exact returns_pure trivial
  | false =>
      refine returns_bind (quiet_present _) fun b _ => ?_
      cases b with
      | true => exact returns_pure trivial
      | false =>
          refine returns_bind (returns_ask trivial) fun b _ => ?_
          cases b with
          | true => exact returns_pure trivial
          | false =>
              refine returns_bind (returns_ask trivial) fun b _ => ?_
              cases b with
              | true => exact quiet_freshDatabase
              | false => exact returns_pure trivial

theorem quiet_requireEach (fs : List AgentFile) : Returns Quiet (requireEach fs) fun _ => True := by
  induction fs with
  | nil => exact returns_pure trivial
  | cons f fs ih =>
      refine returns_bind (returns_ask trivial) fun e _ => ?_
      cases e with
      | absent => exact quiet_failForRecovery
      | plain => exact ih
      | foreign => exact returns_throw

theorem quiet_requireEnrolled : Returns Quiet requireEnrolled fun _ => True := quiet_requireEach _

theorem quiet_readWrappingKey : Returns Quiet readWrappingKey fun _ => True := by
  refine returns_bind (returns_attempt (returns_ask trivial)) fun r _ => ?_
  rcases r with e | k
  · cases e <;> first | exact quiet_failForRecovery | exact returns_throw
  · cases k <;> first | exact returns_pure trivial | exact returns_throw

theorem quiet_markBootstrapped : Returns Quiet markBootstrapped fun _ => True := by
  refine returns_bind (quiet_present _) fun b _ => ?_
  cases b with
  | true => exact returns_pure trivial
  | false => exact returns_ask trivial

theorem quiet_start : Returns Quiet start fun _ => True := by
  refine returns_bind (returns_ask trivial) fun b _ => ?_
  cases b with
  | true => exact returns_throw
  | false =>
      refine returns_bind quiet_requireEnrolled fun _ _ => ?_
      refine returns_bind (returns_ask trivial) fun b _ => ?_
      cases b with
      | true => exact returns_ask trivial
      | false =>
          refine returns_bind quiet_readWrappingKey fun _ _ => ?_
          refine returns_bind (returns_ask trivial) fun _ _ => ?_
          refine returns_bind (returns_ask trivial) fun b _ => ?_
          cases b with
          | true => exact returns_pure trivial
          | false => exact returns_throw

theorem quiet_restore : Returns Quiet restore fun _ => True := by
  refine returns_bind quiet_fresh fun b _ => ?_
  cases b with
  | true => exact returns_pure trivial
  | false =>
      refine returns_bind quiet_requireEnrolled fun _ _ => ?_
      refine returns_bind (returns_ask trivial) fun b _ => ?_
      cases b with
      | true => exact quiet_start
      | false => exact returns_pure trivial

theorem quiet_boot : Returns Quiet boot fun _ => True :=
  returns_bind (returns_ask trivial) fun _ _ => quiet_restore

theorem quiet_healthy : Returns Quiet healthy fun _ => True := by
  refine returns_bind (returns_ask trivial) fun b _ => ?_
  cases b with
  | true => exact returns_pure trivial
  | false =>
      refine returns_bind quiet_fresh fun b _ => ?_
      cases b with
      | true => exact returns_pure trivial
      | false =>
          refine returns_bind (returns_attempt quiet_requireEnrolled) fun r _ => ?_
          rcases r with e | a
          · cases e <;> first | exact returns_pure trivial | exact returns_throw
          · refine returns_bind (returns_ask trivial) fun b _ => ?_
            cases b with
            | false => exact returns_pure trivial
            | true =>
                refine returns_bind (returns_ask trivial) fun b _ => ?_
                cases b with
                | false => exact returns_pure trivial
                | true =>
                    refine returns_bind (returns_attempt (returns_ask trivial)) fun r _ => ?_
                    rcases r with e | a
                    · cases e with
                      | python e =>
                          cases e <;> first | exact returns_pure trivial | exact returns_throw
                      | os => exact returns_pure trivial
                      | _ => exact returns_throw
                    · exact returns_pure trivial

end Quiet

/-! ## A fresh installation -/

/-- There is a row of a resource. -/
def Known (i : Installation) : Prop := i.broker.registry.resources.rows ≠ []

theorem Free.same {i i' : Installation} (h : Free i) (hs : Same i i') : Free i' := by
  obtain ⟨s, hd, hs'⟩ := h
  exact ⟨s, hs.database.trans hd, hs'⟩

/-- Go on after a question that only looks. -/
theorem runs_look {q : Question} {k : q.Res → AgentM β} {A : q.Res → Prop}
    {Q : Except Failure β → Installation → Prop} (hq : Quiet q) (hi : Good i)
    (hA : ∀ t j, t.blind = false → Same i j → ∀ a, (q.perform t j).1 = .ok a → A a)
    (hk : ∀ a i', Good i' → Same i i' → A a → Runs (k a) Q i')
    (herr : ∀ f i', Same i i' → Q (.error f) i') : Runs (ask q >>= k) Q i :=
  runs_bind (runs_ask_quiet hq hi hA) (fun a i' hi' h => hk a i' hi' h.1 (h.2 a rfl))
    fun f i' _ h => herr f i' h.1

/-- Go on after a method that only looks. -/
theorem runs_peek {x : AgentM α} {k : α → AgentM β} {Q : Except Failure β → Installation → Prop}
    (hx : Prog.Returns Quiet x fun _ => True) (hi : Good i)
    (hk : ∀ a i', Good i' → Same i i' → Runs (k a) Q i')
    (herr : ∀ f i', Same i i' → Q (.error f) i') : Runs (x >>= k) Q i :=
  runs_bind (runs_quiet hx hi) (fun a i' hi' hs => hk a i' hi' hs) fun f i' _ hs => herr f i' hs

theorem runs_failForRecovery {message : String} (hi : Good i) :
    Runs (failForRecovery message : AgentM α) (fun r i' => Same i i' ∧ ∃ f, r = .error f) i :=
  runs_peek (returns_ask trivial) hi (fun _ _ hj hs => runs_throw hj ⟨hs, _, rfl⟩)
    fun f _ hs => ⟨hs, f, rfl⟩

theorem runs_freshDatabase (hi : Good i) (hk : Known i) :
    Runs freshDatabase (fun r i' => Same i i' ∧ (r = .ok true → Free i')) i := by
  have herr : ∀ (f : Failure) i', Same i i' → Same i i' ∧
      ((.error f : Except Failure Bool) = .ok true → Free i') := fun f i' hs => ⟨hs, (by rintro ⟨⟩)⟩
  refine runs_peek (returns_ask trivial) hi (fun b j hj hs => ?_) herr
  cases b with
  | false =>
      refine runs_look (A := fun b => b = true) trivial hj (fun t j' _ hs' b hb => ?_)
        (fun b j' hj' hs' hb => runs_pure hj' ⟨hs.trans hs', fun h => ?_⟩)
        fun f j' hs' => herr f j' (hs.trans hs')
      · have hrow : j'.broker.registry.resources.rows ≠ [] := by
          rw [(hs.trans hs').broker]
          exact hk
        obtain rfl : allocated j'.broker.registry = b := Except.ok.inj hb
        rw [allocated, Bool.or_eq_true, Bool.or_eq_true]
        exact .inl (.inl (by simpa using hrow))
      · subst hb
        cases h
  | true =>
      refine runs_look (A := fun o => ∀ s, o = some s → i.agent.database = some (.status s))
        trivial hj (fun t j' _ hs' o ho s hs'' => ?_) (fun o j' hj' hs' ho => ?_)
        fun f j' hs' => herr f j' (hs.trans hs')
      · rw [← (hs.trans hs').database]
        subst hs''
        have ho : (match j'.agent.database with
          | some (.status s) => some s
          | _ => none) = some s := Except.ok.inj ho
        split at ho
        · rename_i s' hd
          rw [hd, Option.some.inj ho]
        · cases ho
      · have hs' := hs.trans hs'
        cases o with
        | none => exact runs_pure hj' ⟨hs', fun h => absurd h (by simp)⟩
        | some s =>
            show Runs (if s = "fresh" ∨ s = "reset-authorized" then _ else _) _ _
            split
            · rename_i hsf
              refine runs_peek (returns_ask trivial) hj'
                (fun b k hk hs'' => runs_pure hk ⟨hs'.trans hs'', fun _ => ?_⟩)
                fun f k hs'' => herr f k (hs'.trans hs'')
              exact ⟨s, ((hs'.trans hs'').database).trans (ho s rfl), hsf⟩
            · exact runs_pure hj' ⟨hs', fun h => absurd h (by simp)⟩

/-- **Only an installation whose row allows it is fresh**, once a resource is
on record. -/
theorem runs_fresh (hi : Good i) (hk : Known i) :
    Runs fresh (fun r i' => Same i i' ∧ (r = .ok true → Free i')) i := by
  have herr : ∀ (f : Failure) i', Same i i' → Same i i' ∧
      ((.error f : Except Failure Bool) = .ok true → Free i') := fun f i' hs => ⟨hs, (by rintro ⟨⟩)⟩
  have hfalse : ∀ i', Good i' → Same i i' →
      Runs (pure false : AgentM Bool) (fun r i' => Same i i' ∧ (r = .ok true → Free i')) i' :=
    fun i' hi' hs => runs_pure hi' ⟨hs, fun h => absurd h (by simp)⟩
  refine runs_peek (quiet_present _) hi (fun b j hj hs => ?_) herr
  cases b with
  | true => exact hfalse j hj hs
  | false =>
      refine runs_peek (quiet_present _) hj (fun b j hj hs' => ?_)
        fun f j hs' => herr f j (hs.trans hs')
      replace hs := hs.trans hs'
      cases b with
      | true => exact hfalse j hj hs
      | false =>
          refine runs_peek (returns_ask trivial) hj (fun b j hj hs' => ?_)
            fun f j hs' => herr f j (hs.trans hs')
          replace hs := hs.trans hs'
          cases b with
          | true => exact hfalse j hj hs
          | false =>
              refine runs_look (A := fun b => b = false → i.agent.database = none) trivial hj
                (fun t j' ht hs' b hb h => ?_) (fun b j hj hs' hb => ?_)
                fun f j hs' => herr f j (hs.trans hs')
              · have hb : (!t.blind && j'.agent.database.isSome) = b := Except.ok.inj hb
                rw [← (hs.trans hs').database]
                simpa [h, ht] using hb
              · replace hs := hs.trans hs'
                cases b with
                | true =>
                    have hkj : Known j := by
                      unfold Known
                      rw [hs.broker]
                      exact hk
                    refine runs_mono (runs_freshDatabase hj hkj) fun r k _ h => ⟨hs.trans h.1, h.2⟩
                | false => exact absurd (hi.1.known (hb rfl)) hk

/-! ## The enrollment -/

/-- The enrollment is on record as begun, and no login was started for it. -/
structure Begun (i : Installation) : Prop where
  database : i.agent.database = some (.status "enrolling")
  marks : .login ∉ since i.agent.marks

theorem Begun.same {i i' : Installation} (h : Begun i) (hs : Same i i') : Begun i' :=
  ⟨hs.database.trans h.database, hs.marks.symm ▸ h.marks⟩

theorem runs_mintToken (hi : Good i) (hf : Free i) :
    Runs (ask .mintToken) (fun _ i' => i'.broker = i.broker ∧ Free i') i := by
  refine runs_ask hi fun t _ => ?_
  have hstep : (Question.step t .mintToken i).2 = { i with agent := { i.agent.meet t with
      marks := .token :: i.agent.marks } } := by
    rcases step_cases t .mintToken i (by rintro _ ⟨⟩) with he | ⟨f, he⟩ <;> rw [he] <;> rfl
  rw [hstep]
  exact ⟨⟨hi.1.mark (hi.1.not_login hf) rfl rfl (by rintro ⟨⟩), hi.2⟩, rfl, hf⟩

/-- What a change of the row leaves. -/
theorem runs_advance {previous : List String} {current : String} (hi : Good i)
    (hc : current ≠ "fresh") (hc' : current ≠ "reset-authorized") :
    Runs (ask (.advance previous current)) (fun r i' => i'.broker = i.broker ∧
      i'.agent.marks = i.agent.marks ∧
      (r = .ok true → i'.agent.database = some (.status current))) i := by
  refine runs_ask hi fun t _ => ?_
  let j : Installation := { i with agent := i.agent.meet t }
  have hj : Good j := hi.same (same_meeting i t)
  have moved : ∀ b a, j.agent.advance previous current = some (b, a) →
      Good { j with agent := a } ∧ a.marks = i.agent.marks ∧
        (b = true → a.database = some (.status current)) := by
    intro b a ha
    refine ⟨⟨hj.1.advance ha hc hc', hj.2⟩, ?_⟩
    rcases advance_cases ha with ⟨-, -, rfl⟩ | ⟨rfl, rfl⟩
    · exact ⟨rfl, fun _ => rfl⟩
    · exact ⟨rfl, (by rintro ⟨⟩)⟩
  rcases step_cases t (.advance previous current) i (by rintro _ ⟨⟩) with he | ⟨f, he⟩ <;> rw [he]
  · show Good ((Question.advance previous current).perform t j).2 ∧ _
    rw [Question.perform]
    rcases ha : j.agent.advance previous current with _ | ⟨b, a⟩
    · exact ⟨hj, rfl, rfl, (by rintro ⟨⟩)⟩
    · obtain ⟨hg, hm, hd⟩ := moved b a ha
      exact ⟨hg, rfl, hm, fun h => hd (Except.ok.inj h)⟩
  · show Good ((Question.advance previous current).applied t j) ∧ _
    rw [Question.applied]
    rcases t.answer with _ | _
    · exact ⟨hj, rfl, rfl, (by rintro ⟨⟩)⟩
    · rcases ha : j.agent.advance previous current with _ | ⟨b, a⟩
      · exact ⟨hj, rfl, rfl, (by rintro ⟨⟩)⟩
      · obtain ⟨hg, hm, -⟩ := moved b a ha
        exact ⟨hg, rfl, hm, (by rintro ⟨⟩)⟩

theorem runs_advanceEnrollment {previous : List String} {current : String} (hi : Good i)
    (hc : current ≠ "fresh") (hc' : current ≠ "reset-authorized") :
    Runs (advanceEnrollment previous current) (fun r i' => i'.broker = i.broker ∧
      (r = .ok () → i.agent.database ≠ none → i'.agent.marks = i.agent.marks ∧
        i'.agent.database = some (.status current))) i := by
  refine runs_look (A := fun b => b = false → i.agent.database = none) trivial hi
    (fun t j ht hs b hb h => ?_) (fun b j hj hs hb => ?_) fun f j hs => ⟨hs.broker, (by rintro ⟨⟩)⟩
  · have hb : (!t.blind && j.agent.database.isSome) = b := Except.ok.inj hb
    rw [← hs.database]
    simpa [h, ht] using hb
  · cases b with
    | false => exact runs_pure hj ⟨hs.broker, fun _ hn => absurd (hb rfl) hn⟩
    | true =>
        refine runs_bind (runs_advance hj hc hc') (fun b k hk h => ?_)
          fun f k _ h => ⟨h.1.trans hs.broker, (by rintro ⟨⟩)⟩
        cases b with
        | true =>
            exact runs_pure hk ⟨h.1.trans hs.broker, fun _ _ => ⟨h.2.1.trans hs.marks, h.2.2 rfl⟩⟩
        | false =>
            refine runs_mono (runs_failForRecovery hk) ?_
            rintro _ l - ⟨hs', f, rfl⟩
            exact ⟨(hs'.broker.trans h.1).trans hs.broker, (by rintro ⟨⟩)⟩

theorem runs_login (hi : Good i) (hb : Begun i) :
    Runs (ask .login) (fun _ i' => i'.broker = i.broker) i := by
  refine runs_ask hi fun t _ => ?_
  have hstep : (Question.step t .login i).2 =
      { i with agent := (i.agent.meet t).loggedIn t } := by
    rcases step_cases t .login i (by rintro _ ⟨⟩) with he | ⟨f, he⟩ <;> rw [he] <;> rfl
  rw [hstep]
  refine ⟨⟨hi.1.mark hb.marks rfl rfl fun _ => ?_, hi.2⟩, rfl⟩
  exact ⟨"enrolling", hb.database, by decide, by decide⟩

theorem runs_runLogin (hi : Good i) (hb : Begun i) :
    Runs runLogin (fun _ i' => i'.broker = i.broker) i := by
  have herr : ∀ (f : Failure) i', Same i i' → i'.broker = i.broker := fun _ _ hs => hs.broker
  refine runs_peek (quiet_present _) hi (fun b j hj hs => ?_) herr
  cases b with
  | true => exact runs_throw hj hs.broker
  | false =>
      refine runs_peek (quiet_present _) hj (fun b k hk hs' => ?_)
        fun f k hs' => herr f k (hs.trans hs')
      replace hs := hs.trans hs'
      cases b with
      | true => exact runs_throw hk hs.broker
      | false =>
          refine runs_peek quiet_readWrappingKey hk (fun _ l hl hs' => ?_)
            fun f l hs' => herr f l (hs.trans hs')
          replace hs := hs.trans hs'
          exact runs_mono (runs_login hl (hb.same hs)) fun _ m _ h => h.trans hs.broker

theorem runs_enroll (hi : Good i) (hb : Begun i) :
    Runs enroll (fun _ i' => i'.broker = i.broker) i := by
  refine runs_peek (returns_ask trivial) hi (fun _ j hj hs => ?_) fun _ _ hs => hs.broker
  refine runs_peek (returns_ask trivial) hj (fun _ k hk hs' => ?_)
    fun _ _ hs' => (hs.trans hs').broker
  replace hs := hs.trans hs'
  refine runs_bind (runs_attempt (runs_runLogin hk (hb.same hs))) ?_ ?_
  · rintro r l hl ⟨o, -, ho⟩
    have hl' : l.broker = i.broker := ho.trans hs.broker
    refine runs_peek (returns_ask trivial) hl (fun _ m hm hs'' => ?_)
      fun _ _ hs'' => hs''.broker.trans hl'
    cases r with
    | ok _ => exact runs_pure hm (hs''.broker.trans hl')
    | error f => exact runs_throw hm (hs''.broker.trans hl')
  · rintro f l - ⟨o, ho, -⟩
    cases ho

theorem runs_bootstrapFresh (hi : Good i) (hf : Free i) :
    Runs bootstrapFresh (fun _ i' => i'.broker = i.broker) i := by
  refine runs_bind (runs_mintToken hi hf) (fun _ j hj h => ?_) fun _ _ _ h => h.1
  obtain ⟨hjb, hfj⟩ := h
  refine runs_bind (runs_advanceEnrollment hj (by decide) (by decide)) (fun _ k hk h => ?_)
    fun _ _ _ h => h.1.trans hjb
  have hd : j.agent.database ≠ none := by
    obtain ⟨s, hs, -⟩ := hfj
    rw [hs]
    exact (by rintro ⟨⟩)
  obtain ⟨hm, hdk⟩ := h.2 rfl hd
  have hbk : Begun k := ⟨hdk, hm.symm ▸ hj.1.not_login hfj⟩
  have hkb : k.broker = i.broker := h.1.trans hjb
  refine runs_bind (runs_attempt (runs_enroll hk hbk)) ?_ ?_
  · rintro r l hl ⟨o, -, ho⟩
    have hlb : l.broker = i.broker := ho.trans hkb
    cases r with
    | error f => cases f <;> exact runs_throw hl hlb
    | ok _ =>
        refine runs_peek (returns_ask trivial) hl (fun b m hm hs => ?_)
          fun _ _ hs => hs.broker.trans hlb
        cases b with
        | false => exact runs_throw hm (hs.broker.trans hlb)
        | true =>
            refine runs_peek (returns_ask trivial) hm (fun b n hn hs' => ?_)
              fun _ _ hs' => (hs.trans hs').broker.trans hlb
            replace hs := hs.trans hs'
            cases b with
            | false => exact runs_throw hn (hs.broker.trans hlb)
            | true =>
                refine runs_bind (runs_advanceEnrollment hn (by decide) (by decide))
                  (fun _ o ho h => ?_) fun _ _ _ h => h.1.trans (hs.broker.trans hlb)
                have hob : o.broker = i.broker := h.1.trans (hs.broker.trans hlb)
                exact runs_mono (runs_quiet quiet_markBootstrapped ho)
                  fun _ _ _ hs => hs.broker.trans hob
  · rintro f l - ⟨o, ho, -⟩
    cases ho

theorem runs_bootstrap (hi : Good i) (hk : Known i) :
    Runs bootstrap (fun _ i' => i'.broker = i.broker) i := by
  refine runs_bind (runs_fresh hi hk) (fun b j hj h => ?_) fun _ _ _ h => h.1.broker
  cases b with
  | true => exact runs_mono (runs_bootstrapFresh hj (h.2 rfl)) fun _ _ _ hb => hb.trans h.1.broker
  | false => exact runs_mono (runs_failForRecovery hj) fun _ _ _ hs => hs.1.broker.trans h.1.broker

/-! ## Commands -/

/-- A request of the broker that may fail in any way and do nothing. -/
def Refusable (e : Op) : Prop := ∀ f, ∃ t, ∀ w, Op.step t e w = (.error f, w)

/-- What the broker asks, as one of its own steps. -/
def Reaches (e : Op) (i : Installation) (r : e.Ans) (i' : Installation) : Prop :=
  ∃ t, Op.step t e i.broker = (r, i'.broker)

/-- A tick on which a request fails. -/
def failing (f : Failure) : Tick where
  meanwhile := []
  now := 0
  blind := false
  fault := true
  error := f
  applied := false
  answer := false
  target := none
  published := ⟨none, none, none, none⟩
  minted := ⟨"", "", "", "", none, 0⟩
  effective := ⟨"", 0, "", false, 0⟩

theorem refusable_publish (connectorId target : String) : Refusable (.publish connectorId target) :=
  fun f => ⟨failing f, fun _ => rfl⟩

theorem refusable_cleanup (crid : String) : Refusable (.cleanup crid) :=
  fun f => ⟨failing f, fun _ => rfl⟩

theorem refusable_ensureReady (publicKey : String) : Refusable (.ensureReady publicKey) :=
  fun f => ⟨failing f, fun _ => rfl⟩

theorem Refusable.reaches {e : Op} (he : Refusable e) {i i' : Installation} (f : Failure)
    (hb : i'.broker = i.broker) : Reaches e i (.error f) i' := by
  obtain ⟨t, ht⟩ := he f
  exact ⟨t, hb ▸ ht i.broker⟩

/-- What does not raise has an answer. -/
theorem runs_total {q : Question} (hq : Quiet q) (hm : q.total = true) (hi : Good i) :
    Runs (ask q) (fun r i' => Same i i' ∧ ∃ a, r = .ok a) i := by
  refine runs_ask hi fun t _ => ⟨hi.same (same_step t i hq), same_step t i hq, ?_⟩
  unfold Question.step
  cases q <;> first
    | exact absurd hm Bool.false_ne_true
    | (rcases t.fault with _ | f <;> exact ⟨_, rfl⟩)

theorem runs_broker {e : Op} (hi : Good i) (hg : ∀ t, (Op.step t e i.broker).2.registry.Inv) :
    Runs (ask (.broker e)) (fun r i' => Reaches e i r i') i :=
  runs_ask hi fun t _ => ⟨⟨hi.1.broker t e, hg t.broker⟩, t.broker, rfl⟩

theorem runs_runCommand {e : Op} (he : Refusable e) (hne : ∀ r, e ≠ .registry r) (hi : Good i) :
    Runs (runCommand e) (fun r i' => Reaches e i r i') i := by
  refine runs_peek quiet_requireEnrolled hi (fun _ j hj hs => ?_)
    fun f _ hs => he.reaches f hs.broker
  refine runs_peek quiet_readWrappingKey hj (fun _ k hk hs' => ?_)
    fun f _ hs' => he.reaches f (hs.trans hs').broker
  replace hs := hs.trans hs'
  have hg : ∀ t, (Op.step t e k.broker).2.registry.Inv := by
    intro t
    rw [registry_eq hne]
    exact hk.2
  refine runs_bind (runs_attempt (runs_broker hk hg)) ?_ ?_
  · rintro r l hl ⟨o, ho, t, ht⟩
    obtain rfl := Except.ok.inj ho
    rw [hs.broker] at ht
    cases r with
    | ok a => exact runs_pure hl ⟨t, ht⟩
    | error f =>
        have hthrow : ∀ m, Good m → m.broker = l.broker → Runs (throw f : AgentM e.Res)
            (fun r i' => Reaches e i r i') m := by
          intro m hm hb
          refine runs_throw hm ⟨t, ?_⟩
          rw [ht, hb]
        refine runs_bind (runs_total trivial rfl hl) (fun b m hm h => ?_) fun g m _ h => ?_
        · cases b with
          | false => exact hthrow m hm h.1.broker
          | true =>
              refine runs_bind (runs_total (q := .requireRecovery) trivial rfl hm)
                (fun _ n hn h' => hthrow n hn (h'.1.broker.trans h.1.broker)) fun g n _ h' => ?_
              obtain ⟨-, a, ha⟩ := h'
              cases ha
        · obtain ⟨-, a, ha⟩ := h
          cases ha
  · rintro f l - ⟨o, ho, -⟩
    cases ho

theorem Known.same {i' : Installation} (h : Known i) (hb : i'.broker = i.broker) : Known i' := by
  unfold Known
  rw [hb]
  exact h

/-- What is reached from a world whose broker is the same. -/
theorem runs_reach {e : Op} {x : AgentM e.Res} {j : Installation}
    (h : Runs x (fun r i' => Reaches e j r i') j) (hb : j.broker = i.broker) :
    Runs x (fun r i' => Reaches e i r i') j := by
  refine runs_mono h ?_
  rintro r i' - ⟨t, ht⟩
  exact ⟨t, hb ▸ ht⟩

theorem runs_publish {connectorId target : String} (hi : Good i) (hk : Known i) :
    Runs (publish connectorId target)
      (fun r i' => Reaches (.publish connectorId target) i r i') i := by
  have he := refusable_publish connectorId target
  -- what follows the enrollment, if there is one
  have hrest : ∀ j, Good j → j.broker = i.broker → Runs (do
      requireEnrolled
      start
      ask .ipc
      runCommand (.publish connectorId target) : AgentM Published)
      (fun r i' => Reaches (.publish connectorId target) i r i') j := by
    intro j hj hb
    refine runs_peek quiet_requireEnrolled hj (fun _ k hk hs => ?_)
      fun f _ hs => he.reaches f (hs.broker.trans hb)
    replace hb := hs.broker.trans hb
    refine runs_peek quiet_start hk (fun _ l hl hs => ?_)
      fun f _ hs => he.reaches f (hs.broker.trans hb)
    replace hb := hs.broker.trans hb
    refine runs_peek (returns_ask trivial) hl (fun _ m hm hs => ?_)
      fun f _ hs => he.reaches f (hs.broker.trans hb)
    exact runs_reach (runs_runCommand he (by rintro _ ⟨⟩) hm) (hs.broker.trans hb)
  refine runs_peek (returns_ask trivial) hi (fun b j hj hs => ?_)
    fun f _ hs => he.reaches f hs.broker
  cases b with
  | true => exact runs_throw hj (he.reaches _ hs.broker)
  | false =>
      refine runs_bind (runs_fresh hj (hk.same hs.broker)) (fun b k hk' h => ?_)
        fun f k _ h => he.reaches f (h.1.broker.trans hs.broker)
      have hkb : k.broker = i.broker := h.1.broker.trans hs.broker
      cases b with
      | false => exact hrest k hk' hkb
      | true =>
          refine runs_bind (runs_bootstrap hk' (hk.same hkb)) (fun _ l hl hb => ?_)
            fun f l _ hb => he.reaches f (hb.trans hkb)
          exact hrest l hl (hb.trans hkb)

theorem runs_ensureReady {publicKey : String} (hi : Good i) :
    Runs (ensureReady publicKey) (fun r i' => Reaches (.ensureReady publicKey) i r i') i := by
  have he := refusable_ensureReady publicKey
  refine runs_peek quiet_start hi (fun _ j hj hs => ?_) fun f _ hs => he.reaches f hs.broker
  refine runs_reach (runs_broker hj fun t => ?_) hs.broker
  rw [registry_eq (e := .ensureReady publicKey) (by rintro _ ⟨⟩)]
  exact hj.2

/-! ## Runs -/

/-- **The publisher answers the broker as it may be answered**, and keeps
what is on record. -/
theorem holds_answer {e : Op} (hi : Good i)
    (ht : ∀ t, Asked free ⟨i.broker, e, (Op.step t e i.broker).1, (Op.step t e i.broker).2⟩ ∧
      (Op.step t e i.broker).2.registry.Inv) :
    (answer e).Holds (fun t : SightedTurn => Question.step t.1) Good (fun _ => True)
      (fun r i' => ∃ t, Op.step t e i.broker = (r, i'.broker)) i := by
  cases e with
  | publish connectorId target =>
      have hk : Known i := by
        obtain ⟨r, hr, -⟩ := (ht (failing .os)).1
        exact List.ne_nil_of_mem hr
      exact (runs_publish hi hk).holds
  | cleanup crid => exact (runs_runCommand (refusable_cleanup crid) (by rintro _ ⟨⟩) hi).holds
  | ensureReady publicKey => exact (runs_ensureReady hi).holds
  | _ => exact (runs_broker hi fun t => (ht t).2).holds

/-- Every request keeps what is on record. -/
theorem holds_serve (cfg : Config) (r : Request) (hi : Good i) :
    (r.serve cfg).Holds (fun t : SightedTurn => Question.step t.1) Good (fun _ => True)
      (fun _ _ => True) i := by
  cases r with
  | guest c =>
      refine Prog.holds_bind.mpr ?_
      refine Prog.holds_mono (Prog.holds_expand
        (fun e j hj ht => holds_answer hj ht) ((walks_call cfg c hi.2).all trivial) hi) ?_
      exact fun _ j hj _ => ⟨hj, trivial⟩
  | start =>
      refine Prog.holds_bind.mpr (Prog.holds_mono (runs_quiet quiet_boot hi).holds ?_)
      exact fun _ j hj _ => ⟨hj, trivial⟩
  | healthy =>
      refine Prog.holds_bind.mpr (Prog.holds_mono (runs_quiet quiet_healthy hi).holds ?_)
      exact fun _ j hj _ => ⟨hj, trivial⟩

theorem good_play (cfg : Config) (rs : List (Request × List Turn))
    (hsight : ∀ r ∈ rs, ∀ t ∈ r.2, t.blind = false) (hi : Good i) :
    Good ((installation cfg).play i rs) :=
  Server.play_kept (S := installation cfg) (fun _ _ _ h => h)
    (fun r _ hj => ⟨_, _, holds_serve cfg r hj⟩) hsight hi

/-- **No agent is enrolled again unless the administrator resets the
connection.** From an installation without a record of an enrollment, of
whatever version its database is and whatever files there are, after any
calls on any outcomes, with files of the agent lost, replaced or left
behind before any step, wherever the last call was interrupted: whatever
was asked for after a login was started, an enrollment token or another
login, the connection was reset in between. The database is kept, and a
test whether it is there does not fail. -/
theorem enrolled_once (cfg : Config) (i : Installation) (hg : i.broker.registry.Inv)
    (hd : i.agent.database = none → i.broker.registry.resources.rows = [])
    (hm : i.agent.marks = []) (rs : List (Request × List Turn))
    (hsight : ∀ r ∈ rs, ∀ t ∈ r.2, t.blind = false) (later between before : List Mark)
    (m : Mark) (hne : m ≠ .reset)
    (h : ((installation cfg).play i rs).agent.marks = later ++ m :: between ++ .login :: before) :
    .reset ∈ between := by
  have hi : Good i := ⟨⟨hm ▸ trivial, fun hl => absurd hl (by simp [hm, since]), hd⟩, hg⟩
  exact (h ▸ (good_play cfg rs hsight hi).1.once).reset_mem hne

/-! ## A run -/

def doorPublisher : Config where
  installationId := "home"
  sha256 s := s
  nativeRetirement := true
  hasCleanup := true
  hasEnsureReady := true
  gatewayGrantsDir := true
  resourceId := ""
  maxDays := 30
  isLoopback _ := true

/-- Nothing fails, and a login leaves the state of an agent. -/
def calmTurn : Turn where
  broker := { failing .os with fault := false }
  changes := []
  stops := false
  fault := none
  blind := false
  leaves := [(.agentState, .plain), (.runtimeMode, .plain)]
  key := .usable
  answer := true

/-- All files of the agent are lost. -/
def lostTurn : Turn :=
  { calmTurn with changes := [(.bootstrapComplete, .absent), (.wrappingKey, .absent),
      (.agentState, .absent), (.runtimeMode, .absent)] }

/-- A publication, the loss of the agent, a second publication, a reset and a
third one. -/
def doorEnrollments : List (Request × List Turn) :=
  let ensure := Request.guest
    (.ensure "door" "grant_0123456789abcdef" "http://127.0.0.2:8080" .page)
  [(ensure, List.replicate 80 calmTurn), (.start, lostTurn :: List.replicate 40 calmTurn),
    (ensure, List.replicate 40 calmTurn), (.guest .invalidateForReset, [calmTurn]),
    (ensure, List.replicate 80 calmTurn)]

theorem doorEnrollments_sighted : ∀ r ∈ doorEnrollments, ∀ t ∈ r.2, t.blind = false := by
  decide +kernel

/-- The second publication finds the agent lost and enrolls none. -/
theorem enrolled_once_door : ∃ later between before : List Mark,
    ((installation doorPublisher).play .empty doorEnrollments).agent.marks =
      later ++ .login :: between ++ .login :: before ∧ .reset ∈ between := by
  have h : ((installation doorPublisher).play .empty doorEnrollments).agent.marks =
      [] ++ .login :: [.token, .reset] ++ .login :: [.token] := by decide +kernel
  exact ⟨_, _, _, h, enrolled_once doorPublisher .empty Registry.Inv.empty (fun _ => rfl) rfl
    doorEnrollments doorEnrollments_sighted [] _ _ .login (by decide) h⟩

end Publisher

end LayerV

end AccessPages
