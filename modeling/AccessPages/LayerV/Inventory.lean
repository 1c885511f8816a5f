import AccessPages.LayerV.Fixpoint
/-!
# LayerV — the inventory of a resource

`list_qurls` asks for the invitations on a resource page by page, and
follows a cursor the server chooses. The journal of invitations that are
not recorded yet forgets a row by what that inventory says, so it must not
end early: it ends with the page that reports no more, or with an error,
or where the resource is reported absent.
-/

namespace AccessPages

namespace LayerV

/-! ## Requests -/

/-- What becomes of a request for a page: a body that is JSON, an HTTP
error with its `Retry-After`, no answer or no JSON, or an exception of
another kind. -/
inductive Response where
  | body (v : Json)
  | status (code : Nat) (retryAfter : Option Int)
  | unreadable
  | raises (e : Failure)

/-- A question of the broker, or a request for a page of an inventory. -/
inductive Wire where
  | broker (e : Op)
  | fetch (crid cursor : String)

@[reducible] def Wire.Ans : Wire → Type
  | broker e => e.Ans
  | fetch .. => Response

abbrev WireM := ExceptT Failure (Prog Wire Wire.Ans)

def fetch (crid cursor : String) : WireM Response :=
  ExceptT.mk (Prog.call (.fetch crid cursor) >>= fun r => Prog.ret (.ok r))

/-- A program of the broker. -/
def asBroker {α : Type} (x : BrokerM α) : WireM α := ExceptT.mk (x.run.expand fun e => Prog.call (.broker e))

/-- A block with an `except` clause. -/
def tried {α : Type} (x : WireM α) : WireM (Except Failure α) :=
  ExceptT.mk (x.run >>= fun r => Prog.ret (.ok r))

/-! ## The inventory -/

/-- `data` and `meta` of a page, if it has them. -/
def parsePage : Json → Option (List Json × List (String × Json))
  | .obj fields =>
      match Json.get? fields "data", Json.get? fields "meta" with
      | some (.arr data), some (.obj info) => some (data, info)
      | _, _ => none
  | _ => none

/-- `meta.get("has_more") is False`. -/
def isLast (info : List (String × Json)) : Bool :=
  match Json.get? info "has_more" with
  | some (.bool more) => !more
  | _ => false

/-- The cursor of the next page, if it is one that was not followed yet. -/
def nextCursor (seen : List String) (info : List (String × Json)) : Option String :=
  match Json.get? info "next_cursor" with
  | some (.str cursor) => if cursor = "" ∨ cursor ∈ seen then none else some cursor
  | _ => none

/-- What a page says: the inventory ends, is not there, or goes on with a
cursor. -/
def readPage (seen : List String) (rows : List Json) :
    Response → Except Failure (List Json ⊕ String × List Json)
  | .raises e => .error e
  | .unreadable => .error (.layerV "LayerV invitation inventory is unavailable" (some 503) none)
  | .status code retryAfter =>
      if code = 404 ∨ code = 410 then .ok (.inl [])
      else .error (.layerV "LayerV invitation inventory is unavailable" (some code) retryAfter)
  | .body v =>
      match parsePage v with
      | none => .error (layerVError "LayerV returned invalid invitation inventory")
      | some (data, info) =>
          if isLast info then .ok (.inl (rows ++ data))
          else match nextCursor seen info with
            | none => .error (layerVError "LayerV returned invalid inventory pagination")
            | some next => .ok (.inr (next, rows ++ data))

/-- The loop of `list_qurls`, with the requests that are left. -/
def listFrom (crid : String) : Nat → String → List String → List Json → WireM (List Json)
  | 0, _, _, _ => throw (layerVError "LayerV invitation inventory exceeded safe pagination limit")
  | n + 1, cursor, seen, rows => do
      match readPage seen rows (← fetch crid cursor) with
      | .error e => throw e
      | .ok (.inl inventory) => return inventory
      | .ok (.inr (next, rows)) => listFrom crid n next (next :: seen) rows

/-- `list_qurls`. -/
def listQurls (crid : String) : WireM (List Json) := listFrom crid 1000 "" [] []

/-! ## The journal -/

/-- `isinstance(invitation, dict) and invitation.get("label") == label`. -/
def carries (label : String) : Json → Bool
  | .obj fields =>
      match Json.get? fields "label" with
      | some (.str s) => s = label
      | _ => false
  | _ => false

/-- The identifier of an invitation, if it is one LayerV gives. -/
def invitationId : Json → Option String
  | .obj fields =>
      match Json.get? fields "qurl_id" with
      | some (.str q) => if qurlIdRe q then some q else none
      | _ => none
  | _ => none

section Drain

variable (cfg : Config)

/-- Delete the invitations of an inventory that carry a label. -/
def deleteCarrying (resource label : String) : List Json → WireM Unit
  | [] => return ()
  | v :: vs =>
      if carries label v then
        match invitationId v with
        | none => throw (layerVError "LayerV returned an invalid orphan invitation identifier")
        | some q => do
            let _ ← asBroker (deleteQurl cfg.resourceId resource q)
            deleteCarrying resource label vs
      else deleteCarrying resource label vs

def forgetMint (m : Mint) : WireM Unit := do
  deleteCarrying cfg m.resource m.label (← listQurls m.resource)

def drainRows : List Mint → WireM Unit
  | [] => return ()
  | m :: ms => do
      if ← asBroker (liveMapping cfg m.page m.grantId) then do
        asBroker (ask (.completeMint m.page m.grantId))
        drainRows ms
      else do
        match ← tried (forgetMint cfg m) with
        | .ok _ => do
            asBroker (ask (.completeMint m.page m.grantId))
            drainRows ms
        | .error (.layerV _ _ retryAfter) => do
            asBroker (ask (.postponeMint m.page m.grantId
              (retryAfter.getD (min 3600 (2 ^ min (m.attempts + 1) 12)))))
            drainRows ms
        | .error e => throw e

/-- `PendingInvitations.drain`, as `reconcile_once` calls it. -/
def drainJournal : WireM Unit := do
  drainRows cfg (← asBroker (ask .selectMints))

end Drain

/-! ## The line to LayerV -/

/-- What was heard of LayerV: a page of an inventory, or that an invitation
is deleted. -/
inductive Heard where
  | page (crid cursor : String) (r : Response)
  | deleted (resource qurlId : String)

/-- The world, and what was heard in it, in order. -/
structure Line where
  world : World
  heard : List Heard

/-- What a request meets, and its answer. -/
structure WireTick where
  tick : Tick
  response : Response

/-- What an answer says of deletions. -/
def heardOf : (e : Op) → e.Ans → List Heard
  | .deleteQurl resource qurlId, .ok _ => [.deleted resource qurlId]
  | _, _ => []

def Line.step (t : WireTick) : (e : Wire) → Line → e.Ans × Line
  | .broker e, l =>
      ((Op.step t.tick e l.world).1, ⟨(Op.step t.tick e l.world).2,
        l.heard ++ heardOf e (Op.step t.tick e l.world).1⟩)
  | .fetch crid cursor, l =>
      (t.response, ⟨t.tick.meet l.world, l.heard ++ [.page crid cursor t.response]⟩)

/-! ## What an inventory is -/

/-- A page that was read: the cursor it was asked for with, and what it
holds. -/
structure Read where
  cursor : String
  body : Json
  data : List Json
  info : List (String × Json)
  parsed : parsePage body = some (data, info)

/-- **A complete inventory**: pages that begin without a cursor, each asked
for with the cursor the one before named, none of them twice, of which only
the last reports no more. -/
structure Complete (pages : List Read) (rows : List Json) : Prop where
  first : (pages.map Read.cursor).head? = some ""
  distinct : (pages.map Read.cursor).Nodup
  linked : pages.IsChain fun a b => isLast a.info = false ∧
    Json.get? a.info "next_cursor" = some (.str b.cursor)
  last : ∃ before final, pages = before ++ [final] ∧ isLast final.info = true
  rows : rows = pages.flatMap Read.data

/-- What was heard of the pages. -/
def heardPages (crid : String) (pages : List Read) : List Heard :=
  pages.map fun p => .page crid p.cursor (.body p.body)

/-! ## Reading the pages -/

section Pages

variable {crid : String} {l : Line} {ts : List WireTick}

/-- One request, and what follows. -/
def afterPage (crid : String) (n : Nat) (seen : List String) :
    Except Failure (List Json ⊕ String × List Json) → Prog Wire Wire.Ans (Except Failure (List Json))
  | .error e => .ret (.error e)
  | .ok (.inl inventory) => .ret (.ok inventory)
  | .ok (.inr (next, rows)) => (listFrom crid n next (next :: seen) rows).run

theorem listFrom_succ (crid : String) (n : Nat) (cursor : String) (seen : List String)
    (rows : List Json) : (listFrom crid (n + 1) cursor seen rows).run =
      Prog.op (.fetch crid cursor) fun r => afterPage crid n seen (readPage seen rows r) := by
  have hcont : ∀ o : Except Failure (List Json ⊕ String × List Json),
      (match o with
        | .error e => throw e
        | .ok (.inl inventory) => pure inventory
        | .ok (.inr (next, rows)) => listFrom crid n next (next :: seen) rows :
        WireM (List Json)).run = afterPage crid n seen o := by
    intro o
    rcases o with e | inventory | ⟨next, rows⟩ <;> rfl
  exact congrArg (Prog.op (R := Wire.Ans) (Wire.fetch crid cursor))
    (funext fun r => hcont (readPage seen rows r))

/-- **The loop makes no more requests than it is given**, and with an answer
to each it ends. -/
theorem listFrom_ends (n : Nat) (cursor : String) (seen : List String) (rows : List Json) :
    ((listFrom crid n cursor seen rows).run.events Line.step ts l).length ≤ n ∧
      (n ≤ ts.length → ((listFrom crid n cursor seen rows).run.meet Line.step ts l).1.isSome) := by
  induction n generalizing cursor seen rows l ts with
  | zero => exact ⟨Nat.le_refl 0, fun _ => rfl⟩
  | succ n ih =>
      rw [listFrom_succ]
      cases ts with
      | nil => exact ⟨Nat.zero_le _, fun h => absurd h (by simp)⟩
      | cons t ts =>
          show (_ :: _ : List _).length ≤ n + 1 ∧ _
          rw [List.length_cons]
          have hrest : ∀ o l', ((afterPage crid n seen o).events Line.step ts l').length ≤ n ∧
              (n ≤ ts.length → ((afterPage crid n seen o).meet Line.step ts l').1.isSome) := by
            rintro (e | inventory | ⟨next, rows⟩) l'
            · exact ⟨Nat.zero_le _, fun _ => rfl⟩
            · exact ⟨Nat.zero_le _, fun _ => rfl⟩
            · exact ih next (next :: seen) rows
          obtain ⟨hlen, hend⟩ := hrest (readPage seen rows t.response)
            ⟨t.tick.meet l.world, l.heard ++ [.page crid cursor t.response]⟩
          refine ⟨Nat.succ_le_succ hlen, fun h => hend ?_⟩
          rw [List.length_cons] at h
          omega

/-- The pages read so far, and the one to ask for. -/
structure Reading (pages : List Read) (cursor : String) (seen : List String) (rows : List Json) :
    Prop where
  first : (pages.map Read.cursor ++ [cursor]).head? = some ""
  distinct : (pages.map Read.cursor ++ [cursor]).Nodup
  seen : ∀ c ∈ pages.map Read.cursor ++ [cursor], c = "" ∨ c ∈ seen
  linked : pages.IsChain fun a b => isLast a.info = false ∧
    Json.get? a.info "next_cursor" = some (.str b.cursor)
  next : ∀ p, pages.getLast? = some p →
    isLast p.info = false ∧ Json.get? p.info "next_cursor" = some (.str cursor)
  rows : rows = pages.flatMap Read.data

theorem Reading.start : Reading [] "" [] [] :=
  ⟨rfl, List.nodup_singleton _, fun _ hc => .inl (List.mem_singleton.mp hc), .nil, nofun, rfl⟩

theorem nextCursor_eq_some {seen : List String} {info : List (String × Json)} {next : String}
    (h : nextCursor seen info = some next) :
    Json.get? info "next_cursor" = some (.str next) ∧ next ≠ "" ∧ next ∉ seen := by
  unfold nextCursor at h
  split at h
  · split at h
    · cases h
    · rename_i cursor hget hno
      obtain rfl := Option.some.inj h
      rw [not_or] at hno
      exact ⟨hget, hno⟩
  · cases h

variable {pages : List Read} {cursor : String} {seen : List String} {rows : List Json}

theorem Reading.link (h : Reading pages cursor seen rows) {p : Read} (hp : p.cursor = cursor) :
    (pages ++ [p]).IsChain fun a b => isLast a.info = false ∧
      Json.get? a.info "next_cursor" = some (.str b.cursor) := by
  refine List.isChain_append.mpr ⟨h.linked, .singleton p, fun a ha b hb => ?_⟩
  obtain rfl : p = b := Option.some.inj hb
  rw [hp]
  exact h.next a ha

/-- The page that reports no more. -/
theorem Reading.finish (h : Reading pages cursor seen rows) {p : Read} (hp : p.cursor = cursor)
    (hlast : isLast p.info = true) : Complete (pages ++ [p]) (rows ++ p.data) := by
  have hcursors : (pages ++ [p]).map Read.cursor = pages.map Read.cursor ++ [cursor] := by
    rw [List.map_append, List.map_singleton, hp]
  refine ⟨hcursors ▸ h.first, hcursors ▸ h.distinct, h.link hp, ⟨pages, p, rfl, hlast⟩, ?_⟩
  rw [List.flatMap_append, List.flatMap_singleton, h.rows]

/-- A page that names the next one. -/
theorem Reading.turn (h : Reading pages cursor seen rows) {p : Read} (hp : p.cursor = cursor)
    (hmore : isLast p.info = false) {next : String} (hnext : nextCursor seen p.info = some next) :
    Reading (pages ++ [p]) next (next :: seen) (rows ++ p.data) := by
  obtain ⟨hget, hne, hfresh⟩ := nextCursor_eq_some hnext
  have hcursors : (pages ++ [p]).map Read.cursor = pages.map Read.cursor ++ [cursor] := by
    rw [List.map_append, List.map_singleton, hp]
  refine ⟨?_, ?_, ?_, h.link hp, fun q hq => ?_, ?_⟩
  · rw [hcursors, List.head?_append, h.first]
    rfl
  · rw [hcursors, List.nodup_append]
    refine ⟨h.distinct, List.nodup_singleton _, fun a ha b hb hab => ?_⟩
    obtain rfl := List.mem_singleton.mp hb
    rcases h.seen a ha with he | hs
    · exact hne (hab ▸ he)
    · exact hfresh (hab ▸ hs)
  · rw [hcursors]
    intro c hc
    rcases List.mem_append.mp hc with hc | hc
    · exact (h.seen c hc).imp_right (List.mem_cons_of_mem next)
    · exact .inr (List.mem_cons.mpr (.inl (List.mem_singleton.mp hc)))
  · rw [List.getLast?_append] at hq
    obtain rfl : p = q := Option.some.inj hq
    exact ⟨hmore, hget⟩
  · rw [List.flatMap_append, List.flatMap_singleton, h.rows]

/-- What was heard while a resource was reported absent. -/
def Gone (crid : String) (answers : List Heard) : Prop :=
  ∃ pages cursor code retryAfter,
    answers = heardPages crid pages ++ [.page crid cursor (.status code retryAfter)] ∧
      (code = 404 ∨ code = 410)

/-- What was heard while a complete inventory was read. -/
def Whole (crid : String) (answers : List Heard) (rows : List Json) : Prop :=
  ∃ pages, Complete pages rows ∧ answers = heardPages crid pages

/-- What an inventory was drawn from. -/
def Drawn (crid : String) (answers : List Heard) (rows : List Json) : Prop :=
  (rows = [] ∧ Gone crid answers) ∨ Whole crid answers rows

end Pages

/-! ## What the broker sees meanwhile -/

/-- The questions that put a row into the journal, or take one out. -/
def Op.Journals : Op → Prop
  | prepareMint .. => True
  | completeMint .. => True
  | _ => False

section Sees

variable {α β : Type} {w : World}

/-- Whatever the questions meet, the journal is left alone, and `Q` holds of
the outcome. -/
structure Sees (x : BrokerM α) (Q : Except Failure α → World → Prop) (w : World) : Prop where
  holds : x.run.Holds Op.step (fun _ => True) (fun ev => ¬ ev.op.Journals) Q w

theorem sees_mono {x : BrokerM α} {Q Q' : Except Failure α → World → Prop} (h : Sees x Q w)
    (hQ : ∀ o w', Q o w' → Q' o w') : Sees x Q' w :=
  ⟨Prog.holds_mono h.holds fun o w' _ ho => hQ o w' ho⟩

theorem sees_pure {a : α} {Q : Except Failure α → World → Prop} (h : Q (.ok a) w) :
    Sees (pure a) Q w := ⟨trivial, h⟩

theorem sees_throw {e : Failure} {Q : Except Failure α → World → Prop} (h : Q (.error e) w) :
    Sees (throw e) Q w := ⟨trivial, h⟩

theorem sees_bind {x : BrokerM α} {f : α → BrokerM β} {P : Except Failure α → World → Prop}
    {Q : Except Failure β → World → Prop} (h : Sees x P w)
    (hok : ∀ a w', P (.ok a) w' → Sees (f a) Q w')
    (herr : ∀ e w', P (.error e) w' → Q (.error e) w') : Sees (x >>= f) Q w := by
  refine ⟨Prog.holds_except_bind (Prog.holds_mono h.holds fun o w' _ ho => ?_)⟩
  cases o with
  | ok a => exact (hok a w' ho).holds
  | error e => exact herr e w' ho

theorem sees_attempt {x : BrokerM α} {f : Except Failure α → BrokerM β}
    {P : Except Failure α → World → Prop} {Q : Except Failure β → World → Prop}
    (h : Sees x P w) (hf : ∀ o w', P o w' → Sees (f o) Q w') : Sees (attempt x >>= f) Q w := by
  refine ⟨Prog.holds_except_bind ?_⟩
  rw [show (attempt x).run = (x.run >>= fun o =>
    (pure (Except.ok o) : Prog Op Op.Ans (Except Failure (Except Failure α)))) from rfl,
    Prog.holds_bind]
  exact Prog.holds_mono h.holds fun o w' _ ho => ⟨trivial, (hf o w' ho).holds⟩

/-- One question: it is answered, or raises what it may. -/
theorem sees_ask {e : Op} {Q : e.Ans → World → Prop} (he : ¬ e.Journals)
    (hQ : ∀ t, Q (Op.step t e w).1 (Op.step t e w).2) : Sees (ask e) Q w :=
  ⟨trivial, fun t => ⟨he, trivial, hQ t⟩⟩

theorem sees_lift {x : Except Failure α} {f : α → BrokerM β}
    {Q : Except Failure β → World → Prop} (hok : ∀ a, x = .ok a → Sees (f a) Q w)
    (herr : ∀ e, x = .error e → Q (.error e) w) :
    Sees ((liftM x : BrokerM α) >>= f) Q w := by
  refine ⟨Prog.holds_except_bind (Prog.holds_except_lift.mpr ⟨trivial, ?_⟩)⟩
  cases x with
  | ok a => exact (hok a rfl).holds
  | error e => exact herr e rfl

theorem sees_readMapping {page grantId : String} :
    Sees (readMapping page grantId) (fun o w' => w.Same w' ∧ match o with
      | .ok r => r = (w'.mappings.find? (mappingPath page grantId)).map Prod.snd
      | .error e => ∃ message, e = .policy message 500) w := by
  unfold readMapping
  refine sees_attempt (P := fun o w' => w.Same w' ∧ ∀ r, o = .ok r →
    r = (w'.mappings.find? (mappingPath page grantId)).map Prod.snd)
    (sees_ask nofun fun t => ?_) fun o w₁ h₁ => ?_
  · rcases step_cases t (.readMapping page grantId) w with he | he | he <;> rw [he]
    · exact ⟨same_meet t w, nofun⟩
    · exact ⟨same_meet t w, nofun⟩
    · exact ⟨same_meet t w, fun r hr => (Except.ok.inj hr).symm⟩
  · cases o with
    | ok r => exact sees_pure ⟨h₁.1, h₁.2 r rfl⟩
    | error e => exact sees_throw ⟨h₁.1, _, rfl⟩

theorem sees_loadMapping {page grantId : String} :
    Sees (loadMapping page grantId) (fun o w' => w.Same w' ∧ Loaded page grantId o w') w := by
  unfold loadMapping
  refine sees_lift (fun _ _ => ?_) fun e he => ?_
  · refine sees_bind sees_readMapping (fun r w₁ h₁ => ?_) fun e w₁ h₁ => ?_
    · obtain ⟨hs, rfl⟩ := h₁
      cases hfind : w₁.mappings.find? (mappingPath page grantId) with
      | none => exact sees_throw ⟨hs, fun _ => find?_mappings_none.mp hfind⟩
      | some row =>
          simp only [Option.map_some]
          split
          · rename_i hid
            exact sees_pure ⟨hs, find?_mappings.mp (by rw [hfind]; rfl), hid⟩
          · exact sees_throw ⟨hs, fun h => by cases h⟩
    · obtain ⟨hs, message, rfl⟩ := h₁
      exact ⟨hs, fun h => by cases h⟩
  · unfold grantFile at he
    split at he
    · cases he
    · cases he
      exact ⟨.refl w, fun h => by cases h⟩

theorem sees_mappingExists {page grantId : String} :
    Sees (mappingExists page grantId) (fun o w' => o = .ok true →
      ∃ m, w'.Mapped page grantId m) w := by
  unfold mappingExists
  refine sees_lift (fun _ _ => sees_ask nofun fun t => ?_) fun e _ => nofun
  rcases step_cases t (.mappingExists page grantId) w with he | he | he <;> rw [he]
  · exact nofun
  · exact nofun
  · intro ho
    by_contra hno
    have hnone := find?_mappings_none.mpr (not_exists.mp hno)
    have hsome : (((t.meet w).mappings.find? (mappingPath page grantId)).isSome) = true :=
      (Bool.and_eq_true_iff.mp (Except.ok.inj ho)).2
    rw [show (t.meet w).mappings.find? (mappingPath page grantId) = none from hnone] at hsome
    cases hsome

/-! ## A mapping that is live or queued -/

variable (cfg : Config)

/-- The mapping of a grant is there, and it is live or queued: there are no
gateway pages to compare it with, or the one that was read last has the
grant, or the queue of revocations does. -/
def World.Accounted (w : World) (page grantId : String) : Prop :=
  ∃ m, w.Mapped page grantId m ∧ (cfg.gatewayGrantsDir = false ∨
    (∃ a ∈ grantsOf w.look.pages page, a.matches grantId m = true) ∨ w.Queued page grantId)

theorem sees_gatewayGrantLive {page grantId : String} :
    Sees (gatewayGrantLive cfg page grantId) (fun o w' => o = .ok true →
      w'.Accounted cfg page grantId) w := by
  unfold gatewayGrantLive
  refine sees_bind sees_mappingExists (fun b w₁ hb => ?_) fun e _ _ => nofun
  cases b with
  | false => exact sees_pure nofun
  | true =>
      obtain ⟨m, hm⟩ := hb rfl
      simp only [if_true]
      split
      · refine sees_bind sees_loadMapping (fun m' w₂ ⟨_, hm', _⟩ => ?_) fun e _ _ => nofun
        refine sees_bind (P := fun o w₃ => ∀ gs, o = .ok (some gs) → w₃.Mapped page grantId m' ∧
          grantsOf w₃.look.pages page = gs) (sees_ask nofun fun t => ?_)
          (fun gs w₃ h₃ => ?_) fun e _ _ => nofun
        · rcases step_cases t (.loadGateway page) w₂ with he | he | he <;> rw [he]
          · exact nofun
          · exact nofun
          · intro gs hgs
            refine ⟨(same_meet t w₂).still.mapped.mpr hm', ?_⟩
            have hfound := Except.ok.inj hgs
            split at hfound
            · cases hfound
            · show (((t.meet w₂).gateway.pages.find? (·.1 = page)).map Prod.snd).getD [] = gs
              rw [hfound, Option.getD_some]
        · cases gs with
          | none => exact sees_pure nofun
          | some grants =>
              obtain ⟨hm₃, hgrants⟩ := h₃ grants rfl
              refine sees_pure fun ho => ⟨m', hm₃, .inr (.inl ?_)⟩
              rw [hgrants]
              exact List.any_eq_true.mp (Except.ok.inj ho)
      · rename_i hdir
        exact sees_pure fun _ => ⟨m, hm, .inl (Bool.not_eq_true _ ▸ hdir)⟩

/-- A mapping that is there is queued. -/
theorem sees_queueRevocation {page grantId : String} {m : Mapping}
    (hm : w.Mapped page grantId m) :
    Sees (queueRevocation cfg page grantId) (fun o w' => ∀ d, o = .ok d →
      w'.Accounted cfg page grantId) w := by
  unfold queueRevocation
  refine sees_attempt sees_loadMapping fun o w₁ ⟨hs, hload⟩ => ?_
  have hm₁ := hs.still.mapped.mpr hm
  cases o with
  | ok m' =>
      refine sees_bind (P := fun o w₂ => ∀ due, o = .ok due → w₂.Accounted cfg page grantId)
        (sees_ask nofun fun t => ?_) (fun due w₂ h₂ => sees_pure fun _ _ => h₂ due rfl)
        fun e _ _ => nofun
      rcases step_cases t (.insertRevocation page grantId) w₁ with he | he | he <;> rw [he]
      · exact nofun
      · exact nofun
      · obtain ⟨r, hr, hk⟩ := Table.exists_key_insertOrIgnore (t := (t.meet w₁).revocations)
          (r := ⟨page, grantId, t.now + 15 * second, 0⟩)
        have hm₂ := (same_meet t w₁).still.mapped.mpr hm₁
        exact fun _ _ => ⟨m, hm₂, .inr (.inr ⟨r, hr, (Prod.mk.inj hk).1, (Prod.mk.inj hk).2⟩)⟩
  | error e =>
      cases e with
      | policy message status =>
          dsimp only
          split
          -- a mapping that is there is not reported missing
          · rename_i hstatus
            exact absurd hm₁ (hload hstatus m)
          · exact sees_throw nofun
      | _ => exact sees_throw nofun

/-- **`_live_mapping`.** Where it answers yes, the mapping is live or
queued. -/
theorem sees_liveMapping {page grantId : String} :
    Sees (liveMapping cfg page grantId) (fun o w' => o = .ok true →
      w'.Accounted cfg page grantId) w := by
  unfold liveMapping
  refine sees_bind (sees_gatewayGrantLive cfg) (fun b w₁ hb => ?_) fun e _ _ => nofun
  cases b with
  | true => exact sees_pure fun _ => hb rfl
  | false =>
      simp only [Bool.false_eq_true, if_false]
      split
      · unfold queueUnowned
        refine sees_bind sees_mappingExists (fun b w₂ hb₂ => ?_) fun e _ _ => nofun
        cases b with
        | false => exact sees_pure nofun
        | true =>
            obtain ⟨m, hm⟩ := hb₂ rfl
            refine sees_bind (sees_queueRevocation cfg hm) (fun d w₃ h₃ => ?_) fun e _ _ => nofun
            exact sees_pure fun _ => h₃ d rfl
      · exact sees_pure nofun

end Sees

/-! ## The journal under a question -/

/-- Every row is one of `M`, attempts apart. -/
def Journal (M : Table Mint fun m => (m.page, m.grantId)) (w : World) : Prop :=
  ∀ m ∈ w.mints, ∃ n ∈ M, m.SameRow n

/-- The row is gone after the question. -/
def Forgets (ev : Event Wire Wire.Ans Line) (m : Mint) : Prop :=
  m ∈ ev.before.world.mints ∧
    ∀ n ∈ ev.after.world.mints, ¬(n.page = m.page ∧ n.grantId = m.grantId)

section Journal

variable {M : Table Mint fun m => (m.page, m.grantId)} {w : World}

/-- What was not asked to put rows in or take them out keeps them. -/
theorem mints_step (t : Tick) {e : Op} (he : ¬ e.Journals) (w : World) :
    (∀ m ∈ (Op.step t e w).2.mints, ∃ n ∈ w.mints, m.SameRow n) ∧
      ∀ n ∈ w.mints, ∃ m ∈ (Op.step t e w).2.mints, m.SameRow n := by
  have hmeet : (t.meet w).mints = w.mints := (same_meet t w).mints
  have hkept : ∀ w' : World, w'.mints = w.mints →
      (∀ m ∈ w'.mints, ∃ n ∈ w.mints, m.SameRow n) ∧ ∀ n ∈ w.mints, ∃ m ∈ w'.mints, m.SameRow n := by
    intro w' hw'
    rw [hw']
    exact ⟨fun m hm => ⟨m, hm, .refl m⟩, fun m hm => ⟨m, hm, .refl m⟩⟩
  rcases step_cases t e w with h | h | h <;> rw [h]
  · exact hkept _ hmeet
  · refine hkept _ (Eq.trans ?_ hmeet)
    cases e <;> rfl
  · cases e with
    | prepareMint page grantId resource label => exact absurd trivial he
    | completeMint page grantId => exact absurd trivial he
    | postponeMint page grantId delay =>
        let f := fun m : Mint =>
          { m with due := t.now + second * max 1 delay, attempts := m.attempts + 1 }
        let p := fun m : Mint => decide (m.page = page ∧ m.grantId = grantId)
        have hsame : ∀ m, (if p m then f m else m).SameRow m := by
          intro m
          split <;> exact ⟨rfl, rfl, rfl, rfl⟩
        have hrows : ∀ m, m ∈ (t.meet w).mints.updateWhere p f (fun _ => rfl) ↔
            ∃ n ∈ (t.meet w).mints, (if p n then f n else n) = m :=
          fun _ => Table.mem_updateWhere
        refine ⟨fun m hm => ?_, fun n hn => ?_⟩
        · obtain ⟨n, hn, rfl⟩ := (hrows m).mp hm
          exact ⟨n, hmeet ▸ hn, hsame n⟩
        · exact ⟨_, (hrows _).mpr ⟨n, hmeet ▸ hn, rfl⟩, hsame n⟩
    | _ => exact hkept _ hmeet

/-- A row is known by its page and grant. -/
theorem Journal.same (h : Journal M w) {m n : Mint} (hm : ∃ o ∈ M, m.SameRow o) (hn : n ∈ w.mints)
    (hpage : n.page = m.page) (hgrant : n.grantId = m.grantId) : m.SameRow n := by
  obtain ⟨o, ho, hmo⟩ := hm
  obtain ⟨o', ho', hno⟩ := h n hn
  have hkey : (o.page, o.grantId) = (o'.page, o'.grantId) := by
    rw [hmo.page, hmo.grantId, hno.page, hno.grantId, hpage, hgrant]
  obtain rfl := M.eq_of_key_eq ho ho' hkey
  exact hmo.trans hno.symm

theorem journal_step (t : Tick) {e : Op} (he : ¬ e.Journals) (h : Journal M w) :
    Journal M (Op.step t e w).2 := by
  intro m hm
  obtain ⟨n, hn, hmn⟩ := (mints_step t he w).1 m hm
  obtain ⟨o, ho, hno⟩ := h n hn
  exact ⟨o, ho, hmn.trans hno⟩

theorem journal_complete (t : Tick) (page grantId : String) (h : Journal M w) :
    Journal M (Op.step t (.completeMint page grantId) w).2 ∧
      ∀ n ∈ w.mints, ¬(n.page = page ∧ n.grantId = grantId) →
        n ∈ (Op.step t (.completeMint page grantId) w).2.mints := by
  have hmeet : (t.meet w).mints = w.mints := (same_meet t w).mints
  have hkept : ∀ w' : World, w'.mints = w.mints → Journal M w' ∧
      ∀ n ∈ w.mints, ¬(n.page = page ∧ n.grantId = grantId) → n ∈ w'.mints := by
    intro w' hw'
    unfold Journal
    rw [hw']
    exact ⟨h, fun n hn _ => hn⟩
  rcases step_cases t (.completeMint page grantId) w with he | he | he <;> rw [he]
  · exact hkept _ hmeet
  · exact hkept _ hmeet
  · refine ⟨fun m hm => h m (hmeet ▸ (Table.mem_deleteWhere.mp hm).1), fun n hn hne => ?_⟩
    exact Table.mem_deleteWhere.mpr ⟨hmeet.symm ▸ hn, decide_eq_false hne⟩

end Journal

/-! ## What is forgotten -/

/-- The resource `delete_qurl` deletes on. -/
def deletedOn (clientResource resource : String) : String :=
  strip (if resource = "" then clientResource else resource)

theorem deletedOn_crid (clientResource : String) {crid : String} (h : cridRe crid = true) :
    deletedOn clientResource crid = crid := by
  unfold deletedOn
  rw [if_neg (crid_ne_empty h), strip_crid h]

section Forget

variable (cfg : Config)

/-- **What allows a row to be forgotten.** Its mapping is live or queued, or
its resource was reported absent, or every invitation with its label in a
complete inventory was deleted after the inventory was read. -/
def Justified (l : Line) (m : Mint) : Prop :=
  l.world.Accounted cfg m.page m.grantId ∨
    ∃ before answers after, l.heard = before ++ answers ++ after ∧
      (Gone m.resource answers ∨ ∃ rows, Whole m.resource answers rows ∧
        ∀ v ∈ rows, carries m.label v = true → ∃ q, invitationId v = some q ∧
          .deleted (deletedOn cfg.resourceId m.resource) (strip q) ∈ after)

theorem Justified.same {cfg : Config} {l : Line} {m n : Mint} (h : Justified cfg l m)
    (hmn : m.SameRow n) : Justified cfg l n := by
  unfold Justified at h ⊢
  rwa [← hmn.page, ← hmn.grantId, ← hmn.resource, ← hmn.label] at h

def NoneLost (ev : Event Wire Wire.Ans Line) : Prop := ∀ m, Forgets ev m → Justified cfg ev.before m

variable {α β : Type} {M : Table Mint fun m => (m.page, m.grantId)} {l : Line}

/-- Whatever is heard, no row is forgotten that should not be, and `Q` holds
of the outcome. -/
structure Finds (M : Table Mint fun m => (m.page, m.grantId)) (x : WireM α)
    (Q : Except Failure α → Line → Prop) (l : Line) : Prop where
  holds : x.run.Holds Line.step (fun l => Journal M l.world) (NoneLost cfg) Q l

variable {cfg}

theorem finds_pure {a : α} {Q : Except Failure α → Line → Prop} (hl : Journal M l.world)
    (h : Q (.ok a) l) : Finds cfg M (pure a) Q l := ⟨hl, h⟩

theorem finds_throw {e : Failure} {Q : Except Failure α → Line → Prop} (hl : Journal M l.world)
    (h : Q (.error e) l) : Finds cfg M (throw e) Q l := ⟨hl, h⟩

theorem finds_bind {x : WireM α} {f : α → WireM β} {P : Except Failure α → Line → Prop}
    {Q : Except Failure β → Line → Prop} (h : Finds cfg M x P l)
    (hok : ∀ a l', Journal M l'.world → P (.ok a) l' → Finds cfg M (f a) Q l')
    (herr : ∀ e l', P (.error e) l' → Q (.error e) l') : Finds cfg M (x >>= f) Q l := by
  refine ⟨Prog.holds_except_bind (Prog.holds_mono h.holds fun o l' hl' ho => ?_)⟩
  cases o with
  | ok a => exact (hok a l' hl' ho).holds
  | error e => exact herr e l' ho

theorem finds_tried {x : WireM α} {f : Except Failure α → WireM β}
    {P : Except Failure α → Line → Prop} {Q : Except Failure β → Line → Prop}
    (h : Finds cfg M x P l) (hf : ∀ o l', Journal M l'.world → P o l' → Finds cfg M (f o) Q l') :
    Finds cfg M (tried x >>= f) Q l := by
  refine ⟨Prog.holds_except_bind ?_⟩
  rw [show (tried x).run = (x.run >>= fun o =>
    (pure (Except.ok o) : Prog Wire Wire.Ans (Except Failure (Except Failure α)))) from rfl,
    Prog.holds_bind]
  exact Prog.holds_mono h.holds fun o l' hl' ho => ⟨hl', (hf o l' hl' ho).holds⟩

/-- Where every row is still there, none is forgotten. -/
theorem noneLost_of_same {ev : Event Wire Wire.Ans Line}
    (h : ∀ n ∈ ev.before.world.mints, ∃ m ∈ ev.after.world.mints, m.SameRow n) : NoneLost cfg ev := by
  rintro n ⟨hn, hgone⟩
  obtain ⟨m, hm, hmn⟩ := h n hn
  exact absurd ⟨hmn.page.symm, hmn.grantId.symm⟩ (hgone m hm)

/-- **A program of the broker that leaves the journal alone.** -/
theorem finds_over {x : BrokerM α} {Q : Except Failure α → World → Prop}
    (h : Sees x Q l.world) (hl : Journal M l.world) :
    Finds cfg M (asBroker x) (fun o l' => Q o l'.world) l := by
  constructor
  suffices hgo : ∀ (p : Prog Op Op.Ans (Except Failure α)) (l : Line),
      p.Holds Op.step (fun _ => True) (fun ev => ¬ ev.op.Journals) Q l.world →
      Journal M l.world → (p.expand fun e => Prog.call (.broker e)).Holds Line.step
        (fun l => Journal M l.world) (NoneLost cfg) (fun o l' => Q o l'.world) l from hgo _ l h.holds hl
  intro p
  induction p with
  | ret o => exact fun l hp hl => ⟨hl, hp.2⟩
  | op e k ih =>
      refine fun l hp hl => ⟨hl, fun t => ⟨?_, ih _ _ (hp.2 t.tick).2 ?_⟩⟩
      · exact noneLost_of_same (mints_step t.tick (hp.2 t.tick).1 l.world).2
      · exact journal_step t.tick (hp.2 t.tick).1 hl

/-- **A row is taken out** where that is justified. -/
theorem finds_completeMint {m : Mint} (hl : Journal M l.world) (hm : ∃ n ∈ M, m.SameRow n)
    (hj : Justified cfg l m) :
    Finds cfg M (asBroker (ask (.completeMint m.page m.grantId))) (fun _ _ => True) l := by
  refine ⟨hl, fun t => ⟨?_, (journal_complete t.tick m.page m.grantId hl).1, trivial⟩⟩
  rintro n ⟨hn, hgone⟩
  by_cases hkey : n.page = m.page ∧ n.grantId = m.grantId
  · exact hj.same (hl.same hm hn hkey.1 hkey.2)
  · have hkept := (journal_complete t.tick m.page m.grantId hl).2 n hn hkey
    exact absurd ⟨rfl, rfl⟩ (hgone n hkept)

/-! ## The programs -/

/-- Whatever is heard, what the loop returns was drawn from it. -/
theorem finds_listFrom {crid : String} {before : List Heard} (n : Nat) {pages : List Read}
    {cursor : String} {seen : List String} {rows : List Json}
    (hread : Reading pages cursor seen rows) (hheard : l.heard = before ++ heardPages crid pages)
    (hl : Journal M l.world) :
    Finds cfg M (listFrom crid n cursor seen rows) (fun o l' => ∀ inventory, o = .ok inventory →
      ∃ answers, l'.heard = before ++ answers ∧ Drawn crid answers inventory) l := by
  induction n generalizing pages cursor seen rows l with
  | zero => exact finds_throw hl nofun
  | succ n ih =>
      constructor
      rw [listFrom_succ]
      have hmints : ∀ t : WireTick, (t.tick.meet l.world).mints = l.world.mints :=
        fun t => (same_meet t.tick l.world).mints
      have hnext : ∀ t : WireTick, Journal M (t.tick.meet l.world) := by
        intro t
        unfold Journal
        rw [hmints t]
        exact hl
      refine ⟨hl, fun t => ⟨noneLost_of_same fun m hm => ⟨m, (hmints t).symm ▸ hm, .refl m⟩, ?_⟩⟩
      show Prog.Holds Line.step (fun l => Journal M l.world) (NoneLost cfg)
        (afterPage crid n seen (readPage seen rows t.response)) _
        ⟨t.tick.meet l.world, l.heard ++ [.page crid cursor t.response]⟩
      cases hresponse : t.response with
      | raises e => exact ⟨hnext t, nofun⟩
      | unreadable => exact ⟨hnext t, nofun⟩
      | status code retryAfter =>
          unfold readPage
          dsimp only
          split
          · rename_i hcode
            refine ⟨hnext t, fun inventory ho => ?_⟩
            obtain rfl := Except.ok.inj ho
            refine ⟨_, ?_, .inl ⟨rfl, pages, cursor, code, retryAfter, rfl, hcode⟩⟩
            rw [hheard, List.append_assoc]
          · exact ⟨hnext t, nofun⟩
      | body v =>
          unfold readPage
          dsimp only
          cases hparse : parsePage v with
          | none => exact ⟨hnext t, nofun⟩
          | some page =>
              obtain ⟨data, info⟩ := page
              let p : Read := ⟨cursor, v, data, info, hparse⟩
              have hheard' : l.heard ++ [.page crid cursor (.body v)] =
                  before ++ heardPages crid (pages ++ [p]) := by
                rw [hheard, List.append_assoc]
                unfold heardPages
                rw [List.map_append]
                rfl
              dsimp only
              split
              · rename_i hlast
                refine ⟨hnext t, fun inventory ho => ⟨_, hheard', .inr ?_⟩⟩
                obtain rfl := Except.ok.inj ho
                exact ⟨pages ++ [p], hread.finish (p := p) rfl hlast, rfl⟩
              · rename_i hmore
                cases hcursor : nextCursor seen info with
                | none => exact ⟨hnext t, nofun⟩
                | some next =>
                    have hturn := hread.turn (p := p) rfl (Bool.not_eq_true _ ▸ hmore) hcursor
                    exact (ih hturn hheard' (hnext t)).holds

theorem finds_listQurls (crid : String) (hl : Journal M l.world) :
    Finds cfg M (listQurls crid) (fun o l' => ∀ inventory, o = .ok inventory →
      ∃ answers, l'.heard = l.heard ++ answers ∧ Drawn crid answers inventory) l :=
  finds_listFrom 1000 .start (List.append_nil _).symm hl

/-- One deletion, if the identifiers are not blank. -/
theorem finds_deleteQurl (resource q : String) (hl : Journal M l.world) :
    Finds cfg M (asBroker (deleteQurl cfg.resourceId resource q)) (fun o l' => ∀ b, o = .ok b →
      l'.heard = l.heard ++ [.deleted (deletedOn cfg.resourceId resource) (strip q)]) l := by
  rw [deleteQurl_eq (show _ = deletedOn cfg.resourceId resource from rfl) (show _ = strip q from rfl)]
  generalize deletedOn cfg.resourceId resource = effective, strip q = id
  split
  · exact ⟨hl, nofun⟩
  · refine ⟨hl, fun t => ⟨?_, journal_step t.tick (e := .deleteQurl effective id) nofun hl, ?_⟩⟩
    · exact noneLost_of_same (mints_step t.tick (e := .deleteQurl effective id) nofun l.world).2
    · intro b (hb : (Op.step t.tick (.deleteQurl effective id) l.world).1 = .ok b)
      show l.heard ++ heardOf (.deleteQurl effective id) (Op.step t.tick _ l.world).1 = _
      rw [hb]
      rfl

theorem finds_deleteCarrying (resource label : String) (vs : List Json) (hl : Journal M l.world) :
    Finds cfg M (deleteCarrying cfg resource label vs) (fun o l' => o = .ok () → ∃ after,
      l'.heard = l.heard ++ after ∧ ∀ v ∈ vs, carries label v = true → ∃ q,
        invitationId v = some q ∧
          .deleted (deletedOn cfg.resourceId resource) (strip q) ∈ after) l := by
  induction vs generalizing l with
  | nil => exact finds_pure hl fun _ => ⟨[], (List.append_nil _).symm, nofun⟩
  | cons v vs ih =>
      unfold deleteCarrying
      split
      · cases hid : invitationId v with
        | none => exact finds_throw hl nofun
        | some q =>
            refine finds_bind (finds_deleteQurl resource q hl) (fun b l₁ hl₁ h₁ => ?_) fun e _ _ => nofun
            have hdeleted := h₁ b rfl
            refine ⟨Prog.holds_mono (ih hl₁).holds fun o l₂ _ h₂ ho => ?_⟩
            obtain ⟨after, hafter, hall⟩ := h₂ ho
            refine ⟨.deleted (deletedOn cfg.resourceId resource) (strip q) :: after, ?_, ?_⟩
            · rw [hafter, hdeleted, List.append_assoc]
              rfl
            · intro u hu hlabel
              rcases List.mem_cons.mp hu with rfl | hu
              · exact ⟨q, hid, List.mem_cons_self⟩
              · obtain ⟨q', hq', hmem⟩ := hall u hu hlabel
                exact ⟨q', hq', List.mem_cons_of_mem _ hmem⟩
      · rename_i hno
        refine ⟨Prog.holds_mono (ih hl).holds fun o l₂ _ h₂ ho => ?_⟩
        obtain ⟨after, hafter, hall⟩ := h₂ ho
        refine ⟨after, hafter, fun u hu hlabel => ?_⟩
        rcases List.mem_cons.mp hu with rfl | hu
        · exact absurd hlabel hno
        · exact hall u hu hlabel

/-- **A pass over one row** that ends without an exception allows to forget
it. -/
theorem finds_forgetMint (m : Mint) (hl : Journal M l.world) :
    Finds cfg M (forgetMint cfg m) (fun o l' => o = .ok () → Justified cfg l' m) l := by
  unfold forgetMint
  refine finds_bind (finds_listQurls m.resource hl) (fun rows l₁ hl₁ h₁ => ?_) fun e _ _ => nofun
  obtain ⟨answers, hanswers, hdrawn⟩ := h₁ rows rfl
  refine ⟨Prog.holds_mono (finds_deleteCarrying m.resource m.label rows hl₁).holds
    fun o l₂ _ h₂ ho => ?_⟩
  obtain ⟨after, hafter, hall⟩ := h₂ ho
  refine .inr ⟨l.heard, answers, after, hafter.trans (hanswers ▸ rfl), ?_⟩
  rcases hdrawn with ⟨-, hgone⟩ | hwhole
  · exact .inl hgone
  · exact .inr ⟨rows, hwhole, hall⟩

theorem finds_drainRows (ms : List Mint) (hms : ∀ m ∈ ms, ∃ n ∈ M, m.SameRow n)
    (hl : Journal M l.world) : Finds cfg M (drainRows cfg ms) (fun _ _ => True) l := by
  induction ms generalizing l with
  | nil => exact finds_pure hl trivial
  | cons m ms ih =>
      have hm := hms m List.mem_cons_self
      have hrest : ∀ l', Journal M l'.world → Finds cfg M (drainRows cfg ms) (fun _ _ => True) l' :=
        fun l' => ih fun n hn => hms n (List.mem_cons_of_mem m hn)
      unfold drainRows
      refine finds_bind (finds_over (sees_liveMapping cfg) hl) (fun b l₁ hl₁ hb => ?_)
        fun _ _ _ => trivial
      cases b with
      | true =>
          refine finds_bind (finds_completeMint hl₁ hm (.inl (hb rfl)))
            (fun _ l₂ hl₂ _ => hrest l₂ hl₂) fun _ _ _ => trivial
      | false =>
          refine finds_tried (finds_forgetMint m hl₁) fun o l₂ hl₂ h₂ => ?_
          cases o with
          | ok u =>
              exact finds_bind (finds_completeMint hl₂ hm (h₂ rfl)) (fun _ l₃ hl₃ _ => hrest l₃ hl₃)
                fun _ _ _ => trivial
          | error e =>
              cases e with
              | layerV message status retryAfter =>
                  -- the row is only tried again later
                  refine finds_bind (P := fun _ _ => True)
                    (finds_over (Q := fun _ _ => True) (sees_ask nofun fun _ => trivial) hl₂)
                    (fun _ l₃ hl₃ _ => hrest l₃ hl₃) fun _ _ _ => trivial
              | _ => exact finds_throw hl₂ trivial

theorem finds_drainJournal (hl : Journal M l.world) :
    Finds cfg M (drainJournal cfg) (fun _ _ => True) l := by
  have hselect : Sees (ask .selectMints) (fun o _ => ∀ ms, o = .ok ms → ∀ m ∈ ms,
      m ∈ l.world.mints) l.world := by
    refine sees_ask nofun fun t => ?_
    rcases step_cases t .selectMints l.world with he | he | he <;> rw [he]
    · exact nofun
    · exact nofun
    · intro ms hms m hm
      obtain rfl := Except.ok.inj hms
      rw [← (same_meet t l.world).mints]
      exact (List.mem_filter.mp (List.mem_of_mem_take hm)).1
  unfold drainJournal
  refine finds_bind (finds_over hselect hl) (fun ms l₁ hl₁ h₁ => ?_) fun _ _ _ => trivial
  exact finds_drainRows ms (fun m hm => hl m (h₁ ms rfl m hm)) hl₁

end Forget

/-- **The inventory is complete before anything is forgotten.** Whatever
LayerV answers, `list_qurls` ends within a thousand requests, and what it
returns is the data of pages that were linked by cursors of which none was
followed twice and of which the last reports no more, unless the resource
was reported absent. A pass over the journal takes a row out only if its
mapping is live or queued, its resource was reported absent, or every
invitation with its label in such an inventory was deleted. -/
theorem inventory_complete (cfg : Config) (l : Line) (ts : List WireTick) :
    (∀ crid, ((listQurls crid).run.events Line.step ts l).length ≤ 1000 ∧
      (1000 ≤ ts.length → ((listQurls crid).run.meet Line.step ts l).1.isSome) ∧
      ∀ rows, ((listQurls crid).run.meet Line.step ts l).1 = some (.ok rows) → ∃ answers,
        ((listQurls crid).run.meet Line.step ts l).2.heard = l.heard ++ answers ∧
          Drawn crid answers rows) ∧
    ∀ ev ∈ (drainJournal cfg).run.events Line.step ts l, ∀ m, Forgets ev m →
      Justified cfg ev.before m := by
  have hl : Journal l.world.mints l.world := fun m hm => ⟨m, hm, .refl m⟩
  refine ⟨fun crid => ?_, ?_⟩
  · have hends : ((listQurls crid).run.events Line.step ts l).length ≤ 1000 ∧
        (1000 ≤ ts.length → ((listQurls crid).run.meet Line.step ts l).1.isSome) :=
      listFrom_ends 1000 "" [] []
    have hfinds : Finds cfg l.world.mints (listQurls crid) _ l := finds_listQurls crid hl
    exact ⟨hends.1, hends.2, fun rows hrows => (hfinds.holds.meet ts).2.2 _ hrows rows rfl⟩
  · have hfinds : Finds cfg l.world.mints (drainJournal cfg) _ l := finds_drainJournal hl
    exact (hfinds.holds.meet ts).1

end LayerV

end AccessPages
