import AccessPages.Admin.Handlers
import AccessPages.Pages.RoundTrip
/-!
# Admin — only approved resources are stored

The payload of a page is checked twice: against what discovery offers, as
it was sent, and by the page store, which reads it with defaults of its own
and stores what it has read. What is stored is what was offered.
-/

namespace AccessPages

namespace Admin

open HomeAssistant (Entity Filters Client Answers discover_named)
open Pages (Page PageError Resource Action validatePage validateAction validateResource
  validateActions_eq validateResources_eq mem_of_validateEach except_bind_eq_ok require_eq_ok)

/-! ## What is approved -/

/-- The entity offers the action, or it is the read-only one. -/
def Offers (e : Entity) (x : Action) : Prop :=
  x.id = x.service ∧ ((x.service, x.name) ∈ e.actions ∨ (x.service, x.name) = ("view", "Display"))

/-- A discovered entity stands behind the resource, and the filters allow
it. -/
def Backs (f : Filters) (e : Entity) (r : Resource) : Prop :=
  e.entityId = r.entityId ∧ e.domain = r.domain ∧
    f.entityAllowed r.entityId r.domain e.deviceClass e.areaId = true ∧ ∀ x ∈ r.actions, Offers e x

section Approved

variable [Python]

/-- **An approved page**: every resource is one that discovery offers. -/
def Approved (c : Client) (a : Answers) (page : Page) : Prop :=
  ∀ r ∈ page.resources, ∃ entities, c.discover a = .ok entities ∧
    ∃ e ∈ entities, Backs c.filters e r

/-! ## Two readings of one payload -/

variable {entityId domain : String} {e : Entity} {f : Filters} {entities : List Entity}

omit [Python] in
theorem mem_of_allowedName {service name : String} (h : allowedName e service = some name) :
    (service, name) ∈ e.actions ∨ (service, name) = ("view", "Display") := by
  obtain ⟨before, after, heq, -⟩ := List.lookup_eq_some_iff.mp h
  have hmem : (service, name) ∈ e.actions.reverse ++ [("view", "Display")] := by
    rw [heq]
    exact List.mem_append_right _ List.mem_cons_self
  rcases List.mem_append.mp hmem with hmem | hmem
  · exact .inl (List.mem_reverse.mp hmem)
  · exact .inr (List.mem_singleton.mp hmem)

/-- The policy reads a missing name as the empty text and the page store as the
identifier; nothing is offered under the empty text. -/
theorem text_name_eq {raw : List (String × Json)} {default : String}
    (h : Json.text raw "name" "" ≠ "") : Json.text raw "name" default = Json.text raw "name" "" := by
  unfold Json.text Json.getD at h ⊢
  cases hraw : Json.get? raw "name" with
  | none =>
      rw [hraw] at h
      exact absurd (by decide : strip "" = "") h
  | some v => rfl

theorem offers_of_checked {seen : List String} {v : Json} {x : Action} (hnamed : e.Named)
    (hcheck : checkAction entityId domain e v = .ok ())
    (hvalid : validateAction entityId seen v = .ok x) : Offers e x := by
  cases v with
  | obj raw =>
      unfold checkAction at hcheck
      dsimp only at hcheck
      split at hcheck
      · cases hcheck
      rename_i hpass
      obtain ⟨hname, hid⟩ := not_or.mp hpass
      have hoffered := mem_of_allowedName (not_not.mp hname)
      have hnonempty : Json.text raw "name" "" ≠ "" := by
        rcases hoffered with hmem | heq
        · exact hnamed _ hmem
        · intro hempty
          have hdisplay := (Prod.mk.inj heq).2
          exact absurd (hempty.symm.trans hdisplay) (by decide)
      simp only [validateAction, except_bind_eq_ok] at hvalid
      obtain ⟨_, -, _, -, _, -, _, -, hvalid⟩ := hvalid
      obtain rfl := Except.ok.inj hvalid
      refine ⟨not_not.mp hid, ?_⟩
      dsimp only
      rw [text_name_eq hnonempty]
      exact hoffered
  | _ => cases hcheck

theorem mem_of_checkActions {raws : List Json} (h : checkActions entityId domain e raws = .ok ()) :
    ∀ raw ∈ raws, checkAction entityId domain e raw = .ok () := by
  induction raws with
  | nil => exact nofun
  | cons raw raws ih =>
      obtain ⟨u, hraw, h⟩ := except_bind_eq_ok.mp h
      exact List.forall_mem_cons.mpr ⟨hraw, ih h⟩

theorem mem_of_checkResources {raws : List Json} (h : checkResources f entities raws = .ok ()) :
    ∀ raw ∈ raws, checkResource f entities raw = .ok () := by
  induction raws with
  | nil => exact nofun
  | cons raw raws ih =>
      obtain ⟨u, hraw, h⟩ := except_bind_eq_ok.mp h
      exact List.forall_mem_cons.mpr ⟨hraw, ih h⟩

/-- One payload of a resource, read by the policy and by the page store. -/
theorem backs_of_checked {seen : List String} {v : Json} {r : Resource}
    (hnamed : ∀ e ∈ entities, e.Named) (hcheck : checkResource f entities v = .ok ())
    (hvalid : validateResource seen v = .ok r) : ∃ e ∈ entities, Backs f e r := by
  cases v with
  | obj raw =>
      simp only [validateResource, except_bind_eq_ok] at hvalid
      obtain ⟨_, -, _, -, _, -, _, -, _, -, _, -, _, -, hvalid⟩ := hvalid
      split at hvalid
      swap
      · cases hvalid
      rename_i raws hraws
      simp only [except_bind_eq_ok] at hvalid
      obtain ⟨_, -, actions, hactions, hvalid⟩ := hvalid
      obtain rfl := Except.ok.inj hvalid
      unfold checkResource at hcheck
      dsimp only at hcheck
      split at hcheck
      · cases hcheck
      rename_i e hfound
      split at hcheck
      · cases hcheck
      rename_i hpass
      obtain ⟨hdomain, hallowed⟩ := not_or.mp hpass
      rw [hraws] at hcheck
      have hmem : e ∈ entities := List.mem_reverse.mp (List.mem_of_find?_eq_some hfound)
      have hentity : e.entityId = Json.text raw "entity_id" "" := by
        simpa using List.find?_some hfound
      refine ⟨e, hmem, hentity, (not_not.mp hdomain).symm, Bool.not_eq_false _ ▸ hallowed, ?_⟩
      intro x hx
      rw [validateActions_eq] at hactions
      obtain ⟨rawAction, hraw, seen, hone⟩ := mem_of_validateEach hactions x hx
      exact offers_of_checked (hnamed e hmem) (mem_of_checkActions hcheck rawAction hraw) hone
  | _ => cases hvalid

/-- The resources of a payload. -/
def rawResources : Json → Json
  | .obj fields => Json.getD fields "resources" (.arr [])
  | v => v

/-- **A payload that passes both is approved as it is stored.** The page store
may be given other grants than the payload's. -/
theorem approved_of_checked {c : Client} {a : Answers} {payload payload' : Json}
    {requiredId : Option String} {page : Page} (hsame : rawResources payload' = rawResources payload)
    (hcheck : validateEntityPolicy c a payload = .ok ())
    (hvalid : validatePage payload' requiredId = .ok page) : Approved c a page := by
  cases payload' with
  | obj fields =>
      simp only [validatePage, except_bind_eq_ok] at hvalid
      obtain ⟨_, -, _, -, _, -, _, -, _, -, hvalid⟩ := hvalid
      split at hvalid
      swap
      · cases hvalid
      rename_i raws hraws
      simp only [except_bind_eq_ok] at hvalid
      obtain ⟨resources, hresources, _, -, hvalid⟩ := hvalid
      obtain rfl := Except.ok.inj hvalid
      rw [validateResources_eq] at hresources
      intro r hr
      obtain ⟨raw, hraw, seen, hone⟩ := mem_of_validateEach hresources r hr
      cases payload with
      | obj fields' =>
          have hlisted : Json.getD fields' "resources" (.arr []) = .arr raws := hsame.symm.trans hraws
          unfold validateEntityPolicy at hcheck
          dsimp only at hcheck
          rw [hlisted] at hcheck
          split at hcheck
          · -- no resources at all, so that none is listed
            rename_i hempty
            cases raws with
            | nil => cases hraw
            | cons v vs => cases hempty
          split at hcheck
          · cases hcheck
          rename_i entities hfound
          have hchecked : checkResources c.filters entities raws = .ok () := mapError_eq_ok hcheck
          refine ⟨entities, hfound, ?_⟩
          exact backs_of_checked (discover_named hfound) (mem_of_checkResources hchecked raw hraw) hone
      | _ => cases hcheck
  | _ => cases hvalid

end Approved

/-! ## What the handlers write -/

section Writes

/-- A page file is written with such a page only. -/
def Writes (P : Page → Prop) : Op → Prop
  | .file (.write path v) => ∃ q, path = .page q.id ∧ v = q.toJson ∧ P q
  | _ => True

/-- The same, of a method of the page store. -/
def StoreWrites (P : Page → Prop) : Pages.FileOp → Prop
  | .write path v => ∃ q, path = .page q.id ∧ v = q.toJson ∧ P q
  | _ => True

variable {P : Page → Prop}

theorem storeWrites_of_reads (e : Pages.FileOp) (he : Reads e) : StoreWrites P e := by
  cases e with
  | write path v => exact he.elim
  | _ => trivial

theorem writes_of_remote (e : Op) (he : Remote e) : Writes P e := by
  cases e with
  | file e => exact he.elim
  | _ => trivial

theorem writes_file (e : Pages.FileOp) (he : StoreWrites P e) : Writes P (.file e) := by
  cases e <;> exact he

theorem returns_writePage {q : Page} (hq : P q) :
    Prog.Returns (StoreWrites P) (Pages.write (.page q.id) q.toJson) fun _ => True :=
  returns_write storeWrites_of_reads ⟨q, rfl, rfl, hq⟩

variable [Python]

theorem returns_create {payload : Json} (h : ∀ q, validatePage payload none = .ok q → P q) :
    Prog.Returns (StoreWrites P) (Pages.create payload) P := by
  refine Prog.returns_bind (Prog.returns_lift h) fun page hpage => ?_
  refine Prog.returns_bind (returns_ask trivial) fun taken _ => ?_
  split
  · exact Prog.returns_throw
  · exact Prog.returns_bind (returns_writePage hpage) fun _ _ => Prog.returns_pure hpage

theorem returns_update {id : String} {payload : Json}
    (h : ∀ grants q, validatePage (Pages.withGrants grants payload) (some id) = .ok q → P q) :
    Prog.Returns (StoreWrites P) (Pages.update id payload) P := by
  refine Prog.returns_bind returns_checkId fun _ _ => ?_
  refine Prog.returns_bind (returns_requireFile storeWrites_of_reads) fun _ _ => ?_
  refine Prog.returns_bind (returns_load storeWrites_of_reads) fun current _ => ?_
  refine Prog.returns_bind (Prog.returns_lift fun page hv => hv) fun page hv => ?_
  have hpage := h current.accessGrants page hv
  have hid : page.id = id := (Pages.validatePage_eq_ok hv).1 id rfl
  rw [← hid]
  exact Prog.returns_bind (returns_writePage hpage) fun _ _ => Prog.returns_pure hpage

end Writes

/-! ## Accepting a page -/

section Accepting

variable [Python]

omit [Python] in
/-- An edit's payload has the resources it was sent with. -/
theorem getD_resources_withGrants (gs : List Pages.Grant) (fields : List (String × Json)) :
    Json.getD (fields.filter (·.1 ≠ "access_grants") ++
      [("access_grants", .arr (gs.map Pages.Grant.toJson))]) "resources" (.arr []) =
      Json.getD fields "resources" (.arr []) := by
  induction fields with
  | nil => rfl
  | cons field fields ih =>
      unfold Json.getD Json.get? at ih ⊢
      by_cases hgrants : field.1 = "access_grants"
      · have hother : ("resources" == field.1) = false := by
          rw [hgrants]
          decide
        rw [List.filter_cons_of_neg (by simpa using hgrants), List.lookup_cons, hother]
        exact ih
      · rw [List.filter_cons_of_pos (by simpa using hgrants), List.cons_append, List.lookup_cons,
          List.lookup_cons]
        split
        · rfl
        · exact ih

omit [Python] in
theorem rawResources_withGrants (gs : List Pages.Grant) (payload : Json) :
    rawResources (Pages.withGrants gs payload) = rawResources payload := by
  cases payload with
  | obj fields => exact getD_resources_withGrants gs fields
  | _ => rfl

variable (cfg : Config) (a : Answers)

theorem returns_acceptPage (payload : Json) :
    Prog.Returns (Writes (Approved cfg.client a)) (acceptPage cfg a payload)
      (Approved cfg.client a) := by
  refine Prog.returns_bind (Q := fun _ => validateEntityPolicy cfg.client a payload = .ok ())
    ⟨fun _ h => h⟩ fun _ hcheck => ?_
  refine Prog.returns_bind (returns_prepare writes_of_remote cfg _) fun _ _ => ?_
  exact returns_store writes_file (returns_create fun q hq => approved_of_checked rfl hcheck hq)

theorem returns_acceptEdit (id : String) (payload : Json) :
    Prog.Returns (Writes (Approved cfg.client a)) (acceptEdit cfg a id payload)
      fun r => Approved cfg.client a r.2 := by
  refine Prog.returns_bind (Q := fun _ => validateEntityPolicy cfg.client a payload = .ok ())
    ⟨fun _ h => h⟩ fun _ hcheck => ?_
  refine Prog.returns_bind (returns_store writes_file (returns_load storeWrites_of_reads)) fun previous _ => ?_
  refine Prog.returns_bind (returns_prepare writes_of_remote cfg _) fun _ _ => ?_
  refine Prog.returns_bind (returns_store writes_file (returns_update fun gs q hq => ?_)) fun page hpage =>
    Prog.returns_pure hpage
  exact approved_of_checked (rawResources_withGrants gs payload) hcheck hq

/-- **Only policy-approved resources can be saved.** Whatever the payload, what
discovery answers, and whatever the steps meet: a page file is only written with
an approved page, and what a creation or an edit returns is one. -/
theorem only_approved_pages_saved (payload : Json) (id : String) (ts : List Tick) (w : World) :
    (∀ ev ∈ (acceptPage cfg a payload).run.events Op.step ts w,
      Writes (Approved cfg.client a) ev.op) ∧
    (∀ q, ((acceptPage cfg a payload).run.meet Op.step ts w).1 = some (.ok q) →
      Approved cfg.client a q) ∧
    (∀ ev ∈ (acceptEdit cfg a id payload).run.events Op.step ts w,
      Writes (Approved cfg.client a) ev.op) ∧
    (∀ previous q, ((acceptEdit cfg a id payload).run.meet Op.step ts w).1 = some (.ok (previous, q)) →
      Approved cfg.client a q) := by
  obtain ⟨hwrites, hreturns⟩ := (returns_acceptPage cfg a payload).ends.meet Op.step ts w
  obtain ⟨hwrites', hreturns'⟩ := (returns_acceptEdit cfg a id payload).ends.meet Op.step ts w
  exact ⟨hwrites, fun q hq => hreturns _ hq q rfl, hwrites', fun previous q hq =>
    hreturns' _ hq (previous, q) rfl⟩

end Accepting

end Admin

end AccessPages
