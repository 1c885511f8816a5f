import AccessPages.Pages.RoundTrip
/-!
# Pages — what validation raises

A document that is refused is refused by a `PageConfigError`, but for two
inputs: an infinite radius, which `int` cannot convert, and an upstream
scope that is a list or an object, which a set cannot look up. Both are
reached only after every check before them has passed.
-/

namespace AccessPages

namespace Pages

/-! ## Errors of a computation -/

section Raises

variable {α β : Type} {P : PageError → Prop}

/-- Whatever the computation raises satisfies `P`. -/
def Raises (P : PageError → Prop) (x : Except PageError α) : Prop := ∀ e, x = .error e → P e

/-- A `PageConfigError`. -/
def IsConfig (e : PageError) : Prop := ∃ message, e = .config message

/-- A `PageConfigError`, or an exception of the language. -/
def IsConfigOrPython (e : PageError) : Prop := IsConfig e ∨ ∃ x, e = .python x

theorem raises_ok {a : α} : Raises P (.ok a) := nofun

theorem raises_config {message : String} (h : ∀ e, IsConfig e → P e) :
    Raises P (.error (.config message) : Except PageError α) := fun _ he => by
  cases he
  exact h _ ⟨_, rfl⟩

theorem raises_bind {x : Except PageError α} {f : α → Except PageError β} (hx : Raises P x)
    (hf : ∀ a, x = .ok a → Raises P (f a)) : Raises P (x >>= f) := by
  intro e he
  cases x with
  | error e' =>
      cases he
      exact hx _ rfl
  | ok a => exact hf a rfl e he

theorem raises_require {c : Prop} [Decidable c] {message : String} {f : PLift c → Except PageError α}
    (h : ∀ e, IsConfig e → P e) (hf : ∀ hc, Raises P (f hc)) :
    Raises P (require c message >>= f) := by
  by_cases hc : c
  · rw [require_bind hc]
    exact hf ⟨hc⟩
  · rw [require_bind_false hc]
    exact raises_config h

theorem raises_mono {Q : PageError → Prop} {x : Except PageError α} (hx : Raises P x)
    (h : ∀ e, P e → Q e) : Raises Q x := fun e he => h e (hx e he)

/-- An exception of the language comes out of the first part that can raise
one. -/
theorem bind_eq_python {x : Except PageError α} {f : α → Except PageError β} {e : PyError}
    (hx : Raises IsConfig x) :
    (x >>= f) = .error (.python e) ↔ ∃ a, x = .ok a ∧ f a = .error (.python e) := by
  cases x with
  | error e' =>
      obtain ⟨message, rfl⟩ := hx e' rfl
      exact ⟨nofun, fun ⟨_, h, _⟩ => by cases h⟩
  | ok a => exact ⟨fun h => ⟨a, rfl, h⟩, fun ⟨_, h, h'⟩ => by cases h; exact h'⟩

theorem isConfig_self : ∀ e, IsConfig e → IsConfig e := fun _ => id

theorem raises_require_only {c : Prop} [Decidable c] {message : String} :
    Raises IsConfig (require c message) := fun e he => by
  unfold require at he
  split at he
  · cases he
  · cases he
    exact ⟨_, rfl⟩

end Raises

/-! ## Lists -/

section Each

variable {β : Type} {one : List String → Json → Except PageError β} {key : β → String}

theorem raises_each {P : PageError → Prop} (hone : ∀ seen v, Raises P (one seen v))
    (seen : List String) (raws : List Json) : Raises P (validateEach one key seen raws) := by
  induction raws generalizing seen with
  | nil => exact raises_ok
  | cons v raws ih =>
      exact raises_bind (hone seen v) fun _ _ => raises_bind (ih _) fun _ _ => raises_ok

/-- The list fails at the first entry that does. -/
theorem validateEach_eq_error {seen : List String} {raws : List Json} {e : PageError} :
    validateEach one key seen raws = .error e ↔
      ∃ pre v post bs, raws = pre ++ v :: post ∧ validateEach one key seen pre = .ok bs ∧
        one ((bs.map key).reverse ++ seen) v = .error e := by
  induction raws generalizing seen with
  | nil =>
      constructor
      · exact nofun
      · rintro ⟨pre, v, post, bs, h, -⟩
        simp at h
  | cons v raws ih =>
      constructor
      · intro h
        cases hv : one seen v with
        | error e' =>
            have he : validateEach one key seen (v :: raws) = .error e' := by
              unfold validateEach
              rw [hv]
              rfl
            rw [he] at h
            cases h
            exact ⟨[], v, raws, [], rfl, rfl, hv⟩
        | ok b =>
            have hrest : validateEach one key (key b :: seen) raws = .error e := by
              unfold validateEach at h
              rw [hv] at h
              change (validateEach one key (key b :: seen) raws >>= _) = _ at h
              cases hbs : validateEach one key (key b :: seen) raws with
              | error e' =>
                  rw [hbs] at h
                  exact h
              | ok bs =>
                  rw [hbs] at h
                  cases h
            obtain ⟨pre, u, post, bs, rfl, hpre, hu⟩ := ih.mp hrest
            refine ⟨v :: pre, u, post, b :: bs, rfl,
              (validateEach_cons one key).mpr ⟨b, bs, hv, hpre, rfl⟩, ?_⟩
            simpa using hu
      · rintro ⟨pre, u, post, bs, h, hpre, hu⟩
        cases pre with
        | nil =>
            cases h
            cases hpre
            unfold validateEach
            change one seen v = _ at hu
            rw [hu]
            rfl
        | cons w pre =>
            cases h
            obtain ⟨b, bs, hv, hbs, rfl⟩ := (validateEach_cons one key).mp hpre
            have hrest := ih.mpr ⟨pre, u, post, bs, rfl, hbs, by simpa using hu⟩
            unfold validateEach
            rw [hv]
            change (validateEach one key (key b :: seen) _ >>= _) = _
            rw [hrest]
            rfl

end Each

variable [Python]

/-! ## The parts -/

theorem raises_validatePageId (v : Json) : Raises IsConfig (validatePageId v) :=
  raises_require isConfig_self fun _ => raises_ok

theorem raises_validateNotifications (v : Option Json) :
    Raises IsConfig (validateNotifications v) := by
  unfold validateNotifications
  split
  · exact raises_ok
  · exact raises_ok
  · refine raises_require isConfig_self fun _ => ?_
    split
    · dsimp only
      split
      · exact raises_ok
      · exact raises_require isConfig_self fun _ => raises_require isConfig_self fun _ => raises_ok
    · exact raises_config isConfig_self
  · exact raises_config isConfig_self

theorem raises_validateAction (entityId : String) (seen : List String) (v : Json) :
    Raises IsConfig (validateAction entityId seen v) := by
  cases v with
  | obj raw =>
      exact raises_require isConfig_self fun _ => raises_require isConfig_self fun _ =>
        raises_require isConfig_self fun _ => raises_require isConfig_self fun _ => raises_ok
  | _ => exact raises_config isConfig_self

theorem raises_validateWidget (entityId domain : String) (raw : List (String × Json)) :
    Raises IsConfig (validateWidget entityId domain raw) := by
  unfold validateWidget
  dsimp only
  split
  · exact raises_config isConfig_self
  · exact raises_require isConfig_self fun _ => raises_require isConfig_self fun _ =>
      raises_require isConfig_self fun _ => raises_ok

omit [Python] in
theorem raises_validateInterval (entityId domain : String) (raw : List (String × Json)) :
    Raises IsConfig (validateInterval entityId domain raw) := by
  unfold validateInterval
  refine raises_require isConfig_self fun _ => ?_
  split
  · split
    · exact raises_require isConfig_self fun _ => raises_ok
    · exact raises_config isConfig_self
  · exact raises_ok

theorem raises_validateResource (seen : List String) (v : Json) :
    Raises IsConfig (validateResource seen v) := by
  cases v with
  | obj raw =>
      refine raises_require isConfig_self fun _ => raises_require isConfig_self fun _ =>
        raises_require isConfig_self fun _ => raises_require isConfig_self fun _ =>
        raises_require isConfig_self fun _ => raises_bind (raises_validateWidget _ _ _) fun _ _ =>
        raises_bind (raises_validateInterval _ _ _) fun _ _ => ?_
      split
      · refine raises_require isConfig_self fun _ => raises_bind ?_ fun _ _ => raises_ok
        rw [validateActions_eq]
        exact raises_each (raises_validateAction _) _ _
      · exact raises_config isConfig_self
  | _ => exact raises_config isConfig_self

theorem raises_validateResources (seen : List String) (raws : List Json) :
    Raises IsConfig (validateResources seen raws) := by
  rw [validateResources_eq]
  exact raises_each raises_validateResource _ _

/-! ## The radius -/

/-- A radius that `int` overflows on: infinite, in a proximity policy that is
well formed before it. -/
def InfiniteRadius (v : Json) : Prop :=
  ∃ raw enabled x, v = .obj raw ∧ Json.getD raw "enabled" (.bool false) = .bool enabled ∧
    Json.getD raw "radius_meters" (.int 500) = .float x ∧ x.isNaN = false ∧ x.isInf = true

theorem toInt_eq_error {v : Json} {e : PyError} (h : v.toInt = .error e) :
    e = .valueError ∨ e = .typeError ∨
      e = .overflowError ∧ ∃ x, v = .float x ∧ x.isNaN = false ∧ x.isInf = true := by
  cases v with
  | float x =>
      unfold Json.toInt at h
      dsimp only at h
      split at h
      · cases h
        exact .inl rfl
      · rename_i hnan
        split at h
        · rename_i hinf
          cases h
          exact .inr (.inr ⟨rfl, x, rfl, by simpa using hnan, hinf⟩)
        · cases h
  | str s =>
      unfold Json.toInt at h
      cases ht : Python.intOfText s with
      | none =>
          simp only [ht] at h
          cases h
          exact .inl rfl
      | some n =>
          simp only [ht] at h
          cases h
  | bool b => cases h
  | int n => cases h
  | _ =>
      cases h
      exact .inr (.inl rfl)

omit [Python] in
theorem converting_eq_error {α : Type} {message : String} {x : Except PyError α} {e : PageError}
    (h : converting message x = .error e) :
    e = .config message ∨ ∃ y, x = .error y ∧ e = .python y ∧ y ≠ .valueError ∧ y ≠ .typeError := by
  unfold converting at h
  split at h
  · cases h
  · cases h
    exact .inl rfl
  · cases h
    exact .inl rfl
  · rename_i y hvalue htype
    cases h
    exact .inr ⟨y, rfl, rfl, fun h => hvalue (h ▸ rfl), fun h => htype (h ▸ rfl)⟩

theorem radius_eq_error {raw : List (String × Json)} {enabled : Bool} {e : PageError}
    (h : validateProximity.radius raw enabled = .error e) :
    IsConfig e ∨ e = .python .overflowError ∧
      ∃ x, Json.getD raw "radius_meters" (.int 500) = .float x ∧ x.isNaN = false ∧
        x.isInf = true := by
  unfold validateProximity.radius at h
  cases hc : converting "Proximity radius must be a whole number"
      (Json.getD raw "radius_meters" (.int 500)).toInt with
  | error e' =>
      rw [hc] at h
      cases h
      rcases converting_eq_error hc with rfl | ⟨y, hy, rfl, hvalue, htype⟩
      · exact .inl ⟨_, rfl⟩
      · rcases toInt_eq_error hy with rfl | rfl | ⟨rfl, hx⟩
        · exact absurd rfl hvalue
        · exact absurd rfl htype
        · exact .inr ⟨rfl, hx⟩
  | ok n =>
      rw [hc] at h
      exact .inl (raises_require isConfig_self (fun _ => raises_ok) e h)

/-- The proximity policy raises nothing else but for an infinite radius. -/
theorem validateProximity_eq_error {v : Json} {e : PageError} (h : validateProximity v = .error e) :
    IsConfig e ∨ e = .python .overflowError ∧ InfiniteRadius v := by
  unfold validateProximity at h
  split at h
  · rcases radius_eq_error h with h | ⟨-, x, hx, -⟩
    · exact .inl h
    · cases hx
  · split at h
    · rename_i raw _ enabled henabled
      rcases radius_eq_error h with h | ⟨rfl, x, hx⟩
      · exact .inl h
      · exact .inr ⟨rfl, raw, enabled, x, rfl, henabled, hx⟩
    · cases h
      exact .inl ⟨_, rfl⟩
  · cases h
    exact .inl ⟨_, rfl⟩

theorem validateProximity_of_infinite {v : Json} (h : InfiniteRadius v) :
    validateProximity v = .error (.python .overflowError) := by
  obtain ⟨raw, enabled, x, rfl, henabled, hx, hnan, hinf⟩ := h
  have hint : (Json.float x).toInt = .error .overflowError := by
    show (if x.isNaN = true then _ else _) = _
    rw [if_neg (ne_true_of_eq_false hnan), if_pos hinf]
  unfold validateProximity
  dsimp only
  rw [henabled]
  dsimp only
  unfold validateProximity.radius
  rw [hx, hint]
  rfl

/-! ## The scope -/

/-- A raw grant whose scope cannot be looked up in a set, with everything
before it in order. -/
def UnhashableScope (seen : List String) : Json → Prop
  | .obj raw =>
      (raw.map Prod.fst).eraseDups.filter (· ∉ allowedFields) = [] ∧
        (Json.text raw "id" "" ≠ "" ∧ (Json.text raw "id" "").length ≤ 80) ∧
        Json.text raw "id" "" ∉ seen ∧
        tokenHashRe (lower (Json.text raw "token_hash" "")) = true ∧
        isText (Json.get? raw "credential_flow") "bootstrap-v1" = true ∧
        grantIdRe (Json.text raw "id" "") = true ∧
        ((∃ items, Json.getD raw "upstream_scope" (.str "page") = .arr items) ∨
          ∃ fields, Json.getD raw "upstream_scope" (.str "page") = .obj fields)
  | _ => False

omit [Python] in
theorem validateScope_eq_error {v : Json} {e : PageError} (h : validateScope v = .error e) :
    IsConfig e ∨ e = .python .typeError ∧ ((∃ items, v = .arr items) ∨ ∃ fields, v = .obj fields) := by
  unfold validateScope at h
  split at h
  · cases h
  · cases h
  · cases h
    exact .inr ⟨rfl, .inl ⟨_, rfl⟩⟩
  · cases h
    exact .inr ⟨rfl, .inr ⟨_, rfl⟩⟩
  · cases h
    exact .inl ⟨_, rfl⟩

/-- What a grant raises after its scope is a `PageConfigError`. -/
theorem validateGrant_eq_error {seen : List String} {v : Json} {e : PageError}
    (h : validateGrant seen v = .error e) :
    IsConfig e ∨ e = .python .typeError ∧ UnhashableScope seen v := by
  cases v with
  | obj raw =>
      have hc : ∀ e, IsConfig e → IsConfig e ∨ e = .python .typeError ∧
        UnhashableScope seen (.obj raw) := fun _ h => .inl h
      -- every check before the scope raises a `PageConfigError` or holds
      have hraises : Raises (fun e => IsConfig e ∨ e = .python .typeError ∧
          UnhashableScope seen (.obj raw)) (validateGrant seen (.obj raw)) := by
        unfold validateGrant
        refine raises_require hc fun ⟨hfields⟩ => raises_require hc fun ⟨hid⟩ =>
          raises_require hc fun ⟨hseen⟩ => raises_require hc fun ⟨hhash⟩ =>
          raises_require hc fun ⟨hflow⟩ => raises_require hc fun ⟨hre⟩ =>
          raises_bind ?_ fun scope _ => ?_
        · intro e he
          refine (validateScope_eq_error he).imp_right fun ⟨he, hv⟩ => ⟨he, ?_⟩
          exact ⟨hfields, hid, hseen, hhash, hflow, hre, hv⟩
        · exact raises_require hc fun _ => raises_require hc fun _ => raises_require hc fun _ =>
            raises_bind (raises_mono (raises_validateNotifications _) hc) fun _ _ => raises_ok
      exact hraises e h
  | _ =>
      cases h
      exact .inl ⟨_, rfl⟩

theorem validateGrant_of_unhashable {seen : List String} {v : Json} (h : UnhashableScope seen v) :
    validateGrant seen v = .error (.python .typeError) := by
  cases v with
  | obj raw =>
      obtain ⟨hfields, hid, hseen, hhash, hflow, hre, hscope⟩ := h
      have hv : validateScope (Json.getD raw "upstream_scope" (.str "page")) =
          .error (.python .typeError) := by
        rcases hscope with ⟨items, h⟩ | ⟨fields, h⟩ <;> rw [h] <;> rfl
      unfold validateGrant
      dsimp only
      rw [require_bind hfields, require_bind hid, require_bind hseen, require_bind hhash,
        require_bind hflow, require_bind hre, hv]
      rfl
  | _ => cases h

/-- A grant of the list has such a scope, and those before it are valid. -/
def UnhashableAmong (raws : List Json) : Prop :=
  ∃ pre v post gs, raws = pre ++ v :: post ∧ validateGrants [] pre = .ok gs ∧
    UnhashableScope ((gs.map Grant.id).reverse ++ []) v

theorem validateGrants_eq_error {raws : List Json} {e : PageError}
    (h : validateGrants [] raws = .error e) :
    IsConfig e ∨ e = .python .typeError ∧ UnhashableAmong raws := by
  rw [validateGrants_eq] at h
  obtain ⟨pre, v, post, gs, hraws, hpre, hv⟩ := validateEach_eq_error.mp h
  rw [← validateGrants_eq] at hpre
  exact (validateGrant_eq_error hv).imp_right fun ⟨he, hs⟩ =>
    ⟨he, pre, v, post, gs, hraws, hpre, hs⟩

theorem validateGrants_of_unhashable {raws : List Json} (h : UnhashableAmong raws) :
    validateGrants [] raws = .error (.python .typeError) := by
  obtain ⟨pre, v, post, gs, hraws, hpre, hv⟩ := h
  rw [validateGrants_eq] at hpre ⊢
  exact validateEach_eq_error.mpr ⟨pre, v, post, gs, hraws, hpre, validateGrant_of_unhashable hv⟩

/-! ## The page -/

/-- The fields before the proximity policy are in order. -/
structure Header (raw : List (String × Json)) (id : String) : Prop where
  id_re : pageIdRe id = true
  id_eq : validatePageId (Json.getD raw "id" (.str "")) = .ok ⟨id, id_re⟩
  title : Json.text raw "title" "" ≠ "" ∧ (Json.text raw "title" "").length ≤ 80
  description : (Json.text raw "description" "").length ≤ 240

/-- A page whose radius is infinite. -/
def Overflows (id : String) (v : Json) : Prop :=
  ∃ raw, v = .obj raw ∧ Header raw id ∧ InfiniteRadius (Json.getD raw "proximity" (.obj []))

/-- A page that is in order up to a scope that is a list or an object. -/
def Unhashable (id : String) (v : Json) : Prop :=
  ∃ raw proximity rawResources resources raws, v = .obj raw ∧ Header raw id ∧
    validateProximity (Json.getD raw "proximity" (.obj [])) = .ok proximity ∧
    Json.getD raw "resources" (.arr []) = .arr rawResources ∧
    validateResources [] rawResources = .ok resources ∧
    Json.getD raw "access_grants" (.arr []) = .arr raws ∧ UnhashableAmong raws

/-- **What a page is refused by**: a `PageConfigError`, an infinite radius or
a scope that does not hash. -/
theorem validatePage_eq_error {id : String} {v : Json} {e : PageError}
    (h : validatePage v (some id) = .error e) :
    IsConfig e ∨ (e = .python .overflowError ∧ Overflows id v) ∨
      (e = .python .typeError ∧ Unhashable id v) := by
  cases v with
  | obj raw =>
      have hc : ∀ e, IsConfig e → IsConfig e ∨ (e = .python .overflowError ∧ Overflows id (.obj raw)) ∨
        (e = .python .typeError ∧ Unhashable id (.obj raw)) := fun _ h => .inl h
      have hraises : Raises (fun e => IsConfig e ∨
          (e = .python .overflowError ∧ Overflows id (.obj raw)) ∨
          (e = .python .typeError ∧ Unhashable id (.obj raw))) (validatePage (.obj raw) (some id)) := by
        unfold validatePage
        refine raises_bind (raises_mono (raises_validatePageId _) hc) fun ⟨pid, hpid⟩ hid =>
          raises_require hc fun ⟨hrequired⟩ => raises_require hc fun ⟨htitle⟩ =>
          raises_require hc fun ⟨hdescription⟩ => ?_
        obtain rfl : pid = id := hrequired id rfl
        have hheader : Header raw pid := ⟨hpid, hid, htitle, hdescription⟩
        refine raises_bind ?_ fun proximity hproximity => ?_
        · intro e he
          exact (validateProximity_eq_error he).imp_right fun ⟨he, hr⟩ =>
            .inl ⟨he, raw, rfl, hheader, hr⟩
        split
        · rename_i rawResources hresources
          refine raises_bind (raises_mono (raises_validateResources _ _) hc) fun resources hrs => ?_
          refine raises_bind ?_ fun _ _ => raises_ok
          intro e he
          unfold validateAccessGrants at he
          split at he
          · cases he
          · rename_i raws hraws
            cases hgs : validateGrants [] raws with
            | error e' =>
                rw [hgs] at he
                cases he
                exact (validateGrants_eq_error hgs).imp_right fun ⟨he, hu⟩ => .inr ⟨he, raw,
                  proximity, rawResources, resources, raws, rfl, hheader, hproximity, hresources,
                  hrs, hraws, hu⟩
            | ok gs =>
                rw [hgs] at he
                cases he
          · cases he
            exact .inl ⟨_, rfl⟩
        · exact raises_config hc
      exact hraises e h
  | _ =>
      cases h
      exact .inl ⟨_, rfl⟩

theorem validatePage_of_header {raw : List (String × Json)} {id : String} (h : Header raw id) :
    validatePage (.obj raw) (some id) = (do
      let proximity ← validateProximity (Json.getD raw "proximity" (.obj []))
      match Json.getD raw "resources" (.arr []) with
      | .arr rawResources => do
          let resources ← validateResources [] rawResources
          let accessGrants ← validateAccessGrants (Json.getD raw "access_grants" (.arr []))
          .ok ⟨id, Json.text raw "title" "", Json.text raw "description" "", proximity, resources,
            accessGrants, h.id_re⟩
      | _ => .error (.config "resources must be a list")) := by
  have hrequired : ∀ r ∈ some id, id = r := fun _ h => by simpa using h
  unfold validatePage
  dsimp only
  rw [h.id_eq]
  show (require (∀ r ∈ some id, id = r) _ >>= _) = _
  rw [require_bind hrequired, require_bind h.title]
  exact require_bind h.description _

theorem validatePage_of_overflows {id : String} {v : Json} (h : Overflows id v) :
    validatePage v (some id) = .error (.python .overflowError) := by
  obtain ⟨raw, rfl, hheader, hradius⟩ := h
  rw [validatePage_of_header hheader, validateProximity_of_infinite hradius]
  rfl

theorem validatePage_of_unhashable {id : String} {v : Json} (h : Unhashable id v) :
    validatePage v (some id) = .error (.python .typeError) := by
  obtain ⟨raw, proximity, rawResources, resources, raws, rfl, hheader, hproximity, hresources, hrs,
    hraws, hu⟩ := h
  rw [validatePage_of_header hheader, hproximity]
  show (match Json.getD raw "resources" (.arr []) with | .arr rawResources => _ | _ => _) = _
  rw [hresources]
  show (validateResources [] rawResources >>= _) = _
  rw [hrs, hraws]
  show ((validateGrants [] raws >>= _) >>= _) = _
  rw [validateGrants_of_unhashable hu]
  rfl

end Pages

end AccessPages
