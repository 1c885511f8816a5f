import AccessPages.Pages.Durable
/-!
# Pages — what is written reads back

Validation is applied to every page that is read and to every page that
is written, so a stored page is validated again and again. Every
normaliser is idempotent but two: a label and a lifetime are stripped
before they are cut, and the identifier of a guest's resource is tested
before it is stripped. `reread` is what a second validation makes of a
page; a third one changes nothing more.
-/

namespace AccessPages

namespace Pages

/-! ## Texts -/

/-- A text without spaces at its ends, cut to `n` characters: the cut
shows no space at its end exactly if its last character is none. -/
theorem strip_slice {s : String} {n : Nat} (hs : strip s = s) (hn : 0 < n) :
    strip (slice s n) = slice s n ↔ ∀ c ∈ s.toList[n - 1]?, isSpace c = false := by
  have hl : (s.toList.dropWhile isSpace).rdropWhile isSpace = s.toList := by
    rw [← strip_toList, hs]
  have hdrop : s.toList.dropWhile isSpace = s.toList := by
    have hlen := (List.rdropWhile_prefix isSpace (l := s.toList.dropWhile isSpace)).length_le
    rw [hl] at hlen
    exact (List.dropWhile_suffix isSpace).eq_of_length_le hlen
  rw [hdrop] at hl
  have hhead : (s.toList.take n).dropWhile isSpace = s.toList.take n := by
    cases hcs : s.toList with
    | nil => simp
    | cons c cs =>
        rw [hcs] at hdrop
        have hc : isSpace c = false := by
          by_contra hc
          have hlen := congrArg List.length hdrop
          rw [List.dropWhile_cons_of_pos (by simpa using hc)] at hlen
          have := (List.dropWhile_suffix isSpace (l := cs)).length_le
          simp only [List.length_cons] at hlen
          omega
        obtain ⟨n, rfl⟩ := Nat.exists_eq_succ_of_ne_zero (by omega : n ≠ 0)
        exact List.dropWhile_cons_of_neg (by simp [hc])
  have hslice : strip (slice s n) = slice s n ↔
      (s.toList.take n).rdropWhile isSpace = s.toList.take n := by
    unfold strip slice
    rw [String.toList_ofList, hhead]
    exact ⟨fun h => String.ofList_injective h, fun h => by rw [h]⟩
  rw [hslice, List.rdropWhile_eq_self_iff]
  rcases Nat.lt_or_ge s.toList.length n with hlt | hge
  · -- nothing is cut
    have htake : s.toList.take n = s.toList := List.take_of_length_le hlt.le
    have hnone : s.toList[n - 1]? = none := List.getElem?_eq_none (by omega)
    rw [htake, hnone]
    exact ⟨fun _ => nofun, fun _ => List.rdropWhile_eq_self_iff.mp hl⟩
  · have hlast : s.toList[n - 1]? = (s.toList.take n).getLast? := by
      rw [List.getLast?_eq_getElem?, List.length_take, Nat.min_eq_left hge,
        List.getElem?_take_of_lt (by omega)]
    rw [hlast]
    constructor
    · intro h c hc
      obtain ⟨hne, rfl⟩ := List.mem_getLast?_eq_getLast hc
      simpa using h hne
    · intro h hne
      simpa using h _ (List.getLast?_eq_getLast_of_ne_nil hne ▸ rfl)

theorem slice_of_length_le {s : String} {n : Nat} (h : s.length ≤ n) : slice s n = s := by
  rw [slice, List.take_of_length_le (by rwa [String.length_toList]), String.ofList_toList]

theorem length_slice_le (s : String) (n : Nat) : (slice s n).length ≤ n := by
  simp [slice]

theorem length_strip_le (s : String) : (strip s).length ≤ s.length := by
  have h₁ := (List.rdropWhile_prefix isSpace (l := s.toList.dropWhile isSpace)).length_le
  have h₂ := (List.dropWhile_suffix isSpace (l := s.toList)).length_le
  have hs : (strip s).length = ((s.toList.dropWhile isSpace).rdropWhile isSpace).length := by
    rw [← strip_toList, String.length_toList]
  have hl : s.toList.length = s.length := String.length_toList
  omega

/-! ## Checks -/

theorem require_bind {α : Type} {c : Prop} [Decidable c] {message : String} (h : c)
    (f : PLift c → Except PageError α) : (require c message >>= f) = f ⟨h⟩ := by
  simp only [require, dif_pos h]
  rfl

theorem require_bind_false {α : Type} {c : Prop} [Decidable c] {message : String} (h : ¬ c)
    (f : PLift c → Except PageError α) :
    (require c message >>= f) = .error (.config message) := by
  simp only [require, dif_neg h]
  rfl

variable [Python]

/-- The text of a field. -/
theorem text_of {fields : List (String × Json)} {key default s : String}
    (h : Json.get? fields key = some (.str s)) (hs : strip s = s) :
    Json.text fields key default = s := by
  rw [Json.text, Json.getD, h, Option.getD_some, Json.toStr_str, hs]

omit [Python] in
theorem getD_of {fields : List (String × Json)} {key : String} {default v : Json}
    (h : Json.get? fields key = some v) : Json.getD fields key default = v := by
  rw [Json.getD, h, Option.getD_some]

@[simp] theorem strip_text (fields : List (String × Json)) (key default : String) :
    strip (Json.text fields key default) = Json.text fields key default :=
  strip_strip _

/-! ## Lists -/

section Each

variable {β : Type} (one : List String → Json → Except PageError β) (key : β → String)

/-- The loop the three lists of a page are validated by: every entry is
checked against the identifiers before it. -/
def validateEach (seen : List String) : List Json → Except PageError (List β)
  | [] => .ok []
  | raw :: rest => do
      let b ← one seen raw
      let bs ← validateEach (key b :: seen) rest
      return b :: bs

omit [Python] in
theorem validateEach_cons {seen : List String} {raw : Json} {rest : List Json} {bs : List β} :
    validateEach one key seen (raw :: rest) = .ok bs ↔
      ∃ b bs', one seen raw = .ok b ∧ validateEach one key (key b :: seen) rest = .ok bs' ∧
        bs = b :: bs' := by
  simp only [validateEach, except_bind_eq_ok]
  constructor
  · rintro ⟨b, hb, bs', hbs', h⟩
    cases h
    exact ⟨b, bs', hb, hbs', rfl⟩
  · rintro ⟨b, bs', hb, hbs', rfl⟩
    exact ⟨b, hb, bs', hbs', rfl⟩

theorem validateActions_eq (entityId : String) (seen : List String) (raws : List Json) :
    validateActions entityId seen raws =
      validateEach (validateAction entityId) Action.id seen raws := by
  induction raws generalizing seen with
  | nil => rfl
  | cons raw raws ih => simp only [validateActions, validateEach, ih]

theorem validateResources_eq (seen : List String) (raws : List Json) :
    validateResources seen raws = validateEach validateResource Resource.id seen raws := by
  induction raws generalizing seen with
  | nil => rfl
  | cons raw raws ih => simp only [validateResources, validateEach, ih]

theorem validateGrants_eq (seen : List String) (raws : List Json) :
    validateGrants seen raws = validateEach validateGrant Grant.id seen raws := by
  induction raws generalizing seen with
  | nil => rfl
  | cons raw raws ih => simp only [validateGrants, validateEach, ih]

variable {one key}

omit [Python] in
/-- What every entry satisfies; no two have an identifier in common. -/
theorem validateEach_checked {P : β → Prop}
    (hone : ∀ seen v b, one seen v = .ok b → P b ∧ key b ∉ seen) {seen : List String}
    {raws : List Json} {bs : List β} (h : validateEach one key seen raws = .ok bs) :
    (∀ b ∈ bs, P b ∧ key b ∉ seen) ∧ (bs.map key).Nodup ∧ bs.length = raws.length := by
  induction raws generalizing seen bs with
  | nil =>
      cases h
      exact ⟨nofun, List.nodup_nil, rfl⟩
  | cons v raws ih =>
      obtain ⟨b, bs, hb, hbs, rfl⟩ := (validateEach_cons one key).mp h
      obtain ⟨hall, hnodup, hlen⟩ := ih hbs
      refine ⟨?_, ?_, congrArg Nat.succ hlen⟩
      · intro c hc
        rcases List.mem_cons.mp hc with rfl | hc
        · exact hone _ _ _ hb
        · exact ⟨(hall c hc).1, fun hmem => (hall c hc).2 (List.mem_cons_of_mem _ hmem)⟩
      · refine List.nodup_cons.mpr ⟨fun hmem => ?_, hnodup⟩
        obtain ⟨c, hc, hkey⟩ := List.mem_map.mp hmem
        exact (hall c hc).2 (by rw [hkey]; exact List.mem_cons_self)

omit [Python] in
/-- A list that is written entry by entry is read entry by entry. -/
theorem validateEach_map {toJson : β → Json} {again : β → β} {P : β → Prop}
    (hone : ∀ seen b, P b → key b ∉ seen → one seen (toJson b) = .ok (again b))
    (hkey : ∀ b, key (again b) = key b) {seen : List String} {bs : List β}
    (hbs : ∀ b ∈ bs, P b ∧ key b ∉ seen) (hnodup : (bs.map key).Nodup) :
    validateEach one key seen (bs.map toJson) = .ok (bs.map again) := by
  induction bs generalizing seen with
  | nil => rfl
  | cons b bs ih =>
      obtain ⟨hb, hbs⟩ := List.forall_mem_cons.mp hbs
      obtain ⟨hnew, hnodup⟩ := List.nodup_cons.mp hnodup
      have hrest : ∀ c ∈ bs, P c ∧ key c ∉ key (again b) :: seen := by
        intro c hc
        refine ⟨(hbs c hc).1, fun hmem => ?_⟩
        rcases List.mem_cons.mp hmem with heq | hmem
        · exact hnew (List.mem_map.mpr ⟨c, hc, heq.trans (hkey b)⟩)
        · exact (hbs c hc).2 hmem
      exact (validateEach_cons one key).mpr
        ⟨again b, bs.map again, hone seen b hb.1 hb.2, ih hrest hnodup, rfl⟩

omit [Python] in
/-- A list that is accepted has every entry accepted. -/
theorem validateEach_entry {seen : List String} {raws : List Json} {bs : List β}
    (h : validateEach one key seen raws = .ok bs) :
    ∀ raw ∈ raws, ∃ seen b, one seen raw = .ok b := by
  induction raws generalizing seen bs with
  | nil => exact nofun
  | cons v raws ih =>
      obtain ⟨b, bs, hb, hbs, rfl⟩ := (validateEach_cons one key).mp h
      exact List.forall_mem_cons.mpr ⟨⟨_, _, hb⟩, ih hbs⟩

omit [Python] in
/-- What is listed was accepted from an entry. -/
theorem mem_of_validateEach {seen : List String} {raws : List Json} {bs : List β}
    (h : validateEach one key seen raws = .ok bs) :
    ∀ b ∈ bs, ∃ raw ∈ raws, ∃ seen, one seen raw = .ok b := by
  induction raws generalizing seen bs with
  | nil =>
      cases h
      exact nofun
  | cons v raws ih =>
      obtain ⟨b, bs, hb, hbs, rfl⟩ := (validateEach_cons one key).mp h
      intro c hc
      rcases List.mem_cons.mp hc with rfl | hc
      · exact ⟨v, List.mem_cons_self, seen, hb⟩
      · obtain ⟨raw, hraw, hone⟩ := ih hbs c hc
        exact ⟨raw, List.mem_cons_of_mem _ hraw, hone⟩

omit [Python] in
/-- What an entry says of what it is validated to, the list does. -/
theorem validateEach_forall_iff {T : Json → Prop} {R : β → Prop}
    (hone : ∀ seen v b, one seen v = .ok b → (T v ↔ R b)) {seen : List String}
    {raws : List Json} {bs : List β} (h : validateEach one key seen raws = .ok bs) :
    (∀ raw ∈ raws, T raw) ↔ ∀ b ∈ bs, R b := by
  induction raws generalizing seen bs with
  | nil =>
      cases h
      exact iff_of_true nofun nofun
  | cons v raws ih =>
      obtain ⟨b, bs, hb, hbs, rfl⟩ := (validateEach_cons one key).mp h
      rw [List.forall_mem_cons, List.forall_mem_cons, hone _ _ _ hb, ih hbs]

end Each

/-! ## Actions -/

/-- What a validated action satisfies. -/
structure Action.Checked (a : Action) : Prop where
  id_re : pageIdRe a.id = true
  id_strip : strip a.id = a.id
  name_strip : strip a.name = a.name
  name_length : a.name ≠ "" ∧ a.name.length ≤ 60
  service_strip : strip a.service = a.service
  service_plain : a.service ≠ "" ∧ '.' ∉ a.service.toList

theorem validateAction_checked {entityId : String} {seen : List String} {v : Json} {a : Action}
    (h : validateAction entityId seen v = .ok a) : a.Checked ∧ a.id ∉ seen := by
  cases v with
  | obj raw =>
      simp only [validateAction, except_bind_eq_ok] at h
      obtain ⟨_, hid, _, hseen, _, hname, _, hservice, h⟩ := h
      rw [require_eq_ok] at hid hseen hname hservice
      cases h
      exact ⟨⟨hid, strip_text .., strip_text .., hname, strip_text .., hservice⟩, hseen⟩
  | _ => cases h

theorem validateAction_toJson {entityId : String} {seen : List String} {a : Action}
    (ha : a.Checked) (hseen : a.id ∉ seen) : validateAction entityId seen a.toJson = .ok a := by
  have hid : Json.text [("id", .str a.id), ("name", .str a.name), ("service", .str a.service)]
      "id" "" = a.id := text_of rfl ha.id_strip
  have hname : Json.text [("id", .str a.id), ("name", .str a.name), ("service", .str a.service)]
      "name" a.id = a.name := text_of rfl ha.name_strip
  have hservice : Json.text [("id", .str a.id), ("name", .str a.name),
      ("service", .str a.service)] "service" "" = a.service := text_of rfl ha.service_strip
  unfold validateAction Action.toJson
  dsimp only
  rw [hid, hname, hservice, require_bind ha.id_re, require_bind hseen,
    require_bind ha.name_length, require_bind ha.service_plain]

/-! ## Resources -/

/-- A widget that `validateWidget` accepts for the domain. -/
def Widget.Fits (w : Widget) (domain : String) : Prop :=
  (w = .thermostat → domain = "climate") ∧ (w = .sensor → domain = "sensor") ∧
    (w = .toggle → domain = "switch" ∨ domain = "input_boolean")

/-- What a validated resource satisfies. -/
structure Resource.Checked (r : Resource) : Prop where
  id_strip : strip r.id = r.id
  entityId_strip : strip r.entityId = r.entityId
  entityId_dot : '.' ∈ r.entityId.toList
  domain_strip : strip r.domain = r.domain
  name_strip : strip r.name = r.name
  name_length : r.name ≠ "" ∧ r.name.length ≤ 100
  widget_fits : r.widget.Fits r.domain
  interval : if r.domain = "camera" then
    ∃ n ∈ cameraRefreshIntervals, r.cameraRefreshInterval = some n
    else r.cameraRefreshInterval = none
  nonempty : r.actions.isEmpty = false ∨ r.widget = .readOnly ∨ r.widget = .sensor ∨
    r.domain = "sensor"
  actions : ∀ a ∈ r.actions, a.Checked ∧ a.id ∉ ([] : List String)
  nodup : (r.actions.map (·.id)).Nodup

theorem validateWidget_fits {entityId domain : String} {raw : List (String × Json)} {w : Widget}
    (h : validateWidget entityId domain raw = .ok w) : w.Fits domain := by
  unfold validateWidget at h
  dsimp only at h
  split at h
  · cases h
  · simp only [except_bind_eq_ok] at h
    obtain ⟨_, hclimate, _, hsensor, _, htoggle, h⟩ := h
    rw [require_eq_ok] at hclimate hsensor htoggle
    cases h
    exact ⟨hclimate, hsensor, htoggle⟩

theorem validateWidget_of {entityId domain : String} {raw : List (String × Json)} {w : Widget}
    (hraw : Json.get? raw "widget" = some (.str w.name)) (hfits : w.Fits domain) :
    validateWidget entityId domain raw = .ok w := by
  have hstrip : strip w.name = w.name := by cases w <;> decide
  have hname : w.name ≠ "" := by cases w <;> decide
  have hof : Widget.ofName? w.name = some w := by cases w <;> decide
  unfold validateWidget
  dsimp only
  rw [text_of hraw hstrip, if_neg hname, hof]
  dsimp only
  rw [require_bind hfits.1, require_bind hfits.2.1, require_bind hfits.2.2]
  rfl

omit [Python] in
theorem validateInterval_checked {entityId domain : String} {raw : List (String × Json)}
    {interval : Option Int} (h : validateInterval entityId domain raw = .ok interval) :
    if domain = "camera" then ∃ n ∈ cameraRefreshIntervals, interval = some n
    else interval = none := by
  simp only [validateInterval, except_bind_eq_ok] at h
  obtain ⟨_, -, h⟩ := h
  split at h
  · rename_i hcamera
    rw [if_pos hcamera]
    split at h
    · simp only [except_bind_eq_ok] at h
      obtain ⟨_, hmem, h⟩ := h
      rw [require_eq_ok] at hmem
      cases h
      exact ⟨_, hmem, rfl⟩
    · cases h
  · rename_i hcamera
    rw [if_neg hcamera]
    cases h
    rfl

omit [Python] in
theorem validateInterval_of {entityId domain : String} {raw : List (String × Json)}
    {interval : Option Int}
    (hraw : Json.get? raw "camera_refresh_interval" = interval.map Json.int)
    (h : if domain = "camera" then ∃ n ∈ cameraRefreshIntervals, interval = some n
      else interval = none) : validateInterval entityId domain raw = .ok interval := by
  unfold validateInterval
  split at h
  · rename_i hcamera
    obtain ⟨n, hn, rfl⟩ := h
    rw [require_bind (.inl hcamera), if_pos hcamera, getD_of hraw]
    dsimp only
    rw [require_bind hn]
    rfl
  · rename_i hcamera
    subst h
    rw [require_bind (.inr hraw), if_neg hcamera]
    rfl

theorem validateResource_checked {seen : List String} {v : Json} {r : Resource}
    (h : validateResource seen v = .ok r) : r.Checked ∧ r.id ∉ seen := by
  cases v with
  | obj raw =>
      simp only [validateResource, except_bind_eq_ok] at h
      obtain ⟨_, hid, _, hseen, _, hdot, _, hdomain, _, hname, w, hw, i, hi, h⟩ := h
      split at h
      · simp only [except_bind_eq_ok] at h
        obtain ⟨_, hnonempty, as, has, h⟩ := h
        rw [require_eq_ok] at hseen hdot hname hnonempty
        rw [validateActions_eq] at has
        obtain ⟨hall, hnodup, hlen⟩ :=
          validateEach_checked (fun _ _ _ h => validateAction_checked h) has
        cases h
        refine ⟨⟨strip_text .., strip_text .., hdot, strip_text .., strip_text .., hname,
          validateWidget_fits hw, validateInterval_checked hi, ?_, hall, hnodup⟩, hseen⟩
        refine hnonempty.imp_left fun h => ?_
        rw [List.isEmpty_eq_false_iff, ← List.length_pos_iff] at h ⊢
        exact hlen ▸ h
      · cases h
  | _ => cases h

/-- The fields of a resource in the page file. -/
def Resource.fields (r : Resource) : List (String × Json) :=
  [("id", .str r.id), ("name", .str r.name), ("entity_id", .str r.entityId),
    ("domain", .str r.domain), ("widget", .str r.widget.name),
    ("actions", .arr (r.actions.map Action.toJson))] ++
    r.cameraRefreshInterval.toList.map fun n => ("camera_refresh_interval", .int n)

theorem validateResource_toJson {seen : List String} {r : Resource} (hr : r.Checked)
    (hseen : r.id ∉ seen) : validateResource seen r.toJson = .ok r := by
  have hid : Json.text r.fields "id" "" = r.id := text_of rfl hr.id_strip
  have hentity : Json.text r.fields "entity_id" "" = r.entityId := text_of rfl hr.entityId_strip
  have hdomain : Json.text r.fields "domain" "" = r.domain := text_of rfl hr.domain_strip
  have hname : Json.text r.fields "name" r.entityId = r.name := text_of rfl hr.name_strip
  have hwidget : validateWidget r.entityId r.domain r.fields = .ok r.widget :=
    validateWidget_of rfl hr.widget_fits
  have hinterval : validateInterval r.entityId r.domain r.fields = .ok r.cameraRefreshInterval := by
    refine validateInterval_of ?_ hr.interval
    unfold Resource.fields
    cases r.cameraRefreshInterval <;> rfl
  have hactions : Json.getD r.fields "actions" (.arr []) = .arr (r.actions.map Action.toJson) :=
    getD_of rfl
  have hempty : (r.actions.map Action.toJson).isEmpty = r.actions.isEmpty := List.isEmpty_map
  have heach : validateActions r.entityId [] (r.actions.map Action.toJson) = .ok r.actions := by
    rw [validateActions_eq]
    simpa using @validateEach_map _ _ _ _ id _
      (fun _ _ ha hs => validateAction_toJson ha hs) (fun _ => rfl) [] _ hr.actions hr.nodup
  show validateResource seen (.obj r.fields) = .ok r
  unfold validateResource
  dsimp only
  rw [hid, hentity, hdomain, hname, hwidget, hinterval, hactions, require_bind r.id_re,
    require_bind hseen, require_bind hr.entityId_dot, require_bind r.domain_eq,
    require_bind hr.name_length]
  show (require _ _ >>= _) = _
  rw [hempty, require_bind hr.nonempty, heach]
  rfl

/-! ## Proximity -/

theorem validateProximity_toJson (p : Proximity) : validateProximity p.toJson = .ok p := by
  show validateProximity.radius _ p.enabled = _
  unfold validateProximity.radius
  rw [getD_of (v := .int p.radiusMeters) rfl]
  show (require _ _ >>= _) = _
  rw [require_bind p.bounds]
  rfl

/-! ## Notifications -/

section Dedup

variable {α : Type} [BEq α] [LawfulBEq α]

omit [Python] in
theorem nodup_eraseDups (l : List α) : l.eraseDups.Nodup := by
  induction hn : l.length using Nat.strong_induction_on generalizing l with
  | h n ih =>
      cases l with
      | nil => exact List.nodup_nil
      | cons a as =>
          have hle := List.length_filter_le (fun b => !b == a) as
          rw [List.eraseDups_cons, List.nodup_cons, List.mem_eraseDups]
          refine ⟨by simp, ih _ ?_ _ rfl⟩
          simp only [List.length_cons] at hn
          omega

omit [Python] in
theorem eraseDups_eq_self {l : List α} (h : l.Nodup) : l.eraseDups = l := by
  induction l with
  | nil => rfl
  | cons a as ih =>
      obtain ⟨hnew, has⟩ := List.nodup_cons.mp h
      have hfilter : as.filter (fun b => !b == a) = as :=
        List.filter_eq_self.mpr fun b hb => by
          have : b ≠ a := fun h => hnew (h ▸ hb)
          simpa using this
      rw [List.eraseDups_cons, hfilter, ih has]

end Dedup

omit [Python] in
/-- A target of a validated document has no spaces. -/
theorem strip_target {t : String} (h : t = "email" ∨ notifyTargetRe t = true) : strip t = t := by
  rcases h with rfl | h
  · decide
  · simp only [notifyTargetRe, Bool.and_eq_true, decide_eq_true_eq, List.all_eq_true] at h
    obtain ⟨⟨hlead, -⟩, hrest⟩ := h
    refine strip_eq_self fun c hc => ?_
    rw [← List.take_append_drop "notify.mobile_app_".toList.length t.toList, List.mem_append,
      hlead] at hc
    rcases hc with hc | hc
    · have hplain : ("notify.mobile_app_".toList.all fun c => !isSpace c) = true := by decide
      simpa using List.all_eq_true.mp hplain c hc
    · refine isSpace_of_isIdChar ?_
      have := hrest c hc
      simp only [isIdChar, Bool.or_eq_true, decide_eq_true_eq] at this ⊢
      tauto

/-- What validated notification settings satisfy. -/
structure Notifications.Checked (n : Notifications) : Prop where
  targets : ∀ t ∈ n.targets, t = "email" ∨ notifyTargetRe t = true
  targets_nodup : n.targets.Nodup
  events_nodup : n.events.Nodup
  both : n.targets = [] ↔ n.events = []

omit [Python] in
@[simp] theorem NotificationEvent.ofName?_name (e : NotificationEvent) : ofName? e.name = some e := by
  cases e <;> decide

omit [Python] in
@[simp] theorem NotificationEvent.strip_name (e : NotificationEvent) : strip e.name = e.name := by
  cases e <;> decide

omit [Python] in
theorem NotificationEvent.name_of_ofName? {s : String} {e : NotificationEvent}
    (h : ofName? s = some e) : e.name = s := by
  simpa using List.find?_some h

omit [Python] in
theorem Notifications.checked_empty : Notifications.Checked ⟨[], []⟩ :=
  ⟨nofun, List.nodup_nil, List.nodup_nil, iff_of_true rfl rfl⟩

theorem validateNotifications_checked {v : Option Json} {n : Notifications}
    (h : validateNotifications v = .ok n) : n.Checked := by
  unfold validateNotifications at h
  split at h
  · cases h
    exact Notifications.checked_empty
  · cases h
    exact Notifications.checked_empty
  · simp only [except_bind_eq_ok] at h
    obtain ⟨_, -, h⟩ := h
    split at h
    · split at h
      · cases h
        exact Notifications.checked_empty
      · simp only [except_bind_eq_ok] at h
        obtain ⟨_, htargets, _, hevents, h⟩ := h
        rw [require_eq_ok] at htargets hevents
        cases h
        refine ⟨htargets, nodup_eraseDups _, (nodup_eraseDups _).filterMap ?_, ?_⟩
        · intro a b e ha hb
          exact (NotificationEvent.name_of_ofName? ha).symm.trans
            (NotificationEvent.name_of_ofName? hb)
        · refine iff_of_false hevents.1 fun hnil => ?_
          obtain ⟨e, he⟩ := List.exists_mem_of_ne_nil _ hevents.2.1
          have hsome := hevents.2.2 e he
          rw [List.filterMap_eq_nil_iff.mp hnil e he] at hsome
          cases hsome
    · cases h
  · cases h

theorem validateNotifications_toJson {n : Notifications} (hn : n.Checked) :
    validateNotifications (some n.toJson) = .ok n := by
  have htargets : ((n.targets.map Json.str).map fun v => strip v.toStr).eraseDups = n.targets := by
    have hmap : (n.targets.map Json.str).map (fun v => strip v.toStr) = n.targets := by
      rw [List.map_map]
      exact (List.map_congr_left fun t ht => strip_target (hn.targets t ht)).trans (List.map_id _)
    rw [hmap, eraseDups_eq_self hn.targets_nodup]
  have hevents : ((n.events.map (Json.str ·.name)).map fun v => strip v.toStr).eraseDups =
      n.events.map NotificationEvent.name := by
    have hmap : (n.events.map (Json.str ·.name)).map (fun v => strip v.toStr) =
        n.events.map NotificationEvent.name := by
      rw [List.map_map]
      exact List.map_congr_left fun e _ => NotificationEvent.strip_name e
    rw [hmap, eraseDups_eq_self (hn.events_nodup.map fun a b h => ?_)]
    have := congrArg NotificationEvent.ofName? h
    simpa using this
  have hback : (n.events.map NotificationEvent.name).filterMap NotificationEvent.ofName? =
      n.events := by
    rw [List.filterMap_map]
    exact (List.filterMap_congr fun e _ => NotificationEvent.ofName?_name e).trans
      List.filterMap_some
  have hkeys : ∀ k ∈ [("targets", Json.arr (n.targets.map .str)),
      ("events", .arr (n.events.map (.str ·.name)))].map Prod.fst, k ∈ ["targets", "events"] := by
    simp
  unfold validateNotifications Notifications.toJson
  dsimp only
  rw [require_bind hkeys, getD_of (v := .arr (n.targets.map .str)) rfl,
    getD_of (v := .arr (n.events.map (.str ·.name))) rfl]
  dsimp only
  rw [htargets, hevents]
  by_cases hnil : n.targets = []
  · rw [if_pos ⟨hnil, List.map_eq_nil_iff.mpr (hn.both.mp hnil)⟩]
    obtain ⟨targets, events⟩ := n
    cases hnil
    cases hn.both.mp rfl
    rfl
  · have hsome : ∀ e ∈ n.events.map NotificationEvent.name,
        (NotificationEvent.ofName? e).isSome := by
      simp
    have hne : n.events.map NotificationEvent.name ≠ [] := fun h =>
      hnil (hn.both.mpr (List.map_eq_nil_iff.mp h))
    rw [if_neg fun h => hnil h.1, require_bind hn.targets, require_bind ⟨hnil, hne, hsome⟩, hback]

/-! ## Grants -/

attribute [ext] Grant

/-- What a validated grant satisfies. -/
structure Grant.Checked (g : Grant) : Prop where
  label_length : g.label.length ≤ 120
  lifetime_length : g.lifetime.length ≤ 20
  dated : g.expiresAt ≠ "" ∧ g.createdAt ≠ ""
  aware : (awareTime g.createdAt).isSome ∧ (awareTime g.expiresAt).isSome
  notifications : g.notifications.Checked

/-- A guest's grant names its resource. -/
def Grant.Named (g : Grant) : Prop := g.upstreamScope = .guest → g.resourceCrid ≠ ""

/-- What a second validation makes of a grant. -/
def Grant.reread (g : Grant) : Grant :=
  { g with
    label := strip g.label
    lifetime := strip g.lifetime }

theorem validateGrant_checked {seen : List String} {v : Json} {g : Grant}
    (h : validateGrant seen v = .ok g) : g.Checked ∧ g.id ∉ seen := by
  cases v with
  | obj raw =>
      simp only [validateGrant, except_bind_eq_ok] at h
      obtain ⟨_, -, _, -, _, hseen, _, -, _, -, _, -, scope, -, _, -, _, hdated, _, haware, n, hn,
        h⟩ := h
      rw [require_eq_ok] at hseen hdated haware
      cases h
      exact ⟨⟨length_slice_le .., length_slice_le .., hdated, haware,
        validateNotifications_checked hn⟩, hseen⟩
  | _ => cases h

omit [Python] in
theorem hashChar_plain {c : Char} (h : (c.isDigit || ('a' ≤ c && c ≤ 'f')) = true) :
    c.toLower = c ∧ isSpace c = false := by
  have hrange : (48 ≤ c.toNat ∧ c.toNat ≤ 57) ∨ (97 ≤ c.toNat ∧ c.toNat ≤ 102) := by
    simp only [Char.isDigit, Bool.or_eq_true, Bool.and_eq_true, decide_eq_true_eq, ge_iff_le,
      UInt32.le_iff_toNat_le, Char.le_def] at h
    have hn : c.toNat = c.val.toNat := rfl
    have h0 : '0'.val.toNat = 48 := rfl
    have h9 : '9'.val.toNat = 57 := rfl
    have ha : 'a'.val.toNat = 97 := rfl
    have hf : 'f'.val.toNat = 102 := rfl
    omega
  constructor
  · unfold Char.toLower
    rw [dif_neg]
    rintro ⟨hA, hZ⟩
    have hn : c.toNat = c.val.toNat := rfl
    have h65 : 'A'.val.toNat = 65 := rfl
    have h90 : 'Z'.val.toNat = 90 := rfl
    simp only [ge_iff_le, UInt32.le_iff_toNat_le] at hA hZ
    omega
  · simp only [isSpace, Bool.or_eq_false_iff, Bool.and_eq_false_iff, decide_eq_false_iff_not,
      beq_eq_false_iff_ne]
    omega

omit [Python] in
/-- A hash is lower case without spaces. -/
theorem lower_strip_hash {s : String} (h : tokenHashRe s = true) : lower (strip s) = s := by
  simp only [tokenHashRe, matchesClass, Bool.and_eq_true, List.all_eq_true] at h
  have hplain := fun c hc => hashChar_plain (h.2 c hc)
  rw [strip_eq_self fun c hc => (hplain c hc).2, lower]
  have hmap : s.toList.map Char.toLower = s.toList :=
    (List.map_congr_left fun c hc => (hplain c hc).1).trans (List.map_id _)
  rw [hmap, String.ofList_toList]

omit [Python] in
theorem grantIdRe_length {s : String} (h : grantIdRe s = true) : s ≠ "" ∧ s.length ≤ 80 := by
  simp only [grantIdRe, matchesClass, Bool.and_eq_true, decide_eq_true_eq, List.length_drop] at h
  obtain ⟨-, ⟨hlo, hhi⟩, -⟩ := h
  have hlen : s.toList.length = s.length := String.length_toList
  constructor
  · rintro rfl
    simp at hlo
  · omega

omit [Python] in
theorem validateScope_name (scope : UpstreamScope) : validateScope (.str scope.name) = .ok scope := by
  cases scope <;> rfl

section Written

variable {seen : List String} {g : Grant}

theorem Grant.text_fields {key s : String} (hkey : Json.get? g.fields key = some (.str s))
    (hs : s ∈ [g.createdAt, g.expiresAt, g.qurlLink, g.qurlSite, g.resourceId, g.qurlId, g.type,
      g.resourceCrid]) : Json.text g.fields key "" = s :=
  text_of hkey (g.stripped s hs)

theorem validateGrant_toJson (hg : g.Checked) (hnew : g.id ∉ seen) (hnamed : g.Named) :
    validateGrant seen g.toJson = .ok g.reread := by
  have hfields : (g.fields.map Prod.fst).eraseDups.filter (· ∉ allowedFields) = [] := by
    have hkeys : (g.fields.map Prod.fst).eraseDups = g.fields.map Prod.fst :=
      eraseDups_eq_self (by simp [Grant.fields])
    rw [hkeys]
    simp [Grant.fields, allowedFields]
  have hid : Json.text g.fields "id" "" = g.id := text_of rfl (strip_grantId g.id_re)
  have hhash : lower (Json.text g.fields "token_hash" "") = g.tokenHash :=
    lower_strip_hash g.tokenHash_re
  have hcreated : Json.text g.fields "created_at" "" = g.createdAt :=
    g.text_fields rfl (by simp)
  have hexpires : Json.text g.fields "expires_at" "" = g.expiresAt :=
    g.text_fields rfl (by simp)
  have hlabel : slice (Json.text g.fields "label" "") 120 = strip g.label :=
    slice_of_length_le ((length_strip_le _).trans hg.label_length)
  have hlifetime : slice (Json.text g.fields "lifetime" "") 20 = strip g.lifetime :=
    slice_of_length_le ((length_strip_le _).trans hg.lifetime_length)
  have hscope : validateScope (Json.getD g.fields "upstream_scope" (.str "page")) =
      .ok g.upstreamScope := by
    rw [getD_of (v := .str g.upstreamScope.name) rfl, validateScope_name]
  have hcrid : g.upstreamScope = .guest →
      (Json.getD g.fields "resource_crid" .null).truthy = true := fun h => by
    rw [getD_of (v := .str g.resourceCrid) rfl]
    exact decide_eq_true (hnamed h)
  have hnotify : validateNotifications (Json.get? g.fields "notifications") =
      .ok g.notifications := validateNotifications_toJson hg.notifications
  show validateGrant seen (.obj g.fields) = _
  have hlength := grantIdRe_length g.id_re
  have hdated := hg.dated
  have haware := hg.aware
  have hnew' := hnew
  have hre := g.id_re
  have hhashRe := g.tokenHash_re
  rw [← hid] at hlength hnew' hre
  rw [← hhash] at hhashRe
  rw [← hexpires, ← hcreated] at hdated haware
  simp only [validateGrant, except_bind_eq_ok]
  refine ⟨⟨hfields⟩, require_eq_ok.mpr hfields, ⟨hlength⟩, require_eq_ok.mpr hlength,
    ⟨hnew'⟩, require_eq_ok.mpr hnew', ⟨hhashRe⟩, require_eq_ok.mpr hhashRe, ⟨rfl⟩,
    require_eq_ok.mpr rfl, ⟨hre⟩, require_eq_ok.mpr hre, g.upstreamScope, hscope, ⟨hcrid⟩,
    require_eq_ok.mpr hcrid, ⟨hdated⟩, require_eq_ok.mpr hdated, ⟨haware⟩,
    require_eq_ok.mpr haware, g.notifications, hnotify, congrArg Except.ok ?_⟩
  ext1
  case id => exact hid
  case tokenHash => exact hhash
  case createdAt => exact hcreated
  case expiresAt => exact hexpires
  case label => exact hlabel
  case lifetime => exact hlifetime
  case qurlLink | qurlSite | resourceId | qurlId | type | resourceCrid =>
    exact g.text_fields rfl (by simp [Grant.reread])
  all_goals rfl

/-- A grant that is read again is named. -/
theorem named_of_validateGrant_toJson {g' : Grant} (h : validateGrant seen g.toJson = .ok g') :
    g.Named := by
  intro hguest hcrid
  have hscope : validateScope (Json.getD g.fields "upstream_scope" (.str "page")) =
      .ok g.upstreamScope := by
    rw [getD_of (v := .str g.upstreamScope.name) rfl, validateScope_name]
  change validateGrant seen (.obj g.fields) = .ok g' at h
  simp only [validateGrant, except_bind_eq_ok] at h
  obtain ⟨_, -, _, -, _, -, _, -, _, -, _, -, scope, hs, _, hnamed, -⟩ := h
  rw [hscope] at hs
  cases hs
  have htruthy := require_eq_ok.mp hnamed hguest
  rw [getD_of (v := .str g.resourceCrid) rfl, hcrid] at htruthy
  cases htruthy

/-- A written grant is read as `reread`, if it is named. -/
theorem validateGrant_toJson_eq_ok (hg : g.Checked) (hnew : g.id ∉ seen) {g' : Grant} :
    validateGrant seen g.toJson = .ok g' ↔ g.Named ∧ g' = g.reread := by
  constructor
  · intro h
    have hnamed := named_of_validateGrant_toJson h
    rw [validateGrant_toJson hg hnew hnamed] at h
    cases h
    exact ⟨hnamed, rfl⟩
  · rintro ⟨hnamed, rfl⟩
    exact validateGrant_toJson hg hnew hnamed

end Written

/-! ## Grants of a page -/

/-- The order grants are listed in: the newest first. -/
def Newer (a b : Grant) : Prop := ¬ a.createdAt < b.createdAt

instance : DecidableRel Newer := fun _ _ => inferInstanceAs (Decidable (¬ _))

instance : Std.Total Newer :=
  ⟨fun a b => (String.le_total b.createdAt a.createdAt).imp String.not_lt.mpr String.not_lt.mpr⟩

instance : IsTrans Grant Newer :=
  ⟨fun _ _ _ hab hbc =>
    String.not_lt.mpr (String.le_trans (String.not_lt.mp hbc) (String.not_lt.mp hab))⟩

omit [Python] in
theorem sortGrants_eq (gs : List Grant) : sortGrants gs = gs.insertionSort Newer := rfl

/-- What the validated grants of a page satisfy. -/
structure Listed (gs : List Grant) : Prop where
  checked : ∀ g ∈ gs, g.Checked
  nodup : (gs.map (·.id)).Nodup
  sorted : gs.Pairwise Newer

theorem validateAccessGrants_listed {v : Json} {gs : List Grant}
    (h : validateAccessGrants v = .ok gs) : Listed gs := by
  unfold validateAccessGrants at h
  split at h
  · cases h
    exact ⟨nofun, List.nodup_nil, .nil⟩
  · simp only [except_bind_eq_ok] at h
    obtain ⟨gs', hgs, h⟩ := h
    cases h
    rw [validateGrants_eq] at hgs
    obtain ⟨hall, hnodup, -⟩ :=
      validateEach_checked (fun _ _ _ h => validateGrant_checked h) hgs
    have hperm := List.perm_insertionSort Newer gs'
    rw [sortGrants_eq]
    exact ⟨fun g hg => (hall g (hperm.mem_iff.mp hg)).1, (hperm.map _).nodup_iff.mpr hnodup,
      List.pairwise_insertionSort Newer gs'⟩
  · cases h

/-- **Written grants are read again as they are, up to a strip**, if all of
them are named. -/
theorem validateAccessGrants_toJson {gs gs' : List Grant} (hgs : Listed gs) :
    validateAccessGrants (.arr (gs.map Grant.toJson)) = .ok gs' ↔
      (∀ g ∈ gs, g.Named) ∧ gs' = gs.map Grant.reread := by
  have hsort : sortGrants (gs.map Grant.reread) = gs.map Grant.reread := by
    rw [sortGrants_eq]
    exact List.Pairwise.insertionSort_eq (List.pairwise_map.mpr hgs.sorted)
  have hread : (∀ g ∈ gs, g.Named) →
      validateGrants [] (gs.map Grant.toJson) = .ok (gs.map Grant.reread) := by
    intro hnamed
    rw [validateGrants_eq]
    exact validateEach_map (P := fun g : Grant => g.Checked ∧ g.Named)
      (fun _ g hg hnew => validateGrant_toJson hg.1 hnew hg.2) (fun _ => rfl)
      (fun g hg => ⟨⟨hgs.checked g hg, hnamed g hg⟩, List.not_mem_nil⟩) hgs.nodup
  simp only [validateAccessGrants, except_bind_eq_ok]
  constructor
  · rintro ⟨gs₁, hgs₁, h⟩
    have hnamed : ∀ g ∈ gs, g.Named := by
      rw [validateGrants_eq] at hgs₁
      intro g hg
      obtain ⟨seen, g', hg'⟩ := validateEach_entry hgs₁ _ (List.mem_map_of_mem hg)
      exact named_of_validateGrant_toJson hg'
    rw [hread hnamed] at hgs₁
    cases hgs₁
    cases h
    exact ⟨hnamed, hsort⟩
  · rintro ⟨hnamed, rfl⟩
    exact ⟨_, hread hnamed, congrArg Except.ok hsort⟩

/-! ## Pages -/

/-- What a validated page satisfies. -/
structure Page.Checked (p : Page) : Prop where
  title_strip : strip p.title = p.title
  title_length : p.title ≠ "" ∧ p.title.length ≤ 80
  description_strip : strip p.description = p.description
  description_length : p.description.length ≤ 240
  resources : ∀ r ∈ p.resources, r.Checked ∧ r.id ∉ ([] : List String)
  nodup : (p.resources.map (·.id)).Nodup
  grants : Listed p.accessGrants

theorem Page.Checked.erase {p : Page} (h : p.Checked) :
    Page.Checked { p with accessGrants := [] } :=
  { h with grants := ⟨nofun, List.nodup_nil, .nil⟩ }

/-- What a second validation makes of a page. -/
def Page.reread (p : Page) : Page := { p with accessGrants := p.accessGrants.map Grant.reread }

theorem validatePage_checked {v : Json} {requiredId : Option String} {page : Page}
    (h : validatePage v requiredId = .ok page) : page.Checked := by
  cases v with
  | obj raw =>
      simp only [validatePage, except_bind_eq_ok] at h
      obtain ⟨_, -, _, -, _, htitle, _, hdescription, _, -, h⟩ := h
      split at h
      · simp only [except_bind_eq_ok] at h
        obtain ⟨rs, hrs, gs, hgs, h⟩ := h
        rw [require_eq_ok] at htitle hdescription
        rw [validateResources_eq] at hrs
        obtain ⟨hall, hnodup, -⟩ :=
          validateEach_checked (fun _ _ _ h => validateResource_checked h) hrs
        cases h
        exact ⟨strip_text .., htitle, strip_text .., hdescription, hall, hnodup,
          validateAccessGrants_listed hgs⟩
      · cases h
  | _ => cases h

/-- **A written page is read again as it is, up to a strip**, if its grants
are named. -/
theorem validatePage_toJson {p p' : Page} {requiredId : Option String} (hp : p.Checked)
    (hr : ∀ r ∈ requiredId, p.id = r) :
    validatePage p.toJson requiredId = .ok p' ↔
      (∀ g ∈ p.accessGrants, g.Named) ∧ p' = p.reread := by
  have hid : validatePageId (Json.getD p.fields "id" (.str "")) = .ok ⟨p.id, p.id_re⟩ := by
    rw [getD_of (v := .str p.id) rfl, validatePageId_of_re p.id_re]
  have htitle : Json.text p.fields "title" "" = p.title := text_of rfl hp.title_strip
  have hdescription : Json.text p.fields "description" "" = p.description :=
    text_of rfl hp.description_strip
  have hproximity : validateProximity (Json.getD p.fields "proximity" (.obj [])) =
      .ok p.proximity := by
    rw [getD_of (v := p.proximity.toJson) rfl, validateProximity_toJson]
  have hresources : validateResources [] (p.resources.map Resource.toJson) = .ok p.resources := by
    rw [validateResources_eq]
    simpa using @validateEach_map _ _ _ _ id _
      (fun _ _ hr hs => validateResource_toJson hr hs) (fun _ => rfl) [] _ hp.resources hp.nodup
  have hrest : validatePage p.toJson requiredId =
      (validateAccessGrants (.arr (p.accessGrants.map Grant.toJson)) >>= fun gs =>
        .ok { p with accessGrants := gs }) := by
    show validatePage (.obj p.fields) requiredId = _
    unfold validatePage
    dsimp only
    rw [hid, htitle, hdescription, hproximity]
    show (require (∀ r ∈ requiredId, p.id = r) _ >>= _) = _
    rw [require_bind hr, require_bind hp.title_length, require_bind hp.description_length]
    show (validateResources [] (p.resources.map Resource.toJson) >>= _) = _
    rw [hresources]
    rfl
  rw [hrest, except_bind_eq_ok]
  constructor
  · rintro ⟨gs, hgs, h⟩
    cases h
    obtain ⟨hnamed, rfl⟩ := (validateAccessGrants_toJson hp.grants).mp hgs
    exact ⟨hnamed, rfl⟩
  · rintro ⟨hnamed, rfl⟩
    exact ⟨_, (validateAccessGrants_toJson hp.grants).mpr ⟨hnamed, rfl⟩, rfl⟩

/-- A page without grants is read again as it is. -/
theorem validatePage_erased {p : Page} {requiredId : Option String} (hp : p.Checked)
    (hr : ∀ r ∈ requiredId, p.id = r) :
    validatePage { p with accessGrants := [] }.toJson requiredId =
      .ok { p with accessGrants := [] } :=
  (validatePage_toJson hp.erase hr).mpr ⟨nofun, rfl⟩

/-! ## Which documents round-trip -/

/-- A guest's resource is not named by spaces alone. -/
def NamesResource : Json → Prop
  | .obj raw => isText (Json.get? raw "upstream_scope") "guest" = true →
      Json.text raw "resource_crid" "" ≠ ""
  | _ => True

/-- The cuts of a raw grant do not fall behind a space, and it names its
resource. -/
def TidyGrant : Json → Prop
  | .obj raw =>
      (∀ c ∈ (Json.text raw "label" "").toList[119]?, isSpace c = false) ∧
        (∀ c ∈ (Json.text raw "lifetime" "").toList[19]?, isSpace c = false) ∧
        NamesResource (.obj raw)
  | _ => True

/-- Every raw grant of a document is tidy. -/
def Tidy (v : Json) : Prop := ∀ r ∈ rawGrants v, TidyGrant r

omit [Python] in
theorem validateScope_eq_guest {raw : List (String × Json)} {scope : UpstreamScope}
    (h : validateScope (Json.getD raw "upstream_scope" (.str "page")) = .ok scope) :
    scope = .guest ↔ isText (Json.get? raw "upstream_scope") "guest" = true := by
  unfold Json.getD at h
  cases hs : Json.get? raw "upstream_scope" with
  | none =>
      rw [hs] at h
      cases h
      exact ⟨nofun, nofun⟩
  | some v =>
      rw [hs, Option.getD_some] at h
      unfold validateScope at h
      split at h
      · cases h
        exact ⟨nofun, fun h => absurd h (by decide)⟩
      · cases h
        exact iff_of_true rfl rfl
      all_goals cases h

theorem namesResource_iff {seen : List String} {v : Json} {g : Grant}
    (h : validateGrant seen v = .ok g) : NamesResource v ↔ g.Named := by
  cases v with
  | obj raw =>
      simp only [validateGrant, except_bind_eq_ok] at h
      obtain ⟨_, -, _, -, _, -, _, -, _, -, _, -, scope, hs, _, -, _, -, _, -, n, -, h⟩ := h
      cases h
      dsimp only [NamesResource, Grant.Named]
      rw [validateScope_eq_guest hs]
  | _ => cases h

theorem tidy_iff_reread {seen : List String} {v : Json} {g : Grant}
    (h : validateGrant seen v = .ok g) : TidyGrant v ↔ g.Named ∧ g.reread = g := by
  have hnamed := namesResource_iff h
  cases v with
  | obj raw =>
      simp only [validateGrant, except_bind_eq_ok] at h
      obtain ⟨_, -, _, -, _, -, _, -, _, -, _, -, scope, -, _, -, _, -, _, -, n, -, h⟩ := h
      cases h
      have hreread : ∀ g : Grant, g.reread = g ↔
          strip g.label = g.label ∧ strip g.lifetime = g.lifetime := by
        intro g
        constructor
        · intro h
          exact ⟨congrArg Grant.label h, congrArg Grant.lifetime h⟩
        · rintro ⟨hl, ht⟩
          unfold Grant.reread
          rw [hl, ht]
      rw [hreread, ← hnamed]
      dsimp only [TidyGrant]
      rw [strip_slice (strip_text ..) (by decide), strip_slice (strip_text ..) (by decide)]
      constructor
      · rintro ⟨hl, ht, hc⟩
        exact ⟨hc, hl, ht⟩
      · rintro ⟨hc, hl, ht⟩
        exact ⟨hl, ht, hc⟩
  | _ => cases h

/-- The grants of a page are validated as a list. -/
theorem validatePage_grants {fields : List (String × Json)} {requiredId : Option String}
    {page : Page} (h : validatePage (.obj fields) requiredId = .ok page) :
    validateAccessGrants (Json.getD fields "access_grants" (.arr [])) = .ok page.accessGrants := by
  simp only [validatePage, except_bind_eq_ok] at h
  obtain ⟨_, -, _, -, _, -, _, -, _, -, h⟩ := h
  split at h
  · simp only [except_bind_eq_ok] at h
    obtain ⟨_, -, gs, hgs, h⟩ := h
    cases h
    exact hgs
  · cases h

/-- What a raw grant says of its grant, a document says of its page. -/
theorem rawGrants_forall_iff {T : Json → Prop} {R : Grant → Prop}
    (hone : ∀ seen v g, validateGrant seen v = .ok g → (T v ↔ R g)) {v : Json}
    {requiredId : Option String} {page : Page} (h : validatePage v requiredId = .ok page) :
    (∀ r ∈ rawGrants v, T r) ↔ ∀ g ∈ page.accessGrants, R g := by
  cases v with
  | obj raw =>
      have hgs := validatePage_grants h
      unfold rawGrants
      dsimp only
      generalize page.accessGrants = gs at hgs
      unfold validateAccessGrants at hgs
      split at hgs
      · rename_i hraw
        cases hgs
        rw [hraw]
        exact iff_of_true nofun nofun
      · rename_i raws hraw
        simp only [except_bind_eq_ok] at hgs
        obtain ⟨gs', hgs', hsort⟩ := hgs
        cases hsort
        rw [validateGrants_eq] at hgs'
        rw [hraw]
        simpa only [sortGrants_eq, List.mem_insertionSort] using
          validateEach_forall_iff hone hgs'
      · cases hgs
  | _ => cases h

theorem tidy_iff_grants {v : Json} {requiredId : Option String} {page : Page}
    (h : validatePage v requiredId = .ok page) :
    Tidy v ↔ ∀ g ∈ page.accessGrants, g.Named ∧ g.reread = g :=
  rawGrants_forall_iff (fun _ _ _ h => tidy_iff_reread h) h

omit [Python] in
theorem reread_eq_self_iff {page : Page} :
    page = page.reread ↔ ∀ g ∈ page.accessGrants, g.reread = g := by
  have hmap : page = page.reread ↔ page.accessGrants = page.accessGrants.map Grant.reread :=
    ⟨fun h => congrArg Page.accessGrants h, fun h => by rw [Page.reread, ← h]⟩
  rw [hmap, eq_comm, ← List.map_inj_left, List.map_id']

/-- **A page survives a second validation exactly if its document is
tidy.** -/
theorem validatePage_idem_iff {v : Json} {requiredId requiredId' : Option String} {page : Page}
    (h : validatePage v requiredId = .ok page) (hr : ∀ r ∈ requiredId', page.id = r) :
    validatePage page.toJson requiredId' = .ok page ↔ Tidy v := by
  rw [validatePage_toJson (validatePage_checked h) hr, tidy_iff_grants h, reread_eq_self_iff]
  exact ⟨fun ⟨hn, hr⟩ g hg => ⟨hn g hg, hr g hg⟩, fun h => ⟨fun g hg => (h g hg).1,
    fun g hg => (h g hg).2⟩⟩

/-- A second validation is the last that changes something. -/
theorem validatePage_reread {v : Json} {requiredId requiredId' : Option String}
    {page page' : Page} (h : validatePage v requiredId = .ok page)
    (hr : ∀ r ∈ requiredId', page.id = r)
    (h' : validatePage page.toJson requiredId' = .ok page') :
    validatePage page'.toJson requiredId' = .ok page' := by
  obtain ⟨hnamed, rfl⟩ := (validatePage_toJson (validatePage_checked h) hr).mp h'
  refine (validatePage_toJson (validatePage_checked h') (validatePage_eq_ok h').1).mpr ⟨?_, ?_⟩
  · intro g hg
    obtain ⟨g₀, hg₀, rfl⟩ := List.mem_map.mp hg
    exact hnamed g₀ hg₀
  · have hmap : (page.accessGrants.map Grant.reread).map Grant.reread =
        page.accessGrants.map Grant.reread := by
      rw [List.map_map]
      refine List.map_congr_left fun g _ => ?_
      simp only [Function.comp_apply, Grant.reread, strip_strip]
    unfold Page.reread
    dsimp only
    rw [hmap]

end Pages

end AccessPages
