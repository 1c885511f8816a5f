import AccessPages.Admin.Publication
/-!
# Admin — the policy store

The policies are published to a process of its own, which keeps them in a
page store. Its requests are checked, validated and stored; any file
operation can fail, and the process can die at any of them. To the gateway
the store is a table of policies of which every request changes one row, or
nothing.
-/

namespace AccessPages

namespace PolicyStore

open Pages (Disk Page Grant PageError FileM Keeps OnOk validatePage validatePageId pageIdRe
  withGrants keeps_mono keeps_pure keeps_throw keeps_lift keeps_ask keeps_isFile keeps_read
  keeps_requireFile keeps_write keeps_load_bind keeps_tryCatch keeps_bind keeps_seq keeps_checkId
  content_write content_unlink validatePage_erased validatePage_checked validatePage_eq_ok
  validatePageId_of_re visible onFile_eq_some validatePage_grants getD_withGrants)
open Admin (keeps_imp keeps_and keeps_loadFound keeps_replace)

/-! ## Requests -/

inductive Method where
  | get
  | put
  | delete
  deriving DecidableEq

/-- What `json.loads` makes of the body. -/
inductive BodyError where
  | jsonDecode
  | value

/-- A request: its method and path, the policy token it carries, its
`Content-Length` as a number, and its body. -/
structure Request where
  method : Method
  path : String
  token : String
  length : Option Int
  body : Except BodyError Json

/-- A status, or an exception nothing catches. -/
inductive Response where
  | status (code : Nat)
  | raised (e : PageError)
  deriving DecidableEq

/-- `_page_id`. -/
def Request.pageId (r : Request) : String :=
  let rest := r.path.toList.drop "/v1/pages/".length
  if "/v1/pages/".toList <+: r.path.toList ∧ rest ≠ [] ∧ '/' ∉ rest then String.ofList rest else ""

/-- `_payload`. -/
def Request.payload (r : Request) : Except Response Json :=
  match r.length with
  | none => .error (.status 400)
  | some n =>
      if n ≤ 0 ∨ 256 * 1024 < n then .error (.status 400)
      else
        match r.body with
        | .ok v => .ok v
        | .error .jsonDecode => .error (.status 400)
        | .error .value => .error (.raised (.python .valueError))

/-- `hmac.compare_digest` of texts, which must be ASCII. -/
def authorized (token : String) (r : Request) : Except Response Bool :=
  if r.token.toList.all (·.toNat < 128) ∧ token.toList.all (·.toNat < 128) then
    .ok (r.token = token)
  else .error (.raised (.python .typeError))

section Handlers

variable [Python]

/-- `{**payload, "access_grants": []}` of a payload that is no dict raises. -/
def withoutGrants : Json → Except PageError Json
  | .obj fields => .ok (withGrants [] (.obj fields))
  | _ => .error (.python .typeError)

/-- A page that is not there yet is created. -/
def orCreate (page : Page) : PageError → FileM Page
  | .notFound _ => Pages.create page.toJson
  | e => throw e

/-- `publish_page`. -/
def publishPage (id : String) (payload : Json) : FileM Page := do
  let policy ← (liftM (withoutGrants payload) : FileM Json)
  let page ← (liftM (validatePage policy (some id)) : FileM Page)
  tryCatch (Pages.replaceUnlocked id page.toJson) (orCreate page)

/-- A page that is not there is deleted. -/
def orDeleted : PageError → FileM Unit
  | .notFound _ => return ()
  | e => throw e

/-- `delete_page`. -/
def deletePage (id : String) : FileM Unit := tryCatch (Pages.delete id) orDeleted

abbrev Answer := Prog Pages.FileOp Pages.FileOp.Ans Response

/-- `do_PUT`, once the page is known. -/
def putPage (id : String) (r : Request) : Answer := do
  match r.payload with
  | .error response => return response
  | .ok payload => return published (← (publishPage id payload).run)
where
  published : Except PageError Page → Response
    | .ok _ => .status 200
    | .error (.config _) => .status 400
    | .error .os => .status 500
    | .error e => .raised e

/-- `do_DELETE`, once the page is known. -/
def removePage (id : String) : Answer := do
  return removed (← (deletePage id).run)
where
  removed : Except PageError Unit → Response
    | .ok _ => .status 200
    | .error (.config _) => .status 500
    | .error .os => .status 500
    | .error e => .raised e

/-- A request with the token, for a page. -/
def onPage (token : String) (r : Request) (handler : String → Answer) : Answer :=
  match authorized token r with
  | .error response => return response
  | .ok false => return .status 401
  | .ok true => if r.pageId = "" then return .status 404 else handler r.pageId

/-- `do_GET`, `do_PUT` and `do_DELETE`. -/
def handle (token : String) (r : Request) : Answer :=
  match r.method with
  | .get => return .status (if r.path = "/health" then 200 else 404)
  | .put => onPage token r fun id => putPage id r
  | .delete => onPage token r removePage

/-- The process of the store. -/
def server (token : String) : Server Request Pages.Tick Pages.FileOp Pages.FileOp.Ans Response Disk
    where
  serve := handle token
  perform t e d := ((e.step ⟨d, [t]⟩).1, (e.step ⟨d, [t]⟩).2.disk)
  reply _ _ d := d

/-! ## The table -/

/-- The policies, by page. -/
abbrev Policies := Table (String × Json) Prod.fst

/-- What is published of a payload. -/
def policyFor (id : String) (payload : Json) : Except PageError Page :=
  withoutGrants payload >>= fun v => validatePage v (some id)

/-- What a request that is admitted does to the table: a policy takes the place of
another, or is gone. -/
def Request.effect (token : String) (r : Request) (t : Policies) : Policies :=
  if authorized token r = .ok true ∧ r.pageId ≠ "" then
    match r.method with
    | .get => t
    | .delete => t.deleteWhere fun row => row.1 = r.pageId
    | .put =>
        match r.payload with
        | .error _ => t
        | .ok payload =>
            match policyFor r.pageId payload with
            | .error _ => t
            | .ok page => t.insertOrReplace (r.pageId, page.toJson)
  else t

/-- What is on the disk is the table: no page has a revocation under way, and the
file of a page is its policy. -/
structure Serves (t : Policies) (d : Disk) : Prop where
  unmarked : ∀ p, d.content (.marker p) = none
  pages : ∀ p, (d.content (.page p) = none ∧ t.find? p = none) ∨
    ∃ q : Page, q.Checked ∧ q.accessGrants = [] ∧ q.id = p ∧
      d.content (.page p) = some (.ok q.toJson) ∧ t.find? p = some (p, q.toJson)

/-- Requests one after another, each with its response if there was one: a request
took effect, or nothing happened and it was not answered by success. -/
inductive Applies (token : String) : Policies → List (Request × Option Response) → Policies → Prop
  | nil {t} : Applies token t [] t
  | applied {t t' r s rs} :
      Applies token (r.effect token t) rs t' → Applies token t ((r, s) :: rs) t'
  | dropped {t t' r s rs} :
      s ≠ some (.status 200) → Applies token t rs t' → Applies token t ((r, s) :: rs) t'

/-- The requests of a run with their responses. -/
def responses (token : String) (d : Disk) :
    List (Request × List Pages.Tick) → List (Request × Option Response)
  | [] => []
  | r :: rs =>
      (r.1, ((handle token r.1).meet (server token).perform r.2 d).1) ::
        responses token ((server token).request d r) rs

end Handlers

/-! ## One row -/

section Row

variable [Python] {t t' : Policies} {d d' : Disk} {p : String} {q : Page}

/-- Only the rows count, not their order. -/
theorem Serves.congr (h : Serves t d) (ht : ∀ p, t'.find? p = t.find? p) : Serves t' d :=
  ⟨h.unmarked, fun p => by rw [ht]; exact h.pages p⟩

theorem serves_write (h : Serves t d) (hq : q.Checked) (hgrants : q.accessGrants = [])
    (hid : q.id = p) :
    Serves (t.insertOrReplace (p, q.toJson)) (d.write (.page p) q.toJson) where
  unmarked r := by
    rw [content_write, if_neg (by rintro ⟨⟩)]
    exact h.unmarked r
  pages r := by
    rw [content_write, Table.find?_insertOrReplace]
    by_cases hr : p = r
    · subst hr
      exact .inr ⟨q, hq, hgrants, hid, if_pos rfl, if_pos rfl⟩
    · rw [if_neg fun hpage => hr (Pages.Path.page.inj hpage), if_neg hr]
      exact h.pages r

omit [Python] in
theorem find?_removed (t : Policies) (p r : String) :
    (t.deleteWhere fun row => row.1 = p).find? r = if r = p then none else t.find? r := by
  rw [Table.find?_deleteWhere]
  by_cases hr : r = p
  · rw [if_pos hr, Option.filter_eq_none_iff]
    intro row hrow
    have hkey := (Table.find?_eq_some.mp hrow).2
    simpa [hr] using hkey
  · rw [if_neg hr]
    cases hrow : t.find? r with
    | none => rfl
    | some row =>
        have hkey : row.1 = r := (Table.find?_eq_some.mp hrow).2
        exact Option.filter_eq_some_iff.mpr ⟨rfl, by simpa [hkey] using hr⟩

theorem serves_unlink (h : Serves t d) :
    Serves (t.deleteWhere fun row => row.1 = p) (d.unlink (.page p)) where
  unmarked r := by
    rw [content_unlink, if_neg (by rintro ⟨⟩)]
    exact h.unmarked r
  pages r := by
    rw [content_unlink, find?_removed]
    by_cases hr : r = p
    · subst hr
      exact .inl ⟨if_pos rfl, if_pos rfl⟩
    · rw [if_neg fun hpage => hr (Pages.Path.page.inj hpage).symm, if_neg hr]
      exact h.pages r

theorem serves_absent (h : Serves t d) (hc : d.content (.page p) = none) :
    Serves (t.deleteWhere fun row => row.1 = p) d where
  unmarked := h.unmarked
  pages r := by
    rw [find?_removed]
    by_cases hr : r = p
    · subst hr
      exact .inl ⟨hc, if_pos rfl⟩
    · rw [if_neg hr]
      exact h.pages r

/-- A page without grants is validated as it is. -/
theorem validate_policy {requiredId : Option String} (hq : q.Checked)
    (hgrants : q.accessGrants = []) (hr : ∀ r ∈ requiredId, q.id = r) :
    validatePage q.toJson requiredId = .ok q := by
  have hsame : q = { q with accessGrants := [] } := by rw [← hgrants]
  rw [hsame]
  exact validatePage_erased hq hr

/-- The table with the row, or without it. -/
def Either (t t' : Policies) (d : Disk) : Prop := Serves t d ∨ Serves t' d

theorem Either.write (h : Either t (t.insertOrReplace (p, q.toJson)) d) (hq : q.Checked)
    (hgrants : q.accessGrants = []) (hid : q.id = p) :
    Serves (t.insertOrReplace (p, q.toJson)) (d.write (.page p) q.toJson) := by
  rcases h with h | h
  · exact serves_write h hq hgrants hid
  · refine (serves_write h hq hgrants hid).congr fun r => ?_
    rw [Table.find?_insertOrReplace, Table.find?_insertOrReplace, Table.find?_insertOrReplace]
    split <;> rfl

/-- A policy is stored, or nothing happened. -/
theorem keeps_store (h : Serves t d) (hq : q.Checked) (hgrants : q.accessGrants = []) :
    Keeps False (Either t (t.insertOrReplace (q.id, q.toJson)))
      (tryCatch (Pages.replaceUnlocked q.id q.toJson) (orCreate q))
      (OnOk fun _ d' => Serves (t.insertOrReplace (q.id, q.toJson)) d') d := by
  have hvalid : ∀ requiredId, (∀ r ∈ requiredId, q.id = r) →
      validatePage q.toJson requiredId = .ok q := fun _ hr => validate_policy hq hgrants hr
  have hreplace := keeps_replace (S := False) (v := q.toJson)
    (J := Either t (t.insertOrReplace (q.id, q.toJson))) (.inl h) fun q' hq' => by
      obtain rfl := Except.ok.inj ((hvalid (some q.id) (by rintro r ⟨⟩; rfl)).symm.trans hq')
      exact .inr (serves_write h hq hgrants rfl)
  refine keeps_tryCatch (keeps_mono hreplace fun r d' hd hr => ?_)
  cases r with
  | ok q' =>
      obtain ⟨hq', rfl⟩ := hr
      obtain rfl := Except.ok.inj ((hvalid (some q.id) (by rintro r ⟨⟩; rfl)).symm.trans hq')
      exact serves_write h hq hgrants rfl
  | error e =>
      cases e with
      | notFound what =>
          show Keeps _ _ (Pages.create q.toJson) _ d'
          unfold Pages.create
          rw [hvalid none (by rintro r ⟨⟩)]
          refine keeps_bind (keeps_pure hd (keeps_isFile hd ?_))
          split
          · exact keeps_throw hd trivial
          · have hwritten := hd.write hq hgrants rfl
            refine keeps_seq (keeps_write hd (.inr hwritten)) fun _ d'' hd'' heq => ?_
            exact keeps_pure hd'' (heq ▸ hwritten)
      | config message => exact keeps_throw hd trivial
      | python error => exact keeps_throw hd trivial
      | os => exact keeps_throw hd trivial
      | database => exact keeps_throw hd trivial

/-! ## A deletion -/

/-- A page without grants shows none. -/
theorem visible_policy {page : Page} (hq : q.Checked) (hgrants : q.accessGrants = [])
    (hc : d.content (.page q.id) = some (.ok q.toJson)) (hv : visible d q.id = some page) :
    page.accessGrants = [] := by
  obtain ⟨full, hfull, rfl⟩ := Option.map_eq_some_iff.mp hv
  obtain ⟨v, hfile, hread⟩ := onFile_eq_some.mp hfull
  obtain rfl := Except.ok.inj (Option.some.inj (hc.symm.trans hfile))
  have hsame : validatePage q.toJson (some q.id) = .ok q :=
    validate_policy hq hgrants (by rintro r ⟨⟩; rfl)
  obtain rfl := Except.ok.inj (hsame.symm.trans hread)
  split
  · rfl
  · exact hgrants

/-- Nothing of it is revoked, and it is not missing. -/
theorem keeps_revokeNone (hq : q.Checked) (hgrants : q.accessGrants = [])
    (hm : d.content (.marker q.id) = none) (hc : d.content (.page q.id) = some (.ok q.toJson)) :
    Keeps False (fun d' => d' = d) (Pages.revokePageAccessGrants q.id)
      (fun r _ => ∀ n, r ≠ .error (.notFound n)) d := by
  have hunmarked : (d.content (.marker q.id)).isSome = false := by rw [hm]; rfl
  unfold Pages.revokePageAccessGrants Pages.recoverRevocationUnlocked Pages.checkId
  rw [validatePageId_of_re q.id_re]
  refine keeps_bind (keeps_bind (keeps_bind (keeps_pure rfl (keeps_pure rfl ?_))))
  refine keeps_isFile rfl ?_
  rw [hunmarked, if_neg Bool.false_ne_true]
  refine keeps_pure rfl (keeps_bind (keeps_mono (keeps_and (Pages.keeps_load (J := (· = d)) rfl)
    (keeps_loadFound q.id_re hc)) fun r d' hd hr => ?_))
  subst hd
  obtain ⟨⟨-, hv⟩, hfound⟩ := hr
  cases r with
  | error e => exact fun n hn => hfound n (by rw [Except.error.inj hn])
  | ok page =>
      have hnone := visible_policy hq hgrants hc (hv page rfl)
      dsimp only
      rw [if_pos hnone]
      exact keeps_pure rfl (by rintro n ⟨⟩)

/-- The end of a deletion. -/
theorem keeps_unlinkPage (h : Serves t d) :
    Keeps False (Either t (t.deleteWhere fun row => row.1 = p))
      (do
        Pages.ask (.unlink (.page p))
        Pages.ask .sync)
      (fun r d' => (r = .ok () ∨ ∃ n, r = .error (.notFound n)) →
        Serves (t.deleteWhere fun row => row.1 = p) d') d := by
  have hfailed : ∀ d', (Except.error PageError.os : Except PageError Unit) = .ok () ∨
      (∃ n, (Except.error PageError.os : Except PageError Unit) = .error (.notFound n)) →
      Serves (t.deleteWhere fun row => row.1 = p) d' := by
    rintro d' (hr | ⟨n, hr⟩)
    · cases hr
    · cases hr
  refine keeps_bind (keeps_ask (.inl h) (hfailed d) fun _ => ?_)
  simp only [Pages.FileOp.perform]
  split
  · have hgone : Serves (t.deleteWhere fun row => row.1 = p) (d.unlink (.page p)) := serves_unlink h
    exact ⟨.inr hgone, keeps_ask (.inr hgone) (hfailed _) fun _ => ⟨.inr hgone, fun _ => hgone⟩⟩
  · exact ⟨.inl h, hfailed d⟩

/-- A page is deleted, or nothing happened. -/
theorem keeps_remove (h : Serves t d) :
    Keeps False (Either t (t.deleteWhere fun row => row.1 = p)) (deletePage p)
      (OnOk fun _ d' => Serves (t.deleteWhere fun row => row.1 = p) d') d := by
  unfold deletePage
  have hdelete : Keeps False (Either t (t.deleteWhere fun row => row.1 = p)) (Pages.delete p)
      (fun r d' => (r = .ok () ∨ ∃ n, r = .error (.notFound n)) →
        Serves (t.deleteWhere fun row => row.1 = p) d') d := by
    unfold Pages.delete
    cases hc : d.content (.page p) with
    | none =>
        have habsent : Serves (t.deleteWhere fun row => row.1 = p) d := serves_absent h hc
        refine keeps_checkId (.inl h) (fun _ _ => habsent)
          (keeps_requireFile (.inl h) (fun _ _ => habsent) fun hpresent => ?_)
        rw [hc] at hpresent
        cases hpresent
    | some c =>
        rcases h.pages p with ⟨hnone, -⟩ | ⟨q, hq, hgrants, rfl, hfile, -⟩
        · rw [hc] at hnone
          cases hnone
        · have hpresent : (d.content (.page q.id)).isSome = true := by rw [hfile]; rfl
          unfold Pages.checkId Pages.requireFile
          rw [validatePageId_of_re q.id_re]
          refine keeps_bind (keeps_bind (keeps_pure (.inl h) (keeps_pure (.inl h) ?_)))
          refine keeps_bind (keeps_isFile (.inl h) ?_)
          rw [if_pos hpresent]
          refine keeps_pure (.inl h) (keeps_bind (keeps_imp (keeps_mono (keeps_revokeNone hq hgrants
            (h.unmarked q.id) hfile) fun r d' hd hr => ?_) fun d' hd => hd ▸ .inl h))
          subst hd
          cases r with
          | error e =>
              rintro (he | ⟨n, he⟩)
              · cases he
              · exact absurd (by rw [Except.error.inj he]) (hr n)
          | ok revoked => exact keeps_unlinkPage h
  refine keeps_tryCatch (keeps_mono hdelete fun r d' hd hr => ?_)
  cases r with
  | ok u => exact hr (.inl rfl)
  | error e =>
      cases e with
      | notFound what => exact keeps_pure hd (hr (.inr ⟨what, rfl⟩))
      | config message => exact keeps_throw hd trivial
      | python error => exact keeps_throw hd trivial
      | os => exact keeps_throw hd trivial
      | database => exact keeps_throw hd trivial

end Row

/-! ## One request -/

section Request

variable [Python] {token : String} {r : Request} {t : Policies} {d : Disk}

/-- What an operation meets that is not blind. -/
abbrev SightedTick := { t : Pages.Tick // t.blind = false }

/-- What a method keeps wherever it stops, it keeps in the process. -/
theorem holds_of_keeps {α : Type} {x : FileM α} {J : Disk → Prop}
    {Q : Except PageError α → Disk → Prop} (h : Keeps False J x Q d) :
    Prog.Holds (fun t : SightedTick => (server token).perform t.1) J (fun _ => True) x.run Q d := by
  have hwp := h.wp
  clear h
  generalize x.run = m at hwp
  induction m generalizing d with
  | ret r => exact ⟨(hwp [] Pages.blind_nil).1.2, (hwp [] Pages.blind_nil).2⟩
  | op e k ih =>
      refine ⟨(hwp [] Pages.blind_nil).1.2, fun t => ⟨trivial, ih _ fun ticks hticks => ?_⟩⟩
      have hsight : t.1.blind = true → False := fun hb => absurd (hb.symm.trans t.2) nofun
      have hnext := (hwp (t.1 :: ticks) (Pages.blind_cons.mpr ⟨hsight, hticks⟩)).2
      rw [Admin.fileOp_step_cons] at hnext
      exact hnext

/-- What is promised of a response: the row was changed, or nothing, and the row if
it is a success. -/
structure Answers (token : String) (t t' : Policies) (x : Answer) (d : Disk) : Prop where
  holds : Prog.Holds (fun t : SightedTick => (server token).perform t.1) (Either t t')
    (fun _ => True) x
    (fun response d' => response = .status 200 → Serves t' d') d

theorem answers_ret {t' : Policies} {response : Response} (h : Serves t d)
    (hr : response = .status 200 → Serves t' d) : Answers token t t' (pure response) d :=
  ⟨.inl h, hr⟩

/-- A method of the page store, and what its outcome is answered by. -/
theorem answers_keeps {α : Type} {t' : Policies} {x : FileM α} {f : Except PageError α → Answer}
    {g : Except PageError α → Response}
    (h : Keeps False (Either t t') x (OnOk fun _ d' => Serves t' d') d)
    (hf : ∀ r, f r = .ret (g r)) (herror : ∀ e, g (.error e) ≠ .status 200) :
    Answers token t t' (x.run >>= f) d := by
  refine ⟨Prog.holds_bind.mpr (Prog.holds_mono (holds_of_keeps h) fun r d' hd hr => ?_)⟩
  rw [hf]
  cases r with
  | ok a => exact ⟨hd, fun _ => hr⟩
  | error e => exact ⟨hd, fun h => absurd h (herror e)⟩

theorem answers_remove (h : Serves t d) (id : String) :
    Answers token t (t.deleteWhere fun row => row.1 = id) (removePage id) d := by
  refine answers_keeps (g := removePage.removed) (keeps_remove h) (fun _ => rfl) fun e => ?_
  cases e <;> simp [removePage.removed]

theorem policyFor_eq_ok {id : String} {payload : Json} {q : Page}
    (h : policyFor id payload = .ok q) : q.Checked ∧ q.accessGrants = [] ∧ q.id = id := by
  obtain ⟨v, hv, hq⟩ := Pages.except_bind_eq_ok.mp h
  cases payload with
  | obj fields =>
      obtain rfl := Except.ok.inj hv
      have hgrants := validatePage_grants hq
      rw [getD_withGrants] at hgrants
      have hid := (validatePage_eq_ok hq).1 id rfl
      exact ⟨validatePage_checked hq, (Except.ok.inj hgrants).symm, hid⟩
  | _ => cases hv

theorem keeps_publish {id : String} {payload : Json} (h : Serves t d) {t' : Policies}
    (hok : ∀ q, policyFor id payload = .ok q → t' = t.insertOrReplace (q.id, q.toJson)) :
    Keeps False (Either t t') (publishPage id payload) (OnOk fun _ d' => Serves t' d') d := by
  unfold publishPage
  refine keeps_lift (.inl h) (fun _ => trivial) fun v hv => ?_
  refine keeps_lift (.inl h) (fun _ => trivial) fun q hq => ?_
  have hpolicy : policyFor id payload = .ok q := Pages.except_bind_eq_ok.mpr ⟨v, hv, hq⟩
  obtain ⟨hchecked, hgrants, rfl⟩ := policyFor_eq_ok hpolicy
  rw [hok q hpolicy]
  exact keeps_store h hchecked hgrants

theorem answers_put (h : Serves t d) (id : String) {t' : Policies}
    (herror : ∀ response, r.payload = .error response → response ≠ .status 200)
    (hok : ∀ payload q, r.payload = .ok payload → policyFor id payload = .ok q →
      t' = t.insertOrReplace (q.id, q.toJson)) :
    Answers token t t' (putPage id r) d := by
  unfold putPage
  split
  · rename_i response hr
    exact answers_ret h fun hs => absurd hs (herror response hr)
  · rename_i payload hr
    refine answers_keeps (g := putPage.published) (keeps_publish h fun q hq => hok payload q hr hq)
      (fun _ => rfl) fun e => ?_
    cases e <;> simp [putPage.published]

omit [Python] in
theorem payload_error {response : Response} (h : r.payload = .error response) :
    response ≠ .status 200 := by
  unfold Request.payload at h
  split at h
  · cases h
    decide
  · split at h
    · cases h
      decide
    · split at h
      · cases h
      · cases h
        decide
      · cases h
        decide

omit [Python] in
theorem authorized_error {response : Response} (h : authorized token r = .error response) :
    response ≠ .status 200 := by
  unfold authorized at h
  split at h
  · cases h
  · cases h
    decide

/-- **A request changes its row, or nothing**, and its row if it is answered by
success. -/
theorem answers_handle (h : Serves t d) :
    Answers token t (r.effect token t) (handle token r) d := by
  have honPage : ∀ handler, (authorized token r = .ok true → r.pageId ≠ "" →
      Answers token t (r.effect token t) (handler r.pageId) d) →
      Answers token t (r.effect token t) (onPage token r handler) d := by
    intro handler hhandler
    unfold onPage
    split
    · rename_i response hr
      exact answers_ret h fun hs => absurd hs (authorized_error hr)
    · exact answers_ret h fun hs => absurd hs (by decide)
    · rename_i hauthorized
      split
      · exact answers_ret h fun hs => absurd hs (by decide)
      · rename_i hid
        exact hhandler hauthorized hid
  unfold handle
  cases hm : r.method with
  | get =>
      have heffect : r.effect token t = t := by
        unfold Request.effect
        rw [hm]
        split <;> rfl
      exact answers_ret h fun _ => heffect.symm ▸ h
  | delete =>
      refine honPage _ fun hauthorized hid => ?_
      have heffect : r.effect token t = t.deleteWhere fun row => row.1 = r.pageId := by
        unfold Request.effect
        rw [if_pos ⟨hauthorized, hid⟩, hm]
      rw [heffect]
      exact answers_remove h r.pageId
  | put =>
      refine honPage _ fun hauthorized hid => ?_
      refine answers_put h r.pageId (fun _ hr => payload_error hr) fun payload q hpayload hq => ?_
      unfold Request.effect
      rw [if_pos ⟨hauthorized, hid⟩, hm]
      dsimp only
      rw [hpayload]
      dsimp only
      rw [hq, (policyFor_eq_ok hq).2.2]

/-- **What the gateway publishes is stored as it is**: the row of the page is its
policy. -/
theorem effect_publish {q : Page} (hq : q.Checked) (hm : r.method = .put)
    (hauthorized : authorized token r = .ok true) (hid : r.pageId = q.id)
    (hpayload : r.payload = .ok (Admin.policyOf q)) :
    r.effect token t = t.insertOrReplace (q.id, Admin.policyOf q) := by
  have hne : r.pageId ≠ "" := by
    rw [hid]
    intro hempty
    have hre := q.id_re
    rw [hempty] at hre
    exact absurd hre (by decide)
  have hpolicy : policyFor q.id (Admin.policyOf q) = .ok { q with accessGrants := [] } :=
    Pages.except_bind_eq_ok.mpr ⟨_, rfl, Admin.policy_accepted hq⟩
  unfold Request.effect
  rw [if_pos ⟨hauthorized, hne⟩, hm]
  dsimp only
  rw [hpayload, hid]
  dsimp only
  rw [hpolicy]
  rfl

end Request

/-! ## Runs -/

section Run

variable [Python] {token : String} {t : Policies} {d : Disk}

/-- One request, wherever it may stop. -/
theorem request_serves (token : String) (h : Serves t d) (r : Request × List Pages.Tick)
    (hsight : Pages.Sighted r.2) :
    Serves (r.1.effect token t) ((server token).request d r) ∨
      ((handle token r.1).meet (server token).perform r.2 d).1 ≠ some (.status 200) ∧
        Serves t ((server token).request d r) := by
  have hanswers : Answers token t (r.1.effect token t) (handle token r.1) d := answers_handle h
  obtain ⟨-, heither, hdone⟩ := hanswers.holds.meet_of hsight
  have hrequest : (server token).request d r =
      ((handle token r.1).meet (server token).perform r.2 d).2 := by
    unfold Server.request
    split
    · rename_i hm
      exact (congrArg Prod.snd hm).symm
    · rename_i hm
      exact (congrArg Prod.snd hm).symm
  rw [hrequest]
  by_cases hsuccess : ((handle token r.1).meet (server token).perform r.2 d).1 = some (.status 200)
  · exact .inl (hdone _ hsuccess rfl)
  · exact heither.symm.imp_right fun ht => ⟨hsuccess, ht⟩

/-- What `load` answers is the row of the table. -/
theorem Serves.loads (h : Serves t d) (p : String) :
    (t.find? p = none ∧ d.content (.page p) = none) ∨
      ∃ q : Page, t.find? p = some (p, q.toJson) ∧ d.loads p = .ok q := by
  rcases h.pages p with ⟨hc, ht⟩ | ⟨q, hq, hgrants, rfl, hc, ht⟩
  · exact .inl ⟨ht, hc⟩
  · refine .inr ⟨q, ht, ?_⟩
    rw [Pages.loads_of_content q.id_re hc (h.unmarked q.id)]
    exact validate_policy hq hgrants (by rintro r ⟨⟩; rfl)

/-- **The policy store is a table.** Whatever its file operations meet and
wherever its process dies, the requests of a run change their rows one after
another, or nothing; one that is answered by success is not lost. What the
store loads is the table. No test for a file is blind: a deletion would
succeed and leave the page. -/
theorem store_is_a_table (token : String) (rs : List (Request × List Pages.Tick))
    (hsight : ∀ r ∈ rs, Pages.Sighted r.2) :
    ∃ t, Applies token .empty (responses token .empty rs) t ∧
      ∀ p, (t.find? p = none ∧ ((server token).play .empty rs).content (.page p) = none) ∨
        ∃ q : Page, t.find? p = some (p, q.toJson) ∧
          ((server token).play .empty rs).loads p = .ok q := by
  have hrun : ∀ t d, Serves t d → ∃ t', Applies token t (responses token d rs) t' ∧
      Serves t' ((server token).play d rs) := by
    induction rs with
    | nil => exact fun t d h => ⟨t, .nil, h⟩
    | cons r rs ih =>
        intro t d h
        obtain ⟨hr, hrs⟩ := List.forall_mem_cons.mp hsight
        rcases request_serves token h r hr with hnext | ⟨hne, hnext⟩
        · obtain ⟨t', happlies, hserves⟩ := ih hrs _ _ hnext
          exact ⟨t', .applied happlies, hserves⟩
        · obtain ⟨t', happlies, hserves⟩ := ih hrs _ _ hnext
          exact ⟨t', .dropped hne happlies, hserves⟩
  obtain ⟨t, happlies, hserves⟩ := hrun .empty .empty ⟨fun _ => rfl, fun _ => .inl ⟨rfl, rfl⟩⟩
  exact ⟨t, happlies, hserves.loads⟩

/-! ### The door -/

/-- The door's policy is published. -/
def doorPut : Request :=
  ⟨.put, "/v1/pages/door", "token", some 30, .ok (Admin.plainPage "door")⟩

/-- Operations that go through. -/
def quiet (n : Nat) : List Pages.Tick := List.replicate n ⟨false, false, 0, .success⟩

/-- The door is published; it is published again, and its file cannot be written; it
is deleted, and the process dies before its file is gone. -/
def doorRequests : List (Request × List Pages.Tick) :=
  [(doorPut, quiet 8), (doorPut, quiet 2 ++ [⟨true, false, 0, .success⟩]),
    ({ doorPut with method := .delete }, quiet 5)]

omit [Python] in
theorem store_is_a_table_door :
    letI := Python.plain
    (responses "token" .empty doorRequests).map Prod.snd =
        [some (.status 200), some (.status 500), none] ∧
      ∃ t, Applies "token" .empty (responses "token" .empty doorRequests) t ∧
        ∀ p, (t.find? p = none ∧
            ((server "token").play .empty doorRequests).content (.page p) = none) ∨
          ∃ q : Page, t.find? p = some (p, q.toJson) ∧
            ((server "token").play .empty doorRequests).loads p = .ok q := by
  let _ := Python.plain
  exact ⟨by decide +kernel, @store_is_a_table Python.plain "token" doorRequests (by decide)⟩

end Run

end PolicyStore

end AccessPages
