import AccessPages.Guest.Binding
import AccessPages.Pages.Helpers
/-!
# Guest — two routers for one path

The endpoint decides in Go which paths of its page pass, the guest service
decides in Python what a path is for. Both are compared here, path by
path: what the endpoint lets through is found by the service, and what
only the service knows is listed.
-/

namespace AccessPages

namespace Guest

open Broker (Op World GuestResult)

/-! ## The operation of a path -/

/-- `guestOperation` of `main.go`. -/
def Endpoint.guestOperation (method path : String) (bootstrap : Bool) : String :=
  let parts := (splitAt '/' path.toList).map String.ofList
  let n := parts.length
  let part := fun i => parts.getD i ""
  if method = "GET" ∧ ((n = 3 ∧ part 1 = "static") ∨
      (n = 6 ∧ part 1 = "g" ∧ part 4 = "static")) then "asset"
  else if n < 5 ∨ part 1 ≠ "g" then "other"
  else if n = 5 ∧ part 4 = "" then if bootstrap then "bootstrap" else "document"
  else if method = "GET" ∧ n = 7 ∧ part 4 = "api" ∧ part 5 = "access" then "state"
  else if n = 9 ∧ part 4 = "api" ∧ part 5 = "access" then
    if method = "GET" ∧ part 7 = "camera" then "camera"
    else if method = "POST" then
      if part 7 = "verification" ∧ (part 8 = "send" ∨ part 8 = "verify") then "other" else "action"
    else "other"
  else "other"

/-- **Both processes name the operation alike.** -/
theorem endpoint_guestOperation (method path : String) (bootstrap : Bool) :
    Endpoint.guestOperation method path bootstrap =
      (guestOperation method path.toList bootstrap).name := by
  unfold Endpoint.guestOperation guestOperation
  simp only [apply_ite Operation.name]
  rfl

/-! ## Characters of a path -/

/-- A character both routers leave alone. -/
def plainChar (c : Char) : Bool := c.toNat ≤ 127 && c ≠ '%' && c ≠ '\\' && !strayChar c

theorem plainChar_of_isTokenChar {c : Char} (h : Pages.isTokenChar c = true) :
    plainChar c = true ∧ c ≠ '/' ∧ c ≠ '.' := by
  have hrange := Pages.toNat_of_isTokenChar h
  have hne : ∀ x : Char, x.toNat ∈ [37, 92, 9, 13, 10, 35, 63, 47, 46] → c ≠ x := by
    rintro x hx rfl
    simp only [List.mem_cons, List.not_mem_nil, or_false] at hx
    omega
  refine ⟨?_, hne '/' (by decide), hne '.' (by decide)⟩
  have hstray : strayChar c = false := by
    simp only [strayChar, String.reduceToList, List.contains_cons, List.contains_nil,
      Bool.or_false, Bool.or_eq_false_iff, beq_eq_false_iff_ne, ne_eq]
    exact ⟨hne '\t' (by decide), hne '\r' (by decide), hne '\n' (by decide), hne '#' (by decide),
      hne '?' (by decide)⟩
  simp only [plainChar, Bool.and_eq_true, decide_eq_true_eq, hstray, Bool.not_false, and_true]
  exact ⟨⟨by omega, hne '%' (by decide)⟩, hne '\\' (by decide)⟩

theorem chars_of_plain {s : List Char} (h : s.all plainChar = true) :
    ∀ c ∈ s, c.toNat ≤ 127 ∧ c ≠ '%' ∧ c ≠ '\\' := by
  intro c hc
  have hplain := List.all_eq_true.mp h c hc
  simp only [plainChar, Bool.and_eq_true, decide_eq_true_eq] at hplain
  exact ⟨hplain.1.1.1, hplain.1.1.2, hplain.1.2⟩

/-- A name in a path: nothing in it is special, and it is there. -/
structure Name (s : List Char) : Prop where
  plain : s.all plainChar = true
  slash : '/' ∉ s
  dot : '.' ∉ s
  ne_nil : s ≠ []

theorem name_of_tokenChars {s : List Char} (h : ∀ c ∈ s, Pages.isTokenChar c = true)
    (hne : s ≠ []) : Name s where
  plain := List.all_eq_true.mpr fun c hc => (plainChar_of_isTokenChar (h c hc)).1
  slash := fun hs => (plainChar_of_isTokenChar (h _ hs)).2.1 rfl
  dot := fun hs => (plainChar_of_isTokenChar (h _ hs)).2.2 rfl
  ne_nil := hne

theorem name_of_pageIdRe {s : String} (h : Pages.pageIdRe s = true) : Name s.toList := by
  refine name_of_tokenChars (fun c hc =>
    Pages.isTokenChar_of_isIdChar (Pages.isIdChar_of_pageIdRe h c hc)) fun hnil => ?_
  unfold Pages.pageIdRe at h
  rw [hnil] at h
  exact Bool.false_ne_true h

theorem name_of_grantIdRe {s : String} (h : Pages.grantIdRe s = true) : Name s.toList := by
  refine name_of_tokenChars (Pages.isTokenChar_of_grantIdRe h) fun hnil => ?_
  unfold Pages.grantIdRe at h
  rw [hnil] at h
  exact absurd h (by decide)

/-! ## The shape of a path -/

/-- What the page's grant has at `suffix`. -/
def pagePath (pageId grantId : String) (suffix : List Char) : List Char :=
  pageRoot pageId ++ (grantId.toList ++ '/' :: suffix)

/-- The access path of the page. -/
def apiPath (pageId : String) : List Char := ("api/access/" ++ pageId).toList

/-- Two names under it. -/
def callPath (pageId x y : String) : List Char :=
  apiPath pageId ++ '/' :: (x.toList ++ '/' :: y.toList)

theorem splitAt_pageRoot {pageId : String} (hpage : Pages.pageIdRe pageId = true) (s : List Char) :
    splitAt '/' (pageRoot pageId ++ s) = [] :: ['g'] :: pageId.toList :: splitAt '/' s := by
  have hroot : pageRoot pageId ++ s = "/g".toList ++ '/' :: (pageId.toList ++ '/' :: s) := by
    simp [pageRoot]
  rw [hroot, splitAt_append, splitAt_append, splitAt_of_notMem (name_of_pageIdRe hpage).slash]
  rfl

theorem splitAt_pagePath {pageId grantId : String} (hpage : Pages.pageIdRe pageId = true)
    (hgrant : Pages.grantIdRe grantId = true) (suffix : List Char) :
    splitAt '/' (pagePath pageId grantId suffix) =
      [] :: ['g'] :: pageId.toList :: grantId.toList :: splitAt '/' suffix := by
  unfold pagePath
  rw [splitAt_pageRoot hpage, splitAt_append, splitAt_of_notMem (name_of_grantIdRe hgrant).slash]
  rfl

theorem splitAt_apiPath {pageId : String} (hpage : Pages.pageIdRe pageId = true) :
    splitAt '/' (apiPath pageId) = ["api".toList, "access".toList, pageId.toList] := by
  have hapi : apiPath pageId = "api/access".toList ++ '/' :: pageId.toList := by simp [apiPath]
  rw [hapi, splitAt_append, splitAt_of_notMem (name_of_pageIdRe hpage).slash]
  rfl

theorem splitAt_callPath {pageId x y : String} (hpage : Pages.pageIdRe pageId = true)
    (hx : Pages.pageIdRe x = true) (hy : Pages.pageIdRe y = true) :
    splitAt '/' (callPath pageId x y) =
      ["api".toList, "access".toList, pageId.toList, x.toList, y.toList] := by
  unfold callPath
  rw [splitAt_append, splitAt_apiPath hpage, splitAt_append,
    splitAt_of_notMem (name_of_pageIdRe hx).slash, splitAt_of_notMem (name_of_pageIdRe hy).slash]
  rfl

/-- The grant of a path and what follows it are the only ones. -/
theorem pagePath_inj {pageId grantId grantId' : String} {suffix suffix' : List Char}
    (hpage : Pages.pageIdRe pageId = true) (hgrant : Pages.grantIdRe grantId = true)
    (hgrant' : Pages.grantIdRe grantId' = true)
    (h : pagePath pageId grantId suffix = pagePath pageId grantId' suffix') : suffix = suffix' := by
  have hsplit := congrArg (splitAt '/') h
  rw [splitAt_pagePath hpage hgrant, splitAt_pagePath hpage hgrant'] at hsplit
  simp only [List.cons.injEq, true_and] at hsplit
  calc suffix = joinWith '/' (splitAt '/' suffix) := (joinWith_splitAt suffix).symm
    _ = joinWith '/' (splitAt '/' suffix') := by rw [hsplit.2]
    _ = suffix' := joinWith_splitAt suffix'

/-! ## The endpoint -/

/-- What the endpoint lets through after the grant. -/
def Passes (pageId : String) (suffix : List Char) : Prop :=
  suffix = [] ∨ String.ofList ('/' :: suffix) ∈ staticPaths ∨ suffix = apiPath pageId ∨
    ∃ x y, Pages.pageIdRe x = true ∧ Pages.pageIdRe y = true ∧ suffix = callPath pageId x y ∧
      (x = "verification" → y = "send" ∨ y = "verify")

theorem map_toList_ofList (parts : List (List Char)) :
    (parts.map String.ofList).map String.toList = parts := by
  rw [List.map_map]
  exact List.map_id'' (fun _ => String.toList_ofList) parts

theorem ofList_eq_iff {s : List Char} {t : String} : String.ofList s = t ↔ s = t.toList := by
  constructor
  · rintro rfl
    exact String.toList_ofList.symm
  · rintro rfl
    exact String.ofList_toList

/-- The last two names of an access path, as the endpoint checks them. -/
theorem names_allowed_iff {kind name : String} :
    (if kind = "camera" then Pages.pageIdRe name
      else if kind = "verification" then name = "send" || name = "verify"
      else Pages.pageIdRe kind && Pages.pageIdRe name) = true ↔
    Pages.pageIdRe kind = true ∧ Pages.pageIdRe name = true ∧
      (kind = "verification" → name = "send" ∨ name = "verify") := by
  by_cases hcamera : kind = "camera"
  · subst hcamera
    have hkind : Pages.pageIdRe "camera" = true := by decide
    simp [hkind]
  · rw [if_neg hcamera]
    by_cases hverification : kind = "verification"
    · subst hverification
      have hkind : Pages.pageIdRe "verification" = true := by decide
      have hname : name = "send" ∨ name = "verify" → Pages.pageIdRe name = true := by
        rintro (rfl | rfl) <;> decide
      simp only [if_true, Bool.or_eq_true, decide_eq_true_eq, hkind, true_and, true_implies]
      exact ⟨fun h => ⟨hname h, h⟩, fun h => h.2⟩
    · rw [if_neg hverification]
      simp [hverification]

theorem allowedSuffix_iff {pageId : String} (hpage : Pages.pageIdRe pageId = true)
    (suffix : List Char) :
    allowedSuffix pageId ((splitAt '/' suffix).map String.ofList) = true ↔
      Passes pageId suffix := by
  unfold allowedSuffix Passes
  simp only [map_toList_ofList, joinWith_splitAt, Bool.or_eq_true, decide_eq_true_eq,
    List.contains_iff_mem, or_assoc]
  refine or_congr ofList_eq_iff (or_congr ?_ (or_congr ofList_eq_iff ?_))
  · rw [← String.ofList_append]
    rfl
  · constructor
    · intro h
      split at h
      · rename_i page kind name hparts
        rw [Bool.and_eq_true, decide_eq_true_eq] at h
        obtain ⟨rfl, hnames⟩ := h
        obtain ⟨hkind, hname, hverify⟩ := names_allowed_iff.mp hnames
        refine ⟨kind, name, hkind, hname, ?_, hverify⟩
        have hsplit := congrArg (List.map String.toList) hparts
        rw [map_toList_ofList] at hsplit
        have hsuffix := (joinWith_splitAt suffix : joinWith '/' _ = _)
        rw [hsplit] at hsuffix
        rw [← hsuffix]
        simp [joinWith, callPath, apiPath]
      · exact absurd h Bool.false_ne_true
    · rintro ⟨x, y, hx, hy, rfl, hverify⟩
      rw [splitAt_callPath hpage hx hy]
      simp only [List.map_cons, List.map_nil, String.ofList_toList]
      rw [decide_true, Bool.true_and]
      exact names_allowed_iff.mpr ⟨hx, hy, hverify⟩

theorem plain_pageRoot {pageId : String} (hpage : Pages.pageIdRe pageId = true) :
    (pageRoot pageId).all plainChar = true := by
  have h := (name_of_pageIdRe hpage).plain
  simp only [pageRoot, String.toList_append, List.all_append, h, Bool.and_true]
  decide

theorem plain_pagePath {pageId grantId : String} {suffix : List Char}
    (hpage : Pages.pageIdRe pageId = true) (hgrant : Pages.grantIdRe grantId = true) :
    (pagePath pageId grantId suffix).all plainChar = suffix.all plainChar := by
  unfold pagePath
  rw [List.all_append, List.all_append, List.all_cons, plain_pageRoot hpage,
    (name_of_grantIdRe hgrant).plain]
  exact Bool.true_and _

theorem plain_apiPath {pageId : String} (hpage : Pages.pageIdRe pageId = true) :
    (apiPath pageId).all plainChar = true := by
  have h := (name_of_pageIdRe hpage).plain
  simp only [apiPath, String.toList_append, List.all_append, h, Bool.and_true]
  decide

theorem plain_callPath {pageId x y : String} (hpage : Pages.pageIdRe pageId = true)
    (hx : Pages.pageIdRe x = true) (hy : Pages.pageIdRe y = true) :
    (callPath pageId x y).all plainChar = true := by
  unfold callPath
  rw [List.all_append, List.all_cons, List.all_append, List.all_cons, plain_apiPath hpage,
    (name_of_pageIdRe hx).plain, (name_of_pageIdRe hy).plain]
  decide

theorem plain_of_passes {pageId : String} {suffix : List Char}
    (hpage : Pages.pageIdRe pageId = true) (h : Passes pageId suffix) :
    suffix.all plainChar = true := by
  rcases h with rfl | hstatic | rfl | ⟨x, y, hx, hy, rfl, -⟩
  · rfl
  · have hplain : ∀ p ∈ staticPaths, p.toList.all plainChar = true := by decide
    have hsuffix := hplain _ hstatic
    rw [String.toList_ofList, List.all_cons, Bool.and_eq_true] at hsuffix
    exact hsuffix.2
  · exact plain_apiPath hpage
  · exact plain_callPath hpage hx hy

/-- **What passes the endpoint**: a file, or what a grant of the page has. -/
theorem allowed_iff {pageId path : String} (hpage : Pages.pageIdRe pageId = true) :
    allowedGuestServicePath pageId path = true ↔
      path ∈ staticPaths ∨ ∃ grantId suffix, Pages.grantIdRe grantId = true ∧
        path.toList = pagePath pageId grantId suffix ∧ Passes pageId suffix := by
  unfold allowedGuestServicePath
  rw [Bool.or_eq_true, List.contains_iff_mem]
  refine or_congr_right ?_
  change (((pageRoot pageId).isPrefixOf path.toList && _ && _ && _) && _) = true ↔ _
  simp only [Bool.and_eq_true]
  constructor
  · rintro ⟨⟨⟨⟨hroot, -⟩, -⟩, -⟩, hparts⟩
    obtain ⟨rest, hrest⟩ := List.isPrefixOf_iff_prefix.mp hroot
    have hdrop : path.toList.drop ("/g/" ++ pageId ++ "/").toList.length = rest := by
      rw [← hrest]
      exact List.drop_left' rfl
    rw [hdrop] at hparts
    split at hparts
    · rename_i grant part parts hsplit
      rw [Bool.and_eq_true] at hparts
      obtain ⟨hgrant, hsuffix⟩ := hparts
      -- what follows the grant has the other parts
      have hjoin := (joinWith_splitAt rest : joinWith '/' _ = _)
      rw [← map_toList_ofList (splitAt '/' rest), hsplit] at hjoin
      change grant.toList ++ '/' :: joinWith '/' ((part :: parts).map String.toList) = rest at hjoin
      have hparts : (splitAt '/' (joinWith '/' ((part :: parts).map String.toList))).map
          String.ofList = part :: parts := by
        rw [← hjoin, splitAt_append, splitAt_of_notMem (name_of_grantIdRe hgrant).slash,
          List.map_append] at hsplit
        exact (List.cons.inj hsplit).2
      refine ⟨grant, _, hgrant, ?_, (allowedSuffix_iff hpage _).mp (by rw [hparts]; exact hsuffix)⟩
      rw [← hrest, ← hjoin]
      rfl
    · exact absurd hparts Bool.false_ne_true
  · rintro ⟨grantId, suffix, hgrant, hpath, hpass⟩
    have hplain : path.toList.all plainChar = true := by
      rw [hpath, plain_pagePath hpage hgrant]
      exact plain_of_passes hpage hpass
    have hchars := chars_of_plain hplain
    refine ⟨⟨⟨⟨?_, ?_⟩, ?_⟩, ?_⟩, ?_⟩
    · exact List.isPrefixOf_iff_prefix.mpr ⟨_, hpath.symm⟩
    · simpa using fun h => (hchars _ h).2.1 rfl
    · simpa using fun h => (hchars _ h).2.2 rfl
    · simpa using fun c hc => (hchars c hc).1
    · have hdrop : path.toList.drop ("/g/" ++ pageId ++ "/").toList.length =
          grantId.toList ++ '/' :: suffix := by
        rw [hpath]
        exact List.drop_left' rfl
      rw [hdrop, splitAt_append, splitAt_of_notMem (name_of_grantIdRe hgrant).slash]
      have hsuffix := (allowedSuffix_iff hpage _).mpr hpass
      cases hs : splitAt '/' suffix with
      | nil => exact absurd hs (splitAt_ne_nil suffix)
      | cons part parts =>
          rw [hs] at hsuffix
          simp only [List.cons_append, List.nil_append, List.map_cons, String.ofList_toList,
            hgrant, Bool.true_and]
          exact hsuffix

/-! ## The service's reading of a path -/

theorem takeWhile_slash {s : List Char} (hs : '/' ∉ s) (t : List Char) :
    (s ++ '/' :: t).takeWhile (· ≠ '/') = s ∧ (s ++ '/' :: t).dropWhile (· ≠ '/') = '/' :: t := by
  induction s with
  | nil => exact ⟨rfl, rfl⟩
  | cons c s ih =>
      have hc : decide (c ≠ '/') = true := decide_eq_true fun hc => hs (hc ▸ List.mem_cons_self)
      obtain ⟨htake, hdrop⟩ := ih fun h => hs (List.mem_cons_of_mem c h)
      rw [List.cons_append, List.takeWhile_cons, List.dropWhile_cons, hc, htake, hdrop]
      exact ⟨rfl, rfl⟩

/-- `GUEST_ROUTE` reads a page, a grant and the rest. -/
theorem guestRoute_eq_some {path suffix : List Char} {pageId grantId : String} :
    guestRoute path = some (pageId, grantId, suffix) ↔
      path = pagePath pageId grantId suffix ∧ Pages.pageIdRe pageId = true ∧
        Pages.grantIdRe grantId = true ∧ '\n' ∉ suffix := by
  constructor
  · intro h
    unfold guestRoute at h
    split at h
    · rename_i rest
      split at h
      · rename_i rest' hpage
        split at h
        · rename_i suffix' hgrant
          dsimp only at h
          split at h
          · rename_i hre
            simp only [Option.some.injEq, Prod.mk.injEq] at h
            obtain ⟨rfl, rfl, rfl⟩ := h
            refine ⟨?_, hre⟩
            have hrest := List.takeWhile_append_dropWhile (p := (· ≠ '/')) (l := rest)
            have hrest' := List.takeWhile_append_dropWhile (p := (· ≠ '/')) (l := rest')
            rw [hpage] at hrest
            rw [hgrant] at hrest'
            simp only [pagePath, pageRoot, String.toList_append, String.toList_ofList,
              List.append_assoc, hrest']
            exact congrArg ("/g/".toList ++ ·) hrest.symm
          · cases h
        · cases h
      · cases h
    · cases h
  · rintro ⟨rfl, hpage, hgrant, hsuffix⟩
    have hpath : pagePath pageId grantId suffix =
        '/' :: 'g' :: '/' :: (pageId.toList ++ '/' :: (grantId.toList ++ '/' :: suffix)) := by
      simp [pagePath, pageRoot]
    obtain ⟨htake, hdrop⟩ := takeWhile_slash (name_of_pageIdRe hpage).slash
      (grantId.toList ++ '/' :: suffix)
    obtain ⟨htake', hdrop'⟩ := takeWhile_slash (name_of_grantIdRe hgrant).slash suffix
    simp only [hpath, guestRoute, htake, hdrop, htake', hdrop', String.ofList_toList]
    exact if_pos ⟨hpage, hgrant, hsuffix⟩

/-- No two slashes follow each other in a path the service takes. -/
theorem no_double_slash {pageId grantId : String} {a b : List Char}
    (hplain : plainPath (pagePath pageId grantId (a ++ '/' :: '/' :: b)) = true) : False := by
  have hsplit : splitAt '/' (pagePath pageId grantId (a ++ '/' :: '/' :: b)) =
      splitAt '/' (pageRoot pageId ++ (grantId.toList ++ '/' :: a)) ++ [] :: splitAt '/' b := by
    have hpath : pagePath pageId grantId (a ++ '/' :: '/' :: b) =
        pageRoot pageId ++ (grantId.toList ++ '/' :: a) ++ '/' :: '/' :: b := by simp [pagePath]
    rw [hpath, splitAt_append, splitAt_cons, if_pos rfl]
  have hb : splitAt '/' b ≠ [] := splitAt_ne_nil b
  have hparts : ([] : List Char) ∈
      ((splitAt '/' (pagePath pageId grantId (a ++ '/' :: '/' :: b))).drop 1).dropLast := by
    rw [hsplit]
    cases hl : splitAt '/' (pageRoot pageId ++ (grantId.toList ++ '/' :: a)) with
    | nil => exact absurd hl (splitAt_ne_nil _)
    | cons part parts =>
        rw [List.cons_append, List.drop_one, List.tail_cons,
          List.dropLast_append_of_ne_nil (List.cons_ne_nil _ _), List.dropLast_cons_of_ne_nil hb]
        exact List.mem_append_right _ List.mem_cons_self
  unfold plainPath at hplain
  rw [Bool.and_eq_true, List.all_eq_true] at hplain
  exact absurd (hplain.2 [] hparts) (by decide)

/-- One slash at the end of a text without double slashes is stripped, and
nothing else. -/
theorem rstrip_slash {s : List Char} (hs : ∀ a b, '/' :: s ≠ a ++ '/' :: '/' :: b) :
    s = s.rdropWhile (· = '/') ∨ s = s.rdropWhile (· = '/') ++ ['/'] := by
  rcases List.eq_nil_or_concat' s with rfl | ⟨l, c, rfl⟩
  · exact Or.inl rfl
  · by_cases hc : c = '/'
    · subst hc
      refine Or.inr ?_
      rw [List.rdropWhile_concat_pos (· = '/') l '/' (by decide)]
      rcases List.eq_nil_or_concat' l with rfl | ⟨l', c', rfl⟩
      · exact absurd rfl (hs [] [])
      · have hc' : c' ≠ '/' := by
          rintro rfl
          exact hs ('/' :: l') [] (by simp)
        rw [List.rdropWhile_concat_neg (· = '/') l' c' (by simpa using hc')]
    · exact Or.inl (List.rdropWhile_concat_neg (· = '/') l c (by simpa using hc)).symm

theorem tailOf_map_toList (s : List Char) :
    joinWith '/' ((tailOf s).map String.toList) =
      (s.dropWhile (· = '/')).rdropWhile (· = '/') := by
  unfold tailOf
  rw [map_toList_ofList, joinWith_splitAt]

/-- The two names the service finds are what there is, but for a slash at
the end. -/
theorem of_tailOf_eq_two {rest : List Char} {x y : String}
    (hrest : ∀ a b, '/' :: rest ≠ a ++ '/' :: '/' :: b) (h : tailOf ('/' :: rest) = [x, y]) :
    rest = x.toList ++ '/' :: y.toList ∨ rest = x.toList ++ '/' :: y.toList ++ ['/'] := by
  have hdrop : ('/' :: rest).dropWhile (· = '/') = rest := by
    cases rest with
    | nil => rfl
    | cons c rest =>
        have hc : c ≠ '/' := fun hc => hrest [] rest (by rw [hc]; rfl)
        rw [List.dropWhile_cons_of_pos (by decide), List.dropWhile_cons_of_neg (by simpa using hc)]
  have htrim := tailOf_map_toList ('/' :: rest)
  rw [h, hdrop] at htrim
  change x.toList ++ '/' :: y.toList = _ at htrim
  rw [htrim]
  exact rstrip_slash hrest

/-- And it finds them. -/
theorem tailOf_two {x y : String} (hx : Name x.toList) (hy : Name y.toList) {trail : List Char}
    (htrail : trail = [] ∨ trail = ['/']) :
    tailOf ('/' :: (x.toList ++ '/' :: y.toList ++ trail)) = [x, y] := by
  have hfirst : ∃ c s, x.toList = c :: s ∧ c ≠ '/' := by
    cases hs : x.toList with
    | nil => exact absurd hs hx.ne_nil
    | cons c s => exact ⟨c, s, rfl, fun hc => hx.slash (by rw [hs, hc]; exact List.mem_cons_self)⟩
  have hlast : ∃ s c, y.toList = s ++ [c] ∧ c ≠ '/' := by
    rcases List.eq_nil_or_concat' y.toList with hs | ⟨s, c, hs⟩
    · exact absurd hs hy.ne_nil
    · exact ⟨s, c, hs, fun hc => hy.slash (by rw [hs, hc]; simp)⟩
  obtain ⟨c, s, hxs, hc⟩ := hfirst
  obtain ⟨s', c', hys, hc'⟩ := hlast
  have hdrop : ('/' :: (x.toList ++ '/' :: y.toList ++ trail)).dropWhile (· = '/') =
      x.toList ++ '/' :: y.toList ++ trail := by
    rw [List.dropWhile_cons_of_pos (by decide), hxs]
    exact List.dropWhile_cons_of_neg (by simpa using hc)
  have hkeep : (x.toList ++ '/' :: y.toList).rdropWhile (· = '/') = x.toList ++ '/' :: y.toList := by
    have hconcat : x.toList ++ '/' :: y.toList = (x.toList ++ '/' :: s') ++ [c'] := by simp [hys]
    rw [hconcat]
    exact List.rdropWhile_concat_neg (· = '/') _ c' (by simpa using hc')
  have htrim : (x.toList ++ '/' :: y.toList ++ trail).rdropWhile (· = '/') =
      x.toList ++ '/' :: y.toList := by
    rcases htrail with rfl | rfl
    · rw [List.append_nil, hkeep]
    · rw [List.rdropWhile_concat_pos (· = '/') _ '/' (by decide), hkeep]
  unfold tailOf
  dsimp only
  rw [hdrop, htrim, splitAt_append, splitAt_of_notMem hx.slash, splitAt_of_notMem hy.slash]
  simp

/-! ## The service -/

/-- What the service finds after the grant. -/
def Found (pageId : String) (suffix : List Char) : Prop :=
  suffix = [] ∨ (∃ name ∈ asset.assets, suffix = ("static/" ++ name).toList) ∨
    suffix = apiPath pageId ∨
    ∃ x y trail, Pages.pageIdRe x = true ∧ Pages.pageIdRe y = true ∧
      (trail = [] ∨ trail = ['/']) ∧ suffix = callPath pageId x y ++ trail

theorem plain_of_found {pageId : String} {suffix : List Char}
    (hpage : Pages.pageIdRe pageId = true) (h : Found pageId suffix) :
    suffix.all plainChar = true := by
  rcases h with rfl | ⟨name, hname, rfl⟩ | rfl | ⟨x, y, trail, hx, hy, htrail, rfl⟩
  · rfl
  · have hall : ∀ name ∈ asset.assets, ("static/" ++ name).toList.all plainChar = true := by decide
    exact hall name hname
  · exact plain_apiPath hpage
  · rw [List.all_append, plain_callPath hpage hx hy]
    rcases htrail with rfl | rfl <;> rfl

/-- What is found has a path the service takes. -/
theorem guestRoute_of_found {pageId grantId : String} {suffix : List Char}
    (hpage : Pages.pageIdRe pageId = true) (hgrant : Pages.grantIdRe grantId = true)
    (h : Found pageId suffix) :
    guestRoute (pagePath pageId grantId suffix) = some (pageId, grantId, suffix) := by
  refine guestRoute_eq_some.mpr ⟨rfl, hpage, hgrant, fun hline => ?_⟩
  have := List.all_eq_true.mp (plain_of_found hpage h) '\n' hline
  revert this
  decide

/-- A part of a path that is neither empty nor a dot or two. -/
def goodPart (part : List Char) : Bool := part ≠ [] && part ≠ ['.'] && part ≠ ['.', '.']

theorem Name.goodPart {s : List Char} (h : Name s) : goodPart s = true := by
  have hdot : ∀ t, '.' ∈ t → s ≠ t := by
    rintro t ht rfl
    exact h.dot ht
  have h1 := hdot ['.'] (by decide)
  have h2 := hdot ['.', '.'] (by decide)
  simp [Guest.goodPart, h.ne_nil, h1, h2]

theorem goodParts_of_found {pageId : String} {suffix : List Char}
    (hpage : Pages.pageIdRe pageId = true) (h : Found pageId suffix) :
    (splitAt '/' suffix).dropLast.all goodPart = true := by
  have hpart := (name_of_pageIdRe hpage).goodPart
  rcases h with rfl | ⟨name, hname, rfl⟩ | rfl | ⟨x, y, trail, hx, hy, htrail, rfl⟩
  · rfl
  · have hall : ∀ name ∈ asset.assets,
        (splitAt '/' ("static/" ++ name).toList).dropLast.all goodPart = true := by decide
    exact hall name hname
  · rw [splitAt_apiPath hpage]
    rfl
  · have hxpart := (name_of_pageIdRe hx).goodPart
    have hypart := (name_of_pageIdRe hy).goodPart
    have hlead : goodPart "api".toList = true ∧ goodPart "access".toList = true := by decide
    rcases htrail with rfl | rfl
    · rw [List.append_nil, splitAt_callPath hpage hx hy]
      simp only [List.dropLast, List.all_cons, List.all_nil, hlead.1, hlead.2, hpart, hxpart,
        Bool.and_true]
    · rw [splitAt_append, splitAt_callPath hpage hx hy]
      change ["api".toList, "access".toList, pageId.toList, x.toList, y.toList].all goodPart = true
      simp only [List.all_cons, List.all_nil, hlead.1, hlead.2, hpart, hxpart, hypart,
        Bool.and_true]

theorem plainPath_of_found {pageId grantId : String} {suffix : List Char}
    (hpage : Pages.pageIdRe pageId = true) (hgrant : Pages.grantIdRe grantId = true)
    (h : Found pageId suffix) : plainPath (pagePath pageId grantId suffix) = true := by
  have hplain : (pagePath pageId grantId suffix).all plainChar = true := by
    rw [plain_pagePath hpage hgrant]
    exact plain_of_found hpage h
  have hchars := chars_of_plain hplain
  have hparts : ((splitAt '/' (pagePath pageId grantId suffix)).drop 1).dropLast.all goodPart
      = true := by
    have hg : goodPart ['g'] = true := by decide
    rw [splitAt_pagePath hpage hgrant, List.drop_one, List.tail_cons,
      List.dropLast_cons_of_ne_nil (List.cons_ne_nil _ _),
      List.dropLast_cons_of_ne_nil (List.cons_ne_nil _ _),
      List.dropLast_cons_of_ne_nil (splitAt_ne_nil suffix)]
    simp only [List.all_cons, hg, (name_of_pageIdRe hpage).goodPart,
      (name_of_grantIdRe hgrant).goodPart, Bool.true_and, goodParts_of_found hpage h]
  unfold plainPath
  simp only [Bool.and_eq_true]
  refine ⟨⟨⟨?_, ?_⟩, ?_⟩, hparts⟩
  · simpa using fun c hc => (hchars c hc).1
  · simpa using fun h => (hchars _ h).2.1 rfl
  · simpa using fun h => (hchars _ h).2.2 rfl

section Visit

variable [Python] [Library] {sha256 : String → String} {pageId path : String}

/-- A guest of the page who asks for a path, without a query: the headers the
endpoint sends, a healthy connector, a live session of the grant in the
path, and a body for a `POST`. -/
structure Visit (sha256 : String → String) (pageId path : String) where
  env : Env
  timing : Option RequestTiming
  headers : Headers
  body : Option (List (String × Json))
  capability : String
  session : String
  fields : List (String × Json)
  world : World
  query : ∀ q query, urlsplit (selfPath path.toList) = some (q, query) → query = []
  claims : headers.getAll "X-Access-Pages-Page-ID" = [pageId]
  capabilities : headers.getAll "X-Page-Capability" = [capability]
  cookies : cookie headers = some session
  marked : headers.get? "X-Guest-Request" = some "1"
  wellFormed : payload ⟨"POST", path.toList, headers, body⟩ = some fields
  connector : env.connector = .ok true
  live : ∀ q query grantId suffix, urlsplit (selfPath path.toList) = some (q, query) →
    guestRoute q = some (pageId, grantId, suffix) → ∃ r,
      ((brokerGuestAuth sha256 env timing
        (Scope.call ⟨pageId, grantId, suffix, capability⟩ .sessionStatus session [])).run.run
          (Op.step sha256) world).1 = .ok (.ok r)

namespace Visit

variable (v : Visit sha256 pageId path)

def request (method : String) : ServiceRequest := ⟨method, path.toList, v.headers, v.body⟩

/-- What the service answers. -/
def answer (method : String) : Except ServiceExc Response :=
  ((serveGuest sha256 v.env v.timing (v.request method)).run.run (Op.step sha256) v.world).1

end Visit

/-- The router has no handler: the path is none it knows, or another
page's, or cannot be read. -/
def Unrouted (x : Except ServiceExc Response) : Prop :=
  x = .ok notFound ∨ x = .ok (.error 401 "Invalid page identity" none) ∨ x = .ok .closed

/-- A handler is found for a `GET` or a `POST`. -/
def Visit.Resolves (v : Visit sha256 pageId path) : Prop :=
  ∃ method ∈ ["GET", "POST"], ¬ Unrouted (v.answer method)

variable {env : Env} {w : World}

omit [Python] [Library] in
theorem asset_routed_iff {name : String} :
    ¬ Unrouted ((asset env name).run.run (Op.step sha256) w).1 ↔ name ∈ asset.assets := by
  unfold asset
  by_cases hname : name ∈ asset.assets
  · rw [if_neg (not_not_intro hname)]
    refine iff_of_true ?_ hname
    split <;> rintro (h | h | h) <;> cases h
  · rw [if_pos hname]
    exact iff_of_false (fun h => h (Or.inl rfl)) hname

omit [Python] [Library] in
/-- A denial that is passed on reads otherwise than the router's own. -/
theorem publicError_ne (code : Option String) {default : String}
    (hdefault : default ≠ "not found" ∧ default ≠ "Invalid page identity") :
    publicError code default ≠ "not found" ∧
      publicError code default ≠ "Invalid page identity" := by
  have hall : ∀ e ∈ publicGuestErrors, e.2 ≠ "not found" ∧ e.2 ≠ "Invalid page identity" := by
    decide
  unfold publicError
  cases hcode : code.bind (publicGuestErrors.lookup ·) with
  | none => exact hdefault
  | some text =>
      obtain ⟨name, -, hname⟩ := Option.bind_eq_some_iff.mp hcode
      obtain ⟨l, r, hlist, -⟩ := List.lookup_eq_some_iff.mp hname
      have hmem : (name, text) ∈ publicGuestErrors := by
        rw [hlist]
        exact List.mem_append_right _ List.mem_cons_self
      exact hall _ hmem

theorem relay_routed {timing : Option RequestTiming} {c : GuestCall} :
    ¬ Unrouted ((relay sha256 env timing c).run.run (Op.step sha256) w).1 := by
  unfold relay
  rw [Prog.run_except_bind]
  rcases Prog.run (Op.step sha256) (brokerGuestAuth sha256 env timing c).run w with ⟨r, w'⟩
  cases r with
  | error e => rintro (h | h | h) <;> cases h
  | ok reply =>
      cases reply with
      | ok r => rintro (h | h | h) <;> cases h
      | denied status code retryAfter =>
          have hne := publicError_ne code
            (show "Guest request denied" ≠ "not found" ∧ _ by decide)
          dsimp only
          split
          · rintro (h | h | h) <;> cases h
          · rintro (h | h | h)
            · injection h with h
              injection h with _ h
              exact hne.1 h
            · injection h with h
              injection h with _ h
              exact hne.2 h
            · cases h

variable {timing : Option RequestTiming} {r : ServiceRequest} {s : Scope} {session : String}

/-- The page or a file of it, for a live session. -/
theorem showDocument_routed_iff {result : GuestResult}
    (hlive : ((brokerGuestAuth sha256 env timing (s.call .sessionStatus session [])).run.run
      (Op.step sha256) w).1 = .ok (.ok result)) :
    ¬ Unrouted ((showDocument sha256 env timing s session).run.run (Op.step sha256) w).1 ↔
      s.suffix = [] ∨ String.ofList (s.suffix.drop "static/".length) ∈ asset.assets := by
  unfold showDocument
  rw [Prog.run_except_bind]
  revert hlive
  rcases Prog.run (Op.step sha256)
    (brokerGuestAuth sha256 env timing (s.call .sessionStatus session [])).run w with ⟨x, w'⟩
  rintro rfl
  dsimp only
  by_cases hsuffix : s.suffix = []
  · rw [if_pos hsuffix]
    refine iff_of_true ?_ (Or.inl hsuffix)
    split <;> rintro (h | h | h) <;> cases h
  · rw [if_neg hsuffix, asset_routed_iff, or_iff_right hsuffix]

omit [Python] [Library] in
/-- The tail of a path of the API. -/
theorem tail_of_api {suffix rest : List Char} {x y : String}
    (hdouble : ∀ a b, suffix ≠ a ++ '/' :: '/' :: b) (hrest : suffix = apiPath pageId ++ '/' :: rest)
    (htail : tailOf (suffix.drop (apiPath pageId).length) = [x, y]) :
    suffix = callPath pageId x y ∨ suffix = callPath pageId x y ++ ['/'] := by
  have hdrop : suffix.drop (apiPath pageId).length = '/' :: rest := by
    rw [hrest]
    exact List.drop_left' rfl
  rw [hdrop] at htail
  have hclean : ∀ a b, '/' :: rest ≠ a ++ '/' :: '/' :: b := fun a b h =>
    hdouble (apiPath pageId ++ a) b (by rw [hrest, h, List.append_assoc])
  rw [hrest]
  rcases of_tailOf_eq_two hclean htail with rfl | rfl
  · exact Or.inl rfl
  · exact Or.inr (by simp [callPath])

omit [Python] [Library] in
/-- A handler of a `POST` has two names. -/
theorem calls_of_postCall {fields : List (String × Json)} {tail : List String} {c : GuestCall}
    (h : postCall s session fields tail = some c) :
    ∃ x y, tail = [x, y] ∧ Pages.pageIdRe x = true ∧ Pages.pageIdRe y = true := by
  unfold postCall at h
  split at h
  · exact ⟨_, _, rfl, by decide, by decide⟩
  · exact ⟨_, _, rfl, by decide, by decide⟩
  · split at h
    · rename_i hids
      exact ⟨_, _, rfl, hids⟩
    · cases h
  · cases h

omit [Python] [Library] in
/-- And two names have a handler, whatever the payload says. -/
theorem postCall_isSome {fields : List (String × Json)} {x y : String}
    (hx : Pages.pageIdRe x = true) (hy : Pages.pageIdRe y = true) :
    ∃ c, postCall s session fields [x, y] = some c := by
  unfold postCall
  split
  · exact ⟨_, rfl⟩
  · exact ⟨_, rfl⟩
  · rename_i htail _ _
    obtain ⟨rfl, rfl⟩ : x = _ ∧ y = _ := by simpa using htail
    exact ⟨_, if_pos ⟨hx, hy⟩⟩
  · simp_all

omit [Python] [Library] in
theorem calls_of_getCall {tail : List String} {c : GuestCall}
    (h : getCall s session tail = some c) :
    tail = [] ∨ ∃ x y, tail = [x, y] ∧ Pages.pageIdRe x = true ∧ Pages.pageIdRe y = true := by
  unfold getCall at h
  split at h
  · exact Or.inl rfl
  · split at h
    · rename_i hid
      exact Or.inr ⟨_, _, rfl, by decide, hid⟩
    · cases h
  · cases h

omit [Python] [Library] in
theorem tailOf_ne_nil (l : List Char) : tailOf l ≠ [] := by
  unfold tailOf
  exact fun h => splitAt_ne_nil _ (List.map_eq_nil_iff.mp h)

omit [Python] [Library] in
theorem apiPath_eq : ("api/access/" ++ pageId).toList = apiPath pageId := rfl

/-- **Whatever is routed is found.** -/
theorem found_of_routed {result : GuestResult} {fields : List (String × Json)}
    (hlive : ((brokerGuestAuth sha256 env timing (s.call .sessionStatus session [])).run.run
      (Op.step sha256) w).1 = .ok (.ok result))
    (hdouble : ∀ a b, s.suffix ≠ a ++ '/' :: '/' :: b)
    (hmarked : r.headers.get? "X-Guest-Request" = some "1")
    (hpayload : r.method = "POST" → payload r = some fields)
    (hmethod : r.method = "GET" ∨ r.method = "POST")
    (h : ¬ Unrouted ((sessionRequest sha256 env timing r s session).run.run (Op.step sha256) w).1) :
    Found s.pageId s.suffix := by
  unfold sessionRequest at h
  dsimp only at h
  rw [apiPath_eq] at h
  split at h
  · rename_i hdocument
    rcases (showDocument_routed_iff hlive).mp h with hnil | hasset
    · exact Or.inl hnil
    · rcases hdocument.2 with hnil | ⟨rest, hrest⟩
      · exact Or.inl hnil
      · have hdrop : s.suffix.drop "static/".length = rest := by
          rw [← hrest]
          exact List.drop_left' rfl
        rw [hdrop] at hasset
        exact Or.inr (Or.inl ⟨_, hasset, by
          rw [← hrest, String.toList_append]
          exact congrArg _ String.toList_ofList.symm⟩)
  · by_cases hapi : s.suffix ≠ apiPath s.pageId ∧ ¬ apiPath s.pageId ++ ['/'] <+: s.suffix
    · rw [if_pos hapi] at h
      exact absurd (Or.inl rfl) h
    · rw [if_neg hapi] at h
      rcases Decidable.em (s.suffix = apiPath s.pageId) with hroot | hroot
      · exact Or.inr (Or.inr (Or.inl hroot))
      · obtain ⟨rest, hrest⟩ := Decidable.not_not.mp fun hpre => hapi ⟨hroot, hpre⟩
        have hsuffix : s.suffix = apiPath s.pageId ++ '/' :: rest := by
          rw [← hrest, List.append_assoc]
          rfl
        have hcalls : ∀ x y, tailOf (s.suffix.drop (apiPath s.pageId).length) = [x, y] →
            Pages.pageIdRe x = true → Pages.pageIdRe y = true → Found s.pageId s.suffix := by
          intro x y htail hx hy
          rcases tail_of_api hdouble hsuffix htail with hcall | hcall
          · exact Or.inr (Or.inr (Or.inr ⟨x, y, [], hx, hy, Or.inl rfl, by simpa using hcall⟩))
          · exact Or.inr (Or.inr (Or.inr ⟨x, y, ['/'], hx, hy, Or.inr rfl, hcall⟩))
        simp only [if_neg hroot] at h
        by_cases hget : r.method = "GET"
        · rw [if_pos hget] at h
          split at h
          · exact absurd (Or.inl rfl) h
          · rename_i hcall
            rcases calls_of_getCall hcall with hnil | ⟨x, y, htail, hx, hy⟩
            · exact absurd hnil (tailOf_ne_nil _)
            · exact hcalls x y htail hx hy
        · rw [if_neg hget, if_neg (not_not_intro hmarked), hpayload (hmethod.resolve_left hget)] at h
          dsimp only at h
          split at h
          · exact absurd (Or.inl rfl) h
          · rename_i hcall
            obtain ⟨x, y, htail, hx, hy⟩ := calls_of_postCall hcall
            exact hcalls x y htail hx hy

/-- **Whatever is found is routed**, for one method or the other. -/
theorem routed_of_found {result : GuestResult} {fields : List (String × Json)}
    (hlive : ((brokerGuestAuth sha256 env timing (s.call .sessionStatus session [])).run.run
      (Op.step sha256) w).1 = .ok (.ok result))
    (hmarked : r.headers.get? "X-Guest-Request" = some "1")
    (hpayload : payload { r with method := "POST" } = some fields)
    (h : Found s.pageId s.suffix) :
    ∃ method ∈ ["GET", "POST"], ¬ Unrouted ((sessionRequest sha256 env timing { r with method }
      s session).run.run (Op.step sha256) w).1 := by
  rcases h with hnil | ⟨name, hname, hsuffix⟩ | hroot | ⟨x, y, trail, hx, hy, htrail, hsuffix⟩
  · refine ⟨"GET", List.mem_cons_self, ?_⟩
    unfold sessionRequest
    dsimp only
    rw [if_pos ⟨rfl, Or.inl hnil⟩]
    exact (showDocument_routed_iff hlive).mpr (Or.inl hnil)
  · have hpre : "static/".toList <+: s.suffix := ⟨name.toList, by
      rw [hsuffix, String.toList_append]⟩
    refine ⟨"GET", List.mem_cons_self, ?_⟩
    unfold sessionRequest
    dsimp only
    rw [if_pos ⟨rfl, Or.inr hpre⟩]
    refine (showDocument_routed_iff hlive).mpr (Or.inr ?_)
    have hdrop : s.suffix.drop "static/".length = name.toList := by
      rw [hsuffix, String.toList_append]
      exact List.drop_left' rfl
    rw [hdrop, String.ofList_toList]
    exact hname
  · refine ⟨"GET", List.mem_cons_self, ?_⟩
    unfold sessionRequest
    dsimp only
    rw [apiPath_eq]
    have hdocument : ¬ (s.suffix = [] ∨ "static/".toList <+: s.suffix) := by
      rw [hroot]
      rintro (h | ⟨t, h⟩) <;> simp [apiPath] at h
    rw [if_neg fun h => hdocument h.2, if_neg fun h => h.1 hroot, if_pos rfl]
    simp only [if_pos hroot, getCall]
    exact relay_routed
  · refine ⟨"POST", by decide, ?_⟩
    have hrest : s.suffix = apiPath s.pageId ++ '/' :: (x.toList ++ '/' :: y.toList ++ trail) := by
      rw [hsuffix]
      simp [callPath]
    have hdrop : s.suffix.drop (apiPath s.pageId).length =
        '/' :: (x.toList ++ '/' :: y.toList ++ trail) := by
      rw [hrest]
      exact List.drop_left' rfl
    have hne : s.suffix ≠ apiPath s.pageId := by
      rw [hrest]
      exact fun h => List.cons_ne_nil _ _ (List.append_right_eq_self.mp h)
    have hpre : apiPath s.pageId ++ ['/'] <+: s.suffix :=
      ⟨x.toList ++ '/' :: y.toList ++ trail, by rw [hrest]; simp⟩
    obtain ⟨c, hcall⟩ := (postCall_isSome hx hy : ∃ c, postCall s session fields [x, y] = some c)
    unfold sessionRequest
    dsimp only
    rw [apiPath_eq]
    rw [if_neg fun h => absurd h.1 (by decide), if_neg fun h => h.2 hpre, if_neg (by decide),
      if_neg (not_not_intro hmarked), hpayload, if_neg hne, hdrop,
      tailOf_two (name_of_pageIdRe hx) (name_of_pageIdRe hy) htrail]
    dsimp only
    rw [hcall]
    exact relay_routed

variable (v : Visit sha256 pageId path) {q : List Char}

/-- A file is served without a session. -/
theorem Visit.answer_static (hq : urlsplit (selfPath path.toList) = some (q, []))
    (h : "/static/".toList <+: q) :
    v.answer "GET" =
      ((asset v.env (String.ofList (q.drop "/static/".length))).run.run
        (Op.step sha256) v.world).1 := by
  unfold answer serveGuest request
  dsimp only
  rw [hq]
  dsimp only
  rw [if_pos ⟨rfl, h, rfl⟩]

/-- Everything else is read as a path of a page. -/
theorem Visit.answer_scoped {method : String} (hq : urlsplit (selfPath path.toList) = some (q, []))
    (h : ¬ (method = "GET" ∧ "/static/".toList <+: q)) :
    v.answer method = match scopeOf v.headers q with
      | .error refusal => .ok refusal
      | .ok s => ((sessionRequest sha256 v.env v.timing (v.request method) s v.session).run.run
          (Op.step sha256) v.world).1 := by
  unfold answer serveGuest request
  dsimp only
  rw [hq]
  dsimp only
  rw [if_neg fun hstatic => h ⟨hstatic.1, hstatic.2.1⟩, v.connector, Prog.run_except_bind]
  have hconnector : (liftM (Except.ok true : Except ServiceExc Bool) : ServiceM Bool).run =
      Prog.ret (.ok true) := rfl
  rw [hconnector, Prog.run_ret]
  dsimp only
  rw [if_neg (by decide)]
  cases scopeOf v.headers q with
  | error refusal => rfl
  | ok s =>
    dsimp only
    unfold scopedRequest
    have hquery : parseQs true [] = [] := by
      simp [parseQs, splitAt, queryField]
    rw [hquery, v.cookies]
    rfl

omit [Python] [Library] in
theorem scopeOf_eq_ok {headers : Headers} {p : List Char} {s : Scope}
    (h : scopeOf headers p = .ok s) :
    guestRoute p = some (s.pageId, s.grantId, s.suffix) ∧ plainPath p = true ∧
      headers.getAll "X-Access-Pages-Page-ID" = [s.pageId] ∧
      headers.getAll "X-Page-Capability" = [s.capability] := by
  unfold scopeOf at h
  split at h
  · cases h
  · rename_i hroute
    split at h
    · cases h
    · rename_i hplain
      split at h
      · rename_i claim capability hclaims hcapabilities
        split at h
        · rename_i hsame
          cases h
          exact ⟨hroute, by simpa using hplain, by rw [hclaims, hsame], hcapabilities⟩
        · cases h
      · cases h

omit [Python] [Library] in
theorem unrouted_of_scopeOf {headers : Headers} {p : List Char} {refusal : Response}
    (h : scopeOf headers p = .error refusal) :
    Unrouted (.ok refusal) := by
  unfold scopeOf at h
  repeat' split at h
  all_goals first | cases h
  all_goals first | exact Or.inl rfl | exact Or.inr (Or.inl rfl)

/-- A path the service serves: of a file, or of what a grant of the page
has. -/
def Served (pageId : String) (q : List Char) : Prop :=
  (∃ name ∈ asset.assets, q = ("/static/" ++ name).toList) ∨
    ∃ grantId suffix, Pages.grantIdRe grantId = true ∧ q = pagePath pageId grantId suffix ∧
      Found pageId suffix

/-- **What the service finds**: what it reads as a path it serves. -/
theorem Visit.resolves_iff (hpage : Pages.pageIdRe pageId = true) :
    v.Resolves ↔ ∃ q, urlsplit (selfPath path.toList) = some (q, []) ∧ Served pageId q := by
  constructor
  · rintro ⟨method, hmethod, hrouted⟩
    have hmethod : method = "GET" ∨ method = "POST" := by simpa using hmethod
    obtain ⟨q, hq⟩ : ∃ q, urlsplit (selfPath path.toList) = some (q, []) := by
      cases hread : urlsplit (selfPath path.toList) with
      | none =>
          refine absurd (Or.inr (Or.inr ?_)) hrouted
          unfold answer serveGuest request
          dsimp only
          rw [hread]
          rfl
      | some x => exact ⟨x.1, by rw [← v.query x.1 x.2 hread]⟩
    refine ⟨q, hq, ?_⟩
    by_cases hstatic : method = "GET" ∧ "/static/".toList <+: q
    · obtain ⟨rfl, rest, hrest⟩ := hstatic
      rw [v.answer_static hq ⟨rest, hrest⟩, asset_routed_iff] at hrouted
      have hdrop : q.drop "/static/".length = rest := by
        rw [← hrest]
        exact List.drop_left' rfl
      rw [hdrop] at hrouted
      refine Or.inl ⟨_, hrouted, ?_⟩
      rw [← hrest, String.toList_append]
      exact congrArg _ String.toList_ofList.symm
    · rw [v.answer_scoped hq hstatic] at hrouted
      cases hscope : scopeOf v.headers q with
      | error refusal =>
          rw [hscope] at hrouted
          exact absurd (unrouted_of_scopeOf hscope) hrouted
      | ok s =>
          rw [hscope] at hrouted
          obtain ⟨hroute, hplain, hclaims, hcapabilities⟩ := scopeOf_eq_ok hscope
          obtain rfl : s.pageId = pageId :=
            List.head_eq_of_cons_eq (hclaims.symm.trans v.claims)
          obtain ⟨hpath, -, hgrant, -⟩ := guestRoute_eq_some.mp hroute
          obtain ⟨result, hlive⟩ := v.live _ _ _ _ hq hroute
          have hcapability : s.capability = v.capability :=
            List.head_eq_of_cons_eq (hcapabilities.symm.trans v.capabilities)
          rw [← hcapability] at hlive
          refine Or.inr ⟨s.grantId, s.suffix, hgrant, hpath, ?_⟩
          have hdouble : ∀ a b, s.suffix ≠ a ++ '/' :: '/' :: b := fun a b hab => by
            rw [hpath, hab] at hplain
            exact no_double_slash hplain
          have hpayload : (v.request method).method = "POST" →
              payload (v.request method) = some v.fields := by
            intro hpost
            obtain rfl : method = "POST" := hpost
            exact v.wellFormed
          exact found_of_routed hlive hdouble v.marked hpayload hmethod hrouted
  · rintro ⟨q, hq, ⟨name, hname, hpath⟩ | ⟨grantId, suffix, hgrant, hpath, hfound⟩⟩
    · have hsplit : q = "/static/".toList ++ name.toList := by
        rw [hpath, String.toList_append]
      refine ⟨"GET", List.mem_cons_self, ?_⟩
      rw [v.answer_static hq ⟨name.toList, hsplit.symm⟩, asset_routed_iff]
      have hdrop : q.drop "/static/".length = name.toList := by
        rw [hsplit]
        exact List.drop_left' rfl
      rw [hdrop, String.ofList_toList]
      exact hname
    · have hroute : guestRoute q = some (pageId, grantId, suffix) := by
        rw [hpath]
        exact guestRoute_of_found hpage hgrant hfound
      have hscope : scopeOf v.headers q = .ok ⟨pageId, grantId, suffix, v.capability⟩ := by
        unfold scopeOf
        rw [hroute]
        dsimp only
        rw [hpath, plainPath_of_found hpage hgrant hfound, v.claims, v.capabilities]
        exact if_pos rfl
      obtain ⟨result, hlive⟩ := v.live _ _ _ _ hq hroute
      have hstatic : ¬ "/static/".toList <+: q := by
        rw [hpath]
        rintro ⟨t, ht⟩
        simp [pagePath, pageRoot] at ht
      obtain ⟨method, hmethod, hrouted⟩ := routed_of_found (r := v.request "GET")
        (s := ⟨pageId, grantId, suffix, v.capability⟩) hlive v.marked v.wellFormed hfound
      refine ⟨method, hmethod, ?_⟩
      rw [v.answer_scoped hq fun h => hstatic h.2, hscope]
      exact hrouted

end Visit

/-! ## Where they differ -/

/-- What the service alone finds after the grant: the themes, a name under
`verification` that is neither `send` nor `verify`, and a call with a slash
at its end. -/
def Extra (pageId : String) (suffix : List Char) : Prop :=
  suffix = "static/themes.css".toList ∨
    ∃ x y, Pages.pageIdRe x = true ∧ Pages.pageIdRe y = true ∧
      (suffix = callPath pageId x y ++ ['/'] ∨
        (x = "verification" ∧ y ≠ "send" ∧ y ≠ "verify" ∧ suffix = callPath pageId x y))

/-- What only the service serves to a guest of the page: the themes, its
extras, and whatever it reads as another path that it serves (slashes at
the start are folded, a scheme and an authority cut off, and what follows
a `#`). -/
def ServiceOnly [Library] (pageId path : String) : Prop :=
  path = "/static/themes.css" ∨
    (∃ grantId suffix, Pages.grantIdRe grantId = true ∧
      path.toList = pagePath pageId grantId suffix ∧ Extra pageId suffix) ∨
    ∃ q, q ≠ path.toList ∧ urlsplit (selfPath path.toList) = some (q, []) ∧ Served pageId q

theorem static_cases {path : String} :
    (∃ name ∈ asset.assets, path = "/static/" ++ name) ↔
      path ∈ staticPaths ∨ path = "/static/themes.css" := by
  have hassets : ∀ name ∈ asset.assets,
      "/static/" ++ name ∈ staticPaths ∨ "/static/" ++ name = "/static/themes.css" := by decide
  have hpaths : ∀ p ∈ "/static/themes.css" :: staticPaths,
      ∃ name ∈ asset.assets, p = "/static/" ++ name := by decide
  constructor
  · rintro ⟨name, hname, rfl⟩
    exact hassets name hname
  · rintro (h | rfl)
    · exact hpaths path (List.mem_cons_of_mem _ h)
    · exact hpaths _ List.mem_cons_self

/-- How many parts the endpoint's suffixes have. -/
theorem length_of_passes {pageId : String} {suffix : List Char}
    (hpage : Pages.pageIdRe pageId = true) (h : Passes pageId suffix) :
    ((splitAt '/' suffix).length = 2 ∧ String.ofList ('/' :: suffix) ∈ staticPaths) ∨
      (splitAt '/' suffix).length = 1 ∨ (splitAt '/' suffix).length = 3 ∨
      ((splitAt '/' suffix).length = 5 ∧ ∃ x y, Pages.pageIdRe x = true ∧
        Pages.pageIdRe y = true ∧ suffix = callPath pageId x y ∧
        (x = "verification" → y = "send" ∨ y = "verify")) := by
  rcases h with rfl | hstatic | rfl | ⟨x, y, hx, hy, rfl, hverify⟩
  · exact Or.inr (Or.inl rfl)
  · refine Or.inl ⟨?_, hstatic⟩
    have hparts : ∀ p ∈ staticPaths, (splitAt '/' p.toList).length = 3 := by decide
    have hlen := hparts _ hstatic
    rw [String.toList_ofList, splitAt_cons, if_pos rfl, List.length_cons] at hlen
    omega
  · exact Or.inr (Or.inr (Or.inl (by rw [splitAt_apiPath hpage]; rfl)))
  · refine Or.inr (Or.inr (Or.inr ⟨?_, x, y, hx, hy, rfl, hverify⟩))
    rw [splitAt_callPath hpage hx hy]
    rfl

/-- **The endpoint lets through none of the service's extras.** -/
theorem not_passes_of_extra {pageId : String} {suffix : List Char}
    (hpage : Pages.pageIdRe pageId = true) (h : Extra pageId suffix) : ¬ Passes pageId suffix := by
  intro hpass
  have hlen := length_of_passes hpage hpass
  rcases h with rfl | ⟨x, y, hx, hy, rfl | ⟨rfl, hsend, hverify, rfl⟩⟩
  · have htwo : (splitAt '/' "static/themes.css".toList).length = 2 := by decide
    rcases hlen with ⟨-, hstatic⟩ | hlen | hlen | ⟨hlen, -⟩
    · exact absurd hstatic (by decide)
    all_goals omega
  · have hsix : (splitAt '/' (callPath pageId x y ++ ['/'])).length = 6 := by
      rw [splitAt_append, splitAt_callPath hpage hx hy]
      rfl
    omega
  · have hfive : (splitAt '/' (callPath pageId "verification" y)).length = 5 := by
      rw [splitAt_callPath hpage hx hy]
      rfl
    rcases hlen with ⟨hlen, -⟩ | hlen | hlen | ⟨-, x', y', hx', hy', hsame, hallowed⟩
    · omega
    · omega
    · omega
    -- a call has one pair of names
    · have hparts := congrArg (splitAt '/') hsame
      rw [splitAt_callPath hpage hx hy, splitAt_callPath hpage hx' hy'] at hparts
      simp only [List.cons.injEq, String.toList_inj, and_true, true_and] at hparts
      rcases hallowed hparts.1.symm with h | h
      · exact hsend (hparts.2.trans h)
      · exact hverify (hparts.2.trans h)

theorem found_iff {pageId : String} {suffix : List Char} :
    Found pageId suffix ↔ Passes pageId suffix ∨ Extra pageId suffix := by
  have hstatic : ∀ name, String.ofList ('/' :: ("static/" ++ name).toList) = "/static/" ++ name := by
    intro name
    rw [ofList_eq_iff, String.toList_append, String.toList_append]
    rfl
  constructor
  · rintro (h | ⟨name, hname, rfl⟩ | h | ⟨x, y, trail, hx, hy, htrail, rfl⟩)
    · exact Or.inl (Or.inl h)
    · rcases static_cases.mp ⟨name, hname, rfl⟩ with hpath | hthemes
      · exact Or.inl (Or.inr (Or.inl (by rw [hstatic]; exact hpath)))
      · refine Or.inr (Or.inl ?_)
        rw [← hstatic, ofList_eq_iff] at hthemes
        exact (List.cons.inj hthemes).2
    · exact Or.inl (Or.inr (Or.inr (Or.inl h)))
    · rcases htrail with rfl | rfl
      · rw [List.append_nil]
        by_cases hverify : x = "verification" → y = "send" ∨ y = "verify"
        · exact Or.inl (Or.inr (Or.inr (Or.inr ⟨x, y, hx, hy, rfl, hverify⟩)))
        · simp only [Classical.not_imp, not_or] at hverify
          exact Or.inr (Or.inr ⟨x, y, hx, hy, Or.inr ⟨hverify.1, hverify.2.1, hverify.2.2, rfl⟩⟩)
      · exact Or.inr (Or.inr ⟨x, y, hx, hy, Or.inl rfl⟩)
  · rintro ((h | h | h | ⟨x, y, hx, hy, rfl, -⟩) | (rfl | ⟨x, y, hx, hy, rfl | ⟨-, -, -, rfl⟩⟩))
    · exact Or.inl h
    · obtain ⟨name, hname, hpath⟩ := static_cases.mpr (Or.inl h)
      rw [← hstatic] at hpath
      refine Or.inr (Or.inl ⟨name, hname, ?_⟩)
      have := congrArg String.toList hpath
      simpa using this
    · exact Or.inr (Or.inr (Or.inl h))
    · exact Or.inr (Or.inr (Or.inr ⟨x, y, [], hx, hy, Or.inl rfl, (List.append_nil _).symm⟩))
    · exact Or.inr (Or.inl ⟨"themes.css", by decide, by decide⟩)
    · exact Or.inr (Or.inr (Or.inr ⟨x, y, ['/'], hx, hy, Or.inr rfl, rfl⟩))
    · exact Or.inr (Or.inr (Or.inr ⟨x, y, [], hx, hy, Or.inl rfl, (List.append_nil _).symm⟩))

theorem served_iff {pageId path : String} : Served pageId path.toList ↔
    (path ∈ staticPaths ∨ path = "/static/themes.css") ∨
      ∃ grantId suffix, Pages.grantIdRe grantId = true ∧
        path.toList = pagePath pageId grantId suffix ∧ Found pageId suffix := by
  unfold Served
  simp only [← static_cases, String.toList_inj]

/-- What is served is read as it stands. -/
theorem read_of_served [Library] {pageId : String} {q : List Char}
    (hpage : Pages.pageIdRe pageId = true) (h : Served pageId q) :
    urlsplit (selfPath q) = some (q, []) := by
  have hread : ∀ c rest, q = '/' :: c :: rest → c ≠ '/' → q.all plainChar = true →
      urlsplit (selfPath q) = some (q, []) := by
    rintro c rest rfl hc hplain
    have hstray : ∀ d ∈ c :: rest, strayChar d = false := by
      intro d hd
      have := List.all_eq_true.mp hplain d (List.mem_cons_of_mem _ hd)
      simp only [plainChar, Bool.and_eq_true, Bool.not_eq_true'] at this
      exact this.2
    obtain ⟨rest', query, hsplit, hrest⟩ := urlsplit_slash rest hc (hstray c List.mem_cons_self)
    obtain ⟨hrest, hquery⟩ := hrest fun d hd => hstray d (List.mem_cons_of_mem _ hd)
    rw [selfPath_slash rest hc, hsplit, hrest, hquery]
  rcases h with ⟨name, hname, rfl⟩ | ⟨grantId, suffix, hgrant, rfl, hfound⟩
  · have hall : ∀ name ∈ asset.assets, ("/static/" ++ name).toList.all plainChar = true := by decide
    refine hread 's' ("tatic/" ++ name).toList ?_ (by decide) (hall name hname)
    simp
  · refine hread 'g' ('/' :: (pageId.toList ++ '/' :: (grantId.toList ++ '/' :: suffix))) ?_
      (by decide) ((plain_pagePath hpage hgrant).trans (plain_of_found hpage hfound))
    simp [pagePath, pageRoot]

/-- On a path that is read as it stands. -/
theorem agree_iff {pageId path : String} (hpage : Pages.pageIdRe pageId = true) :
    (allowedGuestServicePath pageId path = true ↔ Served pageId path.toList) ↔
      ¬(path = "/static/themes.css" ∨ ∃ grantId suffix, Pages.grantIdRe grantId = true ∧
        path.toList = pagePath pageId grantId suffix ∧ Extra pageId suffix) := by
  rw [allowed_iff hpage, served_iff]
  have hthemes : "/static/themes.css" ∉ staticPaths := by decide
  have hscoped : ∀ grantId suffix, path.toList = pagePath pageId grantId suffix →
      path ∉ staticPaths ∧ path ≠ "/static/themes.css" := by
    intro grantId suffix hpath
    have hsecond : path.toList.take 2 = ['/', 'g'] := by
      rw [hpath]
      simp [pagePath, pageRoot]
    have hall : ∀ p ∈ "/static/themes.css" :: staticPaths, p.toList.take 2 ≠ ['/', 'g'] := by decide
    exact ⟨fun h => hall _ (List.mem_cons_of_mem _ h) hsecond,
      fun h => hall _ (h ▸ List.mem_cons_self) hsecond⟩
  constructor
  · rintro hagree (rfl | ⟨grantId, suffix, hgrant, hpath, hextra⟩)
    · rcases hagree.mpr (Or.inl (Or.inr rfl)) with h | ⟨grantId, suffix, -, hpath, -⟩
      · exact hthemes h
      · exact (hscoped _ _ hpath).2 rfl
    · have hfound : Found pageId suffix := found_iff.mpr (Or.inr hextra)
      rcases hagree.mpr (Or.inr ⟨grantId, suffix, hgrant, hpath, hfound⟩) with
        h | ⟨grantId', suffix', hgrant', hpath', hpass⟩
      · exact (hscoped _ _ hpath).1 h
      · obtain rfl := pagePath_inj hpage hgrant hgrant' (hpath.symm.trans hpath')
        exact not_passes_of_extra hpage hextra hpass
  · intro hnone
    constructor
    · rintro (h | ⟨grantId, suffix, hgrant, hpath, hpass⟩)
      · exact Or.inl (Or.inl h)
      · exact Or.inr ⟨grantId, suffix, hgrant, hpath, found_iff.mpr (Or.inl hpass)⟩
    · rintro ((h | h) | ⟨grantId, suffix, hgrant, hpath, hfound⟩)
      · exact Or.inl h
      · exact absurd (Or.inl h) hnone
      · rcases found_iff.mp hfound with hpass | hextra
        · exact Or.inr ⟨grantId, suffix, hgrant, hpath, hpass⟩
        · exact absurd (Or.inr ⟨grantId, suffix, hgrant, hpath, hextra⟩) hnone

/-- What the endpoint lets through is served, and so are the themes and the
extras. -/
theorem served_of_allowed {pageId path : String} (hpage : Pages.pageIdRe pageId = true)
    (h : allowedGuestServicePath pageId path = true) : Served pageId path.toList := by
  rw [served_iff]
  rcases (allowed_iff hpage).mp h with h | ⟨grantId, suffix, hgrant, hpath, hpass⟩
  · exact Or.inl (Or.inl h)
  · exact Or.inr ⟨grantId, suffix, hgrant, hpath, found_iff.mpr (Or.inl hpass)⟩

/-- **Which paths the two routers agree on.** They name the operation of
every request alike; and on every path of every page, what the endpoint
lets through is what the service finds, exactly unless the path is one
only the service knows. -/
theorem routers_agree_iff [Python] [Library] (sha256 : String → String) :
    (∀ method path bootstrap, Endpoint.guestOperation method path bootstrap =
      (guestOperation method path.toList bootstrap).name) ∧
    ∀ pageId path, Pages.pageIdRe pageId = true → ∀ v : Visit sha256 pageId path,
      ((allowedGuestServicePath pageId path = true ↔ v.Resolves) ↔ ¬ ServiceOnly pageId path) := by
  refine ⟨endpoint_guestOperation, fun pageId path hpage v => ?_⟩
  rw [v.resolves_iff hpage]
  by_cases hread : urlsplit (selfPath path.toList) = some (path.toList, [])
  · have hserved : (∃ q, urlsplit (selfPath path.toList) = some (q, []) ∧ Served pageId q) ↔
        Served pageId path.toList := by
      rw [hread]
      exact ⟨fun ⟨q, hq, h⟩ => (Prod.mk.inj (Option.some.inj hq)).1 ▸ h, fun h => ⟨_, rfl, h⟩⟩
    have hother : ¬ ∃ q, q ≠ path.toList ∧ urlsplit (selfPath path.toList) = some (q, []) ∧
        Served pageId q := by
      rintro ⟨q, hne, hq, -⟩
      rw [hread] at hq
      exact hne (Prod.mk.inj (Option.some.inj hq)).1.symm
    rw [hserved, agree_iff hpage, ServiceOnly, ← or_assoc, or_iff_left hother]
  · -- nothing the endpoint knows is read as another path
    have hnot : ¬ Served pageId path.toList := fun h => hread (read_of_served hpage h)
    rw [iff_false_left fun h => hnot (served_of_allowed hpage h), not_iff_not, ServiceOnly]
    constructor
    · rintro ⟨q, hq, h⟩
      exact Or.inr (Or.inr ⟨q, fun he => hread (he ▸ hq), hq, h⟩)
    · rintro (rfl | ⟨grantId, suffix, hgrant, hpath, hextra⟩ | ⟨q, -, hq, h⟩)
      · exact absurd (served_iff.mpr (Or.inl (Or.inr rfl))) hnot
      · exact absurd (served_iff.mpr (Or.inr ⟨grantId, suffix, hgrant, hpath,
          found_iff.mpr (Or.inr hextra)⟩)) hnot
      · exact ⟨q, hq, h⟩

/-! ## A guest of the gate -/

/-- The parsers, as far as the requests below use them. -/
abbrev Library.plain : Library :=
  letI := Python.plain
  { unquote s := s
    netloc _ := false
    cookies s := some (if "access_pages_guest=".toList <+: s.toList then
      [("access_pages_guest", String.ofList (s.toList.drop 19))] else [])
    fieldsLength fields := (Json.repr (.obj fields)).length
    resultLength
      | .session r _ => (Json.repr (.obj [("page_id", .str r.pageId), ("grant_id", .str r.grantId),
          ("expires_at", .int r.expiresAt), ("status", .str (statusText r.status))])).length
      | _ => 0 }
where
  statusText : Broker.SessionState → String
    | .sessionReady => "session_ready"
    | .verificationRequired => "verification_required"

/-- The digests of the capability and the session too. -/
def gateKeys (s : String) : String :=
  if s = "gate-capability-0001" then
    "d3930529a0e4abc5cc23d7f1867bfe719ea574c3d11f3e5bbc978b3917fd2e59"
  else if s = "guest-session-0001" then
    "413cdeac008e2f3d1fed0559085da68fde091caa0b6446e8f83d51c80951d82e"
  else Broker.gateDigest s

/-- The gate after the invitation was opened. -/
def gateServed : World :=
  { Broker.gateWorld with
    capabilities := some (.obj [("gate", .str (gateKeys "gate-capability-0001"))])
    db := (Sessions.consumeBootstrap gateKeys .empty Broker.gateWorld.clock "guest-session-0001"
      "gate" Broker.gateGrant.id "door-invitation-000000000000000000000000000"
      Broker.gateGrant.tokenHash (1894060800 * second) true).2 }

def gateEnv : Env where
  clockNs := 0
  late := false
  overdue := false
  slot := true
  brokerHealthy := true
  connector := .ok true
  now := 1893456000
  readable _ := true
  connect _ := none
  brokerClockNs _ := 0
  receive _ := none

def gateHeaders : Headers :=
  [("X-Access-Pages-Page-ID", "gate"), ("X-Page-Capability", "gate-capability-0001"),
    ("Cookie", "access_pages_guest=guest-session-0001"), ("X-Guest-Request", "1"),
    ("Content-Type", "application/json"), ("Content-Length", "2")]

def accepted : Except ServiceExc BrokerReply → Bool
  | .ok (.ok _) => true
  | _ => false

/-- The session of the gate's grant is taken. -/
theorem gate_live (suffix : List Char) :
    letI := Python.plain
    letI := Library.plain
    ∃ r, ((brokerGuestAuth gateKeys gateEnv none
      (Scope.call ⟨"gate", Broker.gateGrant.id, suffix, "gate-capability-0001"⟩ .sessionStatus
        "guest-session-0001" [])).run.run (Op.step gateKeys) gateServed).1 = .ok (.ok r) := by
  let _ := Python.plain
  let _ := Library.plain
  have hlive : accepted ((brokerGuestAuth gateKeys gateEnv none
      (Scope.call ⟨"gate", Broker.gateGrant.id, [], "gate-capability-0001"⟩ .sessionStatus
        "guest-session-0001" [])).run.run (Op.step gateKeys) gateServed).1 = true := by
    decide +kernel
  change ∃ r, ((brokerGuestAuth gateKeys gateEnv none
      (Scope.call ⟨"gate", Broker.gateGrant.id, [], "gate-capability-0001"⟩ .sessionStatus
        "guest-session-0001" [])).run.run (Op.step gateKeys) gateServed).1 = .ok (.ok r)
  revert hlive
  generalize ((brokerGuestAuth gateKeys gateEnv none
      (Scope.call ⟨"gate", Broker.gateGrant.id, [], "gate-capability-0001"⟩ .sessionStatus
        "guest-session-0001" [])).run.run (Op.step gateKeys) gateServed).1 = x
  rcases x with e | (r | _)
  · exact fun h => absurd h Bool.false_ne_true
  · exact fun _ => ⟨r, rfl⟩
  · exact fun h => absurd h Bool.false_ne_true

/-- A guest of the gate at one of its paths, or at a file. -/
def gateVisit (path : String) (q : List Char)
    (hread : letI := Library.plain; urlsplit (selfPath path.toList) = some (q, []))
    (hgrant : ∀ grantId suffix, guestRoute q = some ("gate", grantId, suffix) →
      grantId = Broker.gateGrant.id) :
    letI := Python.plain
    letI := Library.plain
    Visit gateKeys "gate" path :=
  letI := Python.plain
  letI := Library.plain
  { env := gateEnv
    timing := none
    headers := gateHeaders
    body := some []
    capability := "gate-capability-0001"
    session := "guest-session-0001"
    fields := []
    world := gateServed
    query := by
      intro q' query hq
      rw [hread] at hq
      exact (Prod.mk.inj (Option.some.inj hq)).2.symm
    claims := by decide
    capabilities := by decide
    cookies := by decide +kernel
    marked := by decide
    wellFormed := by
      have hlength : gateHeaders.getAll "Content-Length" = ["2"] := by decide
      unfold payload
      dsimp only
      rw [if_neg (by decide), hlength]
      exact if_pos (by decide)
    connector := rfl
    live := by
      intro q' query grantId suffix hq h
      rw [hread] at hq
      obtain rfl := (Prod.mk.inj (Option.some.inj hq)).1
      obtain rfl := hgrant grantId suffix h
      exact gate_live suffix }

/-- Where a call of the gate's switch is. -/
def gateCall : String := "/g/gate/grant_AAAAAAAAAAAAAAAA/api/access/gate/light/turn_on"

/-- A file of the gate that the endpoint does not know under that name is
served. -/
theorem gateVisit_resolves {path : String} (name : String) (hread : letI := Library.plain
    urlsplit (selfPath path.toList) = some (("/static/" ++ name).toList, []))
    (hgrant : ∀ grantId suffix,
      guestRoute ("/static/" ++ name).toList = some ("gate", grantId, suffix) →
      grantId = Broker.gateGrant.id) (hname : name ∈ asset.assets) :
    letI := Python.plain
    letI := Library.plain
    (gateVisit path _ hread hgrant).Resolves := by
  let _ := Python.plain
  let _ := Library.plain
  have hpage : Pages.pageIdRe "gate" = true := by decide
  exact ((gateVisit path _ hread hgrant).resolves_iff hpage).mpr
    ⟨_, hread, Or.inl ⟨name, hname, rfl⟩⟩

/-- The gate's style sheet is no path of the endpoint, nor is one with two
slashes before it, yet the service serves both. -/
theorem routers_disagree :
    letI := Python.plain
    letI := Library.plain
    (∃ v : Visit gateKeys "gate" "/static/themes.css",
      allowedGuestServicePath "gate" "/static/themes.css" = false ∧ v.Resolves) ∧
    ∃ v : Visit gateKeys "gate" "//static/access.css",
      allowedGuestServicePath "gate" "//static/access.css" = false ∧ v.Resolves := by
  let _ := Python.plain
  let _ := Library.plain
  have hthemes : guestRoute ("/static/" ++ "themes.css").toList = none := by decide
  have haccess : guestRoute ("/static/" ++ "access.css").toList = none := by decide
  exact ⟨⟨_, by decide, gateVisit_resolves "themes.css" (by decide)
      (by rw [hthemes]; exact nofun) (by decide)⟩,
    _, by decide, gateVisit_resolves "access.css" (by decide)
      (by rw [haccess]; exact nofun) (by decide)⟩

theorem routers_agree_iff_gate :
    letI := Python.plain
    letI := Library.plain
    Pages.pageIdRe "gate" = true ∧ ∃ v : Visit gateKeys "gate" gateCall,
      (allowedGuestServicePath "gate" gateCall = true ↔ v.Resolves) ↔
        ¬ ServiceOnly "gate" gateCall := by
  let _ := Python.plain
  let _ := Library.plain
  have hroute : guestRoute gateCall.toList =
      some ("gate", Broker.gateGrant.id, "api/access/gate/light/turn_on".toList) := by decide
  refine ⟨by decide, gateVisit gateCall gateCall.toList (by decide) fun grantId suffix h => ?_, ?_⟩
  · rw [hroute] at h
    simp only [Option.some.injEq, Prod.mk.injEq] at h
    exact h.2.1.symm
  · exact (@routers_agree_iff Python.plain Library.plain gateKeys).2 "gate" gateCall (by decide) _

end Guest

end AccessPages
