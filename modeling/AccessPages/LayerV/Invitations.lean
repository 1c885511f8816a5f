import AccessPages.LayerV.Grants
import AccessPages.Pages.RoundTrip
import AccessPages.Pages.Masking
import AccessPages.Common.IsoText
/-!
# LayerV — an invitation from the gateway to its page

The owner names a lifetime. The gateway checks it in `_create_qurl` and asks
the broker, the broker checks the request in `create_grant` and asks LayerV,
the client checks the reply in `create_qurl`, and the gateway stores what
came back as a grant of the page. The four are written separately, with
their own grammars and units.
-/

namespace AccessPages

namespace LayerV

open Pages (Page Grant UpstreamScope pageIdRe grantIdRe isTokenChar awareTime isoText validatePage
  validateGrant rawGrants)

/-! ## The gateway's request -/

/-- `parse_qurl_lifetime`: the text that is sent on, and the seconds it stands
for. -/
def parseQurlLifetime (maxDays : Nat) (value : String) : Except String (String × Int) :=
  let lifetime := Pages.lower (strip value)
  match duration? 5 lifetimeUnit lifetime with
  | none => .error "Use a whole-number duration such as 30m, 12h, 3d, or 1w"
  | some seconds =>
      if 86400 * maxDays < seconds then
        .error ("qURL lifetime exceeds the configured maximum of " ++ toString maxDays ++ " days")
      else .ok (lifetime, seconds)

/-- What `_create_qurl` has decided before it asks for an invitation. -/
structure Prepared where
  request : CreateRequest
  seconds : Int
  createdAt : Instant
  verificationRequired : Bool
  deriving DecidableEq, Repr

section Gateway

variable [Python]

/-- `_create_qurl` up to its call of the broker. The two parts of the grant's
name and of its secret are what `secrets.token_urlsafe` returned. -/
def prepareInvitation (maxDays : Nat) (pageId suffix rawToken : String) (createdAt : Instant)
    (payload : List (String × Json)) : Except String Prepared := do
  let (lifetime, seconds) ←
    parseQurlLifetime maxDays (Json.getD payload "lifetime" (.str "24h")).toStr
  let label := slice (Json.text payload "label" "") 120
  let oneTimeUse := (Json.getD payload "one_time_use" (.bool false)).truthy
  let verificationRequired := (Json.getD payload "verification_required" (.bool false)).truthy
  if oneTimeUse = true ∧ 86400 < seconds then
    .error ("Single-use access supports at most 24 hours; use renewable access for a longer " ++
      "guest grant")
  else
    let grantId := "grant_" ++ suffix
    .ok ⟨{ pageId, grantId, label, oneTimeUse
           expiresIn := lifetime
           targetPath := "/g/" ++ pageId ++ "/" ++ grantId ++ "/?bootstrap=" ++ rawToken
           sessionDuration := toString (min seconds 86400) ++ "s" },
      seconds, createdAt, verificationRequired⟩

end Gateway

/-! ## The wire -/

/-- The fields `BrokerLayerVClient.create_qurl` posts. -/
def CreateRequest.fields (r : CreateRequest) : List (String × Json) :=
  [("page_id", .str r.pageId), ("grant_id", .str r.grantId), ("label", .str r.label),
    ("expires_in", .str r.expiresIn), ("target_path", .str r.targetPath),
    ("one_time_use", .bool r.oneTimeUse), ("session_duration", .str r.sessionDuration)]

/-- `value is True`. -/
def isTrue : Json → Bool
  | .bool b => b
  | _ => false

/-- What `do_POST` makes of a body. -/
def readRequest [Python] (payload : List (String × Json)) : CreateRequest where
  pageId := (Json.getD payload "page_id" (.str "")).toStr
  grantId := (Json.getD payload "grant_id" (.str "")).toStr
  label := (Json.getD payload "label" (.str "")).toStr
  expiresIn := (Json.getD payload "expires_in" (.str "")).toStr
  targetPath := (Json.getD payload "target_path" (.str "")).toStr
  oneTimeUse := isTrue (Json.getD payload "one_time_use" .null)
  sessionDuration := (Json.getD payload "session_duration" (.str "1h")).toStr

theorem readRequest_fields [Python] (r : CreateRequest) : readRequest r.fields = r := rfl

/-! ## Durations -/

section Durations

variable {s : String} {k : Nat} {unit : Char → Option Int} {n : Int}

/-- A duration that is read is a number and a unit. -/
theorem duration?_eq_some (h : duration? k unit s = some n) :
    ∃ (ds : List Char) (u : Char) (m : Nat) (seconds : Int), s.toList = ds ++ [u] ∧
      unit u = some seconds ∧ digits? ds = some m ∧ ds.head? ≠ some '0' ∧ n = m * seconds := by
  unfold duration? at h
  split at h
  · cases h
  · rename_i u ds hs
    dsimp only at h
    split at h
    · rename_i seconds m hu hm
      split at h
      · rename_i hhead
        refine ⟨ds.reverse, u, m, seconds, ?_, hu, hm, hhead.1, (Option.some.inj h).symm⟩
        rw [← List.reverse_cons, ← hs, List.reverse_reverse]
      · cases h
    · cases h

/-- A number and a unit are read as they are. -/
theorem duration?_append {ds : List Char} {u : Char} {m : Nat} {seconds : Int}
    (hu : unit u = some seconds) (hm : digits? ds = some m) (hhead : ds.head? ≠ some '0')
    (hlen : ds.length ≤ k) : duration? k unit (String.ofList (ds ++ [u])) = some (m * seconds) := by
  unfold duration?
  rw [String.toList_ofList, List.reverse_append, List.reverse_singleton, List.singleton_append]
  dsimp only
  rw [List.reverse_reverse, hu, hm]
  exact if_pos ⟨hhead, hlen⟩

theorem isDigit_of_digits? {ds : List Char} {m : Nat} (h : digits? ds = some m) :
    ds ≠ [] ∧ ∀ c ∈ ds, c.isDigit = true := by
  unfold digits? at h
  split at h
  · rename_i hds
    exact ⟨hds.1, List.all_eq_true.mp hds.2⟩
  · cases h

/-- Digits that follow a positive number make a positive one. -/
theorem foldl_digits_pos (cs : List Char) {n : Nat} (h : 0 < n) :
    0 < cs.foldl (fun n c => 10 * n + (c.toNat - '0'.toNat)) n := by
  induction cs generalizing n with
  | nil => exact h
  | cons c cs ih => exact ih (Nat.add_pos_left (Nat.mul_pos (by decide) h) _)

/-- A number without a leading zero is positive. -/
theorem digits?_pos {ds : List Char} {m : Nat} (h : digits? ds = some m)
    (hhead : ds.head? ≠ some '0') : 0 < m := by
  obtain ⟨hne, hdigit⟩ := isDigit_of_digits? h
  have hvalue : ds.foldl (fun n c => 10 * n + (c.toNat - '0'.toNat)) 0 = m := by
    rw [digits?, if_pos ⟨hne, List.all_eq_true.mpr hdigit⟩] at h
    exact Option.some.inj h
  cases ds with
  | nil => exact absurd rfl hne
  | cons c cs =>
      have hc := hdigit c List.mem_cons_self
      have hzero : c ≠ '0' := fun hc0 => hhead (by rw [hc0]; rfl)
      simp only [Char.isDigit, Bool.and_eq_true, decide_eq_true_eq] at hc
      have hlow : '0'.toNat ≤ c.toNat := hc.1
      have hpos : '0'.toNat < c.toNat :=
        lt_of_le_of_ne hlow fun heq => hzero (Char.toNat_inj.mp heq.symm)
      rw [← hvalue]
      exact foldl_digits_pos cs (Nat.add_pos_right _ (Nat.sub_pos_of_lt hpos))

theorem head_toDigits {n : Nat} (h : 0 < n) : (Nat.toDigits 10 n).head? ≠ some '0' := by
  induction n using Nat.strong_induction_on with
  | _ n ih =>
      by_cases hn : n < 10
      · rw [Nat.toDigits_of_lt_base hn]
        interval_cases n <;> decide
      · have hdiv : 0 < n / 10 := by omega
        have hrec := ih (n / 10) (by omega) hdiv
        rw [Nat.toDigits_of_base_le (by decide) (by omega),
          List.head?_append_of_ne_nil _ Nat.toDigits_ne_nil]
        exact hrec

/-- A number that is printed is read back. -/
theorem digits?_toDigits (n : Nat) : digits? (Nat.toDigits 10 n) = some n := by
  have hdigit : (Nat.toDigits 10 n).all Char.isDigit = true :=
    List.all_eq_true.mpr fun c hc => Nat.isDigit_of_mem_toDigits (by decide) (by decide) hc
  rw [digits?, if_pos ⟨Nat.toDigits_ne_nil, hdigit⟩, ← Nat.ofDigitChars_eq_foldl,
    Nat.ofDigitChars_ten_toDigits]

/-- The admission duration the gateway writes is the one the broker reads. -/
theorem duration?_seconds {m : Nat} (hpos : 0 < m) (hm : m ≤ 86400) :
    duration? 6 sessionUnit (toString (m : Int) ++ "s") = some (m : Int) := by
  have hlen : (Nat.toDigits 10 m).length ≤ 6 :=
    (Nat.length_toDigits_le_iff (by decide) (by decide)).mpr (by omega)
  have htext : toString (m : Int) ++ "s" = String.ofList (Nat.toDigits 10 m ++ ['s']) := by
    rw [String.ofList_append, ← Nat.repr_eq_ofList_toDigits]
    rfl
  have hread : duration? 6 sessionUnit (String.ofList (Nat.toDigits 10 m ++ ['s'])) =
      some ((m : Int) * 1) :=
    duration?_append rfl (digits?_toDigits m) (head_toDigits hpos) hlen
  rw [htext, hread, mul_one]

theorem lifetimeUnit_eq_some {c : Char} {seconds : Int} (h : lifetimeUnit c = some seconds) :
    c ∈ ['m', 'h', 'd', 'w'] ∧ 60 ≤ seconds := by
  obtain ⟨l, l', hl, -⟩ := List.lookup_eq_some_iff.mp h
  have hmem : (c, seconds) ∈ [('m', (60 : Int)), ('h', 3600), ('d', 86400), ('w', 604800)] := by
    rw [hl]
    exact List.mem_append_right _ List.mem_cons_self
  simp only [List.mem_cons, List.not_mem_nil, or_false, Prod.mk.injEq] at hmem
  rcases hmem with ⟨rfl, rfl⟩ | ⟨rfl, rfl⟩ | ⟨rfl, rfl⟩ | ⟨rfl, rfl⟩ <;> decide

/-- A lifetime that is read has no capital letters and no spaces. -/
theorem normal_of_lifetime (h : duration? 5 lifetimeUnit s = some n) :
    Pages.lower (strip s) = s := by
  obtain ⟨ds, u, m, seconds, hs, hu, hm, -, -⟩ := duration?_eq_some h
  have hchar : ∀ c ∈ s.toList, isSpace c = false ∧ c.toLower = c := by
    intro c hc
    rw [hs, List.mem_append, List.mem_singleton] at hc
    rcases hc with hc | rfl
    · have hdigit := (isDigit_of_digits? hm).2 c hc
      obtain ⟨hlower, hspace⟩ := Pages.hashChar_plain (c := c) (by rw [hdigit]; rfl)
      exact ⟨hspace, hlower⟩
    · have hunit := (lifetimeUnit_eq_some hu).1
      simp only [List.mem_cons, List.not_mem_nil, or_false] at hunit
      rcases hunit with rfl | rfl | rfl | rfl <;> decide
  rw [strip_eq_self fun c hc => (hchar c hc).1, Pages.lower,
    List.map_congr_left fun c hc => (hchar c hc).2, List.map_id', String.ofList_toList]

/-- The broker reads the lifetime that the gateway sends as the gateway read it. -/
theorem lifetime_of_parse (cfg : Config) {value : String} {lifetime' : String} {seconds : Int}
    (h : parseQurlLifetime cfg.maxDays value = .ok (lifetime', seconds)) :
    lifetime cfg lifetime' = .ok seconds ∧ 60 ≤ seconds ∧ seconds ≤ 86400 * cfg.maxDays := by
  unfold parseQurlLifetime at h
  dsimp only at h
  split at h
  · cases h
  · rename_i n hn
    split at h
    · cases h
    · rename_i hmax
      obtain ⟨rfl, rfl⟩ := Prod.mk.inj (Except.ok.inj h)
      obtain ⟨ds, u, m, seconds', -, hu, hm, hhead, hmul⟩ := duration?_eq_some hn
      have hpos := digits?_pos hm hhead
      have hunit := (lifetimeUnit_eq_some hu).2
      refine ⟨?_, ?_, not_lt.mp hmax⟩
      · rw [lifetime, normal_of_lifetime hn, hn]
        exact if_neg hmax
      · rw [hmul]
        calc (60 : Int) ≤ seconds' := hunit
          _ = 1 * seconds' := (one_mul _).symm
          _ ≤ m * seconds' := mul_le_mul_of_nonneg_right (by omega) (by omega)

end Durations

/-! ## Paths -/

section Paths

variable {pageId suffix rawToken : String}

/-- A grant's name, as the gateway makes it. -/
theorem grantIdRe_made (hsuffix : matchesClass isTokenChar 16 16 suffix.toList = true) :
    grantIdRe ("grant_" ++ suffix) = true := by
  have htext : ("grant_" ++ suffix).toList = "grant_".toList ++ suffix.toList :=
    String.toList_append
  have hsix : "grant_".toList.length = 6 := rfl
  simp only [grantIdRe, htext, Bool.and_eq_true, decide_eq_true_eq]
  rw [List.take_left' hsix, List.drop_left' hsix]
  exact ⟨rfl, hsuffix⟩

theorem length_made (hsuffix : matchesClass isTokenChar 16 16 suffix.toList = true) :
    ("grant_" ++ suffix).toList.length = 22 := by
  have hsix : "grant_".toList.length = 6 := rfl
  simp only [matchesClass, Bool.and_eq_true, decide_eq_true_eq] at hsuffix
  rw [String.toList_append, List.length_append, hsix]
  omega

/-- The path the gateway makes is of the broker's grammar. -/
theorem targetPathRe_made {grantId : String} (hgrant : grantIdRe grantId = true)
    (hlength : grantId.toList.length = 22)
    (hraw : matchesClass isTokenChar 43 43 rawToken.toList = true) :
    targetPathRe pageId ("/g/" ++ pageId ++ "/" ++ grantId ++ "/?bootstrap=" ++ rawToken) =
      true := by
  have htext : ("/g/" ++ pageId ++ "/" ++ grantId ++ "/?bootstrap=" ++ rawToken).toList =
      ("/g/" ++ pageId ++ "/").toList ++
        (grantId.toList ++ ("/?bootstrap=".toList ++ rawToken.toList)) := by
    simp only [String.toList_append, List.append_assoc]
  have htwelve : "/?bootstrap=".toList.length = 12 := rfl
  simp only [targetPathRe, htext, Bool.and_eq_true, decide_eq_true_eq]
  rw [List.take_left' rfl, List.drop_left' rfl, List.take_left' hlength, List.drop_left' hlength,
    List.take_left' htwelve, String.ofList_toList]
  refine ⟨⟨⟨rfl, hgrant⟩, rfl⟩, ?_⟩
  have hsplit : grantId.toList ++ ("/?bootstrap=".toList ++ rawToken.toList) =
      (grantId.toList ++ "/?bootstrap=".toList) ++ rawToken.toList := (List.append_assoc ..).symm
  rw [hsplit, List.drop_left' (by rw [List.length_append, hlength]; rfl)]
  exact hraw

theorem safeId_of_pageIdRe (h : pageIdRe pageId = true) : safeId pageId = true := by
  have hchars := fun c hc => Pages.isTokenChar_of_isIdChar (Pages.isIdChar_of_pageIdRe h c hc)
  unfold pageIdRe at h
  unfold safeId
  cases hid : pageId.toList with
  | nil => rw [hid] at h; cases h
  | cons c cs =>
      rw [hid] at h hchars
      simp only [matchesClass, Bool.and_eq_true, decide_eq_true_eq, List.length_cons,
        List.all_eq_true] at h ⊢
      exact ⟨⟨by omega, by omega⟩, hchars⟩

theorem safeId_of_grantIdRe {grantId : String} (h : grantIdRe grantId = true)
    (hlength : grantId.toList.length = 22) : safeId grantId = true := by
  have hchars := Pages.isTokenChar_of_grantIdRe h
  simp only [safeId, matchesClass, Bool.and_eq_true, decide_eq_true_eq, List.all_eq_true]
  exact ⟨⟨by omega, by omega⟩, hchars⟩

end Paths

/-! ## What the gateway accepts, the broker accepts -/

/-- What LayerV is asked for, when the broker takes a request as it was meant. -/
def Prepared.wanted (a : Prepared) : Wanted where
  label := a.request.label
  lifetimeSeconds := a.seconds
  targetPath := a.request.targetPath
  oneTimeUse := a.request.oneTimeUse
  sessionSeconds := min a.seconds 86400

section Approval

variable [Python] {pageId suffix rawToken : String} {createdAt : Instant}
  {payload : List (String × Json)} {a : Prepared}

/-- A request that the gateway sends passes the checks of `create_grant`. -/
theorem checkCreate_prepared (cfg : Config) (hpage : pageIdRe pageId = true)
    (hsuffix : matchesClass isTokenChar 16 16 suffix.toList = true)
    (hraw : matchesClass isTokenChar 43 43 rawToken.toList = true)
    (h : prepareInvitation cfg.maxDays pageId suffix rawToken createdAt payload = .ok a) :
    checkCreate cfg a.request = .ok a.wanted ∧ grantIdRe a.request.grantId = true ∧
      60 ≤ a.seconds ∧ a.seconds ≤ 86400 * cfg.maxDays := by
  obtain ⟨⟨lifetime', seconds⟩, hparse, h⟩ := Pages.except_bind_eq_ok.mp h
  obtain ⟨hlifetime, hlower, hupper⟩ := lifetime_of_parse cfg hparse
  have hgrant := grantIdRe_made hsuffix
  have hlength := length_made hsuffix
  dsimp only at h
  split at h
  · cases h
  · rename_i hsingle
    obtain rfl := Except.ok.inj h
    refine ⟨?_, hgrant, hlower, hupper⟩
    have hsession : duration? 6 sessionUnit (toString (min seconds 86400) ++ "s") =
        some (min seconds 86400) := by
      obtain ⟨m, hm⟩ := Int.eq_ofNat_of_zero_le (show 0 ≤ min seconds 86400 by omega)
      rw [hm]
      exact duration?_seconds (by omega) (by omega)
    have hpath : targetPathRe pageId
        ("/g/" ++ pageId ++ "/" ++ ("grant_" ++ suffix) ++ "/?bootstrap=" ++ rawToken) = true :=
      targetPathRe_made hgrant hlength hraw
    have hprefix : ("/g/" ++ pageId ++ "/" ++ ("grant_" ++ suffix) ++ "/").toList.isPrefixOf
        ("/g/" ++ pageId ++ "/" ++ ("grant_" ++ suffix) ++ "/?bootstrap=" ++ rawToken).toList =
          true := by
      refine List.isPrefixOf_iff_prefix.mpr ⟨"?bootstrap=".toList ++ rawToken.toList, ?_⟩
      have hslash : "/?bootstrap=".toList = "/".toList ++ "?bootstrap=".toList := rfl
      simp only [String.toList_append, hslash, List.append_assoc]
    have hadmission : ¬ (¬ (1 ≤ min seconds 86400 ∧ min seconds 86400 ≤ min 86400 seconds) ∨
        ((Json.getD payload "one_time_use" (.bool false)).truthy = true ∧ 86400 < seconds)) := by
      rintro (hrange | hlong)
      · exact hrange ⟨by omega, by omega⟩
      · exact hsingle hlong
    have hfile : grantFile pageId ("grant_" ++ suffix) = .ok () :=
      if_pos ⟨safeId_of_pageIdRe hpage, safeId_of_grantIdRe hgrant hlength⟩
    simp only [checkCreate, hpath, hprefix, hsession, Option.getD_some, Bool.true_eq_false,
      if_false, hfile]
    refine Pages.except_bind_eq_ok.mpr ⟨seconds, hlifetime, ?_⟩
    rw [if_neg hadmission]
    rfl

end Approval

/-! ## The reply -/

/-- `value or other`. -/
def orElse (v other : Json) : Json := if v.truthy then v else other

/-- A value that is compared with a text; no other value equals one. -/
def textOf : Json → String
  | .str s => s
  | _ => ""

section Reply

variable [Python]

/-- `str(data.get(key) or "")`. -/
def fieldOf (data : List (String × Json)) (key : String) : String :=
  (orElse (Json.getD data key .null) (.str "")).toStr

/-- `str(data.get("qurl_id") or ...)`. -/
def qurlIdOf (data : List (String × Json)) : String :=
  (orElse (Json.getD data "qurl_id" .null) (orElse (Json.getD data "qurl_display_id" .null)
    (orElse (Json.getD data "display_id" .null) (orElse (Json.getD data "id" .null)
      (.str ""))))).toStr

/-- `data.get("qurl_link") or data.get("qurl")`. -/
def linkOf (data : List (String × Json)) : Json :=
  orElse (Json.getD data "qurl_link" .null) (Json.getD data "qurl" .null)

/-- What `create_qurl` checks of the `data` of a reply. -/
def readMinted (requestedAt : Instant) (data : List (String × Json)) : Minted where
  qurlId := qurlIdOf data
  qurlLink := (orElse (linkOf data) (.str "")).toStr
  resourceId := textOf (Json.getD data "resource_id" .null)
  targetPath := textOf (Json.getD data "target_path" .null)
  expiresAt := (Json.get? data "expires_at").bind fun v => Python.fromIsoFormat (isoText v.toStr)
  requestedAt

/-- What `create_qurl` returns, which the broker answers with. -/
def replyFields (client : Client) (wanted : Wanted) (data : List (String × Json)) :
    List (String × Json) :=
  [("qurl_id", .str (qurlIdOf data)), ("qurl_link", .str (linkOf data).toStr),
    ("qurl_site", .str (fieldOf data "qurl_site")),
    ("resource_id", .str (fieldOf data "resource_id")),
    ("expires_at", .str (fieldOf data "expires_at")), ("type", .str (fieldOf data "type")),
    ("label", .str (orElse (Json.getD data "label" .null) (.str wanted.label)).toStr),
    ("one_time_use", .bool wanted.oneTimeUse),
    ("target_path_applied", .bool (wanted.targetPath ≠ "")),
    ("target_path", .str (fieldOf data "target_path"))] ++
  if client.resourcePublicKey = "" then []
  else [("resource_crid", .str client.resourceId),
    ("upstream_scope", .str client.resourceScope.name)]

/-! ## The grant -/

/-- The grant `_create_qurl` makes of a reply. `tokenHash` is `token_hash`, and
`resourceId` the resource the gateway is set up with. -/
def grantFields (tokenHash : String → String) (resourceId : String) (a : Prepared)
    (rawToken : String) (notifications : Json) (qurl : List (String × Json)) :
    List (String × Json) :=
  [("id", .str a.request.grantId), ("token_hash", .str (tokenHash rawToken)),
    ("created_at", .str (zulu a.createdAt)),
    ("expires_at", orElse (Json.getD qurl "expires_at" .null)
      (.str (zulu (a.createdAt + second * a.seconds)))),
    ("label", .str a.request.label), ("lifetime", .str a.request.expiresIn),
    ("one_time_use", .bool a.request.oneTimeUse),
    ("qurl_link", Json.getD qurl "qurl_link" .null),
    ("qurl_site", Json.getD qurl "qurl_site" (.str "")),
    ("resource_id", orElse (Json.getD qurl "resource_id" (.str "")) (.str resourceId)),
    ("qurl_id", Json.getD qurl "qurl_id" (.str "")), ("type", Json.getD qurl "type" (.str "")),
    ("verification_required", .bool a.verificationRequired),
    ("notifications", orElse notifications (.obj [("targets", .arr []), ("events", .arr [])])),
    ("target_path_applied", .bool (Json.getD qurl "target_path_applied" (.bool false)).truthy),
    ("credential_flow", .str "bootstrap-v1"),
    ("resource_crid", Json.getD qurl "resource_crid" (.str "")),
    ("upstream_scope", Json.getD qurl "upstream_scope" (.str "page"))]

/-- The page that was loaded, with the grant in front. -/
def invitedPage (page : Page) (grant : Json) : Json :=
  .obj (page.fields.filter (·.1 ≠ "access_grants") ++
    [("access_grants", .arr (grant :: page.accessGrants.map Grant.toJson))])

/-! ## How long the grant lasts -/

/-- `datetime.fromisoformat` reads no time with an offset from a text with spaces
around it, nor from `str` of a value that counts as false. -/
structure ReadsTimes : Prop where
  stripped : ∀ {s t}, awareTime s = some t → strip s = s
  truthy : ∀ {v : Json} {t}, awareTime v.toStr = some t → v.truthy = true

variable {client : Client} {wanted : Wanted} {requestedAt : Instant} {data : List (String × Json)}

/-- A reply that is confirmed names its end, within the lifetime. -/
theorem deadline_of_reply (hreads : ReadsTimes)
    (h : checkMinted client wanted (readMinted requestedAt data) = .ok ()) :
    ∃ deadline, awareTime (fieldOf data "expires_at") = some deadline ∧
      fieldOf data "expires_at" ≠ "" ∧ requestedAt < deadline ∧
      deadline ≤ requestedAt + second * wanted.lifetimeSeconds + 5 * second := by
  have hconfirmed : expiryConfirmed wanted (readMinted requestedAt data) = true := by
    cases hc : expiryConfirmed wanted (readMinted requestedAt data) with
    | true => rfl
    | false =>
        simp only [checkMinted, hc, Bool.false_eq_true, if_false] at h
        split_ifs at h
  unfold expiryConfirmed at hconfirmed
  split at hconfirmed
  · rename_i deadline hdeadline
    obtain ⟨v, hv, hread⟩ := Option.bind_eq_some_iff.mp hdeadline
    have haware : awareTime v.toStr = some deadline := by
      unfold awareTime
      rw [hread]
    have hfield : fieldOf data "expires_at" = v.toStr := by
      unfold fieldOf orElse Json.getD
      rw [hv, Option.getD_some, if_pos (hreads.truthy haware)]
    obtain ⟨hlower, hupper⟩ := of_decide_eq_true hconfirmed
    refine ⟨deadline, hfield ▸ haware, ?_, hlower, hupper⟩
    intro hempty
    rw [hfield] at hempty
    have hfalse := hreads.truthy (v := .str "") (t := deadline) (hempty ▸ haware)
    cases hfalse
  · cases hconfirmed

theorem validateGrant_text {seen : List String} {raw : List (String × Json)} {g : Grant}
    (h : validateGrant seen (.obj raw) = .ok g) :
    g.id = Json.text raw "id" "" ∧ g.expiresAt = Json.text raw "expires_at" "" := by
  simp only [validateGrant, Pages.except_bind_eq_ok] at h
  obtain ⟨-, -, -, -, -, -, _, -, -, -, _, -, _, -, -, -, -, -, -, -, _, -, h⟩ := h
  cases h
  exact ⟨rfl, rfl⟩

/-- The grant in front is the only one of its name. -/
theorem grant_in_front {page q : Page} {raw : List (String × Json)} {requiredId : Option String}
    (h : validatePage (invitedPage page (.obj raw)) requiredId = .ok q) {g : Grant}
    (hg : g ∈ q.accessGrants) (hid : g.id = Json.text raw "id" "") :
    g.expiresAt = Json.text raw "expires_at" "" := by
  have hgrants : Pages.validateAccessGrants
      (.arr (.obj raw :: page.accessGrants.map Grant.toJson)) = .ok q.accessGrants :=
    Pages.validatePage_grants h
  simp only [Pages.validateAccessGrants, Pages.validateGrants, Pages.except_bind_eq_ok] at hgrants
  obtain ⟨gs, ⟨new, hnew, old, hold, hgs⟩, hsorted⟩ := hgrants
  obtain rfl := Except.ok.inj hgs
  obtain ⟨hnewId, hnewExpiry⟩ := validateGrant_text hnew
  rw [← Except.ok.inj hsorted, Pages.sortGrants, List.mem_insertionSort, List.mem_cons] at hg
  rcases hg with rfl | hg
  · exact hnewExpiry
  · rw [Pages.validateGrants_eq] at hold
    have hother := (Pages.validateEach_checked
      (fun _ _ _ hb => Pages.validateGrant_checked hb) hold).1 g hg
    exact absurd (List.mem_singleton.mpr (hid.trans hnewId.symm)) hother.2

end Reply

/-! ## The whole way -/

section Way

variable [Python]

/-- **An invitation that the gateway accepts passes every check of the broker,
and ends within its lifetime.** The broker reads the request as it was
meant. Whatever LayerV replies, and whatever the page was in the meantime,
a grant of it that is stored lasts beyond the time of the request to LayerV
and is over, five seconds at most after the lifetime, and so after the
longest lifetime there is. -/
theorem invitation_ends_in_time (hreads : ReadsTimes) (cfg : Config)
    {pageId suffix rawToken : String} {createdAt : Instant} {payload : List (String × Json)} {a : Prepared}
    (hpage : pageIdRe pageId = true) (hsuffix : matchesClass isTokenChar 16 16 suffix.toList = true)
    (hraw : matchesClass isTokenChar 43 43 rawToken.toList = true)
    (h : prepareInvitation cfg.maxDays pageId suffix rawToken createdAt payload = .ok a) :
    readRequest a.request.fields = a.request ∧ checkCreate cfg a.request = .ok a.wanted ∧
      ∀ (client : Client) (requestedAt : Instant) (data : List (String × Json)) (page q : Page)
        (tokenHash : String → String) (resourceId : String) (notifications : Json),
        checkMinted client a.wanted (readMinted requestedAt data) = .ok () →
        validatePage (invitedPage page (.obj (grantFields tokenHash resourceId a rawToken
          notifications (replyFields client a.wanted data)))) (some pageId) = .ok q →
        ∀ g ∈ q.accessGrants, g.id = a.request.grantId →
          (∀ now ≤ requestedAt, Pages.hasExpired now g = .ok false) ∧
          (∀ now, requestedAt + second * a.seconds + 5 * second ≤ now →
            Pages.hasExpired now g = .ok true) ∧
          a.seconds ≤ 86400 * cfg.maxDays := by
  obtain ⟨hcheck, hgrant, -, hupper⟩ := checkCreate_prepared cfg hpage hsuffix hraw h
  refine ⟨readRequest_fields a.request, hcheck, ?_⟩
  intro client requestedAt data page q tokenHash resourceId notifications hreply hstored g hg hid
  obtain ⟨deadline, haware, hne, hlower, hlast⟩ := deadline_of_reply hreads hreply
  have hname : strip a.request.grantId = a.request.grantId := Pages.strip_grantId hgrant
  have hexpires : g.expiresAt = fieldOf data "expires_at" := by
    rw [grant_in_front hstored hg (hid.trans hname.symm)]
    have hkept : orElse (.str (fieldOf data "expires_at"))
        (.str (zulu (a.createdAt + second * a.seconds))) = .str (fieldOf data "expires_at") :=
      if_pos (by simpa [Json.truthy] using hne)
    show strip (orElse (.str (fieldOf data "expires_at")) _).toStr = _
    rw [hkept]
    exact hreads.stripped haware
  have hover : ∀ now, Pages.hasExpired now g = .ok (decide (deadline ≤ now)) := by
    intro now
    rw [Pages.hasExpired, hexpires, haware]
  refine ⟨fun now hnow => ?_, fun now hnow => ?_, hupper⟩
  · rw [hover, decide_eq_false (not_le.mpr (lt_of_le_of_lt hnow hlower))]
  · rw [hover, decide_eq_true (le_trans hlast hnow)]

/-! ### A week's invitation to the door -/

omit [Python] in
theorem isoText_toList (s : String) :
    (isoText s).toList = s.toList.flatMap fun c => if c = 'Z' then "+00:00".toList else [c] := by
  rw [isoText, String.toList_join, List.flatMap_map]
  refine List.flatMap_congr fun c _ => ?_
  split
  · rfl
  · exact String.toList_ofList

omit [Python] in
/-- A time that the plain interpreter reads starts with a digit and ends with its
offset. -/
theorem isoUtc_ends {s : String} {t : Instant} (h : isoUtc s = some (.aware t)) :
    (∃ c cs, s.toList = c :: cs ∧ c.isDigit = true) ∧ ∃ cs, s.toList = cs ++ "+00:00".toList := by
  obtain ⟨y, hy, h⟩ := Option.bind_eq_some_iff.mp h
  obtain ⟨_, -, h⟩ := Option.bind_eq_some_iff.mp h
  obtain ⟨_, -, h⟩ := Option.bind_eq_some_iff.mp h
  obtain ⟨_, -, h⟩ := Option.bind_eq_some_iff.mp h
  obtain ⟨_, -, h⟩ := Option.bind_eq_some_iff.mp h
  obtain ⟨_, -, h⟩ := Option.bind_eq_some_iff.mp h
  constructor
  · obtain ⟨hne, hdigit⟩ := isDigit_of_digits? hy
    cases hs : s.toList with
    | nil => exact absurd (by rw [hs]; rfl) hne
    | cons c cs =>
        rw [hs] at hdigit
        exact ⟨c, cs, rfl, hdigit c List.mem_cons_self⟩
  · refine ⟨s.toList.take 19, ?_⟩
    dsimp only at h
    split at h
    · rename_i hoffset
      rw [← hoffset, List.take_append_drop]
    · split at h
      · cases h
      · cases h

omit [Python] in
theorem isSpace_of_isDigit {c : Char} (h : c.isDigit = true) : isSpace c = false :=
  (Pages.hashChar_plain (by rw [h]; rfl)).2

omit [Python] in
/-- Such a text has no space at either end. -/
theorem strip_of_ends {s : String}
    (h : (∃ c cs, (isoText s).toList = c :: cs ∧ c.isDigit = true) ∧
      ∃ cs, (isoText s).toList = cs ++ "+00:00".toList) : strip s = s := by
  obtain ⟨⟨c, cs, hfirst, hdigit⟩, cs', hlast⟩ := h
  rw [isoText_toList] at hfirst hlast
  have hhead : s.toList.dropWhile isSpace = s.toList := by
    cases hs : s.toList with
    | nil => rfl
    | cons a as =>
        refine List.dropWhile_cons_of_neg ?_
        rw [hs, List.flatMap_cons] at hfirst
        split at hfirst
        · rename_i ha
          rw [ha]
          decide
        · obtain rfl := (List.cons.inj hfirst).1
          rw [isSpace_of_isDigit hdigit]
          exact Bool.false_ne_true
  have hend : s.toList.rdropWhile isSpace = s.toList := by
    rcases List.eq_nil_or_concat s.toList with hs | ⟨as, z, hs⟩
    · rw [hs]
      rfl
    · rw [List.concat_eq_append] at hs
      rw [List.rdropWhile_eq_self_iff]
      intro hne
      have hz : s.toList.getLast hne = z := by simp only [hs, List.getLast_append_singleton]
      rw [hz]
      rw [hs, List.flatMap_append, List.flatMap_singleton] at hlast
      split at hlast
      · rename_i hZ
        rw [hZ]
        decide
      · have hzero := congrArg List.getLast? hlast
        simp only [List.getLast?_append, List.getLast?_singleton, Option.some_or] at hzero
        have hoffset : "+00:00".toList.getLast? = some '0' := rfl
        rw [hoffset, Option.some_or] at hzero
        rw [Option.some.inj hzero]
        decide
  rw [strip, hhead, hend, String.ofList_toList]

omit [Python] in
theorem readsTimes_plain : @ReadsTimes Python.plain := by
  let _ := Python.plain
  have hread : ∀ {s t}, awareTime s = some t → isoUtc (isoText s) = some (.aware t) := by
    intro s t h
    unfold awareTime at h
    split at h
    · rename_i t' ht
      rw [← Option.some.inj h]
      exact ht
    · cases h
  have hnone : ∀ {s t}, isoUtc (isoText s) = none → awareTime s ≠ some t := by
    intro s t hs h
    rw [hread h] at hs
    cases hs
  constructor
  · intro s t h
    exact strip_of_ends (isoUtc_ends (hread h))
  · intro v t h
    cases v with
    | null => exact absurd h (hnone (by decide))
    | bool b =>
        cases b with
        | false => exact absurd h (hnone (by decide))
        | true => rfl
    | int n =>
        by_cases hn : n = 0
        · subst hn
          exact absurd h (hnone (by decide))
        · simpa [Json.truthy] using hn
    | float x => exact absurd h (hnone (by show isoUtc (isoText "") = none; decide))
    | str s =>
        by_cases hs : s = ""
        · subst hs
          exact absurd h (hnone (by decide))
        · simpa [Json.truthy] using hs
    | arr items =>
        cases items with
        | nil => exact absurd h (hnone (by decide))
        | cons _ _ => rfl
    | obj fields =>
        cases fields with
        | nil => exact absurd h (hnone (by decide))
        | cons _ _ => rfl

/-- The owner asks for a week, for many uses. -/
def weekPayload : List (String × Json) := [("label", .str "Guest"), ("lifetime", .str " 7D ")]

/-- The secret of the link. -/
def weekToken : String := String.ofList (List.replicate 43 'S')

def weekPath : String := "/g/door/grant_AAAAAAAAAAAAAAAA/?bootstrap=" ++ weekToken

/-- New Year of 2030. -/
def newYear : Instant := 1893456000 * second

/-- What the gateway asks for. -/
def weekInvitation : Prepared where
  request := ⟨"door", "grant_AAAAAAAAAAAAAAAA", "Guest", "7d", weekPath, false, "86400s"⟩
  seconds := 604800
  createdAt := newYear
  verificationRequired := false

/-- LayerV grants six days. -/
def weekReply : List (String × Json) :=
  [("qurl_id", .str "q1"), ("qurl_link", .str "https://qurl.link/q1"), ("resource_id", .str "pk1"),
    ("target_path", .str weekPath), ("expires_at", .str "2030-01-07T00:00:00Z")]

def weekClient : Client := ⟨"crid1", "pk1", .guest⟩

def weekConfig : Config where
  installationId := "home"
  sha256 s := s
  nativeRetirement := false
  hasCleanup := false
  hasEnsureReady := false
  gatewayGrantsDir := true
  resourceId := ""
  maxDays := 7
  isLoopback _ := true

/-- The grant it becomes. -/
def weekGrant : List (String × Json) :=
  letI := Python.plain
  grantFields (fun _ => Pages.doorGrant.tokenHash) "" weekInvitation weekToken .null
    (replyFields weekClient weekInvitation.wanted weekReply)

/-- The door with that grant. -/
def weekPage : Except Pages.PageError Page :=
  letI := Python.plain
  validatePage (invitedPage { Pages.doorPage with accessGrants := [] } (.obj weekGrant))
    (some "door")

omit [Python] in
theorem invitation_ends_in_time_week :
    letI := Python.plain
    checkCreate weekConfig weekInvitation.request = .ok weekInvitation.wanted ∧
      ∃ q, weekPage = .ok q ∧ q.accessGrants.map (·.expiresAt) = ["2030-01-07T00:00:00Z"] ∧
        ∀ g ∈ q.accessGrants, g.id = "grant_AAAAAAAAAAAAAAAA" →
          Pages.hasExpired newYear g = .ok false ∧
          Pages.hasExpired (newYear + second * 604805) g = .ok true := by
  let _ := Python.plain
  have hprepared : prepareInvitation 7 "door" "AAAAAAAAAAAAAAAA" weekToken newYear weekPayload =
      .ok weekInvitation := by decide +kernel
  have hreply : checkMinted weekClient weekInvitation.wanted (readMinted newYear weekReply) =
      .ok () := by decide +kernel
  have hexpiry : weekPage.toOption.map (fun q => q.accessGrants.map (·.expiresAt)) =
      some ["2030-01-07T00:00:00Z"] := by decide +kernel
  obtain ⟨-, hcheck, hends⟩ := @invitation_ends_in_time Python.plain readsTimes_plain weekConfig
    "door" "AAAAAAAAAAAAAAAA" weekToken newYear weekPayload weekInvitation (by decide) (by decide)
    (by decide) hprepared
  cases hq : weekPage with
  | error e =>
      rw [hq] at hexpiry
      cases hexpiry
  | ok q =>
      rw [hq] at hexpiry
      refine ⟨hcheck, q, rfl, Option.some.inj hexpiry, fun g hg hid => ?_⟩
      obtain ⟨hbefore, hafter, -⟩ :=
        hends weekClient newYear weekReply _ q _ "" .null hreply hq g hg hid
      exact ⟨hbefore newYear le_rfl, hafter _ (by decide)⟩

end Way

end LayerV

end AccessPages
