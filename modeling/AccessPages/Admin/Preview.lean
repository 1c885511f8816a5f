import AccessPages.Common.Base64
import AccessPages.Common.IntText
/-!
# Admin — preview tokens

`_preview_token` and `_valid_preview_token`: a page is previewed with the
second its preview ends and an HMAC of both. The token comes back in a
query, where it may be any text. Its prefix is read by `int`, which
accepts more than one text for a number, so the whole token is compared
with the one issued for that number; and `compare_digest` refuses to
compare a text that is not ASCII.
-/

namespace AccessPages

namespace Admin

/-- `text.encode("utf-8")`. -/
def utf8 (s : String) : List UInt8 := s.toByteArray.data.toList

/-- Every character is ASCII. -/
def ascii (s : String) : Bool := s.toList.all fun c => c.toNat < 0x80

/-- `hmac.compare_digest` of two texts. -/
def compareDigest (a b : String) : Except PyError Bool :=
  if ascii a && ascii b then .ok (a = b) else .error .typeError

/-- `token.split(".", 1)[0]`. -/
def expiresText (token : String) : String := String.ofList (token.toList.takeWhile (· ≠ '.'))

section Token

variable (hmac : List UInt8 → List UInt8 → List UInt8) (unicodeDigit : Char → Option (Fin 10))
variable (adminToken : String)

/-- `_preview_token`. -/
def previewToken (pageId : String) (expiresAt : Int) : Except PyError String :=
  match IntText.toText expiresAt with
  | none => .error .valueError
  | some expires =>
      let signature := hmac (utf8 adminToken) (utf8 (pageId ++ ":" ++ expires))
      .ok (expires ++ "." ++ Base64.rstripPadding (Base64.urlsafeB64encode signature))

/-- `_valid_preview_token`. -/
def validPreviewToken (pageId : String) (now : Instant) (supplied : String) :
    Except PyError Bool :=
  if supplied = "" ∨ '.' ∉ supplied.toList then .ok false
  else
    match IntText.ofText unicodeDigit (expiresText supplied) with
    | none => .ok false
    | some expiresAt =>
        if expiresAt ≤ timestamp now then .ok false
        else
          match previewToken hmac adminToken pageId expiresAt with
          | .error e => .error e
          | .ok expected => compareDigest supplied expected

/-- The answer is that of a token issued for the page, and not yet over. -/
def AnswersExactly (pageId : String) (now : Instant) (supplied : String) : Prop :=
  ∃ b, validPreviewToken hmac unicodeDigit adminToken pageId now supplied = .ok b ∧
    (b = true ↔ ∃ e, timestamp now < e ∧ previewToken hmac adminToken pageId e = .ok supplied)

/-- What stands before the first dot is a second that is still to come. -/
def Unexpired (now : Instant) (supplied : String) : Prop :=
  '.' ∈ supplied.toList ∧
    ∃ e, IntText.ofText unicodeDigit (expiresText supplied) = some e ∧ timestamp now < e

end Token

/-! ## The parts of a token -/

variable {hmac : List UInt8 → List UInt8 → List UInt8} {unicodeDigit : Char → Option (Fin 10)}
variable {adminToken pageId token : String} {e : Int} {now : Instant}

theorem utf8_injective {s t : String} (h : utf8 s = utf8 t) : s = t :=
  String.toByteArray_inj.mp (ByteArray.ext (Array.ext' h))

theorem previewToken_eq_ok :
    previewToken hmac adminToken pageId e = .ok token ↔
      ∃ expires, IntText.toText e = some expires ∧ token = expires ++ "." ++
        Base64.rstripPadding (Base64.urlsafeB64encode
          (hmac (utf8 adminToken) (utf8 (pageId ++ ":" ++ expires)))) := by
  unfold previewToken
  cases IntText.toText e with
  | none => exact iff_of_false nofun (fun h => nomatch h.choose_spec.1)
  | some expires =>
      constructor
      · intro h
        exact ⟨expires, rfl, (Except.ok.inj h).symm⟩
      · rintro ⟨_, h, rfl⟩
        obtain rfl := Option.some.inj h
        rfl

theorem ascii_digit {c : Char} (h : c.isDigit = true ∨ c = '-') : c.toNat < 0x80 ∧ c ≠ '.' := by
  rcases h with h | rfl
  · simp only [Char.isDigit, Bool.and_eq_true, decide_eq_true_eq] at h
    have hle : '0'.toNat ≤ c.toNat := h.1
    have hge : c.toNat ≤ '9'.toNat := h.2
    have hnine : '9'.toNat = 57 := rfl
    have hdot : c ≠ '.' := by
      rintro rfl
      exact absurd hle (by decide)
    exact ⟨by omega, hdot⟩
  · decide

theorem mem_of_toText {s : String} {c : Char} (h : IntText.toText e = some s) (hc : c ∈ s.toList) :
    c.isDigit = true ∨ c = '-' := by
  unfold IntText.toText at h
  split at h
  · obtain rfl := Option.some.inj h
    exact IntText.mem_toString hc
  · cases h

theorem expiresText_append {s t : String} (h : IntText.toText e = some s) :
    expiresText (s ++ "." ++ t) = s := by
  have hplain : ∀ c ∈ s.toList, decide (c ≠ '.') = true :=
    fun c hc => decide_eq_true (ascii_digit (mem_of_toText h hc)).2
  have hlist : (s ++ "." ++ t).toList = s.toList ++ '.' :: t.toList := by
    rw [String.toList_append, String.toList_append, List.append_assoc]
    rfl
  rw [expiresText, hlist, List.takeWhile_append_of_pos hplain, List.takeWhile_cons_of_neg (by simp),
    List.append_nil, String.ofList_toList]

theorem ascii_append {s t : String} (hs : ascii s = true) (ht : ascii t = true) :
    ascii (s ++ t) = true := by
  rw [ascii, String.toList_append, List.all_append, Bool.and_eq_true]
  exact ⟨hs, ht⟩

/-- A token is ASCII, whatever the digest is. -/
theorem ascii_previewToken (h : previewToken hmac adminToken pageId e = .ok token) :
    ascii token = true := by
  obtain ⟨expires, hexpires, rfl⟩ := previewToken_eq_ok.mp h
  have hdigits : ascii expires = true := List.all_eq_true.mpr
    fun c hc => decide_eq_true (ascii_digit (mem_of_toText hexpires hc)).1
  have halphabet : (Base64.alphabet.all fun c => c.toNat < 0x80) = true := by decide
  refine ascii_append (ascii_append hdigits rfl) (List.all_eq_true.mpr fun c hc => ?_)
  exact List.all_eq_true.mp halphabet c (Base64.mem_rstripPadding hc)

/-- A token is read as the second it was issued for. -/
theorem ofText_previewToken (unicodeDigit : Char → Option (Fin 10))
    (h : previewToken hmac adminToken pageId e = .ok token) :
    '.' ∈ token.toList ∧ IntText.ofText unicodeDigit (expiresText token) = some e := by
  obtain ⟨expires, hexpires, rfl⟩ := previewToken_eq_ok.mp h
  rw [expiresText_append hexpires]
  refine ⟨?_, IntText.ofText_of_toText hexpires⟩
  rw [String.toList_append, String.toList_append]
  exact List.mem_append_left _ (List.mem_append_right _ List.mem_cons_self)

/-- A page with the same second has another token. -/
theorem previewToken_page (hinj : Function.Injective (hmac (utf8 adminToken))) {pageId' : String}
    (h : previewToken hmac adminToken pageId e = .ok token)
    (h' : previewToken hmac adminToken pageId' e = .ok token) : pageId = pageId' := by
  obtain ⟨expires, hexpires, rfl⟩ := previewToken_eq_ok.mp h
  obtain ⟨expires', hexpires', heq⟩ := previewToken_eq_ok.mp h'
  obtain rfl := Option.some.inj (hexpires.symm.trans hexpires')
  have hsignature := Base64.rstripPadding_injective ((String.append_right_inj _).mp heq)
  have hmessage := utf8_injective (hinj hsignature)
  exact (String.append_left_inj _).mp ((String.append_left_inj _).mp hmessage)

/-! ## What is accepted -/

theorem compareDigest_of_ascii {a b : String} (ha : ascii a = true) (hb : ascii b = true) :
    compareDigest a b = .ok (a = b) := by
  rw [compareDigest, ha, hb]
  rfl

theorem compareDigest_of_not_ascii {a b : String} (ha : ascii a = false) :
    compareDigest a b = .error .typeError := by
  rw [compareDigest, ha]
  rfl

/-- A text without an unexpired second in front is refused. -/
theorem valid_of_not_unexpired (h : ¬ Unexpired unicodeDigit now token) :
    validPreviewToken hmac unicodeDigit adminToken pageId now token = .ok false := by
  unfold validPreviewToken
  split
  · rfl
  · rename_i hdot
    cases he : IntText.ofText unicodeDigit (expiresText token) with
    | none => rfl
    | some e =>
        refine if_pos (not_lt.mp fun hlt => h ⟨?_, e, he, hlt⟩)
        exact not_not.mp fun hd => hdot (.inr hd)

/-- A text with one is compared with the token of that second. -/
theorem valid_of_unexpired (hdot : '.' ∈ token.toList)
    (he : IntText.ofText unicodeDigit (expiresText token) = some e) (hlt : timestamp now < e) :
    ∃ expected, previewToken hmac adminToken pageId e = .ok expected ∧
      validPreviewToken hmac unicodeDigit adminToken pageId now token =
        compareDigest token expected := by
  have hexpires := IntText.toText_of_ofText he
  obtain ⟨expected, hexpected⟩ : ∃ expected, previewToken hmac adminToken pageId e = .ok expected :=
    ⟨_, previewToken_eq_ok.mpr ⟨_, hexpires, rfl⟩⟩
  refine ⟨expected, hexpected, ?_⟩
  have hne : ¬ (token = "" ∨ '.' ∉ token.toList) := by
    rintro (rfl | hd)
    · exact absurd hdot (by decide)
    · exact hd hdot
  unfold validPreviewToken
  rw [if_neg hne, he]
  dsimp only
  rw [if_neg (not_le.mpr hlt), hexpected]

/-- **A text is compared without an exception exactly if it is ASCII.** -/
theorem answersExactly_iff :
    AnswersExactly hmac unicodeDigit adminToken pageId now token ↔
      (Unexpired unicodeDigit now token → ascii token = true) := by
  by_cases hu : Unexpired unicodeDigit now token
  · obtain ⟨hdot, e, he, hlt⟩ := hu
    obtain ⟨expected, hexpected, hvalid⟩ :=
      @valid_of_unexpired hmac _ adminToken pageId _ _ _ hdot he hlt
    constructor
    · rintro ⟨b, hb, -⟩ -
      rw [hvalid] at hb
      cases ha : ascii token with
      | true => rfl
      | false =>
          rw [compareDigest_of_not_ascii ha] at hb
          cases hb
    · intro hascii
      have ha := hascii ⟨hdot, e, he, hlt⟩
      refine ⟨_, hvalid.trans (compareDigest_of_ascii ha (ascii_previewToken hexpected)), ?_⟩
      rw [decide_eq_true_eq]
      constructor
      · rintro rfl
        exact ⟨e, hlt, hexpected⟩
      · rintro ⟨e', -, he'⟩
        -- only the second in front can have issued it
        have hread := (ofText_previewToken unicodeDigit he').2
        obtain rfl := Option.some.inj (he.symm.trans hread)
        exact Except.ok.inj (he'.symm.trans hexpected)
  · refine iff_of_true ⟨false, valid_of_not_unexpired hu, ?_⟩ fun h => absurd h hu
    constructor
    · exact nofun
    · rintro ⟨e, hlt, he⟩
      obtain ⟨hdot, hread⟩ := ofText_previewToken unicodeDigit he
      exact absurd ⟨hdot, e, hread, hlt⟩ hu

/-- **Preview tokens are accepted exactly while they last**, and a text that
is none is refused, if the text is ASCII or no second to come stands before
its first dot; otherwise the comparison raises. A token of one page is
never accepted for another one. -/
theorem preview_tokens_exact_iff (hmac : List UInt8 → List UInt8 → List UInt8)
    (unicodeDigit : Char → Option (Fin 10)) (adminToken : String)
    (hinj : ∀ key, Function.Injective (hmac key)) :
    (∀ pageId now token, AnswersExactly hmac unicodeDigit adminToken pageId now token ↔
      (Unexpired unicodeDigit now token → ascii token = true)) ∧
    ∀ pageId pageId' e now token, previewToken hmac adminToken pageId e = .ok token →
      validPreviewToken hmac unicodeDigit adminToken pageId' now token = .ok true →
        pageId = pageId' := by
  refine ⟨fun pageId now token => answersExactly_iff, ?_⟩
  intro pageId pageId' e now token htoken hvalid
  have hexact : AnswersExactly hmac unicodeDigit adminToken pageId' now token :=
    answersExactly_iff.mpr fun _ => ascii_previewToken htoken
  obtain ⟨b, hb, hiff⟩ := hexact
  obtain rfl := Except.ok.inj (hb.symm.trans hvalid)
  obtain ⟨e', -, htoken'⟩ := hiff.mp rfl
  have hread := (ofText_previewToken unicodeDigit htoken).2
  have hread' := (ofText_previewToken unicodeDigit htoken').2
  obtain rfl := Option.some.inj (hread.symm.trans hread')
  exact previewToken_page (hinj _) htoken htoken'

/-! ## The preview of a door -/

def gateSecret : String := "gate-admin-token"

/-- The HMAC-SHA256 of the door's token, and any others for the rest. -/
def gateHmac (key message : List UInt8) : List UInt8 :=
  if key = utf8 gateSecret ∧ message = utf8 "door:2000000000" then
    [40, 249, 79, 142, 130, 205, 226, 115, 94, 163, 152, 254, 228, 254, 158, 17, 74, 246, 25, 113,
      208, 162, 185, 120, 185, 91, 224, 239, 173, 83, 141, 15]
  else 0 :: message

/-- No digits but the ASCII ones. -/
def gateDigit (_ : Char) : Option (Fin 10) := none

def doorToken : String := "2000000000.KPlPjoLN4nNeo5j-5P6eEUr2GXHQorl4uVvg761TjQ8"

theorem gateHmac_injective (key : List UInt8) : Function.Injective (gateHmac key) := by
  intro m m' h
  unfold gateHmac at h
  split at h
  · rename_i hm
    split at h
    · rename_i hm'
      rw [hm.2, hm'.2]
    · rw [List.cons.injEq] at h
      exact absurd h.1 (by decide)
  · split at h
    · rw [List.cons.injEq] at h
      exact absurd h.1 (by decide)
    · exact (List.cons.inj h).2

theorem doorToken_issued :
    previewToken gateHmac gateSecret "door" 2000000000 = .ok doorToken := by decide +kernel

/-- A token to come that is not ASCII raises, as no token issued does. -/
theorem preview_token_raises :
    ¬ AnswersExactly gateHmac gateDigit gateSecret "door" 0 "2000000000.é" := by
  have hraises : validPreviewToken gateHmac gateDigit gateSecret "door" 0 "2000000000.é" =
      .error .typeError := by decide +kernel
  rintro ⟨b, hb, -⟩
  rw [hraises] at hb
  cases hb

theorem preview_tokens_exact_iff_door :
    AnswersExactly gateHmac gateDigit gateSecret "door" 0 doorToken ∧
      ¬ AnswersExactly gateHmac gateDigit gateSecret "door" 0 (doorToken ++ "é") ∧
      validPreviewToken gateHmac gateDigit gateSecret "gate" 0 doorToken ≠ .ok true := by
  obtain ⟨hexact, hpages⟩ :=
    preview_tokens_exact_iff gateHmac gateDigit gateSecret gateHmac_injective
  refine ⟨(hexact "door" 0 doorToken).mpr fun _ => by decide +kernel, fun h => ?_, fun h => ?_⟩
  · have hplain := (hexact "door" 0 (doorToken ++ "é")).mp h
      ⟨by decide +kernel, 2000000000, by decide +kernel, by decide⟩
    exact absurd hplain (by decide +kernel)
  · exact absurd (hpages "door" "gate" 2000000000 0 doorToken doorToken_issued h) (by decide)

end Admin

end AccessPages
