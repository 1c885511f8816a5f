import Mathlib
/-!
# Common — URL-safe Base64

Three bytes are four sextets, each a character of the alphabet, and what is
left over is padded. Without its padding a text still has one source.
-/

namespace AccessPages

namespace Base64

def alphabet : List Char :=
  "ABCDEFGHIJKLMNOPQRSTUVWXYZabcdefghijklmnopqrstuvwxyz0123456789-_".toList

def charOf (n : Nat) : Char := alphabet.getD n 'A'

/-- The bytes, six bits at a time. -/
def sextets : List UInt8 → List Nat
  | [] => []
  | [a] => [a.toNat / 4, a.toNat % 4 * 16]
  | [a, b] => [a.toNat / 4, a.toNat % 4 * 16 + b.toNat / 16, b.toNat % 16 * 4]
  | a :: b :: c :: bytes =>
      a.toNat / 4 :: (a.toNat % 4 * 16 + b.toNat / 16) :: (b.toNat % 16 * 4 + c.toNat / 64) ::
        c.toNat % 64 :: sextets bytes

/-- `base64.urlsafe_b64encode(bytes).decode("ascii")`. -/
def urlsafeB64encode (bytes : List UInt8) : String :=
  String.ofList ((sextets bytes).map charOf ++ List.replicate ((3 - bytes.length % 3) % 3) '=')

/-- `text.rstrip("=")`. -/
def rstripPadding (text : String) : String := String.ofList (text.toList.rdropWhile (· = '='))

/-! ## One text for each source -/

theorem sextets_lt (bytes : List UInt8) : ∀ n ∈ sextets bytes, n < 64 := by
  induction bytes using sextets.induct with
  | case1 => exact nofun
  | case2 a =>
      have ha := a.toNat_lt
      simp only [sextets, List.mem_cons, List.not_mem_nil, or_false, forall_eq_or_imp, forall_eq]
      omega
  | case3 a b =>
      have ha := a.toNat_lt
      have hb := b.toNat_lt
      simp only [sextets, List.mem_cons, List.not_mem_nil, or_false, forall_eq_or_imp, forall_eq]
      omega
  | case4 a b c bytes ih =>
      have ha := a.toNat_lt
      have hb := b.toNat_lt
      have hc := c.toNat_lt
      simp only [sextets, List.mem_cons, forall_eq_or_imp]
      exact ⟨by omega, by omega, by omega, by omega, ih⟩

theorem sextets_injective {bytes bytes' : List UInt8} (h : sextets bytes = sextets bytes') :
    bytes = bytes' := by
  induction bytes using sextets.induct generalizing bytes' with
  | case1 =>
      rcases bytes' with _ | ⟨a', _ | ⟨b', _ | ⟨c', bytes'⟩⟩⟩
      · rfl
      all_goals simp [sextets] at h
  | case2 a =>
      rcases bytes' with _ | ⟨a', _ | ⟨b', _ | ⟨c', bytes'⟩⟩⟩
      · simp [sextets] at h
      · simp only [sextets, List.cons.injEq, and_true] at h
        have ha : a = a' := UInt8.toNat.inj (by omega)
        rw [ha]
      all_goals simp [sextets] at h
  | case3 a b =>
      rcases bytes' with _ | ⟨a', _ | ⟨b', _ | ⟨c', bytes'⟩⟩⟩
      · simp [sextets] at h
      · simp [sextets] at h
      · simp only [sextets, List.cons.injEq, and_true] at h
        have hb := b.toNat_lt
        have hb' := b'.toNat_lt
        have ha : a = a' := UInt8.toNat.inj (by omega)
        have hbb : b = b' := UInt8.toNat.inj (by omega)
        rw [ha, hbb]
      · simp [sextets] at h
  | case4 a b c bytes ih =>
      rcases bytes' with _ | ⟨a', _ | ⟨b', _ | ⟨c', bytes'⟩⟩⟩
      iterate 3 simp [sextets] at h
      simp only [sextets, List.cons.injEq] at h
      obtain ⟨h₁, h₂, h₃, h₄, hrest⟩ := h
      have hb := b.toNat_lt
      have hb' := b'.toNat_lt
      have hc := c.toNat_lt
      have hc' := c'.toNat_lt
      have ha : a = a' := UInt8.toNat.inj (by omega)
      have hbb : b = b' := UInt8.toNat.inj (by omega)
      have hcc : c = c' := UInt8.toNat.inj (by omega)
      rw [ha, hbb, hcc, ih hrest]

theorem charOf_mem {n : Nat} (h : n < 64) : charOf n ∈ alphabet := by
  have hlen : alphabet.length = 64 := rfl
  have hget : alphabet[n]? = some alphabet[n] := List.getElem?_eq_getElem (by omega)
  rw [charOf, List.getD_eq_getElem?_getD, hget]
  exact List.getElem_mem _

theorem charOf_injective {m n : Nat} (hm : m < 64) (hn : n < 64) (h : charOf m = charOf n) :
    m = n := by
  have hlen : alphabet.length = 64 := rfl
  have hnodup : alphabet.Nodup := by decide
  have hm' : alphabet[m]? = some alphabet[m] := List.getElem?_eq_getElem (by omega)
  have hn' : alphabet[n]? = some alphabet[n] := List.getElem?_eq_getElem (by omega)
  rw [charOf, charOf, List.getD_eq_getElem?_getD, List.getD_eq_getElem?_getD, hm', hn'] at h
  exact hnodup.getElem_inj_iff.mp h

/-- The padding is all that `rstrip` takes. -/
theorem rstripPadding_encode (bytes : List UInt8) :
    (rstripPadding (urlsafeB64encode bytes)).toList = (sextets bytes).map charOf := by
  have hplain : ∀ c ∈ (sextets bytes).map charOf, c ≠ '=' := by
    intro c hc
    obtain ⟨n, hn, rfl⟩ := List.mem_map.mp hc
    have hmem := charOf_mem (sextets_lt bytes n hn)
    have hall : (alphabet.all fun c => c ≠ '=') = true := by decide
    simpa using List.all_eq_true.mp hall _ hmem
  unfold rstripPadding urlsafeB64encode
  rw [String.toList_ofList, String.toList_ofList]
  generalize (3 - bytes.length % 3) % 3 = k
  induction k with
  | zero =>
      rw [List.replicate_zero, List.append_nil, List.rdropWhile_eq_self_iff]
      intro hne
      simpa using hplain _ (List.getLast_mem hne)
  | succ k ih =>
      rw [List.replicate_succ', ← List.append_assoc, List.rdropWhile_concat_pos _ _ _ (by simp), ih]

theorem map_charOf_injective {ns ms : List Nat} (hn : ∀ n ∈ ns, n < 64) (hm : ∀ m ∈ ms, m < 64)
    (h : ns.map charOf = ms.map charOf) : ns = ms := by
  induction ns generalizing ms with
  | nil =>
      rw [List.map_nil, eq_comm, List.map_eq_nil_iff] at h
      exact h.symm
  | cons n ns ih =>
      cases ms with
      | nil => cases h
      | cons m ms =>
          obtain ⟨hn₀, hns⟩ := List.forall_mem_cons.mp hn
          obtain ⟨hm₀, hms⟩ := List.forall_mem_cons.mp hm
          rw [List.map_cons, List.map_cons, List.cons.injEq] at h
          rw [charOf_injective hn₀ hm₀ h.1, ih hns hms h.2]

/-- **A text without its padding has one source.** -/
theorem rstripPadding_injective {bytes bytes' : List UInt8}
    (h : rstripPadding (urlsafeB64encode bytes) = rstripPadding (urlsafeB64encode bytes')) :
    bytes = bytes' := by
  have hlist := congrArg String.toList h
  rw [rstripPadding_encode, rstripPadding_encode] at hlist
  exact sextets_injective (map_charOf_injective (sextets_lt _) (sextets_lt _) hlist)

theorem mem_rstripPadding {bytes : List UInt8} {c : Char}
    (h : c ∈ (rstripPadding (urlsafeB64encode bytes)).toList) : c ∈ alphabet := by
  rw [rstripPadding_encode] at h
  obtain ⟨n, hn, rfl⟩ := List.mem_map.mp h
  exact charOf_mem (sextets_lt bytes n hn)

end Base64

end AccessPages
