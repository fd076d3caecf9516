import Yggdrasil.Lib.Go

/-!
# Texts that tell apart what they are made of
-/

namespace Yggdrasil.Text

/-! ## Blanks -/

theorem trimSpace_eq_self {s : String} (h : ∀ c ∈ s.toList, isSpace c = false) :
    trimSpace s = s := by
  have hdrop : s.toList.dropWhile isSpace = s.toList := by
    cases hs : s.toList with
    | nil => rfl
    | cons c cs => exact List.dropWhile_cons_of_neg (by simp [h c (by simp [hs])])
  have hrdrop : s.toList.rdropWhile isSpace = s.toList := by
    refine List.rdropWhile_eq_self_iff.2 fun hne => ?_
    simp [h _ (List.getLast_mem hne)]
  rw [trimSpace_eq, trim, hdrop, hrdrop, String.ofList_toList]

/-! ## Hexadecimal digits -/

/-- The hexadecimal digit, in lower case. -/
def hexDigit (n : ℕ) : Char := if n < 10 then Char.ofNat (0x30 + n) else Char.ofNat (0x57 + n)

theorem hexDigit_inj : ∀ m < 16, ∀ n < 16, hexDigit m = hexDigit n → m = n := by decide

theorem isSpace_hexDigit : ∀ n < 16, isSpace (hexDigit n) = false := by decide

/-- The two digits of a byte. -/
def hexByte (b : UInt8) : List Char := [hexDigit (b.toNat / 16), hexDigit (b.toNat % 16)]

/-- The digits of bytes, as `hex.EncodeToString` writes them. -/
def hexEncode (bytes : List UInt8) : String := .ofList (bytes.flatMap hexByte)

theorem hexByte_injective {b b' : UInt8} (h : hexByte b = hexByte b') : b = b' := by
  have hb := b.toNat_lt
  have hb' := b'.toNat_lt
  simp only [hexByte, List.cons.injEq, and_true] at h
  have hhigh := hexDigit_inj _ (by omega) _ (by omega) h.1
  have hlow := hexDigit_inj _ (by omega) _ (by omega) h.2
  exact UInt8.toNat_inj.1 (by omega)

theorem hexEncode_injective : Function.Injective hexEncode := by
  intro bytes bytes' h
  have hchars : bytes.flatMap hexByte = bytes'.flatMap hexByte := String.ofList_injective h
  clear h
  induction bytes generalizing bytes' with
  | nil =>
    cases bytes' with
    | nil => rfl
    | cons b' bytes' => simp [hexByte] at hchars
  | cons b bytes ih =>
    cases bytes' with
    | nil => simp [hexByte] at hchars
    | cons b' bytes' =>
      rw [List.flatMap_cons, List.flatMap_cons] at hchars
      obtain ⟨hhead, htail⟩ := List.append_inj hchars rfl
      rw [hexByte_injective hhead, ih htail]

theorem isSpace_of_mem_hexEncode {bytes : List UInt8} {c : Char}
    (h : c ∈ (hexEncode bytes).toList) : isSpace c = false := by
  rw [hexEncode, String.toList_ofList] at h
  obtain ⟨b, -, hc⟩ := List.mem_flatMap.1 h
  have hb := b.toNat_lt
  rcases List.mem_pair.1 hc with rfl | rfl
  · exact isSpace_hexDigit _ (by omega)
  · exact isSpace_hexDigit _ (by omega)

/-! ## Lengths -/

/-- Two texts as one, after the number of bytes of the first. -/
def lengthPrefixed (s t : String) : String := toString s.utf8ByteSize ++ ":" ++ s ++ t

/-- Digits before a colon are told from what comes after it. -/
theorem digits_append_colon_inj {m n : ℕ} {u v : List Char}
    (h : Nat.toDigits 10 m ++ ':' :: u = Nat.toDigits 10 n ++ ':' :: v) : m = n ∧ u = v := by
  have htake (n : ℕ) (u : List Char) :
      (Nat.toDigits 10 n ++ ':' :: u).takeWhile Char.isDigit = Nat.toDigits 10 n := by
    have hall : ∀ c ∈ Nat.toDigits 10 n, c.isDigit = true := fun c hc =>
      Nat.isDigit_of_mem_toDigits (by decide) (by decide) hc
    rw [List.takeWhile_append_of_pos hall]
    simp [List.takeWhile]
  have hdigits : Nat.toDigits 10 m = Nat.toDigits 10 n := by rw [← htake m u, h, htake n v]
  refine ⟨?_, ?_⟩
  · rw [← Nat.ofDigitChars_ten_toDigits (n := m), hdigits, Nat.ofDigitChars_ten_toDigits]
  · rw [hdigits] at h
    exact (List.cons.inj (List.append_cancel_left h)).2

theorem lengthPrefixed_left_inj {s t s' t' : String}
    (h : lengthPrefixed s t = lengthPrefixed s' t') : s = s' := by
  have hchars := congrArg String.toList h
  simp only [lengthPrefixed, String.toList_append, Nat.toString_eq_ofList_toDigits,
    String.toList_ofList, List.append_assoc] at hchars
  obtain ⟨hsize, hrest⟩ := digits_append_colon_inj hchars
  have htexts : s ++ t = s' ++ t' := by
    rw [← String.toList_inj, String.toList_append, String.toList_append]
    exact hrest
  have hbytes := congrArg (fun u : String => u.toByteArray.data.toList) htexts
  simp only [String.toByteArray_append, ByteArray.data_append, Array.toList_append] at hbytes
  have hlength : s.toByteArray.data.toList.length = s'.toByteArray.data.toList.length := by
    simpa using hsize
  have hleft := (List.append_inj hbytes hlength).1
  exact String.toByteArray_inj.1 (ByteArray.ext (Array.toList_inj.1 hleft))

end Yggdrasil.Text
