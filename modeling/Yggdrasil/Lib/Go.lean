import Mathlib

/-!
# Machine integers, instants and text

What the modelled program takes from its language, in its own terms.
-/

namespace Yggdrasil

/-! ## Machine integers -/

namespace Machine

/-- The value of a signed 64-bit integer. -/
def Fits (n : ℤ) : Prop := -2 ^ 63 ≤ n ∧ n < 2 ^ 63

instance : DecidablePred Fits := fun _ => inferInstanceAs (Decidable (_ ∧ _))

/-- Two's-complement wrapping to 64 bits. -/
def wrap (n : ℤ) : ℤ := n.bmod (2 ^ 64)

/-- The machine result for the exact value `r`, when `ovf` says what an overflow returns. -/
def result (ovf : ℤ → ℤ) (r : ℤ) : ℤ := if Fits r then r else ovf r

theorem result_of_fits {ovf : ℤ → ℤ} {r : ℤ} (h : Fits r) : result ovf r = r := if_pos h

variable {a b : ℤ}

theorem Fits.of_le_of_le {n : ℤ} (ha : Fits a) (hb : Fits b) (han : a ≤ n) (hnb : n ≤ b) :
    Fits n := ⟨ha.1.trans han, hnb.trans_lt hb.2⟩

end Machine

/-! ## Instants -/

namespace Instant

/-- The nanoseconds of a second. -/
def second : ℤ := 1000000000

/-- The time from `b` to `a`, saturating at the longest durations. -/
def sub (a b : ℤ) : ℤ := max (-2 ^ 63) (min (2 ^ 63 - 1) (a - b))

variable {d : ℤ}

theorem sub_lt_iff (h0 : 0 ≤ d) (hd : Machine.Fits d) : sub a b < d ↔ a - b < d := by
  have := hd.2
  rw [sub, max_lt_iff, min_lt_iff]
  omega

theorem le_sub_iff (h0 : 0 ≤ d) (hd : Machine.Fits d) : d ≤ sub a b ↔ d ≤ a - b := by
  rw [← not_lt, sub_lt_iff h0 hd, not_lt]

theorem sub_le_iff (h0 : 0 ≤ d) (hd : d < 2 ^ 63 - 1) : sub a b ≤ d ↔ a - b ≤ d := by
  rw [sub, max_le_iff, min_le_iff]
  omega

end Instant

/-! ## Text -/

namespace Text

/-- The Unicode white space. -/
def isSpace (c : Char) : Bool :=
  [0x09, 0x0A, 0x0B, 0x0C, 0x0D, 0x20, 0x85, 0xA0, 0x1680, 0x2028, 0x2029, 0x202F, 0x205F,
    0x3000].contains c.toNat || (0x2000 ≤ c.toNat && c.toNat ≤ 0x200A)

/-- `s` without its leading and trailing white space. -/
def trimSpace (s : String) : String :=
  .ofList ((s.toList.dropWhile isSpace).reverse.dropWhile isSpace).reverse

/-- `l` without its leading and trailing white space. -/
def trim (l : List Char) : List Char := (l.dropWhile isSpace).rdropWhile isSpace

theorem trimSpace_eq (s : String) : trimSpace s = .ofList (trim s.toList) := rfl

theorem trim_trim (l : List Char) : trim (trim l) = trim l := by
  have hhead : (trim l).dropWhile isSpace = trim l := by
    rw [List.dropWhile_eq_self_iff]
    intro hlen
    have hinit : trim l <+: l.dropWhile isSpace := List.rdropWhile_prefix _ _
    have hpos := hlen.trans_le hinit.length_le
    rw [hinit.getElem hlen]
    exact List.dropWhile_get_zero_not isSpace l hpos
  rw [trim, hhead, trim, List.rdropWhile_idempotent]

/-- The case tables of Unicode: lower case, and a representative of the case variants. -/
structure CaseMap where
  lower : Char → Char
  fold : Char → Char
  isSpace_lower : ∀ c, isSpace (lower c) = isSpace c

/-- `s` in lower case. -/
def toLower (cm : CaseMap) (s : String) : String := .ofList (s.toList.map cm.lower)

/-- Trimming does not change a trimmed text in another spelling that keeps white space. -/
theorem trimSpace_map_trimSpace {f : Char → Char} (hf : ∀ c, isSpace (f c) = isSpace c)
    (s : String) : trimSpace (.ofList ((trimSpace s).toList.map f)) =
      .ofList ((trimSpace s).toList.map f) := by
  have hspace : isSpace ∘ f = isSpace := funext hf
  have hmap (l : List Char) : trim (l.map f) = (trim l).map f := by
    rw [trim, trim, List.rdropWhile, List.rdropWhile, List.dropWhile_map, ← List.map_reverse,
      List.dropWhile_map, hspace, List.map_reverse]
  rw [trimSpace_eq, trimSpace_eq, String.toList_ofList, String.toList_ofList, hmap, trim_trim]

theorem trimSpace_toLower_trimSpace (cm : CaseMap) (s : String) :
    trimSpace (toLower cm (trimSpace s)) = toLower cm (trimSpace s) :=
  trimSpace_map_trimSpace cm.isSpace_lower s

theorem trimSpace_trimSpace (s : String) : trimSpace (trimSpace s) = trimSpace s := by
  rw [trimSpace_eq, trimSpace_eq, String.toList_ofList, trim_trim]

/-- The lower case of the ASCII letters. -/
def asciiLower (c : Char) : Char :=
  if 0x41 ≤ c.toNat ∧ c.toNat ≤ 0x5A then .ofNat (c.toNat + 0x20) else c

theorem isSpace_asciiLower (c : Char) : isSpace (asciiLower c) = isSpace c := by
  rw [asciiLower]
  split
  next h =>
    have hlower : (Char.ofNat (c.toNat + 0x20)).toNat = c.toNat + 0x20 := by
      rw [Char.toNat_ofNat, if_pos]
      exact .inl (by omega)
    obtain ⟨n, hn⟩ : ∃ n, c.toNat = n := ⟨_, rfl⟩
    rw [isSpace, isSpace, hlower, hn]
    rw [hn] at h
    obtain ⟨hlo, hhi⟩ := h
    interval_cases n <;> rfl
  · rfl

/-- The case tables restricted to ASCII. -/
def ascii : CaseMap := ⟨asciiLower, asciiLower, isSpace_asciiLower⟩

/-- `s` and `t` differ in case only. -/
def equalFold (cm : CaseMap) (s t : String) : Bool :=
  s.toList.map cm.fold = t.toList.map cm.fold

/-- `s` has one of the characters `cs`. -/
def containsAny (s : String) (cs : List Char) : Bool := s.toList.any cs.contains

/-- `s` has the text `t` in it. -/
def contains (s t : String) : Bool := t.toList <:+: s.toList

/-- The lower-case letters. -/
def isLower (c : Char) : Bool := 0x61 ≤ c.toNat && c.toNat ≤ 0x7A

/-- The decimal digits. -/
def isDigit (c : Char) : Bool := 0x30 ≤ c.toNat && c.toNat ≤ 0x39

/-- The upper-case letters. -/
def isUpper (c : Char) : Bool := 0x41 ≤ c.toNat && c.toNat ≤ 0x5A

/-- The integer that decimal digits with an optional sign stand for, when it fits. -/
def atoi (s : String) : Option ℤ :=
  let (sign, digits) : ℤ × List Char :=
    match s.toList with
    | '-' :: digits => (-1, digits)
    | '+' :: digits => (1, digits)
    | digits => (1, digits)
  if !digits.isEmpty && digits.all isDigit then
    let n := sign * digits.foldl (fun n c => 10 * n + (c.toNat - 0x30 : ℕ)) 0
    if Machine.Fits n then some n else none
  else none

/-- The parts of `s` between the characters `sep`. -/
def split (s : String) (sep : Char) : List String := (s.toList.splitOn sep).map .ofList

/-- The bytes of `s`. -/
def bytes (s : String) : List UInt8 := s.toByteArray.data.toList

/-- The bytes of the decimal digits. -/
def isDigitByte (b : UInt8) : Bool := 0x30 ≤ b && b ≤ 0x39

/-- The bytes of the lower-case letters. -/
def isLowerByte (b : UInt8) : Bool := 0x61 ≤ b && b ≤ 0x7A

/-- The bytes of the lower-case hexadecimal digits. -/
def isHex (b : UInt8) : Bool := (0x30 ≤ b && b ≤ 0x39) || (0x61 ≤ b && b ≤ 0x66)

/-- `n` bytes that are lower-case hexadecimal digits. -/
def hexDigits (n : ℕ) (s : String) : Bool :=
  s.utf8ByteSize = n && s.toByteArray.data.toList.all isHex

/-- A first character satisfying `head`, then at most `n` satisfying `tail`. -/
def headTail (head tail : Char → Bool) (n : ℕ) (s : String) : Bool :=
  match s.toList with
  | [] => false
  | c :: cs => head c && cs.all tail && cs.length ≤ n

/-- `s` starts with the text `t`. -/
def hasPrefix (s t : String) : Bool := t.toList.isPrefixOf s.toList

end Text

end Yggdrasil
