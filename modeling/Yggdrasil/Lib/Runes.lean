import Yggdrasil.Lib.Go

/-!
# Texts cut at a byte

A slice of a text is given by offsets in bytes, which may cut a character apart. What is then left
of it is bytes of no character, and a text is read as its characters with such bytes among them
(`Rune`).
-/

namespace Yggdrasil

/-- What a text is read as: a character, or a byte that belongs to none. -/
inductive Rune
  | char (c : Char)
  | stray (b : UInt8)
  deriving DecidableEq

namespace Rune

/-- The bytes of a rune. -/
def bytes : Rune → List UInt8
  | char c => String.utf8EncodeChar c
  | stray b => [b]

/-- How many bytes a rune has. -/
def size (r : Rune) : ℕ := r.bytes.length

theorem size_char (c : Char) : (char c).size = c.utf8Size := String.length_utf8EncodeChar c

theorem size_pos (r : Rune) : 0 < r.size := by
  cases r with
  | char c =>
    rw [size_char]
    exact c.utf8Size_pos
  | stray b => exact Nat.one_pos

/-- The character that a rune is taken for: a byte that belongs to none is replaced. -/
def toChar : Rune → Char
  | char c => c
  | stray _ => .ofNat 0xFFFD

/-- Whether it is white space; a byte of its own is not. -/
def isSpace : Rune → Bool
  | char c => Text.isSpace c
  | stray _ => false

end Rune

/-- A text that may have been cut inside a character. -/
abbrev Runes := List Rune

namespace Runes

open Text

/-- The runes of a text. -/
def ofString (s : String) : Runes := s.toList.map .char

/-- The text with the bytes that belong to no character replaced. -/
def text (s : Runes) : String := .ofList (s.map Rune.toChar)

/-- How many bytes a text has. -/
def size (s : Runes) : ℕ := (s.map Rune.size).sum

@[simp] theorem size_cons (r : Rune) (s : Runes) : size (r :: s) = r.size + s.size := rfl

@[simp] theorem size_append (s t : Runes) : size (s ++ t) = s.size + t.size := by
  simp [size]

theorem length_le_size (s : Runes) : s.length ≤ s.size := by
  induction s with
  | nil => exact le_rfl
  | cons r s ih =>
    have hr : 0 < r.size := r.size_pos
    rw [List.length_cons, size_cons]
    omega

/-! ## Slices -/

/-- The first `n` bytes. -/
def takeBytes : ℕ → Runes → Runes
  | _, [] => []
  | n, r :: s =>
    if r.size ≤ n then r :: takeBytes (n - r.size) s else (r.bytes.take n).map .stray

/-- What is left after the first `n` bytes. -/
def dropBytes : ℕ → Runes → Runes
  | _, [] => []
  | n, r :: s =>
    if r.size ≤ n then dropBytes (n - r.size) s
    else if n = 0 then r :: s
    else (r.bytes.drop n).map .stray ++ s

/-- The bytes from the offset `lo` up to the offset `hi`, if these are in range. -/
def slice (s : Runes) (lo hi : ℤ) : Option Runes :=
  if 0 ≤ lo ∧ lo ≤ hi ∧ hi ≤ s.size then
    some (takeBytes (hi - lo).toNat (dropBytes lo.toNat s))
  else none

theorem slice_isSome {s : Runes} {lo hi : ℤ} :
    (s.slice lo hi).isSome = true ↔ 0 ≤ lo ∧ lo ≤ hi ∧ hi ≤ s.size := by
  rw [slice]
  split
  next h => simpa using h
  next h => simpa using h

theorem takeBytes_append (s t : Runes) : takeBytes s.size (s ++ t) = s := by
  induction s with
  | nil =>
    cases t with
    | nil => rfl
    | cons r t => simp [takeBytes, size, Nat.not_le.2 r.size_pos]
  | cons r s ih =>
    rw [List.cons_append, takeBytes, size_cons, if_pos (Nat.le_add_right _ _),
      Nat.add_sub_cancel_left, ih]

theorem dropBytes_append (s t : Runes) : dropBytes s.size (s ++ t) = t := by
  induction s with
  | nil =>
    cases t with
    | nil => rfl
    | cons r t => simp [dropBytes, size, Nat.not_le.2 r.size_pos]
  | cons r s ih =>
    rw [List.cons_append, dropBytes, size_cons, if_pos (Nat.le_add_right _ _),
      Nat.add_sub_cancel_left, ih]

theorem slice_left (s t : Runes) : slice (s ++ t) 0 s.size = some s := by
  have hdrop : dropBytes 0 (s ++ t) = s ++ t := dropBytes_append [] (s ++ t)
  rw [slice, if_pos (by simp)]
  simp [hdrop, takeBytes_append]

theorem slice_right (s t : Runes) : slice (s ++ t) s.size (s ++ t).size = some t := by
  have htake : takeBytes t.size t = t := by simpa using takeBytes_append t []
  rw [slice, if_pos (by simp)]
  simp [dropBytes_append, htake]

/-! ## White space, case and separators -/

/-- The text without white space around it. -/
def trimSpace (s : Runes) : Runes := (s.dropWhile Rune.isSpace).rdropWhile Rune.isSpace

/-- No white space is around the text. -/
def Trimmed (s : Runes) : Prop :=
  s.dropWhile Rune.isSpace = s ∧ s.rdropWhile Rune.isSpace = s

theorem Trimmed.trimSpace {s : Runes} (h : s.Trimmed) : s.trimSpace = s := by
  rw [Runes.trimSpace, h.1, h.2]

/-- What begins and ends with texts that have no white space around them has none either. -/
theorem Trimmed.append {s t : Runes} (hs : s.Trimmed) (hs' : s ≠ []) (ht : t.Trimmed)
    (ht' : t ≠ []) (m : Runes) : Trimmed (s ++ m ++ t) := by
  refine ⟨?_, ?_⟩
  · obtain ⟨r, s, rfl⟩ := List.exists_cons_of_ne_nil hs'
    have hdrop := hs.1
    rw [List.dropWhile_eq_self_iff] at hdrop ⊢
    intro _
    exact hdrop (by simp)
  · have hrdrop := ht.2
    rw [List.rdropWhile_eq_self_iff] at hrdrop ⊢
    intro hne
    rw [List.getLast_append_of_ne_nil hne ht']
    exact hrdrop ht'

/-- The lower case, in which a byte of its own becomes U+FFFD. -/
def toLower (cm : CaseMap) (s : Runes) : Runes := s.map fun r => .char (cm.lower r.toChar)

@[simp] theorem length_toLower (cm : CaseMap) (s : Runes) : (s.toLower cm).length = s.length :=
  List.length_map _

/-- The offset of the first place where `sep` is found. -/
def index (sep : Runes) : Runes → Option ℕ
  | [] => if sep = [] then some 0 else none
  | r :: s => if sep <+: r :: s then some 0 else (index sep s).map (r.size + ·)

/-- The parts between the separators, of which the last is the rest after `n - 1` of them. -/
def splitN (sep : Rune) : ℕ → Runes → List Runes
  | 0, _ => []
  | 1, s => [s]
  | n + 2, s =>
    match s.dropWhile (· ≠ sep) with
    | [] => [s]
    | _ :: rest => s.takeWhile (· ≠ sep) :: splitN sep (n + 1) rest

/-- `strings.TrimPrefix`. -/
def trimStart (s t : Runes) : Runes := if t <+: s then s.drop t.length else s

/-- `strings.TrimSuffix`. -/
def trimEnd (s t : Runes) : Runes := if t <:+ s then s.take (s.length - t.length) else s

/-- A cut in the middle of a character leaves bytes that belong to none. -/
example : (ofString "Ⱥb").slice 1 3 = some [.stray 0xBA, .char 'b'] := by decide +kernel

end Runes

end Yggdrasil
