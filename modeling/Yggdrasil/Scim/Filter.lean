import Yggdrasil.Lib.Check
import Yggdrasil.Lib.Replace
import Yggdrasil.Lib.Runes

/-!
# SCIM filters

A filter compares an attribute with a value, or asks whether it is present, and may be the
conjunction of two comparisons. `parseFilter` searches the text in lower case and slices the text
itself, with the offsets that it found.
-/

namespace Yggdrasil.Scim

open Check Text

/-- How reading a filter fails: it is refused, or a slice is out of range. -/
inductive Failure
  | unsupportedFilter
  | outOfRange

/-- The operators of comparisons. -/
inductive Operator
  | eq
  | ne
  | co
  | sw
  | ew
  | pr

/-- A comparison, and one that must hold too. -/
structure Filter where
  attr : String
  operator : Operator
  value : Runes
  and : Option Filter

/-- The bytes between the offsets. -/
def slice (s : Runes) (lo hi : ℤ) : Except Failure Runes :=
  match s.slice lo hi with
  | some part => .ok part
  | none => .error .outOfRange

variable (cm : CaseMap)

/-- The names of attributes are read up to case. -/
def normalizeAttr (raw : Runes) : String := (raw.trimSpace.toLower cm).text

/-- The operators that are followed by a value. -/
def readOperator (token : Runes) : Option Operator :=
  [("eq", .eq), ("ne", .ne), ("co", .co), ("sw", .sw), ("ew", .ew)].lookup (token.toLower cm).text

/-- The token stands between blanks, in any case. -/
def containsLowercaseToken (s : Runes) (token : String) : Bool :=
  Runes.ofString (" " ++ token ++ " ") <:+:
    Runes.ofString " " ++ s.toLower cm ++ Runes.ofString " "

/-- What is before and after the first place where the text in lower case has the separator. -/
def splitOnceCaseInsensitive (s sep : Runes) : Except Failure (Runes × Option Runes) :=
  match Runes.index (sep.toLower cm) (s.toLower cm) with
  | none => .ok (s, none)
  | some idx => do
    let left ← slice s 0 idx
    let right ← slice s (idx + sep.size) s.size
    .ok (left, some right)

/-- A comparison is read from a text. -/
def parseSimple (raw : Runes) : Except Failure Filter :=
  let raw := raw.trimSpace
  if raw = [] then .error .unsupportedFilter
  else if Runes.ofString " pr" <:+ raw.toLower cm then do
    -- The only operator without a value.
    let attr ← slice raw 0 (raw.size - 3)
    let attr := attr.trimSpace
    if attr = [] then .error .unsupportedFilter
    else .ok ⟨normalizeAttr cm attr, .pr, [], none⟩
  else
    match raw.splitN (.char ' ') 3 with
    | [attr, token, val] =>
      match readOperator cm token with
      | none => .error .unsupportedFilter
      | some op =>
        let val := (val.trimSpace.trimStart (.ofString "\"")).trimEnd (.ofString "\"")
        .ok ⟨normalizeAttr cm attr, op, val, none⟩
    | _ => .error .unsupportedFilter

/-- What is refused whatever it compares. -/
def refused (raw : Runes) : Bool :=
  raw.any (· ∈ Runes.ofString "()[]") || containsLowercaseToken cm raw "or"

/-- The filter of a text, of which there is none when it is blank. -/
def parseFilter (raw : String) : Except Failure (Option Filter) :=
  let raw := (Runes.ofString raw).trimSpace
  if raw = [] then .ok none
  else if refused cm raw then .error .unsupportedFilter
  else do
    let (left, right) ← splitOnceCaseInsensitive cm raw (.ofString " and ")
    let left ← parseSimple cm left
    match right with
    | none => .ok (some left)
    | some right => do
      let right ← parseSimple cm right
      .ok (some { left with and := some right })

/-! ## Slices in range -/

/-- The text is refused at once, or its lower case leaves room for the conjunction. -/
def InRange (raw : String) : Prop :=
  let raw := (Runes.ofString raw).trimSpace
  refused cm raw = true ∨
    ∀ idx, Runes.index ((Runes.ofString " and ").toLower cm) (raw.toLower cm) = some idx →
      idx + 5 ≤ raw.size

variable {cm} {raw : Runes} {s : Runes}

theorem slice_eq_outOfRange {lo hi : ℤ} :
    slice s lo hi = .error .outOfRange ↔ ¬ (0 ≤ lo ∧ lo ≤ hi ∧ hi ≤ s.size) := by
  rw [← Runes.slice_isSome, slice]
  cases s.slice lo hi <;> simp

theorem exists_slice {lo hi : ℤ} (h : 0 ≤ lo ∧ lo ≤ hi ∧ hi ≤ s.size) :
    ∃ part, slice s lo hi = .ok part := by
  obtain ⟨part, hpart⟩ := Option.isSome_iff_exists.1 (Runes.slice_isSome.2 h)
  exact ⟨part, by rw [slice, hpart]⟩

/-- A text that ends with the operator in lower case has at least its bytes. -/
theorem three_le_size (h : Runes.ofString " pr" <:+ raw.toLower cm) : 3 ≤ raw.size := by
  have hlength := h.length_le
  rw [Runes.length_toLower] at hlength
  exact hlength.trans raw.length_le_size

theorem parseSimple_ne_outOfRange : parseSimple cm raw ≠ .error .outOfRange := by
  intro h
  rw [parseSimple] at h
  split_ifs at h with hempty hpr
  · cases h
  · have hsize := three_le_size hpr
    have hrange : 0 ≤ (0 : ℤ) ∧ 0 ≤ (raw.trimSpace.size - 3 : ℤ) ∧
        (raw.trimSpace.size - 3 : ℤ) ≤ raw.trimSpace.size := by omega
    obtain ⟨attr, hattr⟩ := exists_slice hrange
    rw [hattr, bind_eq_error] at h
    obtain h | ⟨_, -, h⟩ := h
    · cases h
    · dsimp only at h
      split_ifs at h
      cases h
  · split at h
    · split at h <;> cases h
    · cases h

/-- No slice is out of range exactly when the offset leaves room for the separator. -/
theorem splitOnceCaseInsensitive_ne_outOfRange {sep : Runes} :
    splitOnceCaseInsensitive cm s sep ≠ .error .outOfRange ↔
      ∀ idx, Runes.index (sep.toLower cm) (s.toLower cm) = some idx → idx + sep.size ≤ s.size := by
  rw [splitOnceCaseInsensitive]
  cases Runes.index (sep.toLower cm) (s.toLower cm) with
  | none => simp
  | some idx =>
    simp only [Option.some.injEq, forall_eq']
    constructor
    · intro h
      by_contra hlt
      refine h (bind_eq_error.2 ?_)
      by_cases hidx : idx ≤ s.size
      · obtain ⟨left, hleft⟩ : ∃ left, slice s 0 idx = .ok left := exists_slice (by omega)
        exact .inr ⟨left, hleft, bind_eq_error.2 (.inl (slice_eq_outOfRange.2 (by omega)))⟩
      · exact .inl (slice_eq_outOfRange.2 (by omega))
    · intro hle
      obtain ⟨left, hleft⟩ : ∃ left, slice s 0 idx = .ok left := exists_slice (by omega)
      obtain ⟨right, hright⟩ : ∃ right, slice s (idx + sep.size) s.size = .ok right :=
        exists_slice (by omega)
      rw [hleft, hright]
      intro h
      cases h

/-- A filter is read or refused without a slice out of range exactly when it is `InRange`. -/
theorem parseFilter_inRange {raw : String} :
    parseFilter cm raw ≠ .error .outOfRange ↔ InRange cm raw := by
  rw [parseFilter, InRange]
  generalize (Runes.ofString raw).trimSpace = s
  dsimp only
  split_ifs with hempty hrefused
  · subst hempty
    simp [Runes.index, Runes.toLower, Runes.ofString]
  · simp [hrefused]
  · have hsep : (Runes.ofString " and ").size = 5 := by decide +kernel
    rw [or_iff_right hrefused, ← hsep, ← splitOnceCaseInsensitive_ne_outOfRange, ne_eq,
      bind_eq_error, not_or]
    -- What is read after the split fails by refusing only.
    refine and_iff_left ?_
    rintro ⟨⟨left, right⟩, -, h⟩
    obtain h | ⟨f, -, h⟩ := bind_eq_error.1 h
    · exact parseSimple_ne_outOfRange h
    · cases right with
      | none => cases h
      | some right =>
        obtain h | ⟨g, -, h⟩ := bind_eq_error.1 h
        · exact parseSimple_ne_outOfRange h
        · cases h

/-- The lower case of ASCII and of one letter of two bytes, which has three in lower case. -/
def latin : CaseMap where
  lower c := if c = 'Ⱥ' then 'ⱥ' else asciiLower c
  fold c := if c = 'Ⱥ' then 'ⱥ' else asciiLower c
  isSpace_lower c := by
    split
    next h => subst h; decide +kernel
    next => exact isSpace_asciiLower c

/-- The lower case has two bytes more before the conjunction, and the offset is beyond the end. -/
theorem not_parseFilter_inRange : parseFilter latin "ȺȺ and x" = .error .outOfRange := by
  rfl

end Yggdrasil.Scim
