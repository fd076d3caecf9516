import Yggdrasil.Lib.Value

/-!
# Values as documents

A value is written as a document and read back. Documents have one kind of number, read back as the
nearest floating-point one; a value of another type is written as what it holds.
-/

namespace Yggdrasil.Value

/-! ## Writing -/

section Marshal

variable (supports : String → Bool)

mutual

/-- The document of a value. -/
def marshal : Value → Option Value
  | .int _ z => some (.float z)
  | .list items => (marshalItems items).map .list
  | .map fields => (marshalFields fields).map .map
  | .other type content => if supports type then marshal content else none
  | .nil => some .nil
  | .bool b => some (.bool b)
  | .float q => some (.float q)
  | .str s => some (.str s)

/-- The documents of a list of values. -/
def marshalItems : List Value → Option (List Value)
  | [] => some []
  | v :: vs => (marshal v).bind fun d => (marshalItems vs).map (d :: ·)

/-- The entries of the document of a map. -/
def marshalFields : Fields → Option Fields
  | [] => some []
  | (k, v) :: rest => (marshal v).bind fun d => (marshalFields rest).map ((k, d) :: ·)

end

variable {supports}

/-- A document has the entries of its map, each of them written. -/
theorem lookup_marshalFields {fields doc : Fields} (h : marshalFields supports fields = some doc)
    (k : String) : doc.lookup k = (fields.lookup k).bind (marshal supports) := by
  induction fields generalizing doc with
  | nil =>
    cases h
    rfl
  | cons entry fields ih =>
    rw [marshalFields] at h
    obtain ⟨d, hd, h⟩ := Option.bind_eq_some_iff.1 h
    obtain ⟨rest, hrest, rfl⟩ := Option.map_eq_some_iff.1 h
    rw [List.lookup_cons, List.lookup_cons, ih hrest]
    cases k == entry.1
    · rfl
    · exact hd.symm

end Marshal

/-! ## Reading -/

section Unmarshal

variable (float64 : ℚ → ℚ)

mutual

/-- The value of a document. -/
def unmarshal : Value → Value
  | .float q => .float (float64 q)
  | .list items => .list (unmarshalItems items)
  | .map fields => .map (unmarshalFields fields)
  | .nil => .nil
  | .bool b => .bool b
  | .str s => .str s
  | .int type z => .int type z
  | .other type content => .other type content

/-- The values of a list of documents. -/
def unmarshalItems : List Value → List Value
  | [] => []
  | v :: vs => unmarshal v :: unmarshalItems vs

/-- The values of the entries of a document. -/
def unmarshalFields : Fields → Fields
  | [] => []
  | (k, v) :: rest => (k, unmarshal v) :: unmarshalFields rest

end

mutual

/-- The numbers of a document. -/
def numbers : Value → List ℚ
  | .float q => [q]
  | .list items => numbersItems items
  | .map fields => numbersFields fields
  | .nil | .bool _ | .str _ | .int _ _ | .other _ _ => []

/-- The numbers of a list of documents. -/
def numbersItems : List Value → List ℚ
  | [] => []
  | v :: vs => numbers v ++ numbersItems vs

/-- The numbers of the entries of a document. -/
def numbersFields : Fields → List ℚ
  | [] => []
  | (_, v) :: rest => numbers v ++ numbersFields rest

end

variable {float64} {supports : String → Bool}

mutual

/-- A document is read as itself if and only if its numbers are. -/
theorem unmarshal_eq_self_iff (v : Value) :
    unmarshal float64 v = v ↔ ∀ q ∈ v.numbers, float64 q = q := by
  cases v with
  | float q => simp [unmarshal, numbers]
  | list items => simp [unmarshal, numbers, unmarshalItems_eq_self_iff items]
  | map fields => simp [unmarshal, numbers, unmarshalFields_eq_self_iff fields]
  | nil | bool | str | int | other => simp [unmarshal, numbers]

theorem unmarshalItems_eq_self_iff (vs : List Value) :
    unmarshalItems float64 vs = vs ↔ ∀ q ∈ numbersItems vs, float64 q = q := by
  cases vs with
  | nil => simp [unmarshalItems, numbersItems]
  | cons v vs =>
    rw [unmarshalItems, numbersItems, List.cons.injEq, List.forall_mem_append,
      unmarshal_eq_self_iff v, unmarshalItems_eq_self_iff vs]

theorem unmarshalFields_eq_self_iff (fields : Fields) :
    unmarshalFields float64 fields = fields ↔ ∀ q ∈ numbersFields fields, float64 q = q := by
  cases fields with
  | nil => simp [unmarshalFields, numbersFields]
  | cons entry fields =>
    rw [unmarshalFields, numbersFields, List.cons.injEq, Prod.ext_iff, List.forall_mem_append,
      unmarshal_eq_self_iff entry.2, unmarshalFields_eq_self_iff fields]
    simp

end

mutual

/-- What a document is read as is written as itself. -/
theorem marshal_unmarshal {v d : Value} (h : marshal supports v = some d) :
    marshal supports (unmarshal float64 d) = some (unmarshal float64 d) := by
  cases v with
  | list items =>
    obtain ⟨ds, hds, rfl⟩ := Option.map_eq_some_iff.1 h
    rw [unmarshal, marshal, marshalItems_unmarshalItems hds, Option.map_some]
  | map fields =>
    obtain ⟨ds, hds, rfl⟩ := Option.map_eq_some_iff.1 h
    rw [unmarshal, marshal, marshalFields_unmarshalFields hds, Option.map_some]
  | other type content =>
    rw [marshal] at h
    split at h
    · exact marshal_unmarshal h
    · cases h
  | nil | bool | float | int | str =>
    cases h
    rfl

theorem marshalItems_unmarshalItems {vs ds : List Value}
    (h : marshalItems supports vs = some ds) :
    marshalItems supports (unmarshalItems float64 ds) = some (unmarshalItems float64 ds) := by
  cases vs with
  | nil =>
    cases h
    rfl
  | cons v vs =>
    rw [marshalItems] at h
    obtain ⟨d, hd, h⟩ := Option.bind_eq_some_iff.1 h
    obtain ⟨rest, hrest, rfl⟩ := Option.map_eq_some_iff.1 h
    rw [unmarshalItems, marshalItems, marshal_unmarshal hd, marshalItems_unmarshalItems hrest]
    rfl

theorem marshalFields_unmarshalFields {fields ds : Fields}
    (h : marshalFields supports fields = some ds) :
    marshalFields supports (unmarshalFields float64 ds) = some (unmarshalFields float64 ds) := by
  cases fields with
  | nil =>
    cases h
    rfl
  | cons entry fields =>
    rw [marshalFields] at h
    obtain ⟨d, hd, h⟩ := Option.bind_eq_some_iff.1 h
    obtain ⟨rest, hrest, rfl⟩ := Option.map_eq_some_iff.1 h
    rw [unmarshalFields, marshalFields, marshal_unmarshal hd, marshalFields_unmarshalFields hrest]
    rfl

end

end Unmarshal

/-! ## Floating-point numbers -/

/-- The nearest integer, and the even one of two that are as near. -/
def roundHalfEven (q : ℚ) : ℤ :=
  let rest := q - ⌊q⌋
  if rest < 1 / 2 ∨ rest = 1 / 2 ∧ ⌊q⌋ % 2 = 0 then ⌊q⌋ else ⌊q⌋ + 1

/-- The nearest number with 53 significant bits, and an exponent that is not too small. -/
def float64 (q : ℚ) : ℚ :=
  let e := max (-1074) (Int.log 2 |q| - 52)
  roundHalfEven (q / 2 ^ e) * 2 ^ e

example : float64 (2 ^ 53 + 1) = 2 ^ 53 := by decide +kernel

end Yggdrasil.Value
