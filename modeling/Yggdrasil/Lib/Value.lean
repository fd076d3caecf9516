import Mathlib

/-!
# Dynamic values and formatted errors

What a program holds after decoding a document whose shape it does not know (`Value`). A map is
given by its entries, of which the first for a key counts. An error is kept as the format and the
operands it was made from (`Fault`).
-/

namespace Yggdrasil

/-! ## Errors -/

/-- An operand of a formatted error. -/
inductive Operand
  | quoted (s : String)
  | text (s : String)
  | number (n : ℤ)
  | texts (l : List String)
  deriving DecidableEq

/-- A formatted error, which may wrap another. -/
inductive Fault
  | errorf (format : String) (operands : List Operand)
  | wrap (format : String) (operands : List Operand) (cause : Fault)
  deriving DecidableEq

/-! ## Values -/

/-- The integer types. -/
inductive IntType
  | int
  | int8
  | int16
  | int32
  | int64
  | uint
  | uint8
  | uint16
  | uint32
  | uint64
  deriving DecidableEq

/-- A dynamic value; `other` is of a type that documents are not decoded to. -/
inductive Value
  | nil
  | bool (b : Bool)
  | float (q : ℚ)
  | int (type : IntType) (z : ℤ)
  | str (s : String)
  | list (items : List Value)
  | map (fields : List (String × Value))
  | other (type : String) (content : Value)

/-- The entry of another key is found where those of a key are left out. -/
theorem lookup_filter_ne {α β : Type*} [DecidableEq α] (l : List (α × β)) {k k' : α}
    (h : k' ≠ k) : (l.filter (·.1 ≠ k)).lookup k' = l.lookup k' := by
  induction l with
  | nil => rfl
  | cons entry l ih =>
    by_cases hk : entry.1 = k
    · rw [List.filter_cons_of_neg (by simpa using hk), ih, List.lookup_cons,
        beq_false_of_ne (hk ▸ h)]
    · rw [List.filter_cons_of_pos (by simpa using hk), List.lookup_cons, List.lookup_cons, ih]

namespace Value

/-- The entries of a map. -/
abbrev Fields := List (String × Value)

/-- The entries without the key `k`. -/
def Fields.delete (fields : Fields) (k : String) : Fields := fields.filter (·.1 ≠ k)

theorem Fields.lookup_delete_self (fields : Fields) (k : String) :
    (fields.delete k).lookup k = none := by
  rw [List.lookup_eq_none_iff]
  intro entry hentry
  have hne : entry.1 ≠ k := of_decide_eq_true (List.mem_filter.1 hentry).2
  exact bne_iff_ne.2 hne.symm

variable {k' : String} {items : List Value}

theorem Fields.lookup_delete_of_ne (fields : Fields) {k : String} (h : k' ≠ k) :
    (fields.delete k).lookup k' = fields.lookup k' := lookup_filter_ne fields h

/-- The entries with the key `k` set to `v`. -/
def Fields.set (fields : Fields) (k : String) (v : Value) : Fields :=
  (k, v) :: fields.filter (·.1 ≠ k)

theorem Fields.lookup_set_self (fields : Fields) (k : String) (v : Value) :
    (fields.set k v).lookup k = some v := by
  simp [Fields.set]

theorem Fields.lookup_set_of_ne (fields : Fields) {k : String} (v : Value) (h : k' ≠ k) :
    (fields.set k v).lookup k' = fields.lookup k' := by
  rw [Fields.set, List.lookup_cons, beq_false_of_ne h]
  exact fields.lookup_delete_of_ne h

theorem Fields.lookup_set (fields : Fields) (k k' : String) (v : Value) :
    (fields.set k v).lookup k' = if k' = k then some v else fields.lookup k' := by
  split
  next h => rw [h, lookup_set_self]
  next h => exact fields.lookup_set_of_ne v h

mutual

/-- Equality of values, where the order of a map's entries does not matter. -/
def deepEqual : Value → Value → Bool
  | .nil, .nil => true
  | .bool b, .bool b' => b = b'
  | .float q, .float q' => q = q'
  | .int type z, .int type' z' => type = type' && z = z'
  | .str s, .str s' => s = s'
  | .list items, .list items' => deepEqualItems items items'
  | .map fields, .map fields' =>
    fields'.all (fun entry => (fields.lookup entry.1).isSome) && deepEqualFields fields fields'
  | .other type content, .other type' content' => type = type' && deepEqual content content'
  | _, _ => false

/-- Equality of lists of values. -/
def deepEqualItems : List Value → List Value → Bool
  | [], [] => true
  | v :: vs, v' :: vs' => deepEqual v v' && deepEqualItems vs vs'
  | _, _ => false

/-- Every entry has an equal one among `fields'`. -/
def deepEqualFields : Fields → Fields → Bool
  | [], _ => true
  | (k, v) :: rest, fields' =>
    (match fields'.lookup k with
      | some v' => deepEqual v v'
      | none => false) && deepEqualFields rest fields'

end

/-! ## Texts -/

mutual

/-- The strings and keys of a value. -/
def texts : Value → List String
  | .str s => [s]
  | .list items => textsItems items
  | .map fields => textsFields fields
  | .other _ content => texts content
  | .nil | .bool _ | .float _ | .int _ _ => []

/-- The strings and keys of a list of values. -/
def textsItems : List Value → List String
  | [] => []
  | v :: vs => texts v ++ textsItems vs

/-- The strings and keys of a map. -/
def textsFields : Fields → List String
  | [] => []
  | (k, v) :: rest => k :: (texts v ++ textsFields rest)

end

mutual

/-- The value with `f` applied to its strings and keys, if it is of a type of documents. -/
def mapTexts (f : String → String) : Value → Value
  | .str s => .str (f s)
  | .list items => .list (mapTextsItems f items)
  | .map fields => .map (mapTextsFields f fields)
  | .nil => .nil
  | .bool b => .bool b
  | .float q => .float q
  | .int type z => .int type z
  | .other type content => .other type content

/-- The values with `f` applied to their strings and keys. -/
def mapTextsItems (f : String → String) : List Value → List Value
  | [] => []
  | v :: vs => mapTexts f v :: mapTextsItems f vs

/-- The map with `f` applied to its strings and keys. -/
def mapTextsFields (f : String → String) : Fields → Fields
  | [] => []
  | (k, v) :: rest => (f k, mapTexts f v) :: mapTextsFields f rest

end

mutual

/-- The value is what a document is decoded to. -/
def isDocument : Value → Bool
  | .list items => isDocumentItems items
  | .map fields => isDocumentFields fields
  | .other _ _ => false
  | .nil | .bool _ | .float _ | .int _ _ | .str _ => true

/-- The values are what documents are decoded to. -/
def isDocumentItems : List Value → Bool
  | [] => true
  | v :: vs => isDocument v && isDocumentItems vs

/-- The entries are those of a document. -/
def isDocumentFields : Fields → Bool
  | [] => true
  | (_, v) :: rest => isDocument v && isDocumentFields rest

end

variable {fields : Fields} {k t : String} {v : Value}

theorem mem_textsFields :
    t ∈ textsFields fields ↔ ∃ entry ∈ fields, t = entry.1 ∨ t ∈ entry.2.texts := by
  induction fields with
  | nil => simp [textsFields]
  | cons entry fields ih =>
    rw [textsFields, List.mem_cons, List.mem_append, ih, List.exists_mem_cons_iff, or_assoc]

theorem mem_textsItems : t ∈ textsItems items ↔ ∃ v ∈ items, t ∈ v.texts := by
  induction items with
  | nil => simp [textsItems]
  | cons v items ih => rw [textsItems, List.mem_append, ih, List.exists_mem_cons_iff]

theorem isDocumentFields_iff :
    isDocumentFields fields = true ↔ ∀ entry ∈ fields, entry.2.isDocument = true := by
  induction fields with
  | nil => simp [isDocumentFields]
  | cons entry fields ih =>
    rw [isDocumentFields, Bool.and_eq_true, ih, List.forall_mem_cons]

theorem isDocumentItems_iff : isDocumentItems items = true ↔ ∀ v ∈ items, v.isDocument = true := by
  induction items with
  | nil => simp [isDocumentItems]
  | cons v items ih => rw [isDocumentItems, Bool.and_eq_true, ih, List.forall_mem_cons]

theorem Fields.mem_of_lookup (h : fields.lookup k = some v) : (k, v) ∈ fields := by
  obtain ⟨l, r, rfl, -⟩ := List.lookup_eq_some_iff.1 h
  simp

theorem Fields.mem_set {entry : String × Value} (h : entry ∈ fields.set k v) :
    entry = (k, v) ∨ entry ∈ fields :=
  (List.mem_cons.1 h).imp_right fun h => (List.mem_filter.1 h).1

/-- Setting a key adds no texts but the key and those of the value. -/
theorem Fields.mem_textsFields_set (h : t ∈ textsFields (fields.set k v)) :
    t = k ∨ t ∈ v.texts ∨ t ∈ textsFields fields := by
  obtain ⟨entry, hentry, ht⟩ := mem_textsFields.1 h
  rcases Fields.mem_set hentry with rfl | hentry
  · exact ht.imp_right .inl
  · exact .inr (.inr (mem_textsFields.2 ⟨entry, hentry, ht⟩))

theorem Fields.isDocumentFields_set (hfields : isDocumentFields fields = true)
    (hv : v.isDocument = true) : isDocumentFields (fields.set k v) = true := by
  rw [isDocumentFields_iff] at hfields ⊢
  intro entry hentry
  rcases Fields.mem_set hentry with rfl | hentry
  · exact hv
  · exact hfields entry hentry

section

variable {f : String → String}

mutual

/-- The texts of a changed document are the changed texts. -/
theorem texts_mapTexts (v : Value) (hv : v.isDocument = true) :
    (v.mapTexts f).texts = v.texts.map f := by
  cases v with
  | list items => exact textsItems_mapTexts items hv
  | map fields => exact textsFields_mapTexts fields hv
  | nil | bool | float | int | str => rfl
  | other type content => cases hv

theorem textsItems_mapTexts (vs : List Value) (hvs : isDocumentItems vs = true) :
    textsItems (mapTextsItems f vs) = (textsItems vs).map f := by
  cases vs with
  | nil => rfl
  | cons v vs =>
    rw [isDocumentItems, Bool.and_eq_true] at hvs
    rw [mapTextsItems, textsItems, textsItems, List.map_append, texts_mapTexts v hvs.1,
      textsItems_mapTexts vs hvs.2]

theorem textsFields_mapTexts (fields : Fields) (hfields : isDocumentFields fields = true) :
    textsFields (mapTextsFields f fields) = (textsFields fields).map f := by
  cases fields with
  | nil => rfl
  | cons entry fields =>
    rw [isDocumentFields, Bool.and_eq_true] at hfields
    rw [mapTextsFields, textsFields, textsFields, List.map_cons, List.map_append,
      texts_mapTexts entry.2 hfields.1, textsFields_mapTexts fields hfields.2]

end

end

end Value

end Yggdrasil
