import Yggdrasil.Lib.Value

/-!
# The order of the entries of maps

A program that goes over the entries of a map meets them in any order. A value whose maps have their
entries in another order is related to it by `Reorder`.
-/

namespace Yggdrasil.Value

mutual

/-- The second value is the first with the entries of its maps in some order. -/
def Reorder : Value → Value → Prop
  | .list items, v' => ∃ items', v' = .list items' ∧ ReorderItems items items'
  | .map fields, v' => ∃ fields', v' = .map fields' ∧
      ∃ paired, ReorderFields fields paired ∧ paired.Perm fields'
  | .nil, v' => v' = .nil
  | .bool b, v' => v' = .bool b
  | .float q, v' => v' = .float q
  | .int type z, v' => v' = .int type z
  | .str s, v' => v' = .str s
  | .other type content, v' => v' = .other type content

/-- Item by item. -/
def ReorderItems : List Value → List Value → Prop
  | [], items' => items' = []
  | v :: vs, items' => ∃ v' vs', items' = v' :: vs' ∧ Reorder v v' ∧ ReorderItems vs vs'

/-- Entry by entry, with the same keys. -/
def ReorderFields : Fields → Fields → Prop
  | [], fields' => fields' = []
  | (k, v) :: rest, fields' =>
    ∃ v' rest', fields' = (k, v') :: rest' ∧ Reorder v v' ∧ ReorderFields rest rest'

end

variable {fields fields' : Fields}

theorem reorderFields_iff :
    ReorderFields fields fields' ↔
      List.Forall₂ (fun entry entry' => entry.1 = entry'.1 ∧ Reorder entry.2 entry'.2)
        fields fields' := by
  induction fields generalizing fields' with
  | nil => simp [ReorderFields]
  | cons entry fields ih =>
    simp only [ReorderFields, List.forall₂_cons_left_iff, ih]
    constructor
    · rintro ⟨v', rest', rfl, hv, hrest⟩
      exact ⟨(entry.1, v'), _, ⟨rfl, hv⟩, hrest, rfl⟩
    · rintro ⟨⟨k', v'⟩, rest', ⟨rfl, hv⟩, hrest, rfl⟩
      exact ⟨_, _, rfl, hv, hrest⟩

mutual

theorem Reorder.refl (v : Value) : Reorder v v := by
  cases v with
  | list items => exact ⟨items, rfl, ReorderItems.refl items⟩
  | map fields => exact ⟨fields, rfl, fields, ReorderFields.refl fields, .refl _⟩
  | nil | bool | float | int | str | other => simp [Reorder]

theorem ReorderItems.refl (items : List Value) : ReorderItems items items := by
  match items with
  | [] => rfl
  | v :: vs => exact ⟨v, vs, rfl, Reorder.refl v, ReorderItems.refl vs⟩

theorem ReorderFields.refl (fields : Fields) : ReorderFields fields fields := by
  match fields with
  | [] => rfl
  | (_, v) :: rest => exact ⟨v, rest, rfl, Reorder.refl v, ReorderFields.refl rest⟩

end

theorem ReorderFields.keys_eq (h : ReorderFields fields fields') :
    fields'.map Prod.fst = fields.map Prod.fst := by
  rw [reorderFields_iff] at h
  induction h with
  | nil => rfl
  | cons hentry _ ih => rw [List.map_cons, List.map_cons, ih, hentry.1]

/-! ## Setting entries -/

/-- The entries set one after the other. -/
def Fields.setAll (entries before : Fields) : Fields :=
  entries.foldl (fun fields entry => fields.set entry.1 entry.2) before

variable {entries before : Fields} {k : String} {v : Value}

theorem Fields.set_eq_cons (h : k ∉ before.map Prod.fst) : before.set k v = (k, v) :: before := by
  rw [Fields.set, List.filter_eq_self.2]
  intro entry hentry
  exact decide_eq_true fun heq => h (heq ▸ List.mem_map_of_mem hentry)

theorem Fields.length_set_le (before : Fields) (k : String) (v : Value) :
    (before.set k v).length ≤ before.length + 1 :=
  Nat.succ_le_succ (List.length_filter_le _ _)

theorem Fields.length_set_eq_iff :
    (before.set k v).length = before.length + 1 ↔ k ∉ before.map Prod.fst := by
  rw [Fields.set, List.length_cons, Nat.add_right_cancel_iff, List.length_filter_eq_length_iff]
  simp only [decide_eq_true_iff, List.mem_map, not_exists, not_and]

/-- Entries with keys of their own are all there in the end. -/
theorem Fields.setAll_eq (h : (entries.map Prod.fst).Nodup)
    (hbefore : (entries.map Prod.fst).Disjoint (before.map Prod.fst)) :
    entries.setAll before = entries.reverse ++ before := by
  induction entries generalizing before with
  | nil => rfl
  | cons entry entries ih =>
    rw [List.map_cons, List.nodup_cons] at h
    rw [List.map_cons, List.disjoint_cons_left] at hbefore
    have hset : before.set entry.1 entry.2 = entry :: before := Fields.set_eq_cons hbefore.1
    rw [setAll, List.foldl_cons, hset, ← setAll, ih h.2, List.reverse_cons, List.append_cons]
    rw [List.map_cons, List.disjoint_cons_right]
    exact ⟨h.1, hbefore.2⟩

theorem Fields.length_setAll_le (entries before : Fields) :
    (entries.setAll before).length ≤ entries.length + before.length := by
  induction entries generalizing before with
  | nil => simp [setAll]
  | cons entry entries ih =>
    have hentries := ih (before.set entry.1 entry.2)
    have hset := before.length_set_le entry.1 entry.2
    rw [setAll, List.foldl_cons, ← setAll, List.length_cons]
    omega

/-- No entry is lost exactly when no two have the same key. -/
theorem Fields.length_setAll_eq_iff :
    (entries.setAll []).length = entries.length ↔ (entries.map Prod.fst).Nodup := by
  constructor
  · -- An entry with the key of one before it replaces it.
    suffices h : ∀ before : Fields,
        (entries.setAll before).length = entries.length + before.length →
        (entries.map Prod.fst).Nodup ∧ (entries.map Prod.fst).Disjoint (before.map Prod.fst) from
      fun hlength => (h [] hlength).1
    induction entries with
    | nil => simp
    | cons entry entries ih =>
      intro before hlength
      rw [setAll, List.foldl_cons, ← setAll, List.length_cons] at hlength
      have hle := Fields.length_setAll_le entries (before.set entry.1 entry.2)
      have hset := before.length_set_le entry.1 entry.2
      have hnew : entry.1 ∉ before.map Prod.fst :=
        Fields.length_set_eq_iff.1 (show (before.set entry.1 entry.2).length = _ by omega)
      rw [Fields.set_eq_cons hnew] at hlength
      have hrest := ih ((entry.1, entry.2) :: before) (by rw [hlength, List.length_cons]; omega)
      rw [List.map_cons, List.disjoint_cons_right] at hrest
      rw [List.map_cons, List.nodup_cons, List.disjoint_cons_left]
      exact ⟨⟨hrest.2.1, hrest.1⟩, hnew, hrest.2.2⟩
  · intro h
    rw [Fields.setAll_eq h (List.disjoint_nil_right _)]
    simp

end Yggdrasil.Value
