import Mathlib.Data.List.Nodup
import Mathlib.Logic.Function.Basic

/-!
# Tables

A table is a list of rows whose keys are pairwise different (`Table`). What a write does to the
number of rows with some property is said once per write.
-/

namespace Yggdrasil

/-- Rows with pairwise different keys. -/
structure Table {κ ρ : Type} (key : ρ → κ) where
  rows : List ρ
  nodup : (rows.map key).Nodup

namespace Table

variable {κ ρ : Type} {key : ρ → κ} {t t' : Table key} {r s : ρ} {p : ρ → Bool} {f : ρ → ρ}
  {old : ρ} {hf : ∀ r, key (f r) = key r}

instance : Membership ρ (Table key) := ⟨fun t r => r ∈ t.rows⟩

theorem mem_def : r ∈ t ↔ r ∈ t.rows := Iff.rfl

/-- The table without rows. -/
def empty : Table key := ⟨[], List.nodup_nil⟩

theorem eq_of_key_eq (hr : r ∈ t) (hs : s ∈ t) (h : key r = key s) : r = s :=
  List.inj_on_of_nodup_map t.nodup hr hs h

/-- The number of rows with a property. -/
def count (t : Table key) (p : ρ → Bool) : ℕ := t.rows.countP p

theorem count_eq_zero : t.count p = 0 ↔ ∀ r ∈ t, p r = false := by
  simp [count, List.countP_eq_zero, mem_def]

/-! ## Updates of many rows -/

/-- An update of every row that keeps the keys. -/
def map (t : Table key) (f : ρ → ρ) (hf : ∀ r, key (f r) = key r) : Table key where
  rows := t.rows.map f
  nodup := by
    have hkeys : (t.rows.map f).map key = t.rows.map key := by simp [Function.comp_def, hf]
    exact hkeys ▸ t.nodup

@[simp]
theorem mem_map : r ∈ t.map f hf ↔ ∃ s ∈ t, f s = r :=
  List.mem_map

theorem count_map_le (h : ∀ r ∈ t, p (f r) = true → p r = true) :
    (t.map f hf).count p ≤ t.count p := by
  simp only [count, map, List.countP_map]
  exact List.countP_mono_left h

/-- The rows with a property. -/
def filter (t : Table key) (p : ρ → Bool) : Table key where
  rows := t.rows.filter p
  nodup := t.nodup.sublist (List.filter_sublist.map key)

@[simp]
theorem mem_filter : r ∈ t.filter p ↔ r ∈ t ∧ p r = true :=
  List.mem_filter

variable [DecidableEq κ]

/-! ## One row -/

/-- The row of a key. -/
def get? (t : Table key) (k : κ) : Option ρ := t.rows.find? (key · = k)

variable {k : κ}

theorem get?_eq_some : t.get? k = some r ↔ r ∈ t ∧ key r = k := by
  constructor
  · intro h
    exact ⟨List.mem_of_find?_eq_some h, by simpa using List.find?_some h⟩
  · rintro ⟨hr, rfl⟩
    cases hfind : t.get? (key r) with
    | none => simpa using List.find?_eq_none.1 hfind r hr
    | some s =>
      have hs : s ∈ t := List.mem_of_find?_eq_some hfind
      have hkey : key s = key r := by simpa using List.find?_some hfind
      rw [eq_of_key_eq hs hr hkey]

theorem get?_eq_none : t.get? k = none ↔ ∀ r ∈ t, key r ≠ k := by
  simp [get?, List.find?_eq_none, mem_def]

/-- The table with a new row, unless its key is taken. -/
def insert? (t : Table key) (r : ρ) : Option (Table key) :=
  if h : key r ∈ t.rows.map key then none
  else some ⟨r :: t.rows, by rw [List.map_cons]; exact List.nodup_cons.2 ⟨h, t.nodup⟩⟩

theorem insert?_eq_some (h : t.insert? r = some t') :
    (∀ s ∈ t, key s ≠ key r) ∧ t'.rows = r :: t.rows := by
  unfold insert? at h
  split at h
  · cases h
  next hfresh =>
    cases h
    exact ⟨fun s hs hkey => hfresh (hkey ▸ List.mem_map_of_mem hs), rfl⟩

theorem mem_of_insert? (h : t.insert? r = some t') : s ∈ t' ↔ s = r ∨ s ∈ t := by
  rw [mem_def, (insert?_eq_some h).2, List.mem_cons, mem_def]

theorem get?_of_insert? (h : t.insert? r = some t') (k : κ) :
    t'.get? k = if key r = k then some r else t.get? k := by
  split
  next hk => exact get?_eq_some.2 ⟨(mem_of_insert? h).2 (.inl rfl), hk⟩
  next hk =>
    rw [get?, (insert?_eq_some h).2, List.find?_cons_of_neg (by simpa using hk), get?]

theorem count_insert? (h : t.insert? r = some t') (p : ρ → Bool) :
    t'.count p = t.count p + (p r).toNat := by
  rw [count, (insert?_eq_some h).2, List.countP_cons, count]
  cases p r <;> rfl

/-- The row with the key of `r` becomes `r`. -/
def set (t : Table key) (r : ρ) : Table key :=
  t.map (fun s => if key s = key r then r else s) fun s => by
    by_cases h : key s = key r <;> simp [h]

theorem mem_set :
    s ∈ t.set r ↔ (s = r ∧ ∃ old ∈ t, key old = key r) ∨ (s ∈ t ∧ key s ≠ key r) := by
  simp only [set, mem_map]
  constructor
  · rintro ⟨old, hold, rfl⟩
    by_cases hkey : key old = key r
    · exact .inl ⟨if_pos hkey, old, hold, hkey⟩
    · rw [if_neg hkey]
      exact .inr ⟨hold, hkey⟩
  · rintro (⟨rfl, old, hold, hkey⟩ | ⟨hs, hkey⟩)
    · exact ⟨old, hold, if_pos hkey⟩
    · exact ⟨s, hs, if_neg hkey⟩

/-- A write relates the rows before and after it as it relates the row that it replaces. -/
theorem rel_set {R : ρ → ρ → Prop} (hrefl : ∀ r, R r r) (hold : old ∈ t) (hkey : key r = key old)
    (h : R old r) : (∀ s ∈ t, ∃ s' ∈ t.set r, R s s') ∧ ∀ s' ∈ t.set r, ∃ s ∈ t, R s s' := by
  refine ⟨fun s hs => ?_, fun s' hs' => ?_⟩
  · by_cases hs_key : key s = key r
    · have heq : s = old := eq_of_key_eq hs hold (hs_key.trans hkey)
      exact ⟨r, mem_set.2 (.inl ⟨rfl, s, hs, hs_key⟩), heq ▸ h⟩
    · exact ⟨s, mem_set.2 (.inr ⟨hs, hs_key⟩), hrefl s⟩
  · rcases mem_set.1 hs' with ⟨rfl, -⟩ | ⟨hs, -⟩
    · exact ⟨old, hold, h⟩
    · exact ⟨s', hs, hrefl s'⟩

theorem set_self (hr : r ∈ t) : t.set r = t := by
  have hrows : (t.rows.map fun s => if key s = key r then r else s) = t.rows := by
    refine (List.map_congr_left fun s hs => ?_).trans (List.map_id t.rows)
    by_cases hkey : key s = key r
    · rw [if_pos hkey, eq_of_key_eq hs hr hkey]
      rfl
    · exact if_neg hkey
  obtain ⟨rows, nodup⟩ := t
  simp only [set, map, hrows]

private theorem countP_replace {l : List ρ} {r : ρ} {p : ρ → Bool} (hnodup : (l.map key).Nodup)
    (hold : old ∈ l) (hkey : key old = key r) :
    (l.map fun s => if key s = key r then r else s).countP p + (p old).toNat =
      l.countP p + (p r).toNat := by
  induction l with
  | nil => cases hold
  | cons s l ih =>
    rw [List.map_cons, List.nodup_cons] at hnodup
    simp only [List.map_cons, List.countP_cons]
    rcases List.mem_cons.1 hold with rfl | hmem
    · -- The keys of the other rows differ, so they stay as they are.
      have hrest : (l.map fun s => if key s = key r then r else s) = l := by
        refine (List.map_congr_left fun s hs => if_neg fun h => ?_).trans (List.map_id l)
        exact hnodup.1 (List.mem_map.2 ⟨s, hs, h.trans hkey.symm⟩)
      rw [hrest, if_pos hkey]
      cases p r <;> cases p old <;> simp
    · have hs : key s ≠ key r := fun h =>
        hnodup.1 (List.mem_map.2 ⟨old, hmem, hkey.trans h.symm⟩)
      have := ih hnodup.2 hmem
      rw [if_neg hs]
      omega

theorem count_set (hold : old ∈ t) (hkey : key old = key r) (p : ρ → Bool) :
    (t.set r).count p + (p old).toNat = t.count p + (p r).toNat :=
  countP_replace t.nodup hold hkey

/-- The row replaces the row of its key, or is inserted. -/
def upsert (t : Table key) (r : ρ) : Table key := (t.insert? r).getD (t.set r)

theorem insert?_eq_none : t.insert? r = none ↔ ∃ old ∈ t, key old = key r := by
  simp [insert?, mem_def]

theorem mem_upsert_self (t : Table key) (r : ρ) : r ∈ t.upsert r := by
  unfold upsert
  cases h : t.insert? r with
  | none => exact mem_set.2 (.inl ⟨rfl, insert?_eq_none.1 h⟩)
  | some t' => exact (mem_of_insert? h).2 (.inl rfl)

theorem mem_upsert : s ∈ t.upsert r ↔ s = r ∨ (s ∈ t ∧ key s ≠ key r) := by
  unfold upsert
  cases h : t.insert? r with
  | none =>
    have hold := insert?_eq_none.1 h
    rw [Option.getD_none, mem_set, and_iff_left hold]
  | some t' =>
    rw [Option.getD_some, mem_of_insert? h]
    have hfresh := (insert?_eq_some h).1 s
    tauto

theorem get?_upsert (t : Table key) (r : ρ) (k : κ) :
    (t.upsert r).get? k = if key r = k then some r else t.get? k := by
  split
  next hkey => exact get?_eq_some.2 ⟨mem_upsert_self t r, hkey⟩
  next hkey =>
    cases hget : t.get? k with
    | none =>
      refine get?_eq_none.2 fun s hs => ?_
      rcases mem_upsert.1 hs with rfl | ⟨hs, -⟩
      · exact hkey
      · exact get?_eq_none.1 hget s hs
    | some s =>
      obtain ⟨hs, hsk⟩ := get?_eq_some.1 hget
      exact get?_eq_some.2 ⟨mem_upsert.2 (.inr ⟨hs, fun h => hkey (h ▸ hsk)⟩), hsk⟩

theorem get?_map (k : κ) : (t.map f hf).get? k = (t.get? k).map f := by
  cases hget : t.get? k with
  | none =>
    refine get?_eq_none.2 fun s hs => ?_
    obtain ⟨r, hr, rfl⟩ := mem_map.1 hs
    rw [hf]
    exact get?_eq_none.1 hget r hr
  | some r =>
    obtain ⟨hr, hkey⟩ := get?_eq_some.1 hget
    exact get?_eq_some.2 ⟨mem_map.2 ⟨r, hr, rfl⟩, (hf r).trans hkey⟩

theorem count_upsert (t : Table key) (r : ρ) (p : ρ → Bool) :
    (t.upsert r).count p + ((t.get? (key r)).any p).toNat = t.count p + (p r).toNat := by
  unfold upsert
  cases h : t.insert? r with
  | none =>
    obtain ⟨old, hold, hkey⟩ := insert?_eq_none.1 h
    rw [get?_eq_some.2 ⟨hold, hkey⟩]
    exact count_set hold hkey p
  | some t' =>
    rw [get?_eq_none.2 (insert?_eq_some h).1]
    exact count_insert? h p

end Table

/-! ## Indexes -/

section Index

variable {κ ρ β : Type} [DecidableEq κ]

/-- The values of the rows by their keys, filled in turn. -/
def index (key : ρ → κ) (value : ρ → β) (rows : List ρ) (init : κ → β) : κ → β :=
  rows.foldl (fun m r => Function.update m (key r) (value r)) init

variable {key : ρ → κ} {value : ρ → β} {rows : List ρ} {init : κ → β}

theorem index_of_notMem (h : k ∉ rows.map key) : index key value rows init k = init k := by
  induction rows generalizing init with
  | nil => rfl
  | cons r rows ih =>
    rw [List.map_cons, List.mem_cons, not_or] at h
    rw [index, List.foldl_cons, ← index, ih h.2, Function.update_of_ne h.1]

theorem index_of_mem (hnodup : (rows.map key).Nodup) {r : ρ} (h : r ∈ rows) :
    index key value rows init (key r) = value r := by
  induction rows generalizing init with
  | nil => simp at h
  | cons first rows ih =>
    rw [List.map_cons, List.nodup_cons] at hnodup
    rw [index, List.foldl_cons, ← index]
    rcases List.mem_cons.1 h with rfl | h
    · rw [index_of_notMem hnodup.1, Function.update_self]
    · exact ih hnodup.2 h

end Index

end Yggdrasil
