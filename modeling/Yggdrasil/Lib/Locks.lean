import Mathlib.Logic.Function.Basic

/-!
# Locks of rows

A row is locked by at most one transaction, which gives its locks back when it ends. What a
transaction holds, the others neither take nor give back.
-/

namespace Yggdrasil

open Function

/-- Who holds the lock of each row. -/
abbrev Locks (W κ : Type) := κ → Option W

namespace Locks

variable {W κ : Type} {i j : W} {k k' : κ} {locks : Locks W κ}

/-- The lock of a row can be taken at once. -/
def Free (locks : Locks W κ) (i : W) (k : κ) : Prop := ∀ j ∈ locks k, j = i

theorem not_free_of_held (h : locks k = some j) (hj : j ≠ i) : ¬ locks.Free i k :=
  fun hfree => hj (hfree j h)

theorem free_of_own (h : locks k = some i) : locks.Free i k := by
  intro j hj
  rw [h] at hj
  exact (Option.some.inj hj).symm

section Take

variable [DecidableEq κ]

/-- A worker takes the lock of a key. -/
def take (locks : Locks W κ) (i : W) (k : κ) : Locks W κ := update locks k (some i)

@[simp]
theorem take_self : locks.take i k k = some i := update_self _ _ _

theorem take_of_held (hfree : locks.Free i k) (h : locks k' = some j) (hj : j ≠ i) :
    locks.take i k k' = some j := by
  refine (update_of_ne ?_ _ _).trans h
  rintro rfl
  exact hj (hfree j h)

theorem take_of_own (h : locks k' = some i) : locks.take i k k' = some i := by
  by_cases hk : k' = k
  · rw [hk, take_self]
  · exact (update_of_ne hk _ _).trans h

/-- Taking a lock leaves the others as free as they were. -/
theorem free_take (h : locks.Free i k') : (locks.take i k).Free i k' := by
  by_cases hk : k' = k
  · subst hk
    exact free_of_own take_self
  · rwa [Free, take, update_of_ne hk]

end Take

variable [DecidableEq W]

instance : Decidable (Free locks i k) :=
  match h : locks k with
  | none => isTrue fun j hj => by simp [h] at hj
  | some w => decidable_of_iff (w = i) <| by simp [Free, h, eq_comm]

/-- A transaction ends. -/
def release (locks : Locks W κ) (i : W) : Locks W κ :=
  fun k => if locks k = some i then none else locks k

theorem release_of_held (h : locks k = some j) (hj : j ≠ i) : locks.release i k = some j := by
  rw [release, h, if_neg fun heq => hj (Option.some.inj heq)]

end Locks

end Yggdrasil
