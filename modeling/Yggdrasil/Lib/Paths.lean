import Mathlib.Algebra.Order.Group.Nat
import Mathlib.Logic.Relation

/-!
# Paths of a relation
-/

namespace Yggdrasil

variable {α : Type*}

/-- A level, the next one, and so on. -/
def levels (next : List α → List α) : ℕ → List α → List α
  | 0, _ => []
  | n + 1, level => level ++ levels next n (next level)

variable {next : List α → List α} {R : α → α → Prop} {rank : α → ℕ} {level : List α} {a b : α}

theorem rank_le_of_reflTransGen (hrank : ∀ a b, R a b → rank a < rank b)
    (hab : Relation.ReflTransGen R a b) : rank a ≤ rank b := by
  induction hab with
  | refl => exact le_rfl
  | tail _ hbc ih => exact ih.trans (hrank _ _ hbc).le

theorem mem_levels (hnext : ∀ level a b, a ∈ level → R a b → b ∈ next level)
    (hrank : ∀ a b, R a b → rank a < rank b) (ha : a ∈ level)
    (hab : Relation.ReflTransGen R a b) {n : ℕ} (hn : rank b < rank a + n) :
    b ∈ levels next n level := by
  induction hab using Relation.ReflTransGen.head_induction_on generalizing level n with
  | refl =>
    obtain ⟨n, rfl⟩ := Nat.exists_eq_succ_of_ne_zero (show n ≠ 0 by omega)
    exact List.mem_append_left _ ha
  | head hac hcb ih =>
    have hstep := hrank _ _ hac
    have hrest := rank_le_of_reflTransGen hrank hcb
    obtain ⟨n, rfl⟩ := Nat.exists_eq_succ_of_ne_zero (show n ≠ 0 by omega)
    exact List.mem_append_right _ (ih (hnext _ _ _ ha hac) (by omega))

/-! ## Chains -/

/-- What is connected to an end of a chain leads to it. -/
theorem reflTransGen_of_eqvGen (hunique : ∀ a b c, R a b → R a c → b = c)
    (hend : ∀ c, ¬ R b c) (hab : Relation.EqvGen R a b) : Relation.ReflTransGen R a b := by
  have hjoin : ∀ a b c, R a b → R a c →
      ∃ d, Relation.ReflGen R b d ∧ Relation.ReflTransGen R c d := by
    intro a b c hab hac
    obtain rfl := hunique a b c hab hac
    exact ⟨b, .refl, .refl⟩
  have hequiv := Relation.equivalence_join_reflTransGen hjoin
  have hle : Relation.EqvGen (Relation.Join (Relation.ReflTransGen R)) a b :=
    hab.mono fun a b hab => ⟨b, .single hab, .refl⟩
  obtain ⟨c, hac, hbc⟩ := hequiv.eqvGen_iff.1 hle
  rwa [(Relation.reflTransGen_iff_eq hend).1 hbc] at hac

/-- A path whose steps are in a relation, or begin where something holds, is one of the relation, or
    passes there. -/
theorem reflTransGen_or {S : α → α → Prop} {P : α → Prop} (hS : ∀ a b, S a b → R a b ∨ P a)
    (hab : Relation.ReflTransGen S a b) :
    Relation.ReflTransGen R a b ∨ ∃ c, Relation.ReflTransGen R a c ∧ P c := by
  induction hab with
  | refl => exact .inl .refl
  | tail _ hstep ih =>
    rcases ih with ih | ih
    · exact (hS _ _ hstep).imp ih.tail fun hP => ⟨_, ih, hP⟩
    · exact .inr ih

end Yggdrasil
