import Yggdrasil.Lib.Run

/-!
# Workers over a shared state

Workers act in any order on a state that they share and on one that each has for itself. The call of
a worker carries the answers of its environment, and an act that is not possible changes nothing:
every sequence of calls is a run.
-/

namespace Yggdrasil

open Function

/-- The state that workers share, and the one that each of them has. -/
structure World (W σ μ : Type*) where
  shared : σ
  own : W → μ

namespace World

variable {W σ μ ℓ : Type*} [DecidableEq W] (act : W → ℓ → σ → μ → Option (σ × μ))

/-- A worker acts. -/
def step (call : W × ℓ) (w : World W σ μ) : World W σ μ :=
  match act call.1 call.2 w.shared (w.own call.1) with
  | none => w
  | some (s, m) => ⟨s, update w.own call.1 m⟩

/-- The worlds that a sequence of calls leads through. -/
def after (calls : ℕ → W × ℓ) (start : World W σ μ) : ℕ → World W σ μ :=
  unfold (step act) calls start

variable {act} {calls : ℕ → W × ℓ} {start w : World W σ μ} {call : W × ℓ}

theorem after_succ (n : ℕ) :
    after act calls start (n + 1) = step act (calls n) (after act calls start n) := rfl

variable (act call w) in
/-- An act changes nothing, or what its worker has and what all share. -/
theorem step_cases : step act call w = w ∨ ∃ s m, act call.1 call.2 w.shared (w.own call.1)
    = some (s, m) ∧ step act call w = ⟨s, update w.own call.1 m⟩ := by
  rw [step]
  cases hact : act call.1 call.2 w.shared (w.own call.1) with
  | none => exact .inl rfl
  | some out => exact .inr ⟨out.1, out.2, rfl, rfl⟩

/-- What holds of the shared state, and of each worker with it. -/
def Sound (Inv : σ → Prop) (Own : W → σ → μ → Prop) (w : World W σ μ) : Prop :=
  Inv w.shared ∧ ∀ i, Own i w.shared (w.own i)

variable {Inv : σ → Prop} {Own : W → σ → μ → Prop}

/-- An act is sound when it keeps the invariant, its worker's assertion and those of others. -/
theorem Sound.step (h : w.Sound Inv Own)
    (hact : ∀ s m, act call.1 call.2 w.shared (w.own call.1) = some (s, m) →
      Inv s ∧ Own call.1 s m ∧ ∀ j, j ≠ call.1 → Own j s (w.own j)) :
    (World.step act call w).Sound Inv Own := by
  obtain heq | ⟨s, m, hsome, heq⟩ := step_cases act w call
  · rwa [heq]
  · obtain ⟨hinv, hself, hothers⟩ := hact s m hsome
    rw [heq]
    refine ⟨hinv, fun j => ?_⟩
    change Own j s (update w.own call.1 m j)
    by_cases hj : j = call.1
    · subst hj
      rwa [update_self]
    · rw [update_of_ne hj]
      exact hothers j hj

/-- What is sound at the beginning, and kept by every act, is sound throughout. -/
theorem sound_after (h0 : start.Sound Inv Own)
    (hact : ∀ (n : ℕ), (after act calls start n).Sound Inv Own →
      (World.step act (calls n) (after act calls start n)).Sound Inv Own) (n : ℕ) :
    (after act calls start n).Sound Inv Own := by
  induction n with
  | zero => exact h0
  | succ n ih => exact hact n ih

/-- At most one worker satisfies `C`. -/
def Exclusive (C : μ → Prop) (w : World W σ μ) : Prop :=
  ∀ i j, C (w.own i) → C (w.own j) → i = j

variable {C : μ → Prop}

/-- A worker that comes to satisfy `C` does so when no other one does. -/
theorem Exclusive.step (h : w.Exclusive C)
    (hact : ∀ s m, act call.1 call.2 w.shared (w.own call.1) = some (s, m) → C m →
      C (w.own call.1) ∨ ∀ j, ¬ C (w.own j)) :
    (World.step act call w).Exclusive C := by
  obtain heq | ⟨s, m, hsome, heq⟩ := step_cases act w call
  · rwa [heq]
  · rw [heq]
    -- Both workers satisfied `C` before, or one of them has come to it, and is alone.
    have hbefore (j : W) (hj : C (update w.own call.1 m j)) :
        C (w.own j) ∨ j = call.1 ∧ ∀ k, ¬ C (w.own k) := by
      by_cases hself : j = call.1
      · subst hself
        rw [update_self] at hj
        exact (hact s m hsome hj).imp_right fun hnone => ⟨rfl, hnone⟩
      · rw [update_of_ne hself] at hj
        exact .inl hj
    intro i j hi hj
    rcases hbefore i hi, hbefore j hj with ⟨hi | ⟨rfl, hnone⟩, hj | ⟨rfl, hnone'⟩⟩
    · exact h i j hi hj
    · exact absurd hi (hnone' i)
    · exact absurd hj (hnone j)
    · rfl

end World

/-! ## What workers own -/

section Owned

variable {W α : Type*} [DecidableEq W]

/-- What belongs to a worker. -/
def ownedBy (i : W) (l : List (W × α)) : List α := (l.filter (·.1 = i)).map Prod.snd

/-- What belongs to the others. -/
def notOwnedBy (i : W) (l : List (W × α)) : List (W × α) := l.filter (·.1 ≠ i)

variable {i j : W} {l : List (W × α)} {a : α}

theorem perm_ownedBy (i : W) (l : List (W × α)) :
    ((notOwnedBy i l).map Prod.snd ++ ownedBy i l).Perm (l.map Prod.snd) := by
  rw [ownedBy, ← List.map_append]
  have hsplit := List.filter_append_perm (fun p : W × α => decide (p.1 ≠ i)) l
  simpa [notOwnedBy] using hsplit.map Prod.snd

theorem ownedBy_notOwnedBy_of_ne (h : j ≠ i) : ownedBy j (notOwnedBy i l) = ownedBy j l := by
  rw [ownedBy, notOwnedBy, List.filter_filter]
  congr 2
  funext p
  by_cases hp : p.1 = j
  · simp [hp, h]
  · simp [hp]

end Owned

end Yggdrasil
