import Mathlib

/-!
# Runs of a transition system

A run is a sequence of states, each obtained from the one before by a labelled
step. A system that can also do nothing (a call that is refused or never arrives)
has every finite interleaving of its steps among the beginnings of its runs.
-/

namespace Yggdrasil

variable {σ ℓ : Type*} {Step : σ → ℓ → σ → Prop}

/-- The states `ρ n`, each followed by a step labelled `δ n`. -/
def IsRun (Step : σ → ℓ → σ → Prop) (ρ : ℕ → σ) (δ : ℕ → ℓ) : Prop :=
  ∀ n, Step (ρ n) (δ n) (ρ (n + 1))

namespace IsRun

variable {ρ : ℕ → σ} {δ : ℕ → ℓ} {P : σ → Prop} {i j n : ℕ}

/-- What every step preserves holds from then on. -/
theorem stable (h : IsRun Step ρ δ) (hstep : ∀ s l s', P s → Step s l s' → P s')
    (hi : P (ρ i)) (hij : i ≤ j) : P (ρ j) := by
  induction j, hij using Nat.le_induction with
  | base => exact hi
  | succ j _ ih => exact hstep _ _ _ ih (h j)

/-- What holds at the beginning and is preserved by every step holds throughout. -/
theorem invariant (h : IsRun Step ρ δ) (h0 : P (ρ 0))
    (hstep : ∀ s l s', P s → Step s l s' → P s') (n : ℕ) : P (ρ n) :=
  h.stable hstep h0 n.zero_le

/-- A quantity that no step lowers is monotone along a run. -/
theorem monotone {α : Type*} [Preorder α] (h : IsRun Step ρ δ) (f : σ → α)
    (hstep : ∀ s l s', Step s l s' → f s ≤ f s') : Monotone fun n => f (ρ n) :=
  monotone_nat_of_le_succ fun n => hstep _ _ _ (h n)

end IsRun

/-- What holds at `n` but not at the beginning was entered at a step, and has held since. -/
theorem exists_entry {P : ℕ → Prop} {n : ℕ} (h0 : ¬ P 0) (hn : P n) :
    ∃ m < n, ¬ P m ∧ ∀ k, m < k → k ≤ n → P k := by
  induction n with
  | zero => exact absurd hn h0
  | succ n ih =>
    by_cases hP : P n
    · obtain ⟨m, hm, hnot, hsince⟩ := ih hP
      refine ⟨m, hm.trans n.lt_succ_self, hnot, fun k hmk hk => ?_⟩
      rcases Nat.le_succ_iff.1 hk with hk | rfl
      · exact hsince k hmk hk
      · exact hn
    · refine ⟨n, n.lt_succ_self, hP, fun k hnk hk => ?_⟩
      rwa [le_antisymm hk hnk]

/-! ## Determined runs -/

section Unfold

variable (next : ℓ → σ → σ) (labels : ℕ → ℓ) (start : σ)

/-- The states that a sequence of labels leads through. -/
def unfold : ℕ → σ
  | 0 => start
  | n + 1 => next (labels n) (unfold n)

theorem isRun_unfold :
    IsRun (fun s l s' => s' = next l s) (unfold next labels start) labels := fun _ => rfl

end Unfold

/-! ## Replays -/

section Replay

variable {κ : Type*} (perform : κ → σ → Option (σ × ℓ)) (calls : ℕ → Option κ) (start : σ)

/-- The states that calls leave: a call that is refused leaves the state as it is. -/
def replay : ℕ → σ
  | 0 => start
  | n + 1 =>
    match (calls n).bind (perform · (replay n)) with
    | none => replay n
    | some (s, _) => s

/-- The labels of the calls of a sequence that are performed. -/
def replayLabel (n : ℕ) : Option ℓ :=
  ((calls n).bind (perform · (replay perform calls start n))).map Prod.snd

/-- Every sequence of calls has a run. -/
theorem isRun_replay {Step : σ → Option ℓ → σ → Prop}
    (hperform : ∀ call s s' l, perform call s = some (s', l) → Step s (some l) s')
    (hrefuse : ∀ s, Step s none s) :
    IsRun Step (replay perform calls start) (replayLabel perform calls start) := by
  intro n
  rw [replayLabel, replay]
  cases hcall : calls n with
  | none => exact hrefuse _
  | some call =>
    cases hresult : perform call (replay perform calls start n) with
    | none => simpa [hresult] using hrefuse _
    | some result =>
      obtain ⟨s', l⟩ := result
      simpa [hresult] using hperform call _ s' l hresult

end Replay

end Yggdrasil
