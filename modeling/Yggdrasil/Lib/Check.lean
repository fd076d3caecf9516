import Mathlib

/-!
# Checks that stop at the first error

A validator is a chain of checks: each lets the rest go on, or stops with its error. `bind_eq_ok`
turns a chain that was passed into the conjunction of what its checks say, and `validateEach` is the
loop over a list that remembers the keys it has passed.
-/

namespace Yggdrasil.Check

variable {ε α β κ : Type} {k : Unit → Except ε α} {x : α} {e : Except ε α} {p : α → Bool}

/-- Goes on when `ok`, and otherwise stops with the error `e`. -/
def require (ok : Bool) (e : ε) : Except ε Unit := if ok then .ok () else .error e

@[simp]
theorem require_eq_ok {ok : Bool} {e : ε} {u : Unit} : require ok e = .ok u ↔ ok = true := by
  cases ok <;> simp [require]

/-- A check before `k` passes when it holds and `k` passes. -/
@[simp]
theorem require_bind {ok : Bool} {e : ε} :
    (require ok e >>= k) = .ok x ↔ ok = true ∧ k () = .ok x := by
  cases ok <;> simp [require, bind, Except.bind]

/-- Goes on when there is no error. -/
def requireNone : Option ε → Except ε Unit
  | none => .ok ()
  | some e => .error e

/-- A sequence succeeds when its first part does and the rest does on its result. -/
theorem bind_eq_ok {k : α → Except ε β} {y : β} :
    (e >>= k) = .ok y ↔ ∃ x, e = .ok x ∧ k x = .ok y := by
  cases e <;> simp [bind, Except.bind]

/-- A sequence fails when its first part does, or the rest does on its result. -/
theorem bind_eq_error {k : α → Except ε β} {x : ε} :
    (e >>= k) = .error x ↔ e = .error x ∨ ∃ a, e = .ok a ∧ k a = .error x := by
  cases e <;> simp [bind, Except.bind]

/-- A sequence whose first part only checks. -/
@[simp]
theorem unit_bind_eq_ok {e : Except ε Unit} {y : α} :
    (e >>= k) = .ok y ↔ e = .ok () ∧ k () = .ok y := by
  cases e <;> simp [bind, Except.bind]

@[simp]
theorem mapError_eq_ok {ε' : Type} {f : ε → ε'} : e.mapError f = .ok x ↔ e = .ok x := by
  cases e <;> simp [Except.mapError]

theorem map_eq_ok {f : α → β} {y : β} : e.map f = .ok y ↔ ∃ x, e = .ok x ∧ f x = y := by
  cases e <;> simp [Except.map]

/-- Checks the elements of a list in turn, each against the keys before it. -/
def validateEach (key : α → κ) (check : List κ → α → Except ε Unit) :
    List κ → List α → Except ε Unit
  | _, [] => .ok ()
  | seen, x :: xs => do
    check seen x
    validateEach key check (key x :: seen) xs

section

variable {key : α → κ} {check : List κ → α → Except ε Unit} {seen : List κ} {xs : List α}

theorem exists_check_of_validateEach (h : validateEach key check seen xs = .ok ()) (hx : x ∈ xs) :
    ∃ seen, check seen x = .ok () := by
  induction xs generalizing seen with
  | nil => simp at hx
  | cons y ys ih =>
    rw [validateEach, unit_bind_eq_ok] at h
    rcases List.mem_cons.1 hx with rfl | hx
    · exact ⟨seen, h.1⟩
    · exact ih h.2 hx

/-- The keys of a passed loop are new and distinct when the check refuses those
    already seen. -/
theorem nodup_of_validateEach (hc : ∀ seen x, check seen x = .ok () → key x ∉ seen)
    (h : validateEach key check seen xs = .ok ()) :
    (xs.map key).Nodup ∧ ∀ x ∈ xs, key x ∉ seen := by
  induction xs generalizing seen with
  | nil => simp
  | cons y ys ih =>
    rw [validateEach, unit_bind_eq_ok] at h
    obtain ⟨hnodup, hnew⟩ := ih h.2
    refine ⟨List.nodup_cons.2 ⟨fun hy => ?_, hnodup⟩, fun x hx => ?_⟩
    · obtain ⟨z, hz, hzy⟩ := List.mem_map.1 hy
      exact hnew z hz (by simp [hzy])
    · rcases List.mem_cons.1 hx with rfl | hx
      · exact hc _ _ h.1
      · exact fun hs => hnew x hx (List.mem_cons_of_mem _ hs)

end

/-- A flag that each turn of a loop may raise is up when it was, or some turn raised it. -/
theorem foldl_flag {σ : Type} {flag : σ → Bool} {f : σ → α → σ}
    (h : ∀ s x, flag (f s x) = (flag s || p x)) (xs : List α) (s : σ) :
    flag (xs.foldl f s) = (flag s || xs.any p) := by
  induction xs generalizing s with
  | nil => simp
  | cons x xs ih => rw [List.foldl_cons, ih, h, List.any_cons, Bool.or_assoc]

/-- The same of a loop that may stop, when it did not. -/
theorem foldlM_flag {σ : Type} {flag : σ → Bool} {f : σ → α → Except ε σ}
    (h : ∀ s x s', f s x = .ok s' → flag s' = (flag s || p x)) {xs : List α} {s s' : σ}
    (hs : xs.foldlM f s = .ok s') : flag s' = (flag s || xs.any p) := by
  induction xs generalizing s with
  | nil =>
    cases hs
    simp
  | cons x xs ih =>
    rw [List.foldlM_cons, bind_eq_ok] at hs
    obtain ⟨s₁, hs₁, hs⟩ := hs
    rw [ih hs, h _ _ _ hs₁, List.any_cons, Bool.or_assoc]

/-- A loop whose turns stop depending on the element only ends when no element stops it. -/
theorem exists_foldlM_eq_ok {σ : Type} {ok : α → Prop} {f : σ → α → Except ε σ}
    (h : ∀ s x, (∃ s', f s x = .ok s') ↔ ok x) (xs : List α) (s : σ) :
    (∃ s', xs.foldlM f s = .ok s') ↔ ∀ x ∈ xs, ok x := by
  induction xs generalizing s with
  | nil => simp [pure, Except.pure]
  | cons x xs ih =>
    simp only [List.foldlM_cons, bind_eq_ok, List.forall_mem_cons, ← h s x]
    constructor
    · rintro ⟨s', s₁, hs₁, hs'⟩
      exact ⟨⟨s₁, hs₁⟩, (ih s₁).1 ⟨s', hs'⟩⟩
    · rintro ⟨⟨s₁, hs₁⟩, hxs⟩
      obtain ⟨s', hs'⟩ := (ih s₁).2 hxs
      exact ⟨s', s₁, hs₁, hs'⟩

end Yggdrasil.Check
