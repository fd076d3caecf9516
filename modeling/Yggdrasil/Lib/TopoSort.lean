import Mathlib

/-!
# Topological sorting with counters

The sort keeps, for every vertex, a counter of its dependencies that are yet to come
(`State.remaining`), and a queue of the vertices whose counter has reached zero. `Sorted` is what
every visit preserves.
-/

namespace Yggdrasil.TopoSort

open Function

variable {α : Type*} [DecidableEq α] {remaining : α → ℤ}

/-! ## Counting off -/

/-- Counts off the vertices `ds`, and lists those whose counter reaches zero. -/
def release (remaining : α → ℤ) : List α → (α → ℤ) × List α
  | [] => (remaining, [])
  | d :: ds =>
    let next := update remaining d (remaining d - 1)
    let result := release next ds
    (result.1, if next d = 0 then d :: result.2 else result.2)

theorem release_remaining (remaining : α → ℤ) (ds : List α) (v : α) :
    (release remaining ds).1 v = remaining v - ds.count v := by
  induction ds generalizing remaining with
  | nil => simp [release]
  | cons d ds ih =>
    simp only [release, ih, List.count_cons]
    by_cases h : v = d
    · subst h
      simp only [update_self, beq_self_eq_true, if_true]
      push_cast
      ring
    · rw [update_of_ne h, if_neg (by simpa using Ne.symm h)]
      simp

/-- The vertices that are listed are those whose counter is counted off completely, once each. -/
theorem mem_release {ds : List α} (h : ∀ v ∈ ds, (ds.count v : ℤ) ≤ remaining v) :
    (release remaining ds).2.Nodup ∧
      ∀ v, v ∈ (release remaining ds).2 ↔ v ∈ ds ∧ remaining v = ds.count v := by
  induction ds generalizing remaining with
  | nil => simp [release]
  | cons d ds ih =>
    have hd : (ds.count d : ℤ) + 1 ≤ remaining d := by
      simpa using h d List.mem_cons_self
    have htail : ∀ v ∈ ds,
        (ds.count v : ℤ) ≤ update remaining d (remaining d - 1) v := by
      intro v hv
      by_cases heq : v = d
      · subst heq
        rw [update_self]
        omega
      · rw [update_of_ne heq]
        have hcount := h v (List.mem_cons_of_mem d hv)
        rwa [List.count_cons_of_ne (Ne.symm heq)] at hcount
    obtain ⟨hnodup, hmem⟩ := ih htail
    simp only [release, update_self]
    by_cases hzero : remaining d - 1 = 0
    · -- The counter of `d` has reached zero, so `d` does not come again.
      have hnot : d ∉ ds := by
        intro hmem
        have := List.count_pos_iff.2 hmem
        omega
      rw [if_pos hzero]
      refine ⟨List.nodup_cons.2 ⟨fun hd' => hnot ((hmem d).1 hd').1, hnodup⟩, fun v => ?_⟩
      by_cases heq : v = d
      · subst heq
        simp only [List.mem_cons, true_or, List.count_cons_self, true_and, true_iff]
        rw [List.count_eq_zero.2 hnot]
        push_cast
        omega
      · rw [List.mem_cons, List.mem_cons, hmem, List.count_cons_of_ne (Ne.symm heq),
          update_of_ne heq]
        simp [heq]
    · rw [if_neg hzero]
      refine ⟨hnodup, fun v => ?_⟩
      rw [hmem]
      by_cases heq : v = d
      · subst heq
        rw [update_self, List.count_cons_self]
        simp only [List.mem_cons, true_or, true_and]
        push_cast
        constructor
        · rintro ⟨-, heq⟩
          omega
        · intro heq
          refine ⟨List.count_pos_iff.1 ?_, by omega⟩
          omega
      · rw [List.mem_cons, List.count_cons_of_ne (Ne.symm heq), update_of_ne heq]
        simp [heq]

/-! ## The sort -/

/-- Vertices with their dependencies, and with the vertices that depend on them. -/
structure Graph (α : Type*) where
  vertices : List α
  deps : α → List α
  dependents : α → List α

/-- The dependencies are vertices, and the dependents list a vertex as often as it depends. -/
structure Graph.Consistent (g : Graph α) : Prop where
  nodup : g.vertices.Nodup
  closed : ∀ v ∈ g.vertices, ∀ d ∈ g.deps v, d ∈ g.vertices
  dependents_mem : ∀ c, ∀ v ∈ g.dependents c, v ∈ g.vertices
  count_dependents : ∀ c, ∀ v ∈ g.vertices, (g.dependents c).count v = (g.deps v).count c

/-- A vertex and one of its dependencies. -/
def Graph.DependsOn (g : Graph α) (v d : α) : Prop := v ∈ g.vertices ∧ d ∈ g.deps v

/-- No vertex depends on itself, directly or through others. -/
def Graph.Acyclic (g : Graph α) : Prop := ∀ v, ¬ Relation.TransGen g.DependsOn v v

/-- What is ready, how many dependencies the others wait for, and what has come out. -/
structure State (α : Type*) where
  queue : List α
  remaining : α → ℤ
  ordered : List α

namespace State

variable (dependents : α → List α)

/-- Takes the first vertex of the queue. -/
def visit (s : State α) : State α :=
  match s.queue with
  | [] => s
  | c :: rest =>
    let released := release s.remaining (dependents c)
    ⟨rest ++ released.2, released.1, s.ordered ++ [c]⟩

/-- Visits vertices until the queue is empty, for at most the given number of visits. -/
def drain : ℕ → State α → Option (State α)
  | 0, s => if s.queue.isEmpty then some s else none
  | n + 1, s => if s.queue.isEmpty then some s else drain n (s.visit dependents)

theorem drain_of_le {n m : ℕ} (hnm : n ≤ m) {s s' : State α}
    (h : s.drain dependents n = some s') : s.drain dependents m = some s' := by
  induction n generalizing s m with
  | zero =>
    rw [drain, Option.ite_none_right_eq_some] at h
    cases m <;> simp [drain, h]
  | succ n ih =>
    obtain _ | m := m
    · omega
    · rw [drain] at h ⊢
      split at h
      · rwa [if_pos ‹_›]
      · rw [if_neg ‹_›]
        exact ih (by omega) h

end State

/-- What the visits preserve. -/
structure Sorted (g : Graph α) (s : State α) : Prop where
  nodup : (s.ordered ++ s.queue).Nodup
  mem_vertices : ∀ v ∈ s.ordered ++ s.queue, v ∈ g.vertices
  remaining : ∀ v ∈ g.vertices, s.remaining v = (g.deps v).countP (· ∉ s.ordered)
  listed : ∀ v ∈ g.vertices, v ∈ s.ordered ++ s.queue ↔ s.remaining v = 0
  split : ∀ l₁ v l₂, s.ordered = l₁ ++ v :: l₂ → ∀ d ∈ g.deps v, d ∈ l₁

theorem countP_append_singleton {o : List α} {c : α} (hc : c ∉ o) (l : List α) :
    l.countP (· ∉ o) = l.countP (· ∉ o ++ [c]) + l.count c := by
  induction l with
  | nil => rfl
  | cons d l ih =>
    rw [List.countP_cons, List.countP_cons, List.count_cons, ih]
    by_cases heq : d = c
    · subst heq
      simp [hc]
      omega
    · simp [heq]
      omega

variable {g : Graph α} {s : State α}

namespace Sorted

/-- All dependencies of a vertex whose counter is zero have been ordered. -/
theorem deps_ordered (h : Sorted g s) {v : α} (hv : v ∈ g.vertices) (hzero : s.remaining v = 0) :
    ∀ d ∈ g.deps v, d ∈ s.ordered := by
  intro d hd
  rw [h.remaining v hv, Nat.cast_eq_zero, List.countP_eq_zero] at hzero
  simpa using hzero d hd

/-- The loop starts with the vertices without dependencies. -/
theorem initial (hg : g.Consistent)
    (hremaining : ∀ v ∈ g.vertices, remaining v = (g.deps v).length) :
    Sorted g ⟨g.vertices.filter fun v => remaining v = 0, remaining, []⟩ where
  nodup := hg.nodup.filter _
  mem_vertices v hv := (List.mem_filter.1 hv).1
  remaining v hv := by simp [hremaining v hv]
  listed v hv := by simp [hv]
  split l₁ v l₂ h := by simp at h

theorem visit (hg : g.Consistent) (h : Sorted g s) : Sorted g (s.visit g.dependents) := by
  unfold State.visit
  split
  · exact h
  next c rest hqueue =>
    have hlisted : c ∈ s.ordered ++ s.queue := by simp [hqueue]
    have hc : c ∈ g.vertices := h.mem_vertices c hlisted
    have hnodup := h.nodup
    rw [hqueue] at hnodup
    have hfresh : c ∉ s.ordered := fun hmem =>
      List.disjoint_of_nodup_append hnodup hmem List.mem_cons_self
    -- A vertex is counted off at most as often as it has dependencies to come.
    have hcount (v : α) (hv : v ∈ g.vertices) :
        (s.remaining v : ℤ) =
          (g.deps v).countP (· ∉ s.ordered ++ [c]) + (g.dependents c).count v := by
      rw [h.remaining v hv, countP_append_singleton hfresh, hg.count_dependents c v hv]
      push_cast
      rfl
    have hle : ∀ v ∈ g.dependents c, ((g.dependents c).count v : ℤ) ≤ s.remaining v := by
      intro v hv
      rw [hcount v (hg.dependents_mem c v hv)]
      omega
    obtain ⟨hnew, hmem⟩ := mem_release hle
    have hold (v : α) : v ∈ s.ordered ++ s.queue ↔ v ∈ s.ordered ++ [c] ++ rest := by
      simp [hqueue]
    refine ⟨?_, ?_, ?_, ?_, ?_⟩ <;> dsimp only
    · rw [← List.append_assoc]
      refine List.Nodup.append ?_ hnew ?_
      · simpa using hnodup
      · intro v hv hv'
        rw [hmem] at hv'
        have hzero := (h.listed v (hg.dependents_mem c v hv'.1)).1 ((hold v).2 hv)
        have := List.count_pos_iff.2 hv'.1
        omega
    · intro v hv
      rw [← List.append_assoc, List.mem_append] at hv
      rcases hv with hv | hv
      · exact h.mem_vertices v ((hold v).2 hv)
      · exact hg.dependents_mem c v ((hmem v).1 hv).1
    · intro v hv
      rw [release_remaining, hcount v hv]
      ring
    · intro v hv
      rw [← List.append_assoc, List.mem_append, ← hold, h.listed v hv, hmem, release_remaining]
      have := hcount v hv
      constructor
      · rintro (hzero | ⟨-, heq⟩)
        · omega
        · omega
      · intro hzero
        by_cases hdep : v ∈ g.dependents c
        · exact .inr ⟨hdep, by omega⟩
        · rw [List.count_eq_zero.2 hdep] at hzero
          exact .inl (by omega)
    · intro l₁ v l₂ hsplit d hd
      rcases List.eq_nil_or_concat l₂ with rfl | ⟨l₃, x, rfl⟩
      · -- The vertex that was just visited.
        obtain ⟨rfl, hvc⟩ := List.append_inj' hsplit rfl
        cases hvc
        exact h.deps_ordered hc ((h.listed c hc).1 hlisted) d hd
      · refine h.split l₁ v l₃ ?_ d hd
        rw [List.concat_eq_append, ← List.cons_append, ← List.append_assoc] at hsplit
        exact (List.append_inj' hsplit rfl).1

/-- The sort ends after at most one visit per vertex. -/
theorem exists_drain (hg : g.Consistent) (n : ℕ) {s : State α} (h : Sorted g s)
    (hfuel : g.vertices.length ≤ s.ordered.length + n) :
    ∃ s', s.drain g.dependents n = some s' ∧ Sorted g s' ∧ s'.queue = [] := by
  induction n generalizing s with
  | zero =>
    have hlen : (s.ordered ++ s.queue).length ≤ g.vertices.length :=
      (h.nodup.subperm h.mem_vertices).length_le
    rw [List.length_append] at hlen
    have hqueue : s.queue = [] := List.eq_nil_of_length_eq_zero (by omega)
    exact ⟨s, by simp [State.drain, hqueue], h, hqueue⟩
  | succ n ih =>
    by_cases hqueue : s.queue = []
    · exact ⟨s, by simp [State.drain, hqueue], h, hqueue⟩
    · have hfuel' : g.vertices.length ≤ (s.visit g.dependents).ordered.length + n := by
        obtain ⟨c, rest, hcons⟩ := List.exists_cons_of_ne_nil hqueue
        simp only [State.visit, hcons, List.length_append, List.length_singleton]
        omega
      obtain ⟨s', hdrain, hs'⟩ := ih (h.visit hg) hfuel'
      exact ⟨s', by simp [State.drain, hqueue, hdrain], hs'⟩

/-- When the queue is empty and no vertex depends on itself, every vertex is ordered. -/
theorem mem_ordered (hg : g.Consistent) (h : Sorted g s) (hqueue : s.queue = [])
    (hacyclic : g.Acyclic) : ∀ v ∈ g.vertices, v ∈ s.ordered := by
  -- By induction along the dependencies, which are well founded on the finitely many vertices.
  have hwf :
      WellFounded fun d v : { v // v ∈ g.vertices } => Relation.TransGen g.DependsOn v d := by
    have : Finite { v // v ∈ g.vertices } := g.vertices.finite_toSet
    have : IsTrans { v // v ∈ g.vertices } fun d v => Relation.TransGen g.DependsOn v d :=
      ⟨fun _ _ _ h₁ h₂ => h₂.trans h₁⟩
    have : Std.Irrefl fun d v : { v // v ∈ g.vertices } => Relation.TransGen g.DependsOn v d :=
      ⟨fun v => hacyclic v⟩
    exact Finite.wellFounded_of_trans_of_irrefl _
  intro v hv
  suffices ∀ x : { v // v ∈ g.vertices }, x.1 ∈ s.ordered from this ⟨v, hv⟩
  intro x
  induction x using hwf.induction with
  | _ x ih =>
    have hdeps : ∀ d ∈ g.deps x, d ∈ s.ordered := fun d hd =>
      ih ⟨d, hg.closed x x.2 d hd⟩ (.single ⟨x.2, hd⟩)
    have hlisted := (h.listed x x.2).2 (by
      rw [h.remaining x x.2, Nat.cast_eq_zero, List.countP_eq_zero]
      simpa using hdeps)
    simpa [hqueue] using hlisted

/-- When every vertex is ordered, no vertex depends on itself. -/
theorem acyclic (h : Sorted g s) (hall : ∀ v ∈ g.vertices, v ∈ s.ordered) :
    g.Acyclic := by
  -- A dependency has the smaller position in the order.
  have hidx {v d : α} (hdep : g.DependsOn v d) : s.ordered.idxOf d < s.ordered.idxOf v := by
    obtain ⟨l₁, l₂, hsplit⟩ := List.append_of_mem (hall v hdep.1)
    have hd := h.split l₁ v l₂ hsplit d hdep.2
    have hv : v ∉ l₁ := by
      intro hmem
      have hnodup : s.ordered.Nodup := h.nodup.of_append_left
      rw [hsplit] at hnodup
      exact List.disjoint_of_nodup_append hnodup hmem List.mem_cons_self
    rw [hsplit, List.idxOf_append_of_mem hd, List.idxOf_append_of_notMem hv, List.idxOf_cons_self]
    exact Nat.lt_add_right _ (List.idxOf_lt_length_of_mem hd)
  intro v hv
  have hlt (a b : α) (hab : Relation.TransGen g.DependsOn a b) :
      s.ordered.idxOf b < s.ordered.idxOf a := by
    induction hab with
    | single hdep => exact hidx hdep
    | tail _ hdep ih => exact (hidx hdep).trans ih
  exact lt_irrefl _ (hlt v v hv)

end Sorted

end Yggdrasil.TopoSort
