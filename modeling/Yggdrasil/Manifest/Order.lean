import Yggdrasil.Lib.Table
import Yggdrasil.Lib.TopoSort
import Yggdrasil.Manifest.Workflow

/-!
# The execution order of a workflow

`workflowExecutionOrder` takes steps from a queue of those whose dependencies are all done. It is
the sort of `Yggdrasil.TopoSort` on the graph of the steps (`graph`).
-/

namespace Yggdrasil.Manifest

open Function TopoSort

variable (cm : Text.CaseMap)

/-- The steps by name, the number of dependencies of each, and the steps that depend on it. -/
structure StepIndex where
  stepByID : String → WorkflowStepSpec := fun _ => {}
  remaining : String → ℤ := fun _ => 0
  dependents : String → List String := fun _ => []

/-- Adds a step to the index. -/
def StepIndex.add (index : StepIndex) (step : WorkflowStepSpec) : StepIndex :=
  let id := step.name cm
  { stepByID := update index.stepByID id step
    remaining := update index.remaining id step.dependsOn.length
    dependents := (step.dependencies cm).foldl
      (fun dependents d => update dependents d (dependents d ++ [id]))
      index.dependents }

/-- The index of the steps. -/
def stepIndex (steps : List WorkflowStepSpec) : StepIndex := steps.foldl (StepIndex.add cm) {}

/-- The steps, each after its dependencies, when found within `fuel` turns. -/
def workflowExecutionOrder (fuel : ℕ) (spec : WorkflowManifestSpec) :
    Option (Except Fault (List WorkflowStepSpec)) :=
  let index := stepIndex cm spec.steps
  let queue := (spec.steps.map (·.name cm)).filter fun id => index.remaining id = 0
  (State.drain index.dependents fuel ⟨queue, index.remaining, []⟩).map fun s =>
    let ordered := s.ordered.map index.stepByID
    if ordered.length ≠ spec.steps.length then
      .error (.errorf "workflow steps contain a dependency cycle" [])
    else .ok ordered

/-- The step named `a` depends on the one named `b`. -/
def WorkflowManifestSpec.DependsOn (spec : WorkflowManifestSpec) (a b : String) : Prop :=
  ∃ step ∈ spec.steps, step.name cm = a ∧ b ∈ step.dependencies cm

/-- No step depends on itself, directly or through others. -/
def WorkflowManifestSpec.Acyclic (spec : WorkflowManifestSpec) : Prop :=
  ∀ a, ¬ Relation.TransGen (spec.DependsOn cm) a a

/-! ## The index -/

variable {cm}

theorem foldl_dependents (id : String) (ds : List String) (dependents : String → List String)
    (c : String) :
    ds.foldl (fun dependents d => update dependents d (dependents d ++ [id]))
      dependents c = dependents c ++ List.replicate (ds.count c) id := by
  induction ds generalizing dependents with
  | nil => simp
  | cons d ds ih =>
    rw [List.foldl_cons, ih]
    by_cases hd : d = c
    · subst hd
      rw [update_self, List.count_cons_self, List.append_assoc, List.replicate_succ,
        List.singleton_append]
    · rw [update_of_ne (Ne.symm hd), List.count_cons_of_ne hd]

theorem foldl_add_dependents (steps : List WorkflowStepSpec) (index : StepIndex) (c : String) :
    (steps.foldl (StepIndex.add cm) index).dependents c = index.dependents c ++
      steps.flatMap fun step =>
        List.replicate ((step.dependencies cm).count c) (step.name cm) := by
  induction steps generalizing index with
  | nil => simp
  | cons step steps ih =>
    rw [List.foldl_cons, ih, List.flatMap_cons, ← List.append_assoc]
    exact congrArg (· ++ _) (foldl_dependents ..)

theorem foldl_add_stepByID (steps : List WorkflowStepSpec) (init : StepIndex) :
    (steps.foldl (StepIndex.add cm) init).stepByID =
      index (·.name cm) id steps init.stepByID := by
  induction steps generalizing init with
  | nil => rfl
  | cons step steps ih =>
    rw [List.foldl_cons, ih, index, index, List.foldl_cons]
    simp only [StepIndex.add, id]

theorem foldl_add_remaining (steps : List WorkflowStepSpec) (init : StepIndex) :
    (steps.foldl (StepIndex.add cm) init).remaining =
      index (·.name cm) (fun step => (step.dependsOn.length : ℤ)) steps init.remaining := by
  induction steps generalizing init with
  | nil => rfl
  | cons step steps ih =>
    rw [List.foldl_cons, ih, index, index, List.foldl_cons]
    simp only [StepIndex.add]

section

variable {spec : WorkflowManifestSpec} {step : WorkflowStepSpec}

/-! ## The graph of the steps -/

variable (cm) in
/-- The graph of the names of the steps. -/
def graph (spec : WorkflowManifestSpec) : Graph String where
  vertices := spec.steps.map (·.name cm)
  deps id := ((stepIndex cm spec.steps).stepByID id).dependencies cm
  dependents := (stepIndex cm spec.steps).dependents

/-- A step is listed among the dependents of `c` as often as it names `c`. -/
theorem graph_dependents (spec : WorkflowManifestSpec) (c : String) :
    (graph cm spec).dependents c = spec.steps.flatMap fun step =>
      List.replicate ((step.dependencies cm).count c) (step.name cm) :=
  foldl_add_dependents spec.steps {} c

theorem count_flatMap_replicate {steps : List WorkflowStepSpec}
    (hnodup : (steps.map (·.name cm)).Nodup) (hstep : step ∈ steps) (n : WorkflowStepSpec → ℕ) :
    (steps.flatMap fun step => List.replicate (n step) (step.name cm)).count (step.name cm) =
      n step := by
  induction steps with
  | nil => simp at hstep
  | cons first steps ih =>
    rw [List.map_cons, List.nodup_cons] at hnodup
    rw [List.flatMap_cons, List.count_append, List.count_replicate]
    rcases List.mem_cons.1 hstep with rfl | hstep
    · have hrest : step.name cm ∉ steps.flatMap fun step =>
          List.replicate (n step) (step.name cm) := by
        intro hmem
        obtain ⟨other, hother, hmem⟩ := List.mem_flatMap.1 hmem
        exact hnodup.1 (List.mem_map.2 ⟨other, hother, (List.eq_of_mem_replicate hmem).symm⟩)
      rw [List.count_eq_zero.2 hrest]
      simp
    · have hne : first.name cm ≠ step.name cm := by
        intro heq
        rw [heq] at hnodup
        exact hnodup.1 (List.mem_map.2 ⟨step, hstep, rfl⟩)
      rw [ih hnodup.2 hstep]
      simp [hne]

variable (h : validateWorkflowSteps cm spec = .ok ())

include h

theorem stepByID_name (hstep : step ∈ spec.steps) :
    (stepIndex cm spec.steps).stepByID (step.name cm) = step := by
  rw [stepIndex, foldl_add_stepByID]
  exact index_of_mem (nodup_names h) hstep

theorem remaining_name (hstep : step ∈ spec.steps) :
    (stepIndex cm spec.steps).remaining (step.name cm) = step.dependsOn.length := by
  rw [stepIndex, foldl_add_remaining]
  exact index_of_mem (nodup_names h) hstep

theorem graph_deps (hstep : step ∈ spec.steps) :
    (graph cm spec).deps (step.name cm) = step.dependencies cm := by
  simp only [graph, stepByID_name h hstep]

theorem consistent_graph : (graph cm spec).Consistent where
  nodup := nodup_names h
  closed v hv d hd := by
    obtain ⟨step, hstep, rfl⟩ := List.mem_map.1 hv
    rw [graph_deps h hstep] at hd
    exact mem_names_of_dependency h hstep hd
  dependents_mem c v hv := by
    rw [graph_dependents] at hv
    obtain ⟨step, hstep, hv⟩ := List.mem_flatMap.1 hv
    exact List.mem_map.2 ⟨step, hstep, (List.eq_of_mem_replicate hv).symm⟩
  count_dependents c v hv := by
    obtain ⟨step, hstep, rfl⟩ := List.mem_map.1 hv
    rw [graph_deps h hstep, graph_dependents]
    exact count_flatMap_replicate (nodup_names h) hstep
      fun step => (step.dependencies cm).count c

/-- The loop starts as the sort of the graph does. -/
theorem initial_graph :
    Sorted (graph cm spec) ⟨(spec.steps.map (·.name cm)).filter fun id =>
      (stepIndex cm spec.steps).remaining id = 0, (stepIndex cm spec.steps).remaining, []⟩ := by
  refine Sorted.initial (consistent_graph h) fun v hv => ?_
  obtain ⟨step, hstep, rfl⟩ := List.mem_map.1 hv
  rw [graph_deps h hstep, remaining_name h hstep, WorkflowStepSpec.dependencies, List.length_map]

theorem graph_acyclic_iff : (graph cm spec).Acyclic ↔ spec.Acyclic cm := by
  have hrel : (graph cm spec).DependsOn = spec.DependsOn cm := by
    funext a b
    refine propext ⟨fun ⟨ha, hb⟩ => ?_, fun ⟨step, hstep, ha, hb⟩ => ?_⟩
    · obtain ⟨step, hstep, rfl⟩ := List.mem_map.1 ha
      exact ⟨step, hstep, rfl, graph_deps h hstep ▸ hb⟩
    · subst ha
      exact ⟨List.mem_map.2 ⟨step, hstep, rfl⟩, (graph_deps h hstep).symm ▸ hb⟩
  rw [Graph.Acyclic, WorkflowManifestSpec.Acyclic, hrel]

/-! ## The order -/

theorem map_stepByID_perm {ids : List String} (hperm : ids.Perm (spec.steps.map (·.name cm))) :
    (ids.map (stepIndex cm spec.steps).stepByID).Perm spec.steps := by
  refine (hperm.map _).trans (.of_eq ?_)
  rw [List.map_map]
  conv_rhs => rw [← List.map_id spec.steps]
  exact List.map_congr_left fun step hstep => stepByID_name h hstep

/-- The dependencies of an ordered step are the names of steps before it. -/
theorem exists_name_of_split {s : State String} (hs : Sorted (graph cm spec) s)
    {l₁ l₂ : List WorkflowStepSpec}
    (hsplit : s.ordered.map (stepIndex cm spec.steps).stepByID = l₁ ++ step :: l₂) :
    ∀ d ∈ step.dependencies cm, ∃ before ∈ l₁, before.name cm = d := by
  intro d hd
  obtain ⟨ids₁, rest, hordered, rfl, hrest⟩ := List.map_eq_append_iff.1 hsplit
  obtain ⟨id, ids₂, rfl, rfl, rfl⟩ := List.map_eq_cons_iff.1 hrest
  have hd' : d ∈ ids₁ := hs.split ids₁ id ids₂ hordered d hd
  have hmem : d ∈ (graph cm spec).vertices :=
    hs.mem_vertices d (List.mem_append_left _ (by simp [hordered, hd']))
  obtain ⟨before, hbefore, rfl⟩ := List.mem_map.1 hmem
  exact ⟨before, List.mem_map.2 ⟨_, hd', stepByID_name h hbefore⟩, rfl⟩

/-- An order is found exactly when there is no cycle, and has each step after its dependencies. -/
theorem workflowExecutionOrder_spec :
    ∃ result : Except Fault (List WorkflowStepSpec),
      (∀ fuel, spec.steps.length ≤ fuel → workflowExecutionOrder cm fuel spec = some result) ∧
      ((∃ ordered, result = .ok ordered) ↔ spec.Acyclic cm) ∧
      (∀ ordered, result = .ok ordered → ordered.Perm spec.steps ∧
        ∀ l₁ step l₂, ordered = l₁ ++ step :: l₂ →
          ∀ d ∈ step.dependencies cm, ∃ before ∈ l₁, before.name cm = d) ∧
      (¬ spec.Acyclic cm →
        result = .error (.errorf "workflow steps contain a dependency cycle" [])) := by
  have hg := consistent_graph h
  obtain ⟨s, hdrain, hs, hqueue⟩ := Sorted.exists_drain hg spec.steps.length (initial_graph h)
    (by simp [graph])
  have hnodup : s.ordered.Nodup := hs.nodup.of_append_left
  have hmem : ∀ v ∈ s.ordered, v ∈ (graph cm spec).vertices := fun v hv =>
    hs.mem_vertices v (List.mem_append_left _ hv)
  -- The loop orders all steps exactly when the graph has no cycle.
  have hlength : s.ordered.length = spec.steps.length ↔ spec.Acyclic cm := by
    rw [← graph_acyclic_iff h]
    constructor
    · intro hlen
      have hperm : s.ordered.Perm (graph cm spec).vertices :=
        (hnodup.subperm hmem).perm_of_length_le (by simp [graph, hlen])
      exact hs.acyclic fun v hv => hperm.mem_iff.2 hv
    · intro hacyclic
      have hperm := (List.perm_ext_iff_of_nodup hnodup hg.nodup).2 fun v =>
        ⟨hmem v, hs.mem_ordered hg hqueue hacyclic v⟩
      simpa [graph] using hperm.length_eq
  refine ⟨if (s.ordered.map (stepIndex cm spec.steps).stepByID).length ≠ spec.steps.length then
      .error (.errorf "workflow steps contain a dependency cycle" [])
    else .ok (s.ordered.map (stepIndex cm spec.steps).stepByID), ?_, ?_, ?_, ?_⟩
  · intro fuel hfuel
    have hfuel' := State.drain_of_le _ hfuel hdrain
    rw [workflowExecutionOrder]
    exact congrArg (Option.map _) hfuel'
  · rw [List.length_map, ← hlength]
    split
    next hne => simp [hne]
    next heq => simpa using heq
  · intro ordered hordered
    rw [List.length_map] at hordered
    split at hordered
    · cases hordered
    next heq =>
      cases hordered
      have hperm : s.ordered.Perm (graph cm spec).vertices :=
        (hnodup.subperm hmem).perm_of_length_le (by simpa [graph] using (not_not.1 heq).ge)
      exact ⟨map_stepByID_perm h hperm, fun l₁ step l₂ hsplit => exists_name_of_split h hs hsplit⟩
  · intro hcycle
    rw [List.length_map, if_pos fun heq => hcycle (hlength.1 heq)]

end

namespace Sample

/-- A step after others. -/
def step (id : String) (dependsOn : List String) : WorkflowStepSpec :=
  { id, dependsOn,
    use := { kind := "integration", family := "deploy", operation := "apply" } }

/-- Three steps, declared before what they depend on and with ids in different letters. -/
def workflow : WorkflowManifestSpec :=
  { steps := [step "announce" ["Verify", "apply"], step " VERIFY" ["apply"], step "apply" []] }

end Sample

theorem sample_workflowExecutionOrder :
    validateWorkflowSteps Text.ascii Sample.workflow = .ok () ∧
      (workflowExecutionOrder Text.ascii 3 Sample.workflow).map
        (·.map (·.map (·.name Text.ascii))) = some (.ok ["apply", "verify", "announce"]) ∧
      ∃ result, ∀ fuel, 3 ≤ fuel →
        workflowExecutionOrder Text.ascii fuel Sample.workflow = some result :=
  have h : validateWorkflowSteps Text.ascii Sample.workflow = .ok () := by decide +kernel
  ⟨h, by decide +kernel, (workflowExecutionOrder_spec h).imp fun _ h => h.1⟩

end Yggdrasil.Manifest
