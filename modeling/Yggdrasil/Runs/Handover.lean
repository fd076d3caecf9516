import Yggdrasil.Runs.Secrecy

/-!
# Secrets along a whole run

At most one lease has a value, it was made by the step before the one that is next, and that step
takes it (`Handover`). Every lease is cleared once that step has run, and when the run ends.
-/

namespace Yggdrasil.Runs

open Text Manifest

variable {cm : CaseMap} {fmt : Fmt} {orderedSteps : List WorkflowStepSpec} {lease : Lease}
  {plan : Option Plan} {failed : String} {r : StepResult} {rest : List StepResult}
  {workflow : ManifestReference} {env : RunEnv} {step : WorkflowStepSpec} {s : RunState}

/-! ## The steps of the loop -/

/-- A step without iterations has one result. -/
theorem runStepIterations_single {s : Security} {context : Context}
    {out : StepResult × List Request}
    (haccepts : ∀ lease, s.inputLease = some lease → lease.accepts cm step = true)
    (hforEach : step.forEach = none)
    (hout : executeWorkflowStep cm fmt env.step workflow step context s = some out) :
    runStepIterations cm fmt env workflow step context s =
      some ([out.1], if out.1.status = "failed" then out.1.id else "", out.2) := by
  have hany : s.inputLease.any (fun lease => !lease.accepts cm step) = false := by
    cases hlease : s.inputLease with
    | none => rfl
    | some lease => simp [haccepts lease hlease]
  simp [runStepIterations, hany, forEachItems, hforEach, hout]

theorem Lease.forEach_of_accepts (h : lease.accepts cm step = true) : step.forEach = none := by
  simp only [Lease.accepts, isSinkStep, Bool.and_eq_true] at h
  exact Option.isNone_iff_eq_none.1 h.2.2

theorem forEach_of_isProducerStep (h : isProducerStep cm step = true) : step.forEach = none := by
  simp only [isProducerStep, Bool.and_eq_true] at h
  exact Option.isNone_iff_eq_none.1 h.2

/-! ## The invariant -/

/-- A run is bound to fail: it, or the step that is being recorded, has failed or panicked. -/
def RunState.Doomed (s : RunState) : Prop :=
  match s.phase with
  | .ready => False
  | .recording results failed _ => failed ≠ "" ∧ ∀ r ∈ results, r.id ≠ ""
  | .done => s.status = "failed"
  | .panicked => True

/-- What is known of a lease that a step has made: the step after it takes it. -/
structure MadeBy (cm : CaseMap) (orderedSteps : List WorkflowStepSpec) (i : ℕ) (lease : Lease) :
    Prop where
  sink : ∃ step, orderedSteps[i + 1]? = some step ∧ lease.accepts cm step = true
  named : lease.sinkStepId ≠ ""

/-- What an entry of the log says, given the others. -/
def Entry.Sound (cm : CaseMap) (orderedSteps : List WorkflowStepSpec) (log : List Entry) :
    Entry → Prop
  | .made i lease => MadeBy cm orderedSteps i lease
  | .given i lease => ∃ j, i = j + 1 ∧ .made j lease ∈ log
  | .offered i lease request => ∃ j step, i = j + 1 ∧ .made j lease ∈ log ∧
      orderedSteps[i]? = some step ∧ ForSink cm step lease request
  | .unconsumed _ => True

/-- Where the lease in use comes from, by where the loop is. -/
def RunState.Placed (cm : CaseMap) (orderedSteps : List WorkflowStepSpec) (s : RunState) : Prop :=
  match s.phase with
  | .ready => ∀ lease, s.activeLease = some lease → ∃ j, s.index = j + 1 ∧ .made j lease ∈ s.log
  | .recording results failed plan =>
    (∀ lease, s.activeLease = some lease →
      results = [] ∧ failed = "" ∧ .made s.index lease ∈ s.log) ∧
    ∀ p, plan = some p → Planned cm orderedSteps s.index p ∧
      ∀ r rest, results = r :: rest → rest = [] ∧ (r.status = "succeeded" → failed = "")
  | .done | .panicked => s.active = none

/-- What holds of the leases and the log in every run. -/
structure Handover (cm : CaseMap) (orderedSteps : List WorkflowStepSpec) (s : RunState) :
    Prop where
  active : ∀ i, s.active = some i → i < s.leases.length
  cleared : ∀ i lease, s.leases[i]? = some lease → lease.value ≠ "" → s.active = some i
  log : ∀ entry ∈ s.log, entry.Sound cm orderedSteps s.log
  placed : s.Placed cm orderedSteps
  unoffered : ∀ i lease, .given i lease ∈ s.log →
    (∀ request, .offered i lease request ∉ s.log) → s.Doomed
  unconsumed : ∀ lease, .unconsumed lease ∈ s.log → s.phase = .done ∧ s.status = "failed"

theorem Entry.Sound.mono {log log' : List Entry} {entry : Entry}
    (h : entry.Sound cm orderedSteps log) (hsub : ∀ e ∈ log, e ∈ log') :
    entry.Sound cm orderedSteps log' := by
  cases entry with
  | made i lease => exact h
  | given i lease =>
    obtain ⟨j, hj, hmade⟩ := h
    exact ⟨j, hj, hsub _ hmade⟩
  | offered i lease request =>
    obtain ⟨j, step, hj, hmade, hrest⟩ := h
    exact ⟨j, step, hj, hsub _ hmade, hrest⟩
  | unconsumed => trivial

/-! ## One statement -/

/-- The statement that runs a step which is given a lease. -/
theorem execute_of_lease (hlease : s.activeLease = some lease)
    (haccepts : lease.accepts cm step = true) :
    ∃ r requests, SinkRun cm step lease (r, requests) ∧
      s.execute cm fmt orderedSteps workflow env step =
        { s with
          phase := .recording [r] (if r.status = "failed" then r.id else "") none
          leases := s.cleared
          active := none
          log := s.log ++ .given s.index lease :: requests.map (.offered s.index lease) } := by
  obtain ⟨⟨r, requests⟩, hout, hrun⟩ := executeWorkflowStep_sink cm fmt env.step workflow
    s.context haccepts
  have hsingle := runStepIterations_single (fun _ h => Option.some_inj.1 h ▸ haccepts)
    (Lease.forEach_of_accepts haccepts) hout
  refine ⟨r, requests, hrun, ?_⟩
  simp only [RunState.execute, hlease, Option.isNone_some, Bool.false_eq_true, if_false, hsingle,
    Option.elim_some]

/-- What a planned producer comes back with: one result, which is a document. -/
structure Produces (env : RunEnv) (results : List StepResult) (failed : String) : Prop where
  single : ∃ r, results = [r] ∧ (r.status = "succeeded" → failed = "") ∧
    (env.step.Documents → Value.isDocumentFields r.metadata = true)

theorem produces {plan : Plan} (hproducer : isProducerStep cm step = true) (context : Context) :
    ∃ results failed requests,
      runStepIterations cm fmt env workflow step context { producerPlan := some plan } =
        some (results, failed, requests) ∧ Produces env results failed := by
  obtain ⟨out, hout, hdocument⟩ := executeWorkflowStep_producer cm fmt env.step workflow
    context plan hproducer
  refine ⟨_, _, _, runStepIterations_single (fun _ h => by simp at h)
    (forEach_of_isProducerStep hproducer) hout, _, rfl, fun hstatus => ?_, hdocument⟩
  rw [if_neg (by rw [hstatus]; decide)]

/-- The statement that runs a step which is not given one. -/
theorem execute_of_none (hstep : orderedSteps[s.index]? = some step)
    (hnone : s.activeLease = none) :
    (∃ results failed plan,
      (∀ p, plan = some p → Planned cm orderedSteps s.index p ∧ Produces env results failed) ∧
      Names results failed ∧
      s.execute cm fmt orderedSteps workflow env step =
        { s with
          phase := .recording results failed plan, leases := s.cleared, active := none }) ∨
      s.execute cm fmt orderedSteps workflow env step =
        { s with phase := .panicked, leases := s.cleared, active := none } := by
  obtain ⟨plan, hplan⟩ : ∃ plan,
      authorizeSensitiveOutputPlan cm env orderedSteps s.index s.context = plan := ⟨_, rfl⟩
  simp only [RunState.execute, hnone, Option.isNone_none, if_true, Option.elim_none,
    List.append_nil, hplan]
  cases hrun : runStepIterations cm fmt env workflow step s.context { producerPlan := plan } with
  | none => exact .inr rfl
  | some out =>
    refine .inl ⟨out.1, out.2.1, plan, fun p hp => ?_, names_runStepIterations hrun, rfl⟩
    subst hp
    have hplanned := planned_of_authorizeSensitiveOutputPlan hplan
    obtain ⟨producer, hproducer, hisProducer⟩ := hplanned.producer
    rw [hstep, Option.some_inj] at hproducer
    subst hproducer
    obtain ⟨results, failed, requests, heq, hproduces⟩ := produces hisProducer s.context
    cases hrun.symm.trans heq
    exact ⟨hplanned, hproduces⟩

/-- A lease is made of a planned result that succeeded, which is recorded as such. -/
theorem Secures.of_lease {out : StepResult × Option Lease} (h : Secures r plan out)
    (hlease : out.2 = some lease) :
    ∃ p value, plan = some p ∧ lease = { p with value } ∧ value ≠ "" ∧ r.status = "succeeded" ∧
      out.1.status = "succeeded" := by
  cases h with
  | leases p rawPaths value hstatus hraw hvalue =>
    obtain ⟨metadata, hmetadata⟩ := redactSensitiveWorkflowStepResult_eq r
    refine ⟨p, value, rfl, (Option.some_inj.1 hlease).symm, (declaredSecret_eq_some hvalue).2.1,
      hstatus, ?_⟩
    rw [hmetadata]
    exact hstatus
  | _ => cases hlease

section Statement

variable (h : Handover cm orderedSteps s)

include h

/-- There is a lease in use when the variable is set. -/
theorem Handover.activeLease_eq_none (hnone : s.activeLease = none) : s.active = none := by
  cases hactive : s.active with
  | none => rfl
  | some i => simp [RunState.activeLease, hactive, h.active i hactive] at hnone

/-- When the lease in use is cleared, all are. -/
theorem Handover.value_of_mem_cleared (hlease : lease ∈ s.cleared) : lease.value = "" := by
  obtain ⟨i, hi⟩ := List.mem_iff_getElem?.1 hlease
  by_contra hvalue
  cases hactive : s.active with
  | none =>
    rw [RunState.cleared, hactive] at hi
    simp [h.cleared i lease hi hvalue] at hactive
  | some j =>
    rw [RunState.cleared, hactive, Option.elim_some, List.getElem?_modify] at hi
    obtain ⟨old, hold, rfl⟩ := Option.map_eq_some_iff.1 hi
    split at hvalue
    · exact hvalue rfl
    next hij =>
      rw [h.cleared i old hold hvalue, Option.some_inj] at hactive
      exact hij hactive.symm

/-- A lease is found unconsumed only when the run ends. -/
theorem Handover.unconsumed_not_mem (hphase : s.phase ≠ .done)
    (lease : Lease) : Entry.unconsumed lease ∉ s.log :=
  fun hmem => hphase (h.unconsumed lease hmem).1

/-- A step that is given a lease is the one that takes it. -/
theorem Handover.accepts (hphase : s.phase = .ready) (hstep : orderedSteps[s.index]? = some step)
    (hactive : s.activeLease = some lease) :
    lease.accepts cm step = true ∧ lease.sinkStepId ≠ "" ∧
      ∃ j, s.index = j + 1 ∧ .made j lease ∈ s.log := by
  have hplaced := h.placed
  simp only [RunState.Placed, hphase] at hplaced
  obtain ⟨j, hj, hmade⟩ := hplaced lease hactive
  obtain ⟨⟨sink, hsink, haccepts⟩, hnamed⟩ := h.log _ hmade
  rw [← hj, hstep, Option.some_inj] at hsink
  exact ⟨hsink ▸ haccepts, hnamed, j, hj, hmade⟩

/-- A step is run, and takes the lease if there is one. -/
theorem Handover.execute (hphase : s.phase = .ready) (hstep : orderedSteps[s.index]? = some step) :
    Handover cm orderedSteps (s.execute cm fmt orderedSteps workflow env step) := by
  have hunoffered := h.unoffered
  have hunconsumed := h.unconsumed_not_mem (by simp [hphase])
  simp only [RunState.Doomed, hphase] at hunoffered
  have hcleared (i : ℕ) (lease : Lease) (hlease : s.cleared[i]? = some lease) : lease.value = "" :=
    h.value_of_mem_cleared (List.mem_of_getElem? hlease)
  cases hactive : s.activeLease with
  | none =>
    obtain ⟨results, failed, plan, hplan, -, heq⟩ | heq := execute_of_none hstep hactive
    case inr =>
      rw [heq]
      exact ⟨by simp, fun i lease hi hv => absurd (hcleared i lease hi) hv, h.log, rfl,
        fun _ _ _ _ => trivial, fun lease hmem => absurd hmem (hunconsumed lease)⟩
    rw [heq]
    refine ⟨by simp, fun i lease hi hv => absurd (hcleared i lease hi) hv, h.log, ?_, ?_, ?_⟩
    · refine ⟨fun lease hl => by simp [RunState.activeLease] at hl, fun p hp => ?_⟩
      obtain ⟨hplanned, r, rfl, hstatus, -⟩ := hplan p hp
      refine ⟨hplanned, fun r' rest hr => ?_⟩
      cases hr
      exact ⟨rfl, hstatus⟩
    · exact fun i lease hgiven hno => (hunoffered i lease hgiven hno).elim
    · exact fun lease hmem => absurd hmem (hunconsumed lease)
  | some lease =>
    obtain ⟨haccepts, hnamed, j, hj, hmade⟩ := h.accepts hphase hstep hactive
    obtain ⟨r, requests, hrun, heq⟩ := execute_of_lease hactive haccepts
    rw [heq]
    have hmono (e : Entry) (he : e ∈ s.log) :
        e ∈ s.log ++ .given s.index lease :: requests.map (.offered s.index lease) :=
      List.mem_append_left _ he
    -- The entries that the statement adds.
    have hnew (e : Entry)
        (he : e ∈ s.log ++ .given s.index lease :: requests.map (.offered s.index lease)) :
        e ∈ s.log ∨ e = .given s.index lease ∨
          ∃ request ∈ requests, e = .offered s.index lease request := by
      simpa [eq_comm] using he
    refine ⟨by simp, fun i lease hi hv => absurd (hcleared i lease hi) hv, fun e he => ?_, ?_, ?_,
      ?_⟩
    · rcases hnew e he with he | rfl | ⟨request, hrequest, rfl⟩
      · exact (h.log e he).mono hmono
      · exact ⟨j, hj, hmono _ hmade⟩
      · exact ⟨j, step, hj, hmono _ hmade, hstep, hrun.requests request hrequest⟩
    · exact ⟨fun lease hl => by simp [RunState.activeLease] at hl, by simp⟩
    · intro i lease' hgiven hno
      rcases hnew _ hgiven with hgiven | hgiven | ⟨request, -, hgiven⟩
      · exact (hunoffered i lease' hgiven fun request hr => hno request (hmono _ hr)).elim
      · cases hgiven
        -- Nothing was asked, so the step failed, and it has a name.
        have hnil : requests = [] := by
          refine List.eq_nil_iff_forall_not_mem.2 fun request hr => hno request ?_
          exact List.mem_append_right _ (List.mem_cons_of_mem _ (List.mem_map_of_mem hr))
        have hid : r.id ≠ "" := by
          rw [hrun.result.id, (of_decide_eq_true (Bool.and_eq_true_iff.1 haccepts).1)]
          exact hnamed
        have hfailed : r.status = "failed" := hrun.unasked hnil
        simp only [RunState.Doomed, if_pos hfailed]
        exact ⟨hid, fun r' hr' => List.mem_singleton.1 hr' ▸ hid⟩
      · cases hgiven
    · intro lease' hmem
      rcases hnew _ hmem with hmem | hmem | ⟨request, -, hmem⟩
      · exact absurd hmem (hunconsumed lease')
      · cases hmem
      · cases hmem

/-- A result is recorded, and its secret is put into a lease. -/
theorem Handover.record (hphase : s.phase = .recording (r :: rest) failed plan) :
    Handover cm orderedSteps (s.record r rest failed plan) := by
  obtain ⟨hactive, hplan⟩ : s.active = none ∧ ∀ p, plan = some p →
      Planned cm orderedSteps s.index p ∧ rest = [] ∧ (r.status = "succeeded" → failed = "") := by
    have hplaced := h.placed
    simp only [RunState.Placed, hphase] at hplaced
    refine ⟨h.activeLease_eq_none (Option.eq_none_iff_forall_ne_some.2 fun lease hl => ?_),
      fun p hp => ⟨(hplaced.2 p hp).1, (hplaced.2 p hp).2 r rest rfl⟩⟩
    exact absurd (hplaced.1 lease hl).1 (List.cons_ne_nil _ _)
  have hdoomed : s.Doomed → failed ≠ "" ∧ r.id ≠ "" ∧ ∀ r' ∈ rest, r'.id ≠ "" := by
    simp only [RunState.Doomed, hphase, List.forall_mem_cons]
    exact id
  have hunconsumed := h.unconsumed_not_mem (by simp [hphase])
  have hnone (i : ℕ) (lease : Lease) (hi : s.leases[i]? = some lease) : lease.value = "" := by
    by_contra hvalue
    simp [h.cleared i lease hi hvalue] at hactive
  have hsecures := secures r plan
  rw [RunState.record]
  generalize secureSensitiveProducerResult r plan = out at hsecures
  obtain ⟨safe, made⟩ := out
  have hid : safe.id = r.id := hsecures.labels_eq.2
  cases made with
  | none =>
    simp only [Option.toList_none, List.append_nil, List.map_nil, Option.isSome_none,
      Bool.false_eq_true, if_false]
    refine ⟨by simp [hactive], fun i lease hi hv => absurd (hnone i lease hi) hv, h.log, ?_, ?_, ?_⟩
    · refine ⟨fun lease hl => by simp [RunState.activeLease, hactive] at hl, fun p hp => ?_⟩
      obtain ⟨hplanned, hrest, -⟩ := hplan p hp
      refine ⟨hplanned, fun r' rest' hr' => ?_⟩
      rw [hrest] at hr'
      cases hr'
    · intro i lease hgiven hno
      obtain ⟨hfailed, hrid, hrest⟩ := hdoomed (h.unoffered i lease hgiven hno)
      refine ⟨?_, hrest⟩
      split
      · rwa [hid]
      · exact hfailed
    · exact fun lease hmem => absurd hmem (hunconsumed lease)
  | some lease =>
    obtain ⟨p, value, hp, rfl, hvalue, hstatus, hsafe⟩ := hsecures.of_lease rfl
    obtain ⟨hplanned, hrest, hsucceeded⟩ := hplan p hp
    have hok : ¬ safe.status = "failed" := by
      rw [hsafe]
      decide
    have hmade : MadeBy cm orderedSteps s.index { p with value } :=
      ⟨hplanned.accepts value, hplanned.named⟩
    have hmono (e : Entry) (he : e ∈ s.log) : e ∈ s.log ++ [.made s.index { p with value }] :=
      List.mem_append_left _ he
    have hnew (e : Entry) (he : e ∈ s.log ++ [.made s.index { p with value }]) :
        e ∈ s.log ∨ e = .made s.index { p with value } := by simpa using he
    simp only [Option.toList_some, List.map_cons, List.map_nil, Option.isSome_some, if_true,
      if_neg hok]
    refine ⟨?_, ?_, fun e he => ?_, ?_, ?_, ?_⟩
    · intro i hi
      cases hi
      simp
    · intro i lease hi hv
      rcases Nat.lt_trichotomy i s.leases.length with hlt | rfl | hgt
      · rw [List.getElem?_append_left hlt] at hi
        exact absurd (hnone i lease hi) hv
      · rfl
      · rw [List.getElem?_eq_none (by simpa using hgt)] at hi
        cases hi
    · rcases hnew e he with he | rfl
      · exact (h.log e he).mono hmono
      · exact hmade
    · refine ⟨fun lease hl => ⟨hrest, hsucceeded hstatus, ?_⟩, fun p' hp' => ?_⟩
      · have heq : lease = { p with value } := by
          simpa [RunState.activeLease] using hl.symm
        rw [heq]
        exact List.mem_append_right _ (List.mem_singleton_self _)
      · obtain ⟨hplanned', -⟩ := hplan p' hp'
        refine ⟨hplanned', fun r' rest' hr' => ?_⟩
        rw [hrest] at hr'
        cases hr'
    · intro i lease hgiven hno
      rcases hnew _ hgiven with hgiven | hgiven
      · obtain ⟨hfailed, -, -⟩ :=
          hdoomed (h.unoffered i lease hgiven fun request hr => hno request (hmono _ hr))
        exact absurd (hsucceeded hstatus) hfailed
      · cases hgiven
    · intro lease hmem
      rcases hnew _ hmem with hmem | hmem
      · exact absurd hmem (hunconsumed lease)
      · cases hmem

theorem Handover.finishStep (hphase : s.phase = .recording [] failed plan) :
    Handover cm orderedSteps (s.finishStep cm fmt orderedSteps failed) := by
  have hplaced := h.placed
  have hunoffered := h.unoffered
  have hunconsumed := h.unconsumed_not_mem (by simp [hphase])
  simp only [RunState.Placed, RunState.Doomed, hphase] at hplaced hunoffered
  rw [RunState.finishStep]
  split
  · refine ⟨nofun, fun i lease hi hv => ?_, h.log, rfl, fun _ _ _ _ => rfl, ?_⟩
    · exact absurd (h.value_of_mem_cleared (List.mem_of_getElem? hi)) hv
    · exact fun lease hmem => absurd hmem (hunconsumed lease)
  next hok =>
    refine ⟨h.active, h.cleared, h.log, ?_, ?_, ?_⟩
    · exact fun lease hl => ⟨s.index, rfl, (hplaced.1 lease hl).2.2⟩
    · exact fun i lease hgiven hno => absurd (hunoffered i lease hgiven hno).1 hok
    · exact fun lease hmem => absurd hmem (hunconsumed lease)

theorem Handover.finish (hphase : s.phase = .ready) : Handover cm orderedSteps s.finish := by
  have hunoffered := h.unoffered
  have hunconsumed := h.unconsumed_not_mem (by simp [hphase])
  simp only [RunState.Doomed, hphase] at hunoffered
  rw [RunState.finish]
  split
  next hnone =>
    refine ⟨h.active, h.cleared, h.log, h.activeLease_eq_none hnone, ?_, ?_⟩
    · exact fun i lease hgiven hno => (hunoffered i lease hgiven hno).elim
    · exact fun lease hmem => absurd hmem (hunconsumed lease)
  next lease hlease =>
    refine ⟨nofun, fun i lease hi hv => ?_, fun e he => ?_, rfl, fun _ _ _ _ => rfl,
      fun _ _ => ⟨rfl, rfl⟩⟩
    · exact absurd (h.value_of_mem_cleared (List.mem_of_getElem? hi)) hv
    · rcases List.mem_append.1 he with he | he
      · exact (h.log e he).mono fun e he => List.mem_append_left _ he
      · rw [List.mem_singleton.1 he]
        trivial

/-- Every statement keeps a secret in one place. -/
theorem Handover.next : Handover cm orderedSteps (s.next cm fmt orderedSteps workflow env) := by
  rw [RunState.next]
  split
  next hphase =>
    split
    next step hstep => exact h.execute hphase hstep
    next => exact h.finish hphase
  next hphase => exact h.record hphase
  next hphase => exact h.finishStep hphase
  all_goals exact h

end Statement

theorem Handover.initial (metadata : Value.Fields) : Handover cm orderedSteps { metadata } where
  active := nofun
  cleared i lease hi := by simp at hi
  log := nofun
  placed lease hl := by simp [RunState.activeLease] at hl
  unoffered _ _ hmem := by simp at hmem
  unconsumed _ hmem := by simp at hmem

/-! ## What is recorded -/

/-- The text is in nothing recorded, and declared secret in what is about to be. -/
structure Unrecorded (v : String) (s : RunState) : Prop where
  steps : ∀ r ∈ s.steps, Free v r.texts
  context : ∀ entry ∈ s.context, contains entry.1 v = false ∧ Free v entry.2.texts
  results : ∀ results failed plan, s.phase = .recording results failed plan →
    contains failed v = false ∧ ∀ r ∈ results, Free v r.labels ∧
      (Declares r v ∨ Free v r.texts) ∧
      (plan.isSome = true → Value.isDocumentFields r.metadata = true)

/-- The run is about to execute a step. -/
def RunPhase.isReady : RunPhase → Bool
  | .ready => true
  | _ => false

/-- The results that are yet to be recorded. -/
def RunPhase.results : RunPhase → List StepResult
  | .recording results _ _ => results
  | _ => []

/-- What comes back has the text only where it is declared, unless a lease was given. -/
def Unechoed (v : String) (s s' : RunState) : Prop :=
  s.phase.isReady = true → ∀ r ∈ s'.phase.results, Free v r.labels ∧
    (s.activeLease.isSome = true ∨ Declares r v ∨ Free v r.texts)

instance (v : String) (s s' : RunState) : Decidable (Unechoed v s s') :=
  inferInstanceAs (Decidable (_ → ∀ r ∈ _, _))

section Unrecorded

variable {v : String}

theorem Unrecorded.execute (h : Unrecorded v s) (hhandover : Handover cm orderedSteps s)
    (hphase : s.phase = .ready) (hstep : orderedSteps[s.index]? = some step)
    (hv : Redactable v) (hwords : Free v coreWords) (henv : env.step.Documents)
    (hecho : Unechoed v s (s.execute cm fmt orderedSteps workflow env step)) :
    Unrecorded v (s.execute cm fmt orderedSteps workflow env step) := by
  have hname {failed : String} {results : List StepResult}
      (hresults : ∀ r ∈ results, Free v r.labels)
      (hfailed : Names results failed) : contains failed v = false := by
    rcases hfailed with rfl | ⟨r, hr, -, rfl⟩
    · exact hwords "" empty_mem_coreWords
    · exact hresults r hr r.id (by simp [StepResult.labels])
  cases hactive : s.activeLease with
  | none =>
    obtain ⟨results, failed, plan, hplan, hfailed, heq⟩ | heq := execute_of_none hstep hactive
    case inr =>
      rw [heq]
      exact ⟨h.steps, h.context, nofun⟩
    rw [heq] at hecho ⊢
    have hback := hecho (by rw [hphase]; rfl)
    refine ⟨h.steps, h.context, fun results' failed' plan' hphase' => ?_⟩
    cases hphase'
    refine ⟨hname (fun r hr => (hback r hr).1) hfailed, fun r hr => ?_⟩
    obtain ⟨hlabels, hr'⟩ := hback r hr
    refine ⟨hlabels, hr'.resolve_left (by simp [hactive]), fun hsome => ?_⟩
    obtain ⟨p, hp⟩ := Option.isSome_iff_exists.1 hsome
    obtain ⟨-, r', rfl, -, hdocument⟩ := hplan p hp
    rw [List.mem_singleton.1 hr]
    exact hdocument henv
  | some lease =>
    obtain ⟨haccepts, -⟩ := hhandover.accepts hphase hstep hactive
    obtain ⟨r, requests, hrun, heq⟩ := execute_of_lease hactive haccepts
    rw [heq] at hecho ⊢
    have hlabels : Free v r.labels :=
      (hecho (by rw [hphase]; rfl) r (List.mem_singleton_self _)).1
    have hfree : Free v r.texts := fun t ht =>
      (hrun.result.fromCore ht).free hv hwords hlabels
    refine ⟨h.steps, h.context, fun results' failed' plan' hphase' => ?_⟩
    cases hphase'
    have hresults : ∀ r' ∈ [r], Free v r'.labels := fun r' hr' =>
      List.mem_singleton.1 hr' ▸ hlabels
    refine ⟨hname hresults ?_, fun r' hr' => ?_⟩
    · split
      next hstatus => exact .inr ⟨r, List.mem_singleton_self _, hstatus, rfl⟩
      · exact .inl rfl
    · rw [List.mem_singleton.1 hr']
      exact ⟨hlabels, .inr hfree, nofun⟩

/-- A result is recorded without the secret that it declares. -/
theorem Unrecorded.record (h : Unrecorded v s)
    (hphase : s.phase = .recording (r :: rest) failed plan) (hv : Redactable v)
    (hwords : Free v coreWords) : Unrecorded v (s.record r rest failed plan) := by
  obtain ⟨hfailed, hresults⟩ := h.results _ _ _ hphase
  obtain ⟨⟨hlabels, hr, hdocument⟩, hrest⟩ := List.forall_mem_cons.1 hresults
  have hsecures := secures r plan
  rw [RunState.record]
  generalize secureSensitiveProducerResult r plan = out at hsecures
  obtain ⟨safe, made⟩ := out
  have hsafe : Free v safe.texts := hsecures.free hv hwords hlabels hdocument hr
  have hid : contains safe.id v = false := by
    rw [show safe.id = r.id from hsecures.labels_eq.2]
    exact hlabels r.id (by simp [StepResult.labels])
  refine ⟨fun r' hr' => ?_, fun entry hentry => ?_, fun results failed' plan' hphase' => ?_⟩
  · rcases List.mem_append.1 hr' with hr' | hr'
    · exact h.steps r' hr'
    · rw [List.mem_singleton.1 hr']
      exact hsafe
  · rcases List.mem_cons.1 hentry with rfl | hentry
    · exact ⟨hid, hsafe⟩
    · exact h.context entry (List.mem_filter.1 hentry).1
  · cases hphase'
    refine ⟨?_, hrest⟩
    split
    · exact hid
    · exact hfailed

theorem Unrecorded.finishStep (h : Unrecorded v s) (hphase : s.phase = .recording [] failed plan)
    (hskip : ∀ id, contains id v = false →
      ∀ r ∈ skipWorkflowSteps cm fmt orderedSteps id, Free v r.texts) :
    Unrecorded v (s.finishStep cm fmt orderedSteps failed) := by
  have hfailed := (h.results _ _ _ hphase).1
  rw [RunState.finishStep]
  split
  · refine ⟨fun r hr => ?_, h.context, nofun⟩
    rcases List.mem_append.1 hr with hr | hr
    · exact h.steps r hr
    · obtain ⟨step, hstep, rfl⟩ := List.mem_map.1 hr
      exact hskip failed hfailed _ (List.mem_map_of_mem (List.mem_of_mem_drop hstep))
  · exact ⟨h.steps, h.context, nofun⟩

theorem Unrecorded.finish (h : Unrecorded v s) : Unrecorded v s.finish := by
  rw [RunState.finish]
  split
  · exact ⟨h.steps, h.context, nofun⟩
  · exact ⟨h.steps, h.context, nofun⟩

/-- No statement records a secret that is declared as one. -/
theorem Unrecorded.next (h : Unrecorded v s) (hhandover : Handover cm orderedSteps s)
    (hv : Redactable v) (hwords : Free v coreWords) (henv : env.step.Documents)
    (hskip : ∀ id, contains id v = false →
      ∀ r ∈ skipWorkflowSteps cm fmt orderedSteps id, Free v r.texts)
    (hecho : Unechoed v s (s.next cm fmt orderedSteps workflow env)) :
    Unrecorded v (s.next cm fmt orderedSteps workflow env) := by
  rw [RunState.next] at hecho ⊢
  split
  next hphase =>
    simp only [hphase] at hecho
    split
    next step hstep =>
      simp only [hstep] at hecho
      exact h.execute hhandover hphase hstep hv hwords henv hecho
    next => exact h.finish
  next hphase => exact h.record hphase hv hwords
  next hphase => exact h.finishStep hphase hskip
  all_goals exact h

theorem Unrecorded.initial (v : String) (metadata : Value.Fields) : Unrecorded v { metadata } where
  steps := nofun
  context := nofun
  results := nofun

end Unrecorded

/-! ## Whole runs -/

/-- A run of the loop, from its beginning. -/
structure IsWorkflowRun (cm : CaseMap) (fmt : Fmt) (orderedSteps : List WorkflowStepSpec)
    (workflow : ManifestReference) (ρ : ℕ → RunState) (δ : ℕ → RunEnv) : Prop where
  steps : IsRun (fun s env s' => s' = s.next cm fmt orderedSteps workflow env) ρ δ
  start : ∃ metadata, ρ 0 = { metadata }
  documents : ∀ n, (δ n).step.Documents

section

variable {ρ : ℕ → RunState} {δ : ℕ → RunEnv}

theorem IsWorkflowRun.handover (h : IsWorkflowRun cm fmt orderedSteps workflow ρ δ) (n : ℕ) :
    Handover cm orderedSteps (ρ n) := by
  obtain ⟨metadata, hstart⟩ := h.start
  refine h.steps.invariant (hstart ▸ .initial metadata) (fun s env s' hs hnext => ?_) n
  rw [hnext]
  exact hs.next

/-- After the statement that runs a step, or ends the run, no lease has a value. -/
theorem Handover.cleared_next (h : Handover cm orderedSteps s) (hphase : s.phase = .ready)
    (hlease : lease ∈ (s.next cm fmt orderedSteps workflow env).leases) : lease.value = "" := by
  suffices lease ∈ s.cleared from h.value_of_mem_cleared this
  simp only [RunState.next, hphase] at hlease
  split at hlease
  · rw [RunState.execute] at hlease
    split at hlease <;> exact hlease
  · rw [RunState.finish] at hlease
    split at hlease
    next hnone =>
      rw [RunState.cleared, h.activeLease_eq_none hnone]
      exact hlease
    next => exact hlease

/-- Along every run at most one lease has a value; it is offered to the next step only, if that is
    the pinned sink, and is cleared after it; a run fails that ends with a lease or gives one
    without its being offered. A declared secret is in nothing that is recorded, unless it is a
    name, a word of the core, or in what another step comes back with. -/
theorem sensitive_output_lease (h : IsWorkflowRun cm fmt orderedSteps workflow ρ δ) (n : ℕ) :
    (∀ (i j : ℕ) (lease lease' : Lease), (ρ n).leases[i]? = some lease →
      (ρ n).leases[j]? = some lease' → lease.value ≠ "" → lease'.value ≠ "" → i = j) ∧
    (∀ i lease request, .offered i lease request ∈ (ρ n).log →
      ∃ j step, i = j + 1 ∧ .made j lease ∈ (ρ n).log ∧ orderedSteps[i]? = some step ∧
        ForSink cm step lease request) ∧
    ((ρ n).phase = .ready → ∀ lease ∈ (ρ (n + 1)).leases, lease.value = "") ∧
    ((ρ n).phase = .done → ∀ i lease, .unconsumed lease ∈ (ρ n).log ∨
        (.given i lease ∈ (ρ n).log ∧ ∀ request, .offered i lease request ∉ (ρ n).log) →
      (ρ n).status = "failed") ∧
    ∀ v, Redactable v → Free v coreWords →
      (∀ id, contains id v = false →
        ∀ r ∈ skipWorkflowSteps cm fmt orderedSteps id, Free v r.texts) →
      (∀ m, Unechoed v (ρ m) (ρ (m + 1))) →
      (∀ r ∈ (ρ n).steps, Free v r.texts) ∧
        ∀ entry ∈ (ρ n).context, contains entry.1 v = false ∧ Free v entry.2.texts := by
  have hhandover := h.handover n
  refine ⟨?_, ?_, ?_, ?_, ?_⟩
  · intro i j lease lease' hi hj hvalue hvalue'
    have hactive := hhandover.cleared i lease hi hvalue
    rw [hhandover.cleared j lease' hj hvalue', Option.some_inj] at hactive
    exact hactive.symm
  · exact fun i lease request hmem => hhandover.log _ hmem
  · intro hphase lease hlease
    rw [h.steps n] at hlease
    exact hhandover.cleared_next hphase hlease
  · rintro hphase i lease (hmem | ⟨hgiven, hno⟩)
    · exact (hhandover.unconsumed lease hmem).2
    · have hdoomed := hhandover.unoffered i lease hgiven hno
      simpa only [RunState.Doomed, hphase] using hdoomed
  · intro v hv hwords hskip hecho
    have hunrecorded (m : ℕ) : Unrecorded v (ρ m) := by
      induction m with
      | zero =>
        obtain ⟨metadata, hstart⟩ := h.start
        rw [hstart]
        exact .initial v metadata
      | succ m ih =>
        have hstep := hecho m
        rw [h.steps m] at hstep ⊢
        exact ih.next (h.handover m) hv hwords (h.documents m) hskip hstep
    exact ⟨(hunrecorded n).steps, (hunrecorded n).context⟩

end

/-! ## A sample run -/

namespace Sample

/-- Makes a token. -/
def mint : WorkflowStepSpec :=
  { id := "mint", use := { kind := "integration", family := "tokens", operation := "create" } }

/-- Keeps the token that has been made. -/
def keep : WorkflowStepSpec where
  id := "keep"
  use := { kind := "integration", family := "secrets-management", operation := "ensure_secret" }
  dependsOn := ["mint"]
  input := [("secret", .map [("secret_id", .str "bot"), ("generation", .map
    [("strategy", .str "manual"), ("manual", .map
      [("value", .str "\x7b\x7b steps.mint.metadata.output.token \x7d\x7d")])])])]

/-- Texts are quoted as they are. -/
def quoting : Fmt := { quote := id, typeName := fun _ => "value" }

/-- The instance of a secret store. -/
def vault : Resolved where
  integrationInstance := { id := "i7", version := 3 }
  integrationType := { id := "t2", version := 1 }
  typeSpec :=
    { familyRef := some "secrets-management", implementedOperations := ["ensure_secret"] }

/-- The token of the context. -/
def token? (context : Context) : Option Value :=
  (context.lookup "mint").bind fun r => (r.metadata.lookup "output").bind (valueAt · ["token"])

/-- What `keep` renders to. -/
def rendered (context : Context) : Value.Fields :=
  [("secret", .map [("secret_id", .str "bot"), ("generation", .map
    [("strategy", .str "manual"), ("manual", .map
      [("value", (token? context).getD .nil)])])])]

/-- An adapter that gives the reply whatever it is asked. -/
def answering (reply : AdapterReply) : RunEnv :=
  let env : StepEnv :=
    { condition := fun _ _ => .ok true
      render := fun _ context => .ok (rendered context)
      inProcess := fun _ r => r
      renderUse := fun use _ => .ok use
      resolve := fun _ => .ok vault
      dispatch := fun _ _ => .ok []
      adapter := fun _ _ => .ok reply
      sleep := fun _ => none }
  { secretId := fun raw _ => .ok (.str raw)
    sink := fun _ _ => some vault
    items := fun _ _ => .ok .nil
    step := env
    iteration := fun _ _ => env }

/-- The token is made, and then kept. -/
def replies (token : String) (n : ℕ) : RunEnv :=
  answering <| if n = 0 then
    { status := "created", output := .map [("token", .str token)],
      metadata := [("sensitive_output_paths", .list [.str "token"])] }
  else { operation := "ensure_secret", capability := "ensure_secret", status := "created" }

/-- The run in which the token is made and kept. -/
def minting (token : String) : ℕ → RunState :=
  unfold (RunState.next ascii quoting [mint, keep] { id := "w1", version := 1 }) (replies token) {}

theorem isWorkflowRun_minting (token : String) :
    IsWorkflowRun ascii quoting [mint, keep] { id := "w1", version := 1 } (minting token)
      (replies token) := by
  refine ⟨isRun_unfold _ _ _, ⟨[], rfl⟩, fun n attempt request reply hreply => ?_⟩
  rw [replies] at hreply
  cases hreply
  split <;> exact ⟨rfl, rfl⟩

/-- The status, the ids of the recorded steps, and how many leases were made and offered. -/
def outcome (s : RunState) : String × List String × ℕ × ℕ :=
  (s.status, s.steps.map (·.id),
    s.log.countP (fun | .made .. => true | _ => false),
    s.log.countP (fun | .offered .. => true | _ => false))

/-- The run is over. -/
def isDone : RunPhase → Bool
  | .done => true
  | _ => false

/-- A run that has ended stays as it is. -/
theorem minting_done {token : String} (hdone : isDone (minting token 7).phase = true) (m : ℕ) :
    isDone (minting token (m + 7)).phase = true := by
  induction m with
  | zero => exact hdone
  | succ m ih =>
    have hnext : minting token (m + 1 + 7) = (minting token (m + 7)).next ascii quoting [mint, keep]
        { id := "w1", version := 1 } (replies token (m + 7)) := rfl
    cases hphase : (minting token (m + 7)).phase with
    | done =>
      rw [hnext, RunState.next, hphase]
      exact ih
    | _ => simp [isDone, hphase] at ih

/-- The token is made, kept, and the run ends. The kernel runs the steps once for all of this. -/
theorem minting_ends : isDone (minting "hunter2" 7).phase = true ∧
    outcome (minting "hunter2" 7) = ("succeeded", ["mint", "keep"], 1, 1) ∧
    ∀ m < 7, Unechoed "hunter2" (minting "hunter2" m) (minting "hunter2" (m + 1)) := by
  decide +kernel

theorem unechoed_minting (m : ℕ) :
    Unechoed "hunter2" (minting "hunter2" m) (minting "hunter2" (m + 1)) := by
  by_cases hm : m < 7
  · exact minting_ends.2.2 m hm
  · obtain ⟨k, rfl⟩ := Nat.exists_eq_add_of_le' (not_lt.1 hm)
    have hdone := minting_done minting_ends.1 k
    intro hready
    cases hphase : (minting "hunter2" (k + 7)).phase with
    | ready => simp [isDone, hphase] at hdone
    | _ => simp [RunPhase.isReady, hphase] at hready

/-- The skipped steps do not name the token unless the failed step does. -/
theorem skipped_minting (id : String) (hid : contains id "hunter2" = false) (r : StepResult)
    (hr : r ∈ skipWorkflowSteps ascii quoting [mint, keep] id) : Free "hunter2" r.texts := by
  have herror : contains ("workflow aborted after step " ++ quoting.quote id ++ " failed")
      "hunter2" = false := by
    rw [contains, decide_eq_false_iff_not] at hid ⊢
    intro hin
    have hspace : ' ' ∉ "hunter2".toList := by decide
    have hsplit : ("workflow aborted after step " ++ quoting.quote id ++ " failed").toList =
        "workflow aborted after step".toList ++ ' ' :: (id.toList ++ ' ' :: "failed".toList) := by
      simp [quoting, String.toList_append]
    rw [hsplit] at hin
    rcases infix_append_cons hspace hin with hin | hin
    · exact absurd hin (by decide)
    · rcases infix_append_cons hspace hin with hin | hin
      · exact hid hin
      · exact absurd hin (by decide)
  obtain ⟨step, hstep, rfl⟩ := List.mem_map.1 hr
  have hlabels : ∀ step ∈ [mint, keep], Free "hunter2" (initialResult ascii step).labels := by
    decide +kernel
  have hmetadata : (initialResult ascii step).metadata = [] := by simp only [initialResult]
  have hfree := hlabels step hstep
  have hskipped : contains "skipped" "hunter2" = false := by decide
  generalize initialResult ascii step = initial at hfree hmetadata
  intro t ht
  rw [StepResult.texts, hmetadata, Value.textsFields] at ht
  rcases List.mem_append.1 ht with ht | ht
  · exact hfree t ht
  · rcases List.mem_pair.1 ht with rfl | rfl
    · exact hskipped
    · exact herror

end Sample

theorem sample_sensitive_output_lease :
    Sample.outcome (Sample.minting "hunter2" 7) = ("succeeded", ["mint", "keep"], 1, 1) ∧
      ∀ r ∈ (Sample.minting "hunter2" 7).steps, Free "hunter2" r.texts := by
  have hrun := sensitive_output_lease (Sample.isWorkflowRun_minting "hunter2") 7
  have hredactable : Redactable "hunter2" := ⟨by decide, by decide, by decide⟩
  have hwords : Free "hunter2" coreWords := by decide +kernel
  exact ⟨Sample.minting_ends.2.1, (hrun.2.2.2.2 "hunter2" hredactable hwords Sample.skipped_minting
    Sample.unechoed_minting).1⟩

/-- Once its lease is made, a secret is recorded only if a later adapter answers with it. -/
def SecretUnrecorded : Prop :=
  ∀ cm fmt orderedSteps workflow ρ δ, IsWorkflowRun cm fmt orderedSteps workflow ρ δ →
    ∀ k i lease, .made i lease ∈ (ρ k).log → Redactable lease.value →
    (∀ m ≥ k, ∀ attempt request reply, (δ m).step.adapter attempt request = .ok reply →
      Free lease.value (reply.operation :: reply.capability :: reply.status ::
        (reply.output.texts ++ Value.textsFields reply.metadata))) →
    ∀ n, ∀ r ∈ (ρ n).steps, Free lease.value r.texts

/-- A secret that is one of the words of the core is in the results that say this word. -/
theorem not_secretUnrecorded : ¬ SecretUnrecorded := by
  intro h
  obtain ⟨hin, hrecorded⟩ :
      "succeeded" ∈ (Sample.minting "succeeded" 2).log.filterMap (fun
        | .made _ lease => some lease.value
        | _ => none) ∧
      ¬ ∀ r ∈ (Sample.minting "succeeded" 7).steps, Free "succeeded" r.texts := by
    decide +kernel
  obtain ⟨i, lease, hmem, hvalue⟩ : ∃ i lease,
      .made i lease ∈ (Sample.minting "succeeded" 2).log ∧ lease.value = "succeeded" := by
    obtain ⟨entry, hentry, hlease⟩ := List.mem_filterMap.1 hin
    cases entry with
    | made i lease => exact ⟨i, lease, hentry, Option.some_inj.1 hlease⟩
    | _ => cases hlease
  have hredactable : Redactable lease.value := by
    rw [hvalue]
    exact ⟨by decide, by decide, by decide⟩
  have hfree := h ascii Sample.quoting [Sample.mint, Sample.keep] { id := "w1", version := 1 } _ _
    (Sample.isWorkflowRun_minting "succeeded") 2 i lease hmem hredactable ?_ 7
  · rw [hvalue] at hfree
    exact hrecorded hfree
  · intro m hm attempt request reply hreply
    have hm0 : m ≠ 0 := by omega
    rw [Sample.replies, if_neg hm0] at hreply
    cases hreply
    rw [hvalue]
    decide +kernel

/-- The hypothesis on the words of the core is what this secret fails. -/
example : ¬ Free "succeeded" coreWords := by decide +kernel

end Yggdrasil.Runs
