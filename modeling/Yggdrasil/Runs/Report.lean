import Yggdrasil.Lib.Encode
import Yggdrasil.Manifest.Order
import Yggdrasil.Runs.Handover
import Yggdrasil.Runs.Retry

/-!
# The report of a run

A run reports what came of its steps in their order, a step that is run for some items by a block of
results (`Block`). It stops after the first failed result; the steps after it are reported skipped
(`Reports`).
-/

namespace Yggdrasil.Runs

open Text Manifest Check

/-! ## The ids of iterations -/

/-- The case tables are those of ASCII on its characters. -/
def LowersAscii (cm : CaseMap) : Prop := ∀ c : Char, c.toNat < 0x80 → cm.lower c = asciiLower c

/-- Printable ASCII, without capital letters. -/
def isPlain (c : Char) : Bool :=
  0x21 ≤ c.toNat && c.toNat ≤ 0x7E && !(0x41 ≤ c.toNat && c.toNat ≤ 0x5A)

section Names

variable {cm : CaseMap} {s : String} {c : Char}

theorem isPlain_iff : isPlain c = true ↔
    0x21 ≤ c.toNat ∧ c.toNat ≤ 0x7E ∧ ¬ (0x41 ≤ c.toNat ∧ c.toNat ≤ 0x5A) := by
  simp only [isPlain, Bool.and_eq_true, Bool.not_eq_true', Bool.and_eq_false_iff,
    decide_eq_true_eq, decide_eq_false_iff_not]
  omega

theorem isSpace_of_isPlain (h : isPlain c = true) : isSpace c = false := by
  obtain ⟨hlow, hhigh, -⟩ := isPlain_iff.1 h
  simp only [isSpace, List.contains_eq_mem, List.mem_cons, List.not_mem_nil, or_false, not_or,
    Bool.or_eq_false_iff, Bool.and_eq_false_iff, decide_eq_false_iff_not]
  omega

theorem lower_of_isPlain (hcm : LowersAscii cm) (h : isPlain c = true) : cm.lower c = c := by
  obtain ⟨-, hhigh, hcapital⟩ := isPlain_iff.1 h
  rw [hcm c (by omega), asciiLower, if_neg hcapital]

theorem normalizeWorkflowStepId_eq (hcm : LowersAscii cm)
    (h : ∀ c ∈ s.toList, isPlain c = true) : normalizeWorkflowStepId cm s = s := by
  have htrim : trimSpace s = s := trimSpace_eq_self fun c hc => isSpace_of_isPlain (h c hc)
  have hlower : s.toList.map cm.lower = s.toList :=
    (List.map_congr_left fun c hc => lower_of_isPlain hcm (h c hc)).trans (List.map_id _)
  rw [normalizeWorkflowStepId, htrim, toLower, hlower, String.ofList_toList]

theorem mem_of_integrationNamePattern (h : integrationNamePattern s = true) (hc : c ∈ s.toList) :
    isLower c = true ∨ isDigit c = true ∨ c ∈ ['.', '_', ':', '-'] := by
  rw [integrationNamePattern] at h
  cases hs : s.toList with
  | nil => simp [hs] at hc
  | cons d ds =>
    simp only [hs, Bool.and_eq_true, Bool.or_eq_true, List.all_eq_true,
      List.contains_eq_mem, decide_eq_true_eq] at h
    rw [hs] at hc
    rcases List.mem_cons.1 hc with rfl | hc
    · exact h.1.imp_right .inl
    · exact or_assoc.1 (h.2 c hc)

theorem isPlain_of_integrationNamePattern (h : integrationNamePattern s = true)
    (hc : c ∈ s.toList) : isPlain c = true := by
  rcases mem_of_integrationNamePattern h hc with hlower | hdigit | hmark
  · simp only [isLower, Bool.and_eq_true, decide_eq_true_eq] at hlower
    exact isPlain_iff.2 (by omega)
  · simp only [isDigit, Bool.and_eq_true, decide_eq_true_eq] at hdigit
    exact isPlain_iff.2 (by omega)
  · simp only [List.mem_cons, List.not_mem_nil, or_false] at hmark
    rcases hmark with rfl | rfl | rfl | rfl <;> decide

theorem isPlain_toString (i : ℕ) (hc : c ∈ (toString i).toList) : isPlain c = true := by
  have hdigits : (toString i).toList = Nat.toDigits 10 i := by simp
  have hdigit := Nat.isDigit_of_mem_toDigits (by decide) (by decide) (hdigits ▸ hc)
  simp only [Char.isDigit, Bool.and_eq_true, decide_eq_true_eq, ge_iff_le, UInt32.le_iff_toNat_le]
    at hdigit
  have h1 : 48 ≤ c.toNat := hdigit.1
  have h2 : c.toNat ≤ 57 := hdigit.2
  exact isPlain_iff.2 (by omega)

end Names

/-- The id of an iteration of a step. -/
def iterationId (cm : CaseMap) (step : WorkflowStepSpec) (i : ℕ) : String :=
  normalizeWorkflowStepId cm step.id ++ "[" ++ toString i ++ "]"

theorem iterationId_ne_empty (cm : CaseMap) (step : WorkflowStepSpec) (i : ℕ) :
    iterationId cm step i ≠ "" := by
  intro h
  have hlength := congrArg String.length h
  simp [iterationId] at hlength

/-- An iteration of a step with a checked id is reported under its own id. -/
theorem normalizeWorkflowStepId_iterationId {cm : CaseMap} {step : WorkflowStepSpec}
    (hcm : LowersAscii cm) (hname : integrationNamePattern (step.name cm) = true) (i : ℕ) :
    normalizeWorkflowStepId cm (iterationId cm step i) = iterationId cm step i := by
  refine normalizeWorkflowStepId_eq hcm fun c hc => ?_
  simp only [iterationId, String.toList_append, List.mem_append] at hc
  rcases hc with ((hc | hc) | hc) | hc
  · exact isPlain_of_integrationNamePattern hname hc
  · obtain rfl : c = '[' := by simpa using hc
    decide
  · exact isPlain_toString i hc
  · obtain rfl : c = ']' := by simpa using hc
    decide

/-! ## The results of a step -/

/-- Nothing of the metadata is declared secret. -/
def Undeclared (metadata : Value.Fields) : Prop :=
  metadata.lookup "sensitive_output_paths" = none

/-- The core keeps the id of a result, and neither it nor a dispatch declares a secret. -/
structure StepEnv.Plain (env : StepEnv) : Prop where
  id : ∀ request r, (env.inProcess request r).id = r.id
  inProcess : ∀ request r, Undeclared r.metadata → Undeclared (env.inProcess request r).metadata
  dispatch : ∀ attempt request metadata, env.dispatch attempt request = .ok metadata →
    Undeclared metadata

/-- The behaviour of the handlers of steps. -/
structure Executors extends RunEnv where
  plain_step : step.Plain
  plain_iteration : ∀ i item, (iteration i item).Plain

/-- One result for each of `n` iterations, in their order and up to the first that failed. -/
structure Iterations (cm : CaseMap) (step : WorkflowStepSpec) (n : ℕ)
    (results : List StepResult) : Prop where
  ids : results.map (·.id) = (List.range results.length).map (iterationId cm step)
  le : results.length ≤ n
  first : ∀ r ∈ results.dropLast, r.status ≠ "failed"
  all : (∀ r ∈ results, r.status ≠ "failed") → results.length = n

/-- The results of a step: one; one for each iteration; or one failed, without items. -/
inductive Block (cm : CaseMap) (render : String → Except String Value) (step : WorkflowStepSpec) :
    List StepResult → Prop
  | once {r : StepResult} (hforEach : forEachItems step = none)
      (hid : r.id = normalizeWorkflowStepId cm step.id) : Block cm render step [r]
  | iterations {template : String} {rendered : Value} {items : List Value}
      {results : List StepResult} (hforEach : forEachItems step = some template)
      (hrender : render template = .ok rendered) (hitems : coerceToSlice rendered = some items)
      (h : Iterations cm step items.length results) : Block cm render step results
  | refused {template : String} {r : StepResult} (hforEach : forEachItems step = some template)
      (hrender : ∀ rendered, render template = .ok rendered → coerceToSlice rendered = none)
      (hid : r.id = normalizeWorkflowStepId cm step.id) (hstatus : r.status = "failed") :
      Block cm render step [r]

section Step

variable {cm : CaseMap} {fmt : Fmt} {workflow : ManifestReference} {step : WorkflowStepSpec}
  {context : Context} {security : Security} {env : StepEnv}

theorem undeclared_mergeStringAnyMaps {base extra : Value.Fields} (hbase : Undeclared base)
    (hextra : "sensitive_output_paths" ∉ extra.map Prod.fst) :
    Undeclared (mergeStringAnyMaps base extra) := by
  induction extra generalizing base with
  | nil => exact hbase
  | cons entry extra ih =>
    simp only [List.map_cons, List.mem_cons, not_or] at hextra
    refine ih ?_ hextra.2
    rw [Undeclared, Value.Fields.lookup_set_of_ne _ _ hextra.1]
    exact hbase

/-- An adapter cannot declare a secret that is not planned. -/
theorem undeclared_attemptOutcome (henv : env.Plain) (request : Request) (operation : String)
    (attempt : ℕ) :
    Undeclared (attemptOutcome cm fmt env {} request operation attempt).metadata := by
  rw [attemptOutcome]
  split
  · split
    next hanswer => exact henv.dispatch _ _ _ hanswer
    · rfl
  · split
    · rfl
    next response hresponse =>
      have hundeclared : Undeclared response.metadata := by
        rw [executeIntegration, Check.bind_eq_ok] at hresponse
        obtain ⟨answer, -, hresponse⟩ := hresponse
        split at hresponse
        · cases hresponse
        next hpolicy =>
          simp only [Check.unit_bind_eq_ok] at hresponse
          obtain ⟨-, -, hresponse⟩ := hresponse
          split at hresponse
          · cases hresponse
          · cases hresponse
            by_contra hdeclared
            exact hpolicy ⟨Option.isSome_iff_ne_none.2 hdeclared, rfl⟩
      have hmerged : Undeclared (mergeStringAnyMaps response.metadata
          [("integration_status", .str response.status), ("output", response.output)]) :=
        undeclared_mergeStringAnyMaps hundeclared (by simp)
      simp only [Option.isSome_none, Bool.false_eq_true, if_false]
      split <;> exact hmerged

/-- The result of a step has its id, and declares no secret unless one is planned or given. -/
theorem executeWorkflowStep_plain (henv : env.Plain) {out : StepResult × List Request}
    (hout : executeWorkflowStep cm fmt env workflow step context security = some out) :
    out.1.id = normalizeWorkflowStepId cm step.id ∧
      (security = {} → Undeclared out.1.metadata) := by
  have hinitial : (initialResult cm step).id = normalizeWorkflowStepId cm step.id ∧
      Undeclared (initialResult cm step).metadata := ⟨rfl, rfl⟩
  have hexecuted := executed cm fmt env workflow step context security
  rw [hout] at hexecuted
  generalize hresult : some out = result at hexecuted
  cases hexecuted with
  | @attempted input use resolved h =>
    have hblank : (blankResult cm step resolved).id = normalizeWorkflowStepId cm step.id ∧
        Undeclared (blankResult cm step resolved).metadata := hinitial
    generalize blankResult cm step resolved = blank at hresult hblank
    by_cases hnil : step.use.instanceRef = none ∧ blank.operation = workflowDispatchOperation
    · rw [attemptsFrom_eq_none hnil.1 hnil.2 (workflowStepAttempts_pos step)] at hresult
      cases hresult
    · obtain ⟨k, -, heq⟩ := attemptsFrom_one cm fmt env security
        (stepRequest cm workflow step security input resolved) hnil (workflowStepAttempts_pos step)
      cases hresult.trans heq
      refine ⟨(id_resultAfter k).trans hblank.1, fun hsecurity => ?_⟩
      subst hsecurity
      exact metadata_resultAfter hblank.2 (undeclared_attemptOutcome henv _ _) k
  | core hkind =>
    rw [Option.some.inj hresult]
    exact ⟨(henv.id _ _).trans hinitial.1, fun _ => henv.inProcess _ _ hinitial.2⟩
  | failed =>
    rw [Option.some.inj hresult]
    exact ⟨hinitial.1, fun _ => hinitial.2⟩
  | skipped =>
    rw [Option.some.inj hresult]
    exact ⟨hinitial.1, fun _ => by simp [Undeclared]⟩

/-- The iterations from the index `i` on are reported, up to the first that failed. -/
theorem iterate_eq_some (hcm : LowersAscii cm)
    (hname : integrationNamePattern (step.name cm) = true) (env : Executors) {i : ℕ}
    {items : List Value} {out : List StepResult × String}
    (h : iterate cm fmt env.toRunEnv workflow step context i items = some out) :
    out.1.map (·.id) = (List.range' i out.1.length).map (iterationId cm step) ∧
      out.1.length ≤ items.length ∧ (∀ r ∈ out.1.dropLast, r.status ≠ "failed") ∧
      ((∀ r ∈ out.1, r.status ≠ "failed") → out.1.length = items.length) ∧
      ∀ r ∈ out.1, Undeclared r.metadata := by
  induction items generalizing i out with
  | nil =>
    cases h
    simp
  | cons item items ih =>
    rw [iterate, Option.bind_eq_bind, Option.bind_eq_some_iff] at h
    obtain ⟨⟨result, requests⟩, hresult, h⟩ := h
    obtain ⟨hid, hundeclared⟩ := executeWorkflowStep_plain (env.plain_iteration i item) hresult
    replace hid : result.id = iterationId cm step i :=
      hid.trans (normalizeWorkflowStepId_iterationId hcm hname i)
    replace hundeclared := hundeclared rfl
    dsimp only at h
    split at h
    next hfailed =>
      -- The iterations end with the one that failed.
      cases h
      simpa [hid, hfailed] using hundeclared
    next hok =>
      obtain ⟨rest, hrest, h⟩ := Option.bind_eq_some_iff.1 h
      cases h
      obtain ⟨hids, hle, hfirst, hall, hrestUndeclared⟩ := ih hrest
      refine ⟨by simp [hid, hids, List.range'_succ], by simpa using hle, fun r hr => ?_,
        fun hnone => ?_, List.forall_mem_cons.2 ⟨hundeclared, hrestUndeclared⟩⟩
      · cases hrest' : rest.1 with
        | nil => simp [hrest'] at hr
        | cons r' rest' =>
          rw [hrest', List.dropLast_cons_cons, ← hrest'] at hr
          rcases List.mem_cons.1 hr with rfl | hr
          · exact hok
          · exact hfirst r hr
      · simpa using hall fun r hr => hnone r (List.mem_cons_of_mem _ hr)

/-- The results of a step are a block, with the id of one that failed. -/
theorem runStepIterations_block (hcm : LowersAscii cm)
    (hname : integrationNamePattern (step.name cm) = true) (env : Executors)
    (haccepts : ∀ lease, security.inputLease = some lease → lease.accepts cm step = true)
    {out : List StepResult × String × List Request}
    (h : runStepIterations cm fmt env.toRunEnv workflow step context security = some out) :
    Block cm (env.items · context) step out.1 ∧
      ((forEachItems step).isSome = true → ∀ r ∈ out.1, Undeclared r.metadata) := by
  have hany : ¬ security.inputLease.any (fun lease => !lease.accepts cm step) = true := by
    cases hlease : security.inputLease with
    | none => simp
    | some lease => simp [haccepts lease hlease]
  rw [runStepIterations, if_neg hany] at h
  cases hforEach : forEachItems step with
  | none =>
    simp only [hforEach] at h
    obtain ⟨⟨result, requests⟩, hresult, h⟩ := Option.bind_eq_some_iff.1 h
    cases h
    exact ⟨.once hforEach (executeWorkflowStep_plain env.plain_step hresult).1,
      fun hsome => absurd hsome Bool.false_ne_true⟩
  | some template =>
    have hsingle {error : String} : ∀ r ∈ [{ initialResult cm step with error }],
        Undeclared r.metadata := fun r hr => by
      rw [List.mem_singleton.1 hr]
      rfl
    simp only [hforEach] at h
    split at h
    next e hrender =>
      cases h
      refine ⟨.refused hforEach (fun rendered hok => ?_) rfl rfl, fun _ => hsingle⟩
      cases hrender.symm.trans hok
    next rendered hrender =>
      split at h
      next hitems =>
        cases h
        refine ⟨.refused hforEach (fun other hok => ?_) rfl rfl, fun _ => hsingle⟩
        cases hrender.symm.trans hok
        exact hitems
      next items hitems =>
        obtain ⟨iterated, hiterated, h⟩ := Option.bind_eq_some_iff.1 h
        cases h
        obtain ⟨hids, hle, hfirst, hall, hundeclared⟩ := iterate_eq_some hcm hname env hiterated
        exact ⟨.iterations hforEach hrender hitems
          ⟨by rw [hids, List.range_eq_range'], hle, hfirst, hall⟩, fun _ => hundeclared⟩

/-- The steps that panic are those that dispatch a workflow by a family. -/
theorem dispatchesByFamily_of_runStepIterations {env : RunEnv}
    (h : runStepIterations cm fmt env workflow step context security = none) :
    DispatchesByFamily cm step := by
  have hiterate (i : ℕ) (items : List Value)
      (h : iterate cm fmt env workflow step context i items = none) :
      DispatchesByFamily cm step := by
    induction items generalizing i with
    | nil => cases h
    | cons item items ih =>
      rw [iterate, Option.bind_eq_bind] at h
      cases hresult : executeWorkflowStep cm fmt (env.iteration i item) workflow
        { step with id := iterationId cm step i, forEach := none } context {} with
      | none =>
        simpa only [DispatchesByFamily, normalizeWorkflowStepOperation] using
          (executeWorkflowStep_eq_none_iff.1 hresult).1
      | some out =>
        simp only [iterationId] at hresult
        simp only [hresult, Option.bind_some] at h
        split at h
        · cases h
        · cases hrest : iterate cm fmt env workflow step context (i + 1) items with
          | none => exact ih _ hrest
          | some rest => simp [hrest] at h
  rw [runStepIterations] at h
  split at h
  next haccepts =>
    rw [executeWorkflowStep, if_pos haccepts] at h
    cases h
  split at h
  · cases hresult : executeWorkflowStep cm fmt env.step workflow step context security with
    | none => exact (executeWorkflowStep_eq_none_iff.1 hresult).1
    | some out => simp [hresult] at h
  dsimp only at h
  split at h
  · cases h
  split at h
  · cases h
  next items _ =>
    cases hrest : iterate cm fmt env workflow step context 0 items with
    | none => exact hiterate 0 items hrest
    | some out => simp [hrest] at h

end Step

section Blocks

variable {cm : CaseMap} {render : String → Except String Value} {step : WorkflowStepSpec}
  {r safe : StepResult} {recorded rest : List StepResult} {failed : String}

/-- Of a result, its id and that it failed are reported as they are. -/
def Keeps (r safe : StepResult) : Prop :=
  safe.id = r.id ∧ (r.status = "failed" → safe.status = "failed")

theorem keeps_secureSensitiveProducerResult (r : StepResult) (plan : Option Plan) :
    Keeps r (secureSensitiveProducerResult r plan).1 := by
  have hsecures := secures r plan
  refine ⟨hsecures.labels_eq.2, fun hstatus => ?_⟩
  generalize secureSensitiveProducerResult r plan = out at hsecures
  cases hsecures with
  | keeps => exact hstatus
  | refuses => rfl
  | fails => rfl
  | leases plan rawPaths value hsucceeded => simp [hstatus] at hsucceeded

/-- A result that declares nothing is recorded as it is. -/
theorem secureSensitiveProducerResult_of_undeclared (h : Undeclared r.metadata) :
    (secureSensitiveProducerResult r none).1 = r := by
  rw [Undeclared] at h
  simp [secureSensitiveProducerResult, h]

/-- A block stays one when a result in it is secured, which keeps the results of iterations. -/
theorem Block.secure (h : Block cm render step (recorded ++ r :: rest)) (hsafe : Keeps r safe)
    (hiteration : (forEachItems step).isSome = true → safe = r) :
    Block cm render step (recorded ++ safe :: rest) := by
  generalize hresults : recorded ++ r :: rest = results at h
  cases h with
  | once hforEach hid =>
    obtain ⟨rfl, rfl, rfl⟩ : recorded = [] ∧ r = _ ∧ rest = [] := by
      simpa [List.append_eq_singleton_iff] using hresults
    exact .once hforEach (hsafe.1.trans hid)
  | iterations hforEach hrender hitems h =>
    rw [hiteration (by rw [hforEach]; rfl), hresults]
    exact .iterations hforEach hrender hitems h
  | refused hforEach hrender hid hstatus =>
    rw [hiteration (by rw [hforEach]; rfl), hresults]
    exact .refused hforEach hrender hid hstatus

theorem Names.secure (h : Names (recorded ++ r :: rest) failed) (hsafe : Keeps r safe) :
    Names (recorded ++ safe :: rest) failed := by
  refine h.imp_right ?_
  rintro ⟨x, hx, hstatus, hid⟩
  rcases List.mem_append.1 hx with hx | hx
  · exact ⟨x, List.mem_append_left _ hx, hstatus, hid⟩
  · rcases List.mem_cons.1 hx with rfl | hx
    · exact ⟨safe, by simp, hsafe.2 hstatus, hsafe.1.trans hid⟩
    · exact ⟨x, by simp [hx], hstatus, hid⟩

theorem Block.id_ne_empty (h : Block cm render step recorded)
    (hname : integrationNamePattern (step.name cm) = true) (hr : r ∈ recorded) : r.id ≠ "" := by
  have hbase : normalizeWorkflowStepId cm step.id ≠ "" := by
    intro hempty
    change integrationNamePattern (normalizeWorkflowStepId cm step.id) = true at hname
    rw [hempty] at hname
    exact absurd hname (by decide)
  cases h with
  | once _ hid => rwa [List.mem_singleton.1 hr, hid]
  | iterations _ _ _ h =>
    have hmem : r.id ∈ recorded.map (·.id) := List.mem_map_of_mem hr
    rw [h.ids] at hmem
    obtain ⟨i, -, hi⟩ := List.mem_map.1 hmem
    exact hi ▸ iterationId_ne_empty cm step i
  | refused _ _ hid => rwa [List.mem_singleton.1 hr, hid]

end Blocks

/-! ## Reports -/

/-- The results of all the steps, none failed; `B` says which are those of a step. -/
def Completed (B : WorkflowStepSpec → List StepResult → Prop) (steps : List WorkflowStepSpec)
    (results : List StepResult) : Prop :=
  ∃ blocks, List.Forall₂ B steps blocks ∧ results = blocks.flatten ∧
    ∀ r ∈ results, r.status ≠ "failed"

/-- All steps are reported; or those up to one with a failed result, and the others as skipped. -/
inductive Reports (cm : CaseMap) (fmt : Fmt) (B : WorkflowStepSpec → List StepResult → Prop) :
    List WorkflowStepSpec → List StepResult → Prop
  | completed {steps : List WorkflowStepSpec} {results : List StepResult}
      (h : Completed B steps results) : Reports cm fmt B steps results
  | aborted {before after : List WorkflowStepSpec} {step : WorkflowStepSpec}
      {results block : List StepResult} {r : StepResult} (hbefore : Completed B before results)
      (hblock : B step block) (hr : r ∈ block) (hstatus : r.status = "failed") :
      Reports cm fmt B (before ++ step :: after)
        (results ++ block ++ skipWorkflowSteps cm fmt after r.id)

theorem Completed.append {B : WorkflowStepSpec → List StepResult → Prop}
    {steps : List WorkflowStepSpec} {step : WorkflowStepSpec} {results block : List StepResult}
    (h : Completed B steps results) (hblock : B step block)
    (hstatus : ∀ r ∈ block, r.status ≠ "failed") :
    Completed B (steps ++ [step]) (results ++ block) := by
  obtain ⟨blocks, hblocks, rfl, hresults⟩ := h
  refine ⟨blocks ++ [block], List.rel_append hblocks (.cons hblock .nil), by simp, fun r hr => ?_⟩
  rcases List.mem_append.1 hr with hr | hr
  · exact hresults r hr
  · exact hstatus r hr

/-- A lease was made by a step and not given to the next one. -/
def Unconsumed (log : List Entry) : Prop :=
  ∃ i lease, .made i lease ∈ log ∧ ∀ given, .given (i + 1) given ∉ log

/-- The leases of all but the last of `n` steps were given on, and that of the last is in use. -/
structure Accounted (n : ℕ) (s : RunState) : Prop where
  made : ∀ i lease, .made i lease ∈ s.log → i < n ∧
    (i + 1 < n → ∃ given, .given (i + 1) given ∈ s.log) ∧
    (i + 1 = n → s.activeLease.isSome = true)
  given : ∀ i lease, .given i lease ∈ s.log → i < n
  active : s.activeLease.isSome = true → ∃ i lease, i + 1 = n ∧ .made i lease ∈ s.log

theorem Accounted.unconsumed_iff {n : ℕ} {s : RunState} (h : Accounted n s) :
    Unconsumed s.log ↔ s.activeLease.isSome = true := by
  constructor
  · rintro ⟨i, lease, hmade, hgiven⟩
    obtain ⟨hi, hbefore, hlast⟩ := h.made i lease hmade
    rcases Nat.eq_or_lt_of_le (Nat.succ_le_of_lt hi) with hi | hi
    · exact hlast hi
    · obtain ⟨given, hmem⟩ := hbefore hi
      exact absurd hmem (hgiven given)
  · intro hactive
    obtain ⟨i, lease, rfl, hmade⟩ := h.active hactive
    exact ⟨i, lease, hmade, fun given hmem => lt_irrefl _ (h.given _ given hmem)⟩

theorem take_append_cons_drop {α : Type*} {l : List α} {i : ℕ} {x : α} (h : l[i]? = some x) :
    l.take i ++ x :: l.drop (i + 1) = l := by
  obtain ⟨hlt, rfl⟩ := List.getElem?_eq_some_iff.1 h
  rw [← List.drop_eq_getElem_cons hlt, List.take_append_drop]

/-! ## Between two statements -/

namespace RunState

variable (cm : CaseMap) (fmt : Fmt) (B : WorkflowStepSpec → List StepResult → Prop)
  (ordered : List WorkflowStepSpec)

/-- Before a step: those before it have been reported. -/
structure ReadyAt (s : RunState) : Prop where
  status : s.status = "succeeded"
  index : s.index ≤ ordered.length
  completed : Completed B (ordered.take s.index) s.steps
  accounted : Accounted s.index s

/-- The step that was run has some results recorded, and `rest` is left. -/
structure RecordingAt (rest : List StepResult) (failed : String) (plan : Option Plan)
    (s : RunState) (render : String → Except String Value) (step : WorkflowStepSpec)
    (results recorded : List StepResult) : Prop where
  status : s.status = "succeeded"
  reached : ordered[s.index]? = some step
  completed : Completed B (ordered.take s.index) results
  steps : s.steps = results ++ recorded
  block : Block cm render step (recorded ++ rest)
  blocks : ∀ block, Block cm render step block → B step block
  iterations : (forEachItems step).isSome = true →
    ∀ r ∈ rest, (secureSensitiveProducerResult r plan).1 = r
  names : Names (recorded ++ rest) failed
  named : ∀ r ∈ recorded, r.status = "failed" → failed ≠ ""
  accounted : Accounted (s.index + 1) s

/-- After the end. -/
structure EndedAt (s : RunState) : Prop where
  reports : Reports cm fmt B ordered s.steps
  status : s.status = "failed" ↔ (∃ r ∈ s.steps, r.status = "failed") ∨ Unconsumed s.log

/-- What holds between two statements of the run. -/
def Orderly (s : RunState) : Prop :=
  match s.phase with
  | .ready => s.ReadyAt B ordered
  | .recording rest failed plan => ∃ render step results recorded,
      s.RecordingAt cm B ordered rest failed plan render step results recorded
  | .done => s.EndedAt cm fmt B ordered
  | .panicked => ∃ step, ordered[s.index]? = some step ∧ DispatchesByFamily cm step

variable {cm fmt B ordered} {s : RunState} {workflow : ManifestReference} {step : WorkflowStepSpec}
  {render : String → Except String Value} {results recorded rest : List StepResult}
  {r : StepResult} {failed : String} {plan : Option Plan}

/-- The lease of the step before is given to the one that is run. -/
theorem accounted_given (h : Accounted s.index s) (phase : RunPhase) (requests : List Request) :
    Accounted (s.index + 1) { s with
      phase, leases := s.cleared, active := none
      log := s.log ++ s.activeLease.elim [] fun lease =>
        .given s.index lease :: requests.map (.offered s.index lease) } := by
  refine ⟨fun i lease hmem => ?_, fun i lease hmem => ?_, fun hactive => nomatch hactive⟩
  · have hmade : .made i lease ∈ s.log := by
      rcases List.mem_append.1 hmem with hmem | hmem
      · exact hmem
      · cases hactive : s.activeLease <;> simp [hactive] at hmem
    obtain ⟨hi, hbefore, hlast⟩ := h.made i lease hmade
    refine ⟨by omega, fun hnext => ?_, fun heq => by omega⟩
    rcases Nat.eq_or_lt_of_le (Nat.succ_le_of_lt hi) with hi | hi
    · obtain ⟨active, hactive⟩ := Option.isSome_iff_exists.1 (hlast hi)
      refine ⟨active, List.mem_append_right _ ?_⟩
      rw [hactive, ← hi]
      exact List.mem_cons_self
    · obtain ⟨given, hgiven⟩ := hbefore hi
      exact ⟨given, List.mem_append_left _ hgiven⟩
  · rcases List.mem_append.1 hmem with hmem | hmem
    · exact (h.given i lease hmem).trans s.index.lt_succ_self
    · cases hactive : s.activeLease with
      | none => simp [hactive] at hmem
      | some active =>
        obtain ⟨rfl, -⟩ : i = s.index ∧ lease = active := by simpa [hactive] using hmem
        exact Nat.lt_succ_self _

variable (rest r failed plan) in
theorem accounted_record (h : Accounted (s.index + 1) s) :
    Accounted (s.index + 1) (s.record r rest failed plan) := by
  obtain ⟨safe, made, hsecure⟩ : ∃ safe made,
    secureSensitiveProducerResult r plan = (safe, made) := ⟨_, _, rfl⟩
  have hlog : (s.record r rest failed plan).log = s.log ++ made.toList.map (.made s.index) := by
    simp only [record, hsecure]
  have hactive : (s.record r rest failed plan).activeLease = made.or s.activeLease := by
    cases made with
    | none => simp [record, hsecure, activeLease]
    | some lease => simp [record, hsecure, activeLease]
  cases made with
  | none =>
    rw [Option.toList_none, List.map_nil, List.append_nil] at hlog
    rw [Option.none_or] at hactive
    exact ⟨by rw [hlog, hactive]; exact h.made, by rw [hlog]; exact h.given,
      by rw [hlog, hactive]; exact h.active⟩
  | some lease =>
    rw [Option.toList_some, List.map_singleton] at hlog
    rw [Option.some_or] at hactive
    refine ⟨fun i other hmem => ?_, fun i other hmem => ?_, fun _ => ?_⟩
    · rw [hactive]
      rw [hlog] at hmem ⊢
      rcases List.mem_append.1 hmem with hmem | hmem
      · obtain ⟨hi, hbefore, -⟩ := h.made i other hmem
        refine ⟨hi, fun hnext => ?_, fun _ => rfl⟩
        obtain ⟨given, hgiven⟩ := hbefore hnext
        exact ⟨given, List.mem_append_left _ hgiven⟩
      · obtain ⟨rfl, -⟩ : i = s.index ∧ other = lease := by simpa using hmem
        exact ⟨Nat.lt_succ_self _, fun hnext => absurd hnext (lt_irrefl _), fun _ => rfl⟩
    · rw [hlog] at hmem
      exact h.given i other (by simpa using hmem)
    · exact ⟨s.index, lease, rfl, by rw [hlog]; simp⟩

/-! ## One statement -/

/-- A step is run: its results are a block that is yet to be recorded. -/
theorem ReadyAt.execute (h : s.ReadyAt B ordered) (hcm : LowersAscii cm)
    (hname : integrationNamePattern (step.name cm) = true) (hstep : ordered[s.index]? = some step)
    (haccepts : ∀ lease, s.activeLease = some lease → lease.accepts cm step = true)
    (env : Executors)
    (hblocks : ∀ block, Block cm (env.items · s.context) step block → B step block) :
    (s.execute cm fmt ordered workflow env.toRunEnv step).Orderly cm fmt B ordered := by
  rw [RunState.execute]
  generalize hplan : (if s.activeLease.isNone then
    authorizeSensitiveOutputPlan cm env.toRunEnv ordered s.index s.context else none) = plan
  dsimp only
  split
  next hpanics => exact ⟨step, hstep, dispatchesByFamily_of_runStepIterations hpanics⟩
  next results failed requests hrun =>
    obtain ⟨hblock, hundeclared⟩ := runStepIterations_block hcm hname env haccepts hrun
    refine ⟨_, step, s.steps, [], h.status, hstep, h.completed, (List.append_nil _).symm, hblock,
      hblocks, fun hforEach r hr => ?_, names_runStepIterations hrun,
      fun _ hr => absurd hr List.not_mem_nil, accounted_given h.accounted _ _⟩
    -- A step with iterations is no producer, and has no plan.
    have hnone : plan = none := by
      refine Option.eq_none_iff_forall_ne_some.2 fun p hp => ?_
      rw [hp] at hplan
      split at hplan
      · obtain ⟨producer, hproducer, hisProducer⟩ :=
          (planned_of_authorizeSensitiveOutputPlan hplan).producer
        cases hstep.symm.trans hproducer
        simp [forEachItems, forEach_of_isProducerStep hisProducer] at hforEach
      · cases hplan
    rw [hnone]
    exact secureSensitiveProducerResult_of_undeclared (hundeclared hforEach r hr)

/-- The next result is secured and recorded. -/
theorem RecordingAt.record
    (h : s.RecordingAt cm B ordered (r :: rest) failed plan render step results recorded)
    (hname : integrationNamePattern (step.name cm) = true) :
    (s.record r rest failed plan).Orderly cm fmt B ordered := by
  have hsafe := keeps_secureSensitiveProducerResult r plan
  have haccounted := accounted_record rest r failed plan h.accounted
  have hiteration (hforEach : (forEachItems step).isSome = true) :=
    List.forall_mem_cons.1 (h.iterations hforEach)
  obtain ⟨safe, hsecure⟩ : ∃ safe, (secureSensitiveProducerResult r plan).1 = safe := ⟨_, rfl⟩
  rw [hsecure] at hsafe
  have hblock := h.block.secure hsafe fun hforEach => hsecure ▸ (hiteration hforEach).1
  have hmem : safe ∈ recorded ++ safe :: rest := by simp
  have hassoc : recorded ++ [safe] ++ rest = recorded ++ safe :: rest := by simp
  change ∃ render step results recorded, RecordingAt cm B ordered rest
    (if (secureSensitiveProducerResult r plan).1.status = "failed" then
      (secureSensitiveProducerResult r plan).1.id else failed) plan _ render step results recorded
  rw [hsecure]
  refine ⟨render, step, results, recorded ++ [safe], h.status, h.reached, h.completed, ?_, ?_,
    h.blocks, fun hforEach => (hiteration hforEach).2, ?_, ?_, haccounted⟩
  · change s.steps ++ [(secureSensitiveProducerResult r plan).1] = _
    rw [hsecure, h.steps, List.append_assoc]
  · rwa [hassoc]
  · -- The id of the step that failed is that of the last result that did.
    rw [hassoc]
    split_ifs with hstatus
    · exact .inr ⟨safe, hmem, hstatus, rfl⟩
    · exact h.names.secure hsafe
  · -- A failed result stops the run only by its id, which is therefore not to be empty.
    intro x hx hfailed
    split_ifs with hstatus
    · exact hblock.id_ne_empty hname hmem
    · rcases List.mem_append.1 hx with hx | hx
      · exact h.named x hx hfailed
      · exact absurd (List.mem_singleton.1 hx ▸ hfailed) hstatus

/-- After its results the step ends the run, if one failed, or the next step follows. -/
theorem RecordingAt.finishStep
    (h : s.RecordingAt cm B ordered [] failed plan render step results recorded) :
    (s.finishStep cm fmt ordered failed).Orderly cm fmt B ordered := by
  obtain ⟨hlt, hget⟩ := List.getElem?_eq_some_iff.1 h.reached
  have hblock : B step recorded := h.blocks _ (by simpa using h.block)
  have hnames : Names recorded failed := by simpa using h.names
  rw [RunState.finishStep]
  by_cases hfailed : failed ≠ ""
  · -- The run ends here, with the result that the step failed of.
    obtain ⟨r, hr, hstatus, rfl⟩ := hnames.resolve_left hfailed
    rw [if_pos hfailed]
    refine ⟨?_, iff_of_true rfl (.inl ⟨r, ?_, hstatus⟩)⟩
    · have hreports : Reports cm fmt B (ordered.take s.index ++ step :: ordered.drop (s.index + 1))
          (results ++ recorded ++ skipWorkflowSteps cm fmt (ordered.drop (s.index + 1)) r.id) :=
        .aborted h.completed hblock hr hstatus
      rw [take_append_cons_drop h.reached, ← h.steps] at hreports
      exact hreports
    · change r ∈ s.steps ++ _
      rw [h.steps]
      simp [hr]
  · -- No result of the step failed, and its block is added to those before.
    rw [if_neg hfailed]
    have hnone : ∀ r ∈ recorded, r.status ≠ "failed" := fun r hr hstatus =>
      hfailed (h.named r hr hstatus)
    refine ⟨h.status, hlt, ?_, h.accounted.made, h.accounted.given, h.accounted.active⟩
    change Completed B (ordered.take (s.index + 1)) s.steps
    rw [h.steps, List.take_succ_eq_append_getElem hlt, hget]
    exact h.completed.append hblock hnone

/-- After all the steps the run ends, and has failed if a lease was left. -/
theorem ReadyAt.finish (h : s.ReadyAt B ordered) (hend : ordered[s.index]? = none) :
    s.finish.Orderly cm fmt B ordered := by
  have hindex : ordered.take s.index = ordered :=
    List.take_of_length_le (List.getElem?_eq_none_iff.1 hend)
  have hcompleted : Completed B ordered s.steps := hindex ▸ h.completed
  have hunconsumed := h.accounted.unconsumed_iff
  rw [RunState.finish]
  cases hactive : s.activeLease with
  | none =>
    refine ⟨.completed hcompleted, iff_of_false (h.status ▸ by decide) ?_⟩
    obtain ⟨-, -, -, hnone⟩ := hcompleted
    rintro (⟨r, hr, hstatus⟩ | hleft)
    · exact hnone r hr hstatus
    · simpa [hactive] using hunconsumed.1 hleft
  | some lease =>
    refine ⟨.completed hcompleted, iff_of_true rfl (.inr ?_)⟩
    obtain ⟨i, made, hmade, hgiven⟩ := hunconsumed.2 (by rw [hactive]; rfl)
    refine ⟨i, made, List.mem_append_left _ hmade, fun given hmem => hgiven given ?_⟩
    simpa using hmem

/-- What holds between two statements of the run is kept by every statement. -/
theorem Orderly.next (h : s.Orderly cm fmt B ordered) (hhandover : Handover cm ordered s)
    (hcm : LowersAscii cm)
    (hnames : ∀ step ∈ ordered, integrationNamePattern (step.name cm) = true) (env : Executors)
    (hblocks : s.phase = .ready → ∀ step, ordered[s.index]? = some step →
      ∀ block, Block cm (env.items · s.context) step block → B step block) :
    (s.next cm fmt ordered workflow env.toRunEnv).Orderly cm fmt B ordered := by
  rw [Orderly] at h
  rw [RunState.next]
  cases hphase : s.phase with
  | ready =>
    simp only [hphase] at h ⊢
    cases hstep : ordered[s.index]? with
    | none => exact h.finish hstep
    | some step =>
      exact h.execute hcm (hnames step (List.mem_of_getElem? hstep)) hstep
        (fun lease hlease => (hhandover.accepts hphase hstep hlease).1) env
        (hblocks hphase step hstep)
  | recording rest failed plan =>
    simp only [hphase] at h ⊢
    obtain ⟨render, step, results, recorded, h⟩ := h
    cases rest with
    | nil => exact h.finishStep
    | cons r rest => exact h.record (hnames step (List.mem_of_getElem? h.reached))
  | _ =>
    simp only [hphase] at h ⊢
    rw [Orderly, hphase]
    exact h

end RunState

/-! ## Whole runs -/

section Run

variable {cm : CaseMap} (fmt : Fmt) {ordered : List WorkflowStepSpec} (workflow : ManifestReference)
  (metadata : Value.Fields) (envs : ℕ → Executors)

/-- The states of a run of the steps. -/
def runStates (cm : CaseMap) (ordered : List WorkflowStepSpec) : ℕ → RunState :=
  unfold (RunState.next cm fmt ordered workflow) (fun n => (envs n).toRunEnv) { metadata }

/-- The step was reached, and the results are a block by what its items rendered to then. -/
def Reached (cm : CaseMap) (ordered : List WorkflowStepSpec) (ρ : ℕ → RunState)
    (step : WorkflowStepSpec) (block : List StepResult) : Prop :=
  ∃ n, (ρ n).phase = .ready ∧ ordered[(ρ n).index]? = some step ∧
    Block cm ((envs n).items · (ρ n).context) step block

/-- Along every run the steps are reported in their order. -/
theorem orderly_runStates (hcm : LowersAscii cm)
    (hnames : ∀ step ∈ ordered, integrationNamePattern (step.name cm) = true) (n : ℕ) :
    let ρ := runStates fmt workflow metadata envs cm ordered
    Handover cm ordered (ρ n) ∧ (ρ n).Orderly cm fmt (Reached envs cm ordered ρ) ordered := by
  intro ρ
  induction n with
  | zero =>
    refine ⟨.initial metadata, rfl, Nat.zero_le _, ⟨[], .nil, rfl, nofun⟩, nofun, nofun, ?_⟩
    exact fun hactive => nomatch hactive
  | succ n ih =>
    refine ⟨ih.1.next, ih.2.next ih.1 hcm hnames (envs n) fun hready step hstep block hblock => ?_⟩
    exact ⟨n, hready, hstep, hblock⟩

end Run

section Ends

variable {cm : CaseMap} {fmt : Fmt} {ordered : List WorkflowStepSpec} {workflow : ManifestReference}
  {ρ : ℕ → RunState} {δ : ℕ → RunEnv}
  (hρ : ∀ n, ρ (n + 1) = (ρ n).next cm fmt ordered workflow (δ n))

include hρ

/-- After the results of a step the run ends, or goes on with the next step. -/
theorem exists_recorded {n : ℕ} {rest : List StepResult} {failed : String} {plan : Option Plan}
    (h : (ρ n).phase = .recording rest failed plan) :
    ∃ m, (ρ m).phase = .done ∨ (ρ m).phase = .ready ∧ (ρ m).index = (ρ n).index + 1 := by
  induction rest generalizing n failed with
  | nil =>
    refine ⟨n + 1, ?_⟩
    rw [hρ, RunState.next, h]
    simp only [RunState.finishStep]
    split_ifs
    · exact .inl rfl
    · exact .inr ⟨rfl, rfl⟩
  | cons r rest ih =>
    have hnext : ρ (n + 1) = (ρ n).record r rest failed plan := by rw [hρ, RunState.next, h]
    obtain ⟨m, hm⟩ := ih (n := n + 1) (by rw [hnext]; rfl)
    rw [hnext] at hm
    exact ⟨m, hm⟩

/-- The run ends: from every state before a step, by induction on the steps that are left. -/
theorem exists_end_of_ready {n : ℕ} (h : (ρ n).phase = .ready) :
    ∃ m, (ρ m).phase = .panicked ∨ (ρ m).phase = .done := by
  generalize hleft : ordered.length - (ρ n).index = left
  induction left using Nat.strong_induction_on generalizing n with
  | _ left ih =>
    cases hstep : ordered[(ρ n).index]? with
    | none =>
      refine ⟨n + 1, .inr ?_⟩
      rw [hρ, RunState.next, h]
      simp only [hstep, RunState.finish]
      split <;> rfl
    | some step =>
      have hlt := (List.getElem?_eq_some_iff.1 hstep).1
      have hnext : ρ (n + 1) = (ρ n).execute cm fmt ordered workflow (δ n) step := by
        rw [hρ, RunState.next, h]
        simp only [hstep]
      rw [RunState.execute] at hnext
      dsimp only at hnext
      split at hnext
      · exact ⟨n + 1, .inl (by rw [hnext])⟩
      · obtain ⟨m, hdone | ⟨hready, hindex⟩⟩ := exists_recorded hρ (n := n + 1) (by rw [hnext])
        · exact ⟨m, .inr hdone⟩
        · rw [hnext] at hindex
          exact ih _ (by dsimp only at hindex; omega) hready rfl

end Ends

theorem integrationNamePattern_name {cm : CaseMap} {spec : WorkflowManifestSpec}
    (h : validateWorkflowSteps cm spec = .ok ()) {step : WorkflowStepSpec}
    (hstep : step ∈ spec.steps) : integrationNamePattern (step.name cm) = true := by
  rw [validateWorkflowSteps, require_bind, unit_bind_eq_ok] at h
  obtain ⟨seen, hcheck⟩ := exists_check_of_validateEach h.2.1 hstep
  simp only [validateStepEntry, require_bind, decide_eq_true_eq] at hcheck
  exact hcheck.2.2.1

/-- The steps of a workflow without a cycle have an order, and in every run of them: a step is
    executed when those before it have been, and no result has failed; and the run ends, unless a
    step panics that dispatches a workflow by a family, with the report of the steps, failed exactly
    when a result is or a lease was left. -/
theorem run_report {cm : CaseMap} (hcm : LowersAscii cm) (fmt : Fmt) {spec : WorkflowManifestSpec}
    (hsteps : validateWorkflowSteps cm spec = .ok ()) (hacyclic : spec.Acyclic cm) :
    ∃ ordered, (∀ fuel, spec.steps.length ≤ fuel →
        workflowExecutionOrder cm fuel spec = some (.ok ordered)) ∧
      ordered.Perm spec.steps ∧
      ∀ (workflow : ManifestReference) (metadata : Value.Fields) (envs : ℕ → Executors),
        let ρ := runStates fmt workflow metadata envs cm ordered
        (∀ n step, (ρ n).phase = .ready → ordered[(ρ n).index]? = some step →
          Completed (Reached envs cm ordered ρ) (ordered.take (ρ n).index) (ρ n).steps ∧
          ∀ d ∈ step.dependencies cm, ∃ before ∈ ordered.take (ρ n).index, before.name cm = d) ∧
        ∃ n, ((ρ n).phase = .panicked ∧
            ∃ step, ordered[(ρ n).index]? = some step ∧ DispatchesByFamily cm step) ∨
          (ρ n).phase = .done ∧ Reports cm fmt (Reached envs cm ordered ρ) ordered (ρ n).steps ∧
          ((ρ n).status = "failed" ↔
            (∃ r ∈ (ρ n).steps, r.status = "failed") ∨ Unconsumed (ρ n).log) := by
  obtain ⟨result, horder, hok, hspec, -⟩ := workflowExecutionOrder_spec hsteps
  obtain ⟨ordered, rfl⟩ := hok.2 hacyclic
  obtain ⟨hperm, hbefore⟩ := hspec ordered rfl
  refine ⟨ordered, horder, hperm, fun workflow metadata envs => ?_⟩
  intro ρ
  have horderly (n : ℕ) : (ρ n).Orderly cm fmt (Reached envs cm ordered ρ) ordered :=
    (orderly_runStates fmt workflow metadata envs hcm (fun step hstep =>
      integrationNamePattern_name hsteps (hperm.mem_iff.1 hstep)) n).2
  refine ⟨fun n step hready hstep => ?_, ?_⟩
  · have h := horderly n
    rw [RunState.Orderly, hready] at h
    exact ⟨h.completed, hbefore _ _ _ (take_append_cons_drop hstep).symm⟩
  · obtain ⟨n, hend⟩ := exists_end_of_ready (ρ := ρ) (fun _ => rfl) (n := 0) rfl
    have h := horderly n
    refine ⟨n, hend.imp (fun hpanicked => ⟨hpanicked, ?_⟩) fun hdone => ⟨hdone, ?_⟩⟩
    · rwa [RunState.Orderly, hpanicked] at h
    · rw [RunState.Orderly, hdone] at h
      exact ⟨h.reports, h.status⟩

namespace Sample

/-- A step for each of some hosts, and one after it. -/
def fanOut : WorkflowManifestSpec where
  steps := [{ Manifest.Sample.step "scale" [] with forEach := some { items := "hosts" } },
    Manifest.Sample.step "announce" ["scale"]]

theorem plain_replying (first other : Except String AdapterReply) :
    (replying first other).Plain where
  id _ _ := rfl
  inProcess _ _ h := h
  dispatch _ _ _ h := nomatch h

/-- The hosts are these, and every adapter answers, but for the second host. -/
def hosts (items : Value) : Executors where
  secretId _ _ := .error ""
  sink _ _ := none
  items _ _ := .ok items
  step := replying (.ok { status := "applied" }) (.ok { status := "applied" })
  iteration i _ := replying (if i = 1 then .error "down" else .ok { status := "applied" }) (.ok {})
  plain_step := plain_replying _ _
  plain_iteration _ _ := plain_replying _ _

/-- The run of the steps of `fanOut`. -/
def scaling (items : Value) : ℕ → RunState :=
  runStates plain { id := "w1", version := 1 } [] (fun _ => hosts items) ascii fanOut.steps

theorem acyclic_fanOut : fanOut.Acyclic ascii := by
  have hdepends {a b : String} (h : fanOut.DependsOn ascii a b) : a = "announce" ∧ b = "scale" := by
    obtain ⟨step, hstep, rfl, hb⟩ := h
    simp only [fanOut, List.mem_cons, List.not_mem_nil, or_false] at hstep
    rcases hstep with rfl | rfl
    · simp [WorkflowStepSpec.dependencies, Manifest.Sample.step] at hb
    · have hdependencies : (Manifest.Sample.step "announce" ["scale"]).dependencies ascii =
          ["scale"] := by decide +kernel
      rw [hdependencies] at hb
      exact ⟨by decide +kernel, List.mem_singleton.1 hb⟩
  intro a ha
  obtain ⟨b, hab, hba⟩ := Relation.TransGen.head'_iff.1 ha
  obtain ⟨rfl, rfl⟩ := hdepends hab
  rcases Relation.ReflTransGen.cases_head hba with heq | ⟨c, hc, -⟩
  · exact absurd heq (by decide)
  · exact absurd (hdepends hc).1 (by decide)

end Sample

/-- Of three hosts the second fails, and the third is not tried. -/
theorem run_report_fanOut :
    (∃ ordered, ordered.Perm Sample.fanOut.steps ∧
      let ρ := runStates Sample.plain { id := "w1", version := 1 } []
        (fun _ => Sample.hosts (.list [.str "a", .str "b", .str "c"])) ascii ordered
      ∃ n, (ρ n).phase = .done ∧ Reports ascii Sample.plain
        (Reached (fun _ => Sample.hosts (.list [.str "a", .str "b", .str "c"])) ascii ordered ρ)
        ordered (ρ n).steps) ∧
    ((Sample.scaling (.list [.str "a", .str "b", .str "c"]) 4).steps.map fun r =>
      (r.id, r.status)) =
        [("scale[0]", "succeeded"), ("scale[1]", "failed"), ("announce", "skipped")] := by
  have hascii : LowersAscii ascii := fun _ _ => rfl
  have hsteps : validateWorkflowSteps ascii Sample.fanOut = .ok () := by decide +kernel
  have hdispatch : ∀ step ∈ Sample.fanOut.steps,
      normalizeWorkflowStepOperation ascii step ≠ workflowDispatchOperation := by decide +kernel
  obtain ⟨ordered, -, hperm, hrun⟩ :=
    run_report hascii Sample.plain hsteps Sample.acyclic_fanOut
  obtain ⟨-, n, ⟨-, step, hstep, hfamily⟩ | ⟨hdone, hreports, -⟩⟩ :=
    hrun { id := "w1", version := 1 } []
      fun _ => Sample.hosts (.list [.str "a", .str "b", .str "c"])
  · exact absurd hfamily.2 (hdispatch step (hperm.mem_iff.1 (List.mem_of_getElem? hstep)))
  · exact ⟨⟨ordered, hperm, n, hdone, hreports⟩, by decide +kernel⟩

/-- A step whose items are not a list is reported under its own id, and not by iterations. -/
theorem not_run_report :
    Sample.fanOut.Acyclic ascii ∧
    (workflowExecutionOrder ascii 2 Sample.fanOut).map (·.map (·.map (·.name ascii))) =
      some (.ok ["scale", "announce"]) ∧
    (Sample.fanOut.steps.map fun step => (forEachItems step).isSome) = [true, false] ∧
    (Sample.scaling (.str "a, b") 3).phase = .done ∧
    ((Sample.scaling (.str "a, b") 3).steps.map fun r => (r.id, r.status)) =
      [("scale", "failed"), ("announce", "skipped")] ∧
    ∀ step ∈ Sample.fanOut.steps, ∀ i, iterationId ascii step i ≠ "scale" := by
  refine ⟨Sample.acyclic_fanOut, by decide +kernel, by decide +kernel, rfl, by decide +kernel, ?_⟩
  intro step _ i h
  have hbracket : ']' ∈ (iterationId ascii step i).toList := by simp [iterationId]
  rw [h] at hbracket
  exact absurd hbracket (by decide)

end Yggdrasil.Runs
