import Yggdrasil.Runs.Execute

/-!
# The attempts of a step

The step of an integration is attempted until an attempt succeeds, there have been as many as it may
make, or the wait for the next one is cut short. An attempt changes the result in place
(`Outcome.change`).
-/

namespace Yggdrasil.Runs

open Text Manifest

/-! ## Outcomes -/

/-- What an attempt comes to. -/
inductive Outcome
  | unanswered (error : String)
  | refused (error : String) (metadata : Value.Fields)
  | succeeded (metadata : Value.Fields)

namespace Outcome

/-- The attempt has succeeded. -/
def isSuccess : Outcome → Bool
  | succeeded _ => true
  | _ => false

/-- The status of an attempt. -/
def status (o : Outcome) : String := if o.isSuccess then "succeeded" else "failed"

/-- The error of an attempt. -/
def error : Outcome → String
  | unanswered e => e
  | refused e _ => e
  | succeeded _ => ""

/-- What an attempt leaves in the metadata. -/
def metadata : Outcome → Value.Fields
  | unanswered _ => []
  | refused _ m => m
  | succeeded m => m

/-- What an attempt changes in the result; a success takes the error away where it `clears`. -/
def change (clears : Bool) (r : StepResult) : Outcome → StepResult
  | unanswered error => { r with error }
  | refused error metadata => { r with status := "failed", error, metadata }
  | succeeded metadata =>
    { r with status := "succeeded", metadata, error := if clears then "" else r.error }

end Outcome

variable (cm : CaseMap) (fmt : Fmt)

/-- The outcome of an attempt that follows no missing reference. -/
def attemptOutcome (env : StepEnv) (security : Security) (request : Request) (operation : String)
    (attempt : ℕ) : Outcome :=
  if operation = workflowDispatchOperation then
    match env.dispatch attempt request with
    | .ok metadata => .succeeded metadata
    | .error e => .unanswered e
  else
    match executeIntegration fmt security.policy request (env.adapter attempt request) with
    | .error e => .unanswered (security.error e)
    | .ok response =>
      if security.inputLease.isSome then
        if toLower cm (trimSpace response.status) ∈ ["created", "updated", "unchanged"] then
          .succeeded sensitiveOutputSinkReceipt
        else .refused errSensitiveOutputSink []
      else
        let metadata := mergeStringAnyMaps response.metadata
          [("integration_status", .str response.status), ("output", response.output)]
        if normalizeWorkflowIntegrationStatus cm response.status = "succeeded" then
          .succeeded metadata
        else .refused ("integration returned status " ++ fmt.quote response.status) metadata

/-- A success of a step that was given a lease is recorded without what was there before. -/
def clears (security : Security) (operation : String) : Bool :=
  operation ≠ workflowDispatchOperation && security.inputLease.isSome

/-- The step dispatches a workflow, and is routed by a family. -/
def DispatchesByFamily (step : WorkflowStepSpec) : Prop :=
  step.use.instanceRef = none ∧ normalizeWorkflowStepOperation cm step = workflowDispatchOperation

variable {cm fmt} {env : StepEnv} {workflow : ManifestReference} {step : WorkflowStepSpec}
  {context : Context} {security : Security} {request : Request}

theorem attemptStep_eq (attempt : ℕ) {r : StepResult}
    (h : ¬ (step.use.instanceRef = none ∧ r.operation = workflowDispatchOperation)) :
    attemptStep cm fmt env security step request attempt r =
      some ((attemptOutcome cm fmt env security request r.operation attempt).change
          (clears security r.operation) r,
        (attemptOutcome cm fmt env security request r.operation attempt).isSuccess) := by
  by_cases hdispatch : r.operation = workflowDispatchOperation
  · obtain ⟨ref, href⟩ := Option.ne_none_iff_exists'.1 fun hnone => h ⟨hnone, hdispatch⟩
    cases hanswer : env.dispatch attempt request <;>
      simp [attemptStep, attemptOutcome, hdispatch, href, hanswer, Outcome.change,
        Outcome.isSuccess, clears]
  · cases hanswer : executeIntegration fmt security.policy request
      (env.adapter attempt request) with
    | error e =>
      simp [attemptStep, attemptOutcome, hdispatch, hanswer, Outcome.change, Outcome.isSuccess]
    | ok response =>
      by_cases hlease : security.inputLease.isSome = true
      · by_cases hstatus : toLower cm (trimSpace response.status) ∈
            ["created", "updated", "unchanged"] <;>
          simp [attemptStep, attemptOutcome, hdispatch, hanswer, hlease, hstatus, Outcome.change,
            Outcome.isSuccess, secureSensitiveOutputSinkResponse, clears]
      · by_cases hstatus : normalizeWorkflowIntegrationStatus cm response.status = "succeeded"
        · simp [attemptStep, attemptOutcome, hdispatch, hanswer, hlease, hstatus, Outcome.change,
            Outcome.isSuccess, clears]
        · have hfailed : normalizeWorkflowIntegrationStatus cm response.status = "failed" := by
            rw [normalizeWorkflowIntegrationStatus] at hstatus ⊢
            split at hstatus <;> simp_all
          simp [attemptStep, attemptOutcome, hdispatch, hanswer, hlease, hfailed, Outcome.change,
            Outcome.isSuccess]

/-! ## The loop -/

/-- The result after the first attempts. -/
def resultAfter (o : ℕ → Outcome) (clears : Bool) (r : StepResult) : ℕ → StepResult
  | 0 => r
  | k + 1 => (o (k + 1)).change clears { resultAfter o clears r k with attempts := k + 1 }

/-- The attempt `k` of at most `n` is the last: those before failed and were waited after, and it
    succeeds, is the last that may be made, or is not waited after. -/
structure LastAttempt (o : ℕ → Outcome) (sleep : ℕ → Option String) (n k : ℕ) : Prop where
  pos : 0 < k
  le : k ≤ n
  before : ∀ i, 0 < i → i < k → (o i).isSuccess = false ∧ sleep i = none
  stops : (o k).isSuccess = true ∨ k = n ∨ (sleep k).isSome = true

/-- The error of the wait that was cut short, if this ended the attempts. -/
def interruption (o : ℕ → Outcome) (sleep : ℕ → Option String) (security : Security) (n k : ℕ) :
    Option String :=
  if (o k).isSuccess ∨ k = n then none else (sleep k).map security.error

/-- The result of the attempts of which `k` is the last. -/
def lastResult (o : ℕ → Outcome) (sleep : ℕ → Option String) (security : Security) (clears : Bool)
    (r : StepResult) (n k : ℕ) : StepResult :=
  { resultAfter o clears r k with
    error := (interruption o sleep security n k).getD (resultAfter o clears r k).error }

section Loop

variable {o : ℕ → Outcome} {sleep : ℕ → Option String} {n k k' : ℕ} {c : Bool} {r : StepResult}

theorem LastAttempt.unique (h : LastAttempt o sleep n k) (h' : LastAttempt o sleep n k') :
    k = k' := by
  have hle {i j : ℕ} (hi : LastAttempt o sleep n i) (hj : LastAttempt o sleep n j) : j ≤ i := by
    by_contra hlt
    obtain ⟨hfailed, hwaited⟩ := hj.before i hi.pos (by omega)
    rcases hi.stops with hstop | hstop | hstop
    · simp [hfailed] at hstop
    · exact hlt (hstop ▸ hj.le)
    · simp [hwaited] at hstop
  exact le_antisymm (hle h' h) (hle h h')

/-- What every attempt keeps is kept by all of them. -/
theorem resultAfter_of {P : StepResult → Prop} (hr : P r)
    (hattempts : ∀ r n, P r → P { r with attempts := n })
    (hchange : ∀ i r, P r → P ((o i).change c r)) (k : ℕ) : P (resultAfter o c r k) := by
  induction k with
  | zero => exact hr
  | succ k ih => exact hchange _ _ (hattempts _ _ ih)

theorem operation_resultAfter (k : ℕ) : (resultAfter o c r k).operation = r.operation :=
  resultAfter_of (P := fun x => x.operation = r.operation) rfl (fun _ _ h => h)
    (fun i x h => by cases o i <;> exact h) k

theorem id_resultAfter (k : ℕ) : (resultAfter o c r k).id = r.id :=
  resultAfter_of (P := fun x => x.id = r.id) rfl (fun _ _ h => h)
    (fun i x h => by cases o i <;> exact h) k

/-- The metadata are those of the beginning, or of an outcome. -/
theorem metadata_resultAfter {P : Value.Fields → Prop} (hr : P r.metadata)
    (ho : ∀ i, P (o i).metadata) (k : ℕ) : P (resultAfter o c r k).metadata := by
  refine resultAfter_of (P := fun x => P x.metadata) hr (fun _ _ h => h) (fun i x h => ?_) k
  have hi := ho i
  cases hoi : o i with
  | unanswered e => exact h
  | refused e m =>
    rw [hoi] at hi
    exact hi
  | succeeded m =>
    rw [hoi] at hi
    exact hi

end Loop

variable (cm fmt env security request) in
/-- The attempts from one on end with the last attempt, and its result. -/
theorem attemptsFrom_eq {left m n : ℕ} {r : StepResult}
    (h : ¬ (step.use.instanceRef = none ∧ r.operation = workflowDispatchOperation))
    (hleft : 0 < left) (hn : m + left = n) :
    let o := attemptOutcome cm fmt env security request r.operation
    let c := clears security r.operation
    ∃ k, m < k ∧ k ≤ n ∧
      (∀ i, m < i → i < k → (o i).isSuccess = false ∧ env.sleep i = none) ∧
      ((o k).isSuccess = true ∨ k = n ∨ (env.sleep k).isSome = true) ∧
      attemptsFrom cm fmt env security step request left (m + 1) (resultAfter o c r m) =
        some (lastResult o env.sleep security c r n k, List.replicate (k - m) request) := by
  intro o c
  induction left generalizing m with
  | zero => exact absurd hleft (lt_irrefl 0)
  | succ left ih =>
    have hattempt : attemptStep cm fmt env security step request (m + 1)
        { resultAfter o c r m with attempts := m + 1 } =
          some (resultAfter o c r (m + 1), (o (m + 1)).isSuccess) := by
      rw [attemptStep_eq]
      · simp only [operation_resultAfter, resultAfter, o, c]
      · simpa only [operation_resultAfter] using h
    rw [attemptsFrom, hattempt]
    dsimp only [Option.bind_eq_bind, Option.bind_some]
    by_cases hlast : (o (m + 1)).isSuccess = true ∨ left = 0
    · -- This attempt is the last, and no wait follows.
      have hstops : (o (m + 1)).isSuccess = true ∨ m + 1 = n := hlast.imp_right fun h => by omega
      have hnone : interruption o env.sleep security n (m + 1) = none := if_pos hstops
      rw [if_pos hlast]
      refine ⟨m + 1, by omega, by omega, fun i h1 h2 => by omega, hstops.imp_right .inl, ?_⟩
      rw [lastResult, hnone, Nat.add_sub_cancel_left]
      rfl
    · rw [if_neg hlast]
      cases hsleep : env.sleep (m + 1) with
      | some e =>
        have hsome : interruption o env.sleep security n (m + 1) = some (security.error e) := by
          rw [interruption, if_neg (fun h => hlast (h.imp_right fun h => by omega)), hsleep]
          rfl
        refine ⟨m + 1, by omega, by omega, fun i h1 h2 => by omega,
          .inr (.inr (by rw [hsleep]; rfl)), ?_⟩
        rw [lastResult, hsome, Nat.add_sub_cancel_left]
        rfl
      | none =>
        obtain ⟨hfailed, hmore⟩ := not_or.1 hlast
        obtain ⟨k, hlt, hle, hbefore, hstops, heq⟩ := ih (m := m + 1) (by omega) (by omega)
        refine ⟨k, by omega, hle, fun i h1 h2 => ?_, hstops, ?_⟩
        · rcases Nat.eq_or_lt_of_le h1 with rfl | h1
          · exact ⟨Bool.not_eq_true _ ▸ hfailed, hsleep⟩
          · exact hbefore i h1 h2
        · have hcount : k - m = k - (m + 1) + 1 := by omega
          dsimp only
          rw [heq, hcount, List.replicate_succ]
          rfl

variable (cm fmt env security request) in
/-- All the attempts of a step. -/
theorem attemptsFrom_one {n : ℕ} {r : StepResult}
    (h : ¬ (step.use.instanceRef = none ∧ r.operation = workflowDispatchOperation)) (hn : 0 < n) :
    let o := attemptOutcome cm fmt env security request r.operation
    ∃ k, LastAttempt o env.sleep n k ∧
      attemptsFrom cm fmt env security step request n 1 r =
        some (lastResult o env.sleep security (clears security r.operation) r n k,
          List.replicate k request) := by
  obtain ⟨k, hpos, hle, hbefore, hstops, heq⟩ :=
    attemptsFrom_eq cm fmt env security request h hn (Nat.zero_add n)
  exact ⟨k, ⟨hpos, hle, hbefore, hstops⟩, heq⟩

/-- The first attempt panics when the step dispatches by a reference it does not have. -/
theorem attemptsFrom_eq_none {n : ℕ} {r : StepResult} (href : step.use.instanceRef = none)
    (hdispatch : r.operation = workflowDispatchOperation) (hn : 0 < n) (m : ℕ) :
    attemptsFrom cm fmt env security step request n m r = none := by
  obtain ⟨n, rfl⟩ := Nat.exists_eq_succ_of_ne_zero hn.ne'
  rw [attemptsFrom, attemptStep, if_pos hdispatch, href]
  rfl

/-! ## What is executed -/

/-- The step is one of an integration, is to be run, and is resolved: its attempts are made. -/
structure Attempted (cm : CaseMap) (env : StepEnv) (step : WorkflowStepSpec) (context : Context)
    (security : Security) (input : Value.Fields) (use : WorkflowStepUseSpec)
    (resolved : Resolved) : Prop where
  accepted : security.inputLease.any (fun lease => !lease.accepts cm step) = false
  condition : (if trimSpace step.condition = "" then .ok true
    else env.condition step.condition context) = .ok true
  rendersInput : stepInput cm env step context security = .ok input
  kind : ¬ ((initialResult cm step).kind = "yggdrasil" ∨ (initialResult cm step).kind = "product")
  rendersUse : env.renderUse step.use context = .ok use
  resolves : env.resolve use = .ok resolved
  pinned : security.inputLease.any (fun lease => !isSensitiveOutputSinkType cm resolved.typeSpec ||
    !lease.matchesResolvedSink cm resolved.integrationInstance resolved.integrationType) = false

/-- The result of an attempted step before its first attempt. -/
def blankResult (cm : CaseMap) (step : WorkflowStepSpec) (resolved : Resolved) : StepResult :=
  { initialResult cm step with
    integrationInstance := some resolved.integrationInstance
    integrationType := some resolved.integrationType }

/-- What the handler of an attempted step is asked. -/
def stepRequest (cm : CaseMap) (workflow : ManifestReference) (step : WorkflowStepSpec)
    (security : Security) (input : Value.Fields) (resolved : Resolved) : Request where
  stepId := (initialResult cm step).id
  integrationInstance := some resolved.integrationInstance
  integrationType := some resolved.integrationType
  operation := (initialResult cm step).operation
  capability := (initialResult cm step).capability
  input
  metadata := requestMetadata workflow (initialResult cm step).id security

theorem operation_blankResult (cm : CaseMap) (step : WorkflowStepSpec) (resolved : Resolved) :
    (blankResult cm step resolved).operation = normalizeWorkflowStepOperation cm step := by
  simp only [blankResult, initialResult]

theorem workflowStepAttempts_pos (step : WorkflowStepSpec) : 0 < workflowStepAttempts step := by
  rw [workflowStepAttempts]
  split <;> omega

variable (cm fmt env workflow step context security) in
/-- What the execution of a step comes to. -/
inductive Executed : Option (StepResult × List Request) → Prop
  | failed {error : String} {integrationInstance integrationType : Option ManifestReference}
      (herror : security.inputLease.isSome = true → trimSpace step.condition = "" →
        error = errSensitiveOutputSink) :
      Executed (some ({ initialResult cm step with
        error, integrationInstance, integrationType, attempts := 1 }, []))
  | skipped (hcondition : trimSpace step.condition ≠ "") :
      Executed (some ({ initialResult cm step with
        status := "skipped"
        metadata := [("skip_reason", .str "condition"), ("condition", .str step.condition)] }, []))
  | core {request : Request} (hkind : (initialResult cm step).kind = "yggdrasil" ∨
      (initialResult cm step).kind = "product") :
      Executed (some (env.inProcess request (initialResult cm step), [request]))
  | attempted {input : Value.Fields} {use : WorkflowStepUseSpec} {resolved : Resolved}
      (h : Attempted cm env step context security input use resolved) :
      Executed (attemptsFrom cm fmt env security step
        (stepRequest cm workflow step security input resolved) (workflowStepAttempts step) 1
        (blankResult cm step resolved))

/-- The error of the input of a sink says nothing else. -/
theorem stepInput_error {e : String} (h : stepInput cm env step context security = .error e)
    (hlease : security.inputLease.isSome = true) : e = errSensitiveOutputSink := by
  obtain ⟨lease, hlease⟩ := Option.isSome_iff_exists.1 hlease
  simp only [stepInput, hlease] at h
  split at h
  · exact nomatch h
  · exact (Except.error.inj h).symm

variable (cm fmt env workflow step context security) in
theorem executed : Executed cm fmt env workflow step context security
    (executeWorkflowStep cm fmt env workflow step context security) := by
  rw [executeWorkflowStep]
  split
  · exact .failed fun _ _ => rfl
  next haccepted =>
    generalize hcondition : (if trimSpace step.condition = "" then Except.ok true
      else env.condition step.condition context) = condition
    match condition with
    | .error e =>
      exact .failed fun _ hblank => by
        rw [if_pos hblank] at hcondition
        cases hcondition
    | .ok false =>
      refine .skipped fun hblank => ?_
      rw [if_pos hblank] at hcondition
      cases hcondition
    | .ok true =>
      cases hinput : stepInput cm env step context security with
      | error e => exact .failed fun hlease _ => stepInput_error hinput hlease
      | ok input =>
        dsimp only
        split
        next hkind => exact .core hkind
        next hkind =>
          rw [executeIntegrationStep]
          split
          · exact .failed fun hlease _ => if_pos hlease
          next use huse =>
            split
            · exact .failed fun hlease _ => if_pos hlease
            next resolved hresolved =>
              dsimp only
              split
              · exact .failed fun _ _ => rfl
              next hpinned =>
                exact .attempted ⟨eq_false_of_ne_true haccepted, hcondition, hinput, hkind, huse,
                  hresolved, eq_false_of_ne_true hpinned⟩

/-- The execution of a step that is attempted is its attempts. -/
theorem executeWorkflowStep_attempted {input : Value.Fields} {use : WorkflowStepUseSpec}
    {resolved : Resolved} (h : Attempted cm env step context security input use resolved) :
    executeWorkflowStep cm fmt env workflow step context security =
      attemptsFrom cm fmt env security step (stepRequest cm workflow step security input resolved)
        (workflowStepAttempts step) 1 (blankResult cm step resolved) := by
  rw [executeWorkflowStep]
  simp only [h.accepted, Bool.false_eq_true, if_false, h.condition, h.rendersInput, if_neg h.kind]
  rw [executeIntegrationStep]
  simp only [h.rendersUse, h.resolves, h.pinned, Bool.false_eq_true, if_false]
  rfl

/-- A step panics exactly when it is attempted, and dispatches a workflow by a family. -/
theorem executeWorkflowStep_eq_none_iff :
    executeWorkflowStep cm fmt env workflow step context security = none ↔
      DispatchesByFamily cm step ∧
        ∃ input use resolved, Attempted cm env step context security input use resolved := by
  constructor
  · intro hnone
    have hexecuted := executed cm fmt env workflow step context security
    generalize hout : executeWorkflowStep cm fmt env workflow step context security = out
      at hexecuted
    cases hexecuted with
    | @attempted input use resolved h =>
      refine ⟨by_contra fun hstep => ?_, input, use, resolved, h⟩
      have hfollows : ¬ (step.use.instanceRef = none ∧
          (blankResult cm step resolved).operation = workflowDispatchOperation) := by
        rwa [operation_blankResult]
      obtain ⟨k, -, heq⟩ := attemptsFrom_one cm fmt env security
        (stepRequest cm workflow step security input resolved) hfollows
        (workflowStepAttempts_pos step)
      cases hnone.symm.trans (hout.trans heq)
    | _ => cases hnone.symm.trans hout
  · rintro ⟨⟨href, hdispatch⟩, input, use, resolved, h⟩
    rw [executeWorkflowStep_attempted h]
    exact attemptsFrom_eq_none href ((operation_blankResult cm step resolved).trans hdispatch)
      (workflowStepAttempts_pos step) 1

/-! ## Missing references -/

namespace Sample

/-- A resolved instance. -/
def cluster : Resolved := ⟨{ id := "i1", version := 1 }, { id := "t1", version := 1 }, {}⟩

/-- An adapter that answers the first attempt and the others so. -/
def replying (first other : Except String AdapterReply) : StepEnv where
  condition _ _ := .ok true
  render _ _ := .ok []
  inProcess _ r := r
  renderUse use _ := .ok use
  resolve _ := .ok cluster
  dispatch _ _ := .error ""
  adapter attempt _ := if attempt = 1 then first else other
  sleep _ := none

/-- Nothing is quoted. -/
def plain : Fmt := ⟨id, fun _ => ""⟩

end Sample

end Yggdrasil.Runs
