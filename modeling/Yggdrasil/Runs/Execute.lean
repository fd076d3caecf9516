import Yggdrasil.Lib.Run
import Yggdrasil.Runs.Lease

/-!
# Running the steps of a workflow

The steps of a workflow run in their order. A step that follows the producer of a secret is given
the lease; what a step came back with is secured before it is recorded. `none` is the panic of a
step that follows a missing reference.
-/

namespace Yggdrasil.Runs

open Text Manifest

/-! ## One call of an adapter -/

/-- The texts of formatted values. -/
structure Fmt where
  quote : String → String
  typeName : Value → String

/-- What an adapter answers. -/
structure AdapterReply where
  operation : String := ""
  capability : String := ""
  status : String := ""
  output : Value := .nil
  metadata : Value.Fields := []

/-- `integrationExecutionPolicy`, as far as steps set it. -/
structure Policy where
  safeError : Option String := none
  allowSensitiveOutput : Bool := false
  requireExplicitResponse : Bool := false

/-- What the handler of a step is asked. -/
structure Request where
  stepId : String
  integrationInstance : Option ManifestReference := none
  integrationType : Option ManifestReference := none
  operation : String
  capability : String
  input : Value.Fields
  metadata : Value.Fields := []

variable (cm : CaseMap) (fmt : Fmt)

/-- The answer of an adapter names what it was asked for, or says nothing where it may. -/
def checkEcho (policy : Policy) (answered asked unexpected missing : String) :
    Except String Unit :=
  if trimSpace answered ≠ "" ∧ trimSpace answered ≠ asked then
    .error (policy.safeError.getD (unexpected ++ fmt.quote answered))
  else if policy.requireExplicitResponse ∧ trimSpace answered = "" then
    .error (policy.safeError.getD missing)
  else .ok ()

/-- `executeIntegrationThroughResolvedWithPolicy`: the status, output and metadata of the reply. -/
def executeIntegration (policy : Policy) (request : Request) (reply : Except String AdapterReply) :
    Except String AdapterReply := do
  let response ← reply.mapError fun e => policy.safeError.getD e
  if (response.metadata.lookup "sensitive_output_paths").isSome ∧ !policy.allowSensitiveOutput then
    .error errSensitiveOutputContract
  checkEcho fmt policy response.operation request.operation "unexpected adapter operation "
    "adapter response operation is required"
  checkEcho fmt policy response.capability request.capability "unexpected adapter capability "
    "adapter response capability is required"
  let status := trimSpace response.status
  if status = "" ∧ policy.requireExplicitResponse then
    .error (policy.safeError.getD "adapter response status is required")
  .ok { response with status := if status = "" then "succeeded" else status }

/-! ## One step -/

/-- What the execution of a step gets from elsewhere. -/
structure StepEnv where
  condition : String → Context → Except String Bool
  render : WorkflowStepSpec → Context → Except String Value.Fields
  inProcess : Request → StepResult → StepResult
  renderUse : WorkflowStepUseSpec → Context → Except String WorkflowStepUseSpec
  resolve : WorkflowStepUseSpec → Except String Resolved
  dispatch : ℕ → Request → Except String Value.Fields
  adapter : ℕ → Request → Except String AdapterReply
  sleep : ℕ → Option String

/-- `workflowStepExecutionSecurity`. -/
structure Security where
  producerPlan : Option Plan := none
  inputLease : Option Lease := none

/-- The entries of both maps, those of the second first. -/
def mergeStringAnyMaps (base extra : Value.Fields) : Value.Fields :=
  extra.foldl (fun merged entry => merged.set entry.1 entry.2) base

/-- The statuses of an answer that count as success. -/
def succeededStatuses : List String :=
  ["", "ok", "done", "completed", "dispatched", "succeeded", "success", "applied", "observed",
    "ensured", "created", "updated", "already_exists", "unchanged", "committed", "executed", "read",
    "described", "rotated", "not_found", "absent", "deleted", "simulated", "dry_run", "noop",
    "no_op"]

/-- The status of a step, from that of the answer. -/
def normalizeWorkflowIntegrationStatus (status : String) : String :=
  if toLower cm (trimSpace status) ∈ succeededStatuses then "succeeded" else "failed"

/-- The metadata of a sink that has taken the secret. -/
def sensitiveOutputSinkReceipt : Value.Fields :=
  [("integration_status", .str "succeeded"), ("sensitive_input_persisted", .bool true),
   ("sensitive_input_lease_version", .str sensitiveOutputLeaseVersion)]

/-- The result of a sink, which takes nothing of its reply but whether it succeeded. -/
def secureSensitiveOutputSinkResponse (result : StepResult) (response : AdapterReply) :
    StepResult × Bool :=
  if toLower cm (trimSpace response.status) ∈ ["created", "updated", "unchanged"] then
    ({ result with status := "succeeded", error := "", metadata := sensitiveOutputSinkReceipt },
      true)
  else ({ result with status := "failed", error := errSensitiveOutputSink, metadata := [] }, false)

/-- What the dispatch of a step with a lease or a plan may show. -/
def Security.policy (security : Security) : Policy :=
  if security.inputLease.isSome then
    { safeError := some errSensitiveOutputSink, requireExplicitResponse := true }
  else if security.producerPlan.isSome then
    { safeError := some errSensitiveOutputProducer, allowSensitiveOutput := true }
  else {}

/-- The error of a step that was given a lease says nothing else. -/
def Security.error (security : Security) (e : String) : String :=
  if security.inputLease.isSome then errSensitiveOutputSink else e

/-- One attempt, and whether it is the last because it succeeded. -/
def attemptStep (env : StepEnv) (security : Security) (step : WorkflowStepSpec) (request : Request)
    (attempt : ℕ) (result : StepResult) : Option (StepResult × Bool) :=
  if result.operation = workflowDispatchOperation then
    -- `buildWorkflowDispatchStepRequest` follows the reference of the step, there or not.
    step.use.instanceRef.map fun _ =>
      match env.dispatch attempt request with
      | .ok metadata => ({ result with status := "succeeded", metadata }, true)
      | .error e => ({ result with error := e }, false)
  else some <|
    match executeIntegration fmt security.policy request (env.adapter attempt request) with
    | .error e => ({ result with error := security.error e }, false)
    | .ok response =>
      if security.inputLease.isSome then secureSensitiveOutputSinkResponse cm result response
      else
        let status := normalizeWorkflowIntegrationStatus cm response.status
        let result := { result with
          status
          metadata := mergeStringAnyMaps response.metadata
            [("integration_status", .str response.status), ("output", response.output)] }
        if status = "succeeded" then (result, true)
        else
          ({ result with error := "integration returned status " ++ fmt.quote response.status },
            false)

/-- The attempts that are left, from the given one on, with what the handler was asked. -/
def attemptsFrom (env : StepEnv) (security : Security) (step : WorkflowStepSpec)
    (request : Request) : ℕ → ℕ → StepResult → Option (StepResult × List Request)
  | 0, _, result => some (result, [])
  | left + 1, attempt, result => do
    let (result, returned) ←
      attemptStep cm fmt env security step request attempt { result with attempts := attempt }
    if returned ∨ left = 0 then some (result, [request])
    else
      match env.sleep attempt with
      | some e => some ({ result with error := security.error e }, [request])
      | none =>
        let (result, requests) ← attemptsFrom env security step request left (attempt + 1) result
        some (result, request :: requests)

/-- The result of a step before it has run. -/
def initialResult (step : WorkflowStepSpec) : StepResult where
  id := normalizeWorkflowStepId cm step.id
  kind := toLower cm (trimSpace step.use.kind)
  operation := normalizeWorkflowStepOperation cm step
  capability := normalizeWorkflowStepCapability cm step
  status := "failed"

/-- The input of a step: with the secret for a sink, and as it renders for the others. -/
def stepInput (env : StepEnv) (step : WorkflowStepSpec) (context : Context) (security : Security) :
    Except String Value.Fields :=
  match security.inputLease with
  | none => env.render step context
  | some lease =>
    match renderSensitiveOutputSinkInput cm (env.render step) step context lease with
    | some input => .ok input
    | none => .error errSensitiveOutputSink

/-- The metadata that an adapter is sent. -/
def requestMetadata (workflow : ManifestReference) (stepId : String) (security : Security) :
    Value.Fields :=
  mergeStringAnyMaps (mergeStringAnyMaps
    [("workflow", .other "ManifestReference" (.list (workflow.texts.map .str))),
      ("step_id", .str stepId), ("source", .str "workflow.run")]
    (security.producerPlan.elim [] (·.producerMetadata)))
    (security.inputLease.elim [] (·.sinkMetadata))

/-- A step of an integration: what it resolves to is asked, if a lease is pinned to it. -/
def executeIntegrationStep (env : StepEnv) (workflow : ManifestReference) (step : WorkflowStepSpec)
    (context : Context) (security : Security) (input : Value.Fields) (result : StepResult) :
    Option (StepResult × List Request) :=
  match env.renderUse step.use context with
  | .error e => some
    ({ result with error := security.error ("render step use block: " ++ e), attempts := 1 }, [])
  | .ok use =>
    match env.resolve use with
    | .error e => some ({ result with error := security.error e, attempts := 1 }, [])
    | .ok resolved =>
      let result := { result with
        integrationInstance := some resolved.integrationInstance
        integrationType := some resolved.integrationType }
      if security.inputLease.any fun lease => !isSensitiveOutputSinkType cm resolved.typeSpec ||
          !lease.matchesResolvedSink cm resolved.integrationInstance resolved.integrationType then
        some ({ result with error := errSensitiveOutputSink, attempts := 1 }, [])
      else
        let request : Request :=
          { stepId := result.id, integrationInstance := some resolved.integrationInstance,
            integrationType := some resolved.integrationType, operation := result.operation,
            capability := result.capability, input,
            metadata := requestMetadata workflow result.id security }
        attemptsFrom cm fmt env security step request (workflowStepAttempts step) 1 result

/-- The result of a step, and what its handler was asked. -/
def executeWorkflowStep (env : StepEnv) (workflow : ManifestReference) (step : WorkflowStepSpec)
    (context : Context) (security : Security) : Option (StepResult × List Request) :=
  let result := initialResult cm step
  if security.inputLease.any fun lease => !lease.accepts cm step then
    some ({ result with error := errSensitiveOutputSink, attempts := 1 }, [])
  else
    match (if trimSpace step.condition = "" then .ok true else env.condition step.condition context)
      with
    | .error e => some ({ result with error := e, attempts := 1 }, [])
    | .ok false => some
      ({ result with
          status := "skipped"
          metadata := [("skip_reason", .str "condition"), ("condition", .str step.condition)] }, [])
    | .ok true =>
      match stepInput cm env step context security with
      | .error e => some ({ result with error := e, attempts := 1 }, [])
      | .ok input =>
        -- Steps of these kinds are executed by the core itself.
        if result.kind = "yggdrasil" ∨ result.kind = "product" then
          let request : Request :=
            { stepId := result.id, operation := result.operation, capability := result.capability,
              input }
          some (env.inProcess request result, [request])
        else executeIntegrationStep cm fmt env workflow step context security input result

/-! ## The iterations of a step -/

/-- What a statement of the run gets from elsewhere. -/
structure RunEnv where
  secretId : String → Context → Except String Value
  sink : WorkflowStepUseSpec → Context → Option Resolved
  items : String → Context → Except String Value
  step : StepEnv
  iteration : ℕ → Value → StepEnv

/-- The iterations over the items that are left, up to the first that fails. -/
def iterate (env : RunEnv) (workflow : ManifestReference) (step : WorkflowStepSpec)
    (context : Context) : ℕ → List Value → Option (List StepResult × String)
  | _, [] => some ([], "")
  | index, item :: items => do
    let iterStep := { step with
      id := normalizeWorkflowStepId cm step.id ++ "[" ++ toString index ++ "]"
      forEach := none }
    let (result, _) ←
      executeWorkflowStep cm fmt (env.iteration index item) workflow iterStep context {}
    if result.status = "failed" then some ([result], result.id)
    else
      let (results, failed) ← iterate env workflow step context (index + 1) items
      some (result :: results, failed)

/-- The items of a value; the slices of one type of the source are lists too. -/
def coerceToSlice : Value → Option (List Value)
  | .nil => some []
  | .list items => some items
  | _ => none

/-- The step is to be run for each of some items. -/
def forEachItems (step : WorkflowStepSpec) : Option String :=
  (step.forEach.map (·.items)).filter (trimSpace · ≠ "")

/-- The results of a step, the id of the one that failed, and what was asked. -/
def runStepIterations (env : RunEnv) (workflow : ManifestReference) (step : WorkflowStepSpec)
    (context : Context) (security : Security) :
    Option (List StepResult × String × List Request) :=
  if security.inputLease.any fun lease => !lease.accepts cm step then do
    let (result, requests) ← executeWorkflowStep cm fmt env.step workflow step context security
    some ([result], result.id, requests)
  else
    match forEachItems step with
    | none => do
      let (result, requests) ← executeWorkflowStep cm fmt env.step workflow step context security
      some ([result], if result.status = "failed" then result.id else "", requests)
    | some template =>
      let failure := initialResult cm step
      match env.items template context with
      | .error e => some ([{ failure with error := "for_each items: " ++ e }], failure.id, [])
      | .ok rendered =>
        match coerceToSlice rendered with
        | none => some
          ([{ failure with
              error := "for_each items rendered to non-slice value: " ++ fmt.typeName rendered }],
            failure.id, [])
        | some items => do
          let (results, failed) ← iterate cm fmt env workflow step context 0 items
          some (results, failed, [])

/-! ## The loop -/

/-- The id of the secret renders to a text without templates. -/
def sensitiveOutputSinkSecretIdResolvable (env : RunEnv) (step : WorkflowStepSpec)
    (context : Context) : Bool :=
  match workflowStringAtPath step.input sensitiveOutputSinkSecretIdPath with
  | none => false
  | some raw =>
    match env.secretId raw context with
    | .ok (.str secretId) =>
      secretId ≠ "" && secretId = trimSpace secretId && !contains secretId "\x7b\x7b" &&
        !contains secretId "\x7d\x7d"
    | _ => false

/-- The plan of a producer whose sink can be resolved before. -/
def authorizeSensitiveOutputPlan (env : RunEnv) (orderedSteps : List WorkflowStepSpec) (index : ℕ)
    (context : Context) : Option Plan := do
  let plan ← deriveSensitiveOutputPlan cm orderedSteps index
  let sink ← orderedSteps[index + 1]?
  guard (sensitiveOutputSinkSecretIdResolvable env sink context)
  let resolved ← env.sink sink.use context
  guard (isSensitiveOutputSinkType cm resolved.typeSpec)
  some { plan with
    sinkInstanceId := resolved.integrationInstance.id
    sinkInstanceVersion := resolved.integrationInstance.version
    sinkTypeId := resolved.integrationType.id
    sinkTypeVersion := resolved.integrationType.version }

/-- A lease is made by a step, given to a step, put into a request, or left over. -/
inductive Entry
  | made (index : ℕ) (lease : Lease)
  | given (index : ℕ) (lease : Lease)
  | offered (index : ℕ) (lease : Lease) (request : Request)
  | unconsumed (lease : Lease)

/-- Where the loop is: before a step, between its results, ended, or stopped by a panic. -/
inductive RunPhase
  | ready
  | recording (results : List StepResult) (failed : String) (plan : Option Plan)
  | done
  | panicked

/-- The variables of `runWorkflow`; `leases` are all that were made. -/
structure RunState where
  index : ℕ := 0
  phase : RunPhase := .ready
  context : Context := []
  status : String := "succeeded"
  steps : List StepResult := []
  metadata : Value.Fields := []
  leases : List Lease := []
  active : Option ℕ := none
  log : List Entry := []

/-- The lease in use. -/
def RunState.activeLease (s : RunState) : Option Lease := s.active.bind (s.leases[·]?)

/-- The leases with that in use cleared. -/
def RunState.cleared (s : RunState) : List Lease :=
  s.active.elim s.leases fun i => s.leases.modify i Lease.clear

/-- The results of the steps after a failed one. -/
def skipWorkflowSteps (steps : List WorkflowStepSpec) (failedStepId : String) : List StepResult :=
  steps.map fun step =>
    { initialResult cm step with
      status := "skipped"
      error := "workflow aborted after step " ++ fmt.quote failedStepId ++ " failed" }

variable (orderedSteps : List WorkflowStepSpec)

/-- Runs the step, with the lease if there is one, which is then cleared, also after a panic. -/
def RunState.execute (workflow : ManifestReference) (env : RunEnv) (step : WorkflowStepSpec)
    (s : RunState) : RunState :=
  let security : Security :=
    { inputLease := s.activeLease
      producerPlan := if s.activeLease.isNone then
        authorizeSensitiveOutputPlan cm env orderedSteps s.index s.context else none }
  match runStepIterations cm fmt env workflow step s.context security with
  | none => { s with phase := .panicked, leases := s.cleared, active := none }
  | some (results, failed, requests) =>
    { s with
      phase := .recording results failed security.producerPlan
      leases := s.cleared
      active := none
      log := s.log ++ s.activeLease.elim [] fun lease =>
        .given s.index lease :: requests.map (.offered s.index lease) }

/-- Records a result, without the secret if it has one, which is kept in a new lease. -/
def RunState.record (result : StepResult) (results : List StepResult) (failed : String)
    (plan : Option Plan) (s : RunState) : RunState :=
  let (safe, lease) := secureSensitiveProducerResult result plan
  { s with
    phase := .recording results (if safe.status = "failed" then safe.id else failed) plan
    context := s.context.set safe.id safe
    steps := s.steps ++ [safe]
    leases := s.leases ++ lease.toList
    active := if lease.isSome then some s.leases.length else s.active
    log := s.log ++ lease.toList.map (.made s.index) }

/-- Goes on with the next step, or ends the run when the step failed. -/
def RunState.finishStep (failed : String) (s : RunState) : RunState :=
  if failed ≠ "" then
    { s with
      phase := .done
      status := "failed"
      steps := s.steps ++ skipWorkflowSteps cm fmt (orderedSteps.drop (s.index + 1)) failed
      metadata := s.metadata.set "failed_step" (.str failed)
      leases := s.cleared
      active := none }
  else { s with phase := .ready, index := s.index + 1 }

/-- Ends the run after the last step. -/
def RunState.finish (s : RunState) : RunState :=
  match s.activeLease with
  | none => { s with phase := .done }
  | some lease =>
    { s with
      phase := .done
      status := "failed"
      metadata := (s.metadata.set "failed_step" (.str lease.producerStepId)).set "error"
        (.str errSensitiveOutputContract)
      leases := s.cleared
      active := none
      log := s.log ++ [.unconsumed lease] }

/-- The next statement of the run. -/
def RunState.next (workflow : ManifestReference) (env : RunEnv) (s : RunState) : RunState :=
  match s.phase with
  | .ready =>
    match orderedSteps[s.index]? with
    | some step => s.execute cm fmt orderedSteps workflow env step
    | none => s.finish
  | .recording (result :: results) failed plan => s.record result results failed plan
  | .recording [] failed _ => s.finishStep cm fmt orderedSteps failed
  | .done | .panicked => s

end Yggdrasil.Runs
