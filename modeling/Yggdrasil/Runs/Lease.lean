import Yggdrasil.Lib.Replace
import Yggdrasil.Manifest.Workflow

/-!
# Secrets handed from one step to the next

A step may produce a secret for the step after it. Whether it may is decided before it runs; its
result is then recorded without the secret, which is kept in a lease. What a template renders to is
given by the environment, as are the manifests that are resolved.
-/

namespace Yggdrasil.Runs

open Text Manifest

/-! ## Results of steps -/

/-- A version of a manifest. -/
structure ManifestReference where
  id : String
  kind : String := ""
  namespaceName : String := ""
  name : String := ""
  version : ℤ

/-- Its texts. -/
def ManifestReference.texts (ref : ManifestReference) : List String :=
  [ref.id, ref.kind, ref.namespaceName, ref.name]

/-- The result of a step. -/
structure StepResult where
  id : String
  kind : String
  operation : String
  capability : String
  status : String
  attempts : ℕ := 0
  error : String := ""
  metadata : Value.Fields := []
  integrationInstance : Option ManifestReference := none
  integrationType : Option ManifestReference := none

/-- The texts of a result that are not from a reply. -/
def StepResult.labels (r : StepResult) : List String :=
  [r.id, r.kind, r.operation, r.capability] ++
    (r.integrationInstance.elim [] (·.texts) ++ r.integrationType.elim [] (·.texts))

/-- Every string and key of a result. -/
def StepResult.texts (r : StepResult) : List String :=
  r.labels ++ r.status :: r.error :: Value.textsFields r.metadata

/-- The results of the steps before, by the ids of the steps. -/
abbrev Context := List (String × StepResult)

/-- The context with the result of a step. -/
def Context.set (context : Context) (id : String) (r : StepResult) : Context :=
  (id, r) :: context.filter (·.1 ≠ id)

/-- What the step of an integration resolves to. -/
structure IntegrationTypeSpec where
  familyRef : Option String := none
  implementedOperations : List String := []

/-- The manifests that a step is executed with. -/
structure Resolved where
  integrationInstance : ManifestReference
  integrationType : ManifestReference
  typeSpec : IntegrationTypeSpec

/-! ## Constants -/

/-- What takes the place of a secret. -/
def redactedWorkflowOutputValue : String := "[REDACTED]"

/-- The version of the protocol of leases. -/
def sensitiveOutputLeaseVersion : String := "v1"
/-- A lease is for the next step. -/
def sensitiveOutputLeaseMode : String := "transient_next_step"
/-- The family of sinks. -/
def sensitiveOutputSinkFamily : String := "secrets-management"
/-- The operation of sinks. -/
def sensitiveOutputSinkOperation : String := "ensure_secret"
/-- Where a sink takes the secret. -/
def sensitiveOutputSinkInputPath : String := "secret.generation.manual.value"
/-- Where a sink names it. -/
def sensitiveOutputSinkSecretIdPath : String := "secret.secret_id"
/-- Where a sink says that it is given. -/
def sensitiveOutputSinkStrategyPath : String := "secret.generation.strategy"

/-- The error of a result with a secret that was not planned. -/
def errSensitiveOutputContract : String := "sensitive_output_contract_violation"
/-- The error of a producer. -/
def errSensitiveOutputProducer : String := "sensitive_output_producer_failed"
/-- The error of a sink. -/
def errSensitiveOutputSink : String := "sensitive_output_sink_failed"

/-- The operation that dispatches a workflow. -/
def workflowDispatchOperation : String := "dispatch_workflow"

/-! ## Templates and paths -/

/-- The value at a path of keys. -/
def valueAt : Value → List String → Option Value
  | v, [] => some v
  | .map fields, key :: keys => (fields.lookup key).bind (valueAt · keys)
  | _, _ :: _ => none

/-- The text at a dotted path. -/
def workflowStringAtPath (root : Value.Fields) (path : String) : Option String :=
  match valueAt (.map root) (split path '.') with
  | some (.str s) => some s
  | _ => none

/-- What is between the braces of the template that a text starts with. -/
def template? : List Char → Option (List Char)
  | '{' :: '{' :: text =>
    let content := text.takeWhile fun c => c ≠ '{' && c ≠ '}'
    if content ≠ [] ∧ ['}', '}'] <+: text.drop content.length then some content else none
  | _ => none

/-- What is between the braces of the templates of a text. -/
def templatesFrom : ℕ → List Char → List (List Char)
  | _, [] => []
  | skip + 1, _ :: rest => templatesFrom skip rest
  | 0, c :: rest =>
    match template? (c :: rest) with
    | some content => content :: templatesFrom (content.length + 3) rest
    | none => templatesFrom 0 rest

/-- The paths of the templates in a text. -/
def workflowTemplatePathsInString (value : String) : List String :=
  (templatesFrom 0 value.toList).map fun content => trimSpace (.ofList content)

/-- The paths of the templates in a step. -/
def workflowTemplatePathsInStep (step : WorkflowStepSpec) : List String :=
  let selector (s : Option ManifestSelector) : List String :=
    s.elim [] fun s => [s.manifestId, s.namespaceName, s.name]
  (Value.textsFields step.input ++
    [step.condition, step.use.family, step.use.operation, step.use.capability] ++
    step.forEach.elim [] (fun each => [each.items]) ++
    selector step.use.instanceRef ++ selector step.use.providerRef).flatMap
      workflowTemplatePathsInString

/-- A path without blanks around its segments. -/
def canonicalWorkflowTemplatePath (path : String) : Option String :=
  let parts := (split (trimSpace path) '.').map trimSpace
  if "" ∈ parts then none else some (".".intercalate parts)

/-- The number of templates that read `reference`, a part of it or what is around it. -/
def countSensitiveOutputReferences (steps : List WorkflowStepSpec) (reference : String) : ℕ :=
  match canonicalWorkflowTemplatePath reference with
  | none => 0
  | some reference =>
    ((steps.flatMap workflowTemplatePathsInStep).filterMap canonicalWorkflowTemplatePath).countP
      fun path => path = reference || hasPrefix path (reference ++ ".") ||
        hasPrefix reference (path ++ ".")

/-- Letters, digits, underscores and hyphens. -/
def sensitiveOutputPathPattern (s : String) : Bool :=
  s ≠ "" && s.toList.all fun c => isLower c || isUpper c || isDigit c || c = '_' || c = '-'

/-- The output of the given step that a text of one template reads. -/
def exactSensitiveOutputSource (rawTemplate producerStepId : String) : Option String :=
  let trimmed := trimSpace rawTemplate
  match templatesFrom 0 trimmed.toList with
  | [content] =>
    if trimSpace (.ofList ('{' :: '{' :: content ++ ['}', '}'])) = trimmed then
      match split (trimSpace (.ofList content)) '.' with
      | [steps, id, metadata, output, path] =>
        if steps = "steps" && id = producerStepId && metadata = "metadata" && output = "output" &&
          sensitiveOutputPathPattern path then some path else none
      | _ => none
    else none
  | _ => none

/-! ## Plans and leases -/

variable (cm : CaseMap)

/-- Ids are compared in lower case. -/
def normalizeWorkflowStepId (value : String) : String := toLower cm (trimSpace value)

/-- How often a step is attempted at most. -/
def workflowStepAttempts (step : WorkflowStepSpec) : ℕ :=
  if 0 < step.retry.maxAttempts then step.retry.maxAttempts.toNat else 1

/-- `sensitiveOutputPlan`: a producer, its sink and what the sink is pinned to. -/
structure Plan where
  producerStepId : String
  sinkStepId : String
  sourcePath : String
  inputPath : String
  sinkInstanceId : String := ""
  sinkInstanceVersion : ℤ := 0
  sinkTypeId : String := ""
  sinkTypeVersion : ℤ := 0

/-- `sensitiveOutputLease`: the secret of a producer, for its sink. -/
structure Lease extends Plan where
  value : String

/-- The secret is dropped. -/
def Lease.clear (lease : Lease) : Lease := { lease with value := "" }

/-- The step is an integration step for secrets that runs once and in any case. -/
def isSinkStep (step : WorkflowStepSpec) : Bool :=
  equalFold cm (trimSpace step.use.kind) "integration" &&
    normalizeWorkflowStepOperation cm step = sensitiveOutputSinkOperation &&
    normalizeWorkflowStepCapability cm step = sensitiveOutputSinkOperation &&
    trimSpace step.condition = "" && step.forEach.isNone

/-- The step is the sink of the lease. -/
def Lease.accepts (lease : Lease) (step : WorkflowStepSpec) : Bool :=
  normalizeWorkflowStepId cm step.id = lease.sinkStepId && isSinkStep cm step

/-- The step is an integration step that runs once and in any case, but does not dispatch. -/
def isProducerStep (step : WorkflowStepSpec) : Bool :=
  let operation := normalizeWorkflowStepOperation cm step
  equalFold cm (trimSpace step.use.kind) "integration" && operation ≠ "" &&
    operation ≠ workflowDispatchOperation && normalizeWorkflowStepCapability cm step = operation &&
    workflowStepAttempts step = 1 && trimSpace step.condition = "" && step.forEach.isNone

/-- The plan of a producer and the sink right after it. -/
def deriveSensitiveOutputPlan (orderedSteps : List WorkflowStepSpec) (index : ℕ) : Option Plan := do
  let producer ← orderedSteps[index]?
  let sink ← orderedSteps[index + 1]?
  let producerId := normalizeWorkflowStepId cm producer.id
  let sinkId := normalizeWorkflowStepId cm sink.id
  guard (producerId ≠ "" ∧ sinkId ≠ "" ∧ isProducerStep cm producer ∧ isSinkStep cm sink)
  guard (sink.dependsOn.map (normalizeWorkflowStepId cm) = [producerId])
  guard (workflowStringAtPath sink.input sensitiveOutputSinkStrategyPath = some "manual")
  let secretId ← workflowStringAtPath sink.input sensitiveOutputSinkSecretIdPath
  guard (trimSpace secretId ≠ "")
  let rawTemplate ← workflowStringAtPath sink.input sensitiveOutputSinkInputPath
  let sourcePath ← exactSensitiveOutputSource rawTemplate producerId
  guard (countSensitiveOutputReferences orderedSteps
    ("steps." ++ producerId ++ ".metadata.output." ++ sourcePath) = 1)
  some { producerStepId := producerId, sinkStepId := sinkId, sourcePath,
         inputPath := sensitiveOutputSinkInputPath }

/-- The needle is in the list, in any case. -/
def containsFold (haystack : List String) (needle : String) : Bool :=
  haystack.any (fun candidate =>
    equalFold cm (trimSpace candidate) (toLower cm (trimSpace needle))) || needle ∈ haystack

/-- The type is one of sinks. -/
def isSensitiveOutputSinkType (typeSpec : IntegrationTypeSpec) : Bool :=
  typeSpec.familyRef.any (fun name => equalFold cm (trimSpace name) sensitiveOutputSinkFamily) &&
    containsFold cm typeSpec.implementedOperations sensitiveOutputSinkOperation

/-- The manifests of the sink are those of the lease. -/
def Lease.matchesResolvedSink (lease : Lease) (integrationInstance integrationType :
    ManifestReference) : Bool :=
  lease.sinkInstanceId ≠ "" && lease.sinkTypeId ≠ "" &&
    equalFold cm integrationInstance.id lease.sinkInstanceId &&
    integrationInstance.version = lease.sinkInstanceVersion &&
    equalFold cm integrationType.id lease.sinkTypeId &&
    integrationType.version = lease.sinkTypeVersion

/-- What the producer is told of the sink. -/
def Plan.producerMetadata (plan : Plan) : Value.Fields :=
  [("supports_sensitive_output_paths", .bool true),
   ("sensitive_output_sink", .map
     [("version", .str sensitiveOutputLeaseVersion), ("mode", .str sensitiveOutputLeaseMode),
      ("producer_step_id", .str plan.producerStepId), ("step_id", .str plan.sinkStepId),
      ("family", .str sensitiveOutputSinkFamily), ("operation", .str sensitiveOutputSinkOperation),
      ("input_path", .str plan.inputPath),
      ("source_output_paths", .list [.str plan.sourcePath])])]

/-- What the sink is told of the lease. -/
def Lease.sinkMetadata (lease : Lease) : Value.Fields :=
  [("sensitive_input_lease", .map
     [("version", .str sensitiveOutputLeaseVersion), ("mode", .str sensitiveOutputLeaseMode),
      ("source_step_id", .str lease.producerStepId),
      ("input_paths", .list [.str lease.inputPath])])]

/-! ## The result of the producer -/

/-- The paths of secrets that a result declares, as far as they can be read. -/
def workflowSensitiveOutputPaths (metadata : Value.Fields) : Option (List String) :=
  (metadata.lookup "sensitive_output_paths").map fun raw =>
    let paths : List Value := match raw with
      | .str path => [.str path]
      | .list paths => paths
      | _ => []
    let texts := paths.filterMap fun
      | .str path => if trimSpace path = "" then none else some (trimSpace path)
      | _ => none
    if texts.length = paths.length then texts else []

/-- The character that an escape of a pointer stands for. -/
def decodeWorkflowJSONPointerSegment : List Char → Option (List Char)
  | [] => some []
  | '~' :: '0' :: rest => (decodeWorkflowJSONPointerSegment rest).map ('~' :: ·)
  | '~' :: '1' :: rest => (decodeWorkflowJSONPointerSegment rest).map ('/' :: ·)
  | '~' :: _ => none
  | c :: rest => (decodeWorkflowJSONPointerSegment rest).map (c :: ·)

/-- The segments of a JSON pointer, or of a dotted path. -/
def workflowOutputPathSegments (rawPath : String) : Option (List String) :=
  let path := trimSpace rawPath
  if path = "" then none
  else if hasPrefix path "/" then
    (split (.ofList (path.toList.drop 1)) '/').mapM fun segment =>
      match decodeWorkflowJSONPointerSegment segment.toList with
      | some (c :: cs) => some (.ofList (c :: cs))
      | _ => none
  else
    let path := if hasPrefix path "output." then .ofList (path.toList.drop 7) else path
    let segments := split path '.'
    if segments.any (trimSpace · = "") then none else some segments

/-- The value with what is at the path redacted, if there is something. -/
def redactWorkflowOutputSegments : List String → Value → Option Value
  | [], _ => some (.str redactedWorkflowOutputValue)
  | segment :: segments, .map fields => do
    let child ← fields.lookup segment
    let redacted ← redactWorkflowOutputSegments segments child
    some (.map (Value.Fields.set fields segment redacted))
  | segment :: segments, .list items => do
    let index ← atoi segment
    guard (0 ≤ index)
    let child ← items[index.toNat]?
    let redacted ← redactWorkflowOutputSegments segments child
    some (.list (items.set index.toNat redacted))
  | _ :: _, _ => none

/-- The output with what is at the path redacted. -/
def redactWorkflowOutputPath (output : Value) (rawPath : String) : Option Value :=
  (workflowOutputPathSegments rawPath).bind fun
    | [] => none
    | segments => redactWorkflowOutputSegments segments output

/-- The metadata with the output replaced, and how much of it is redacted. -/
def redactedMetadata (metadata : Value.Fields) (output : Value) (scope : String) : Value.Fields :=
  ((metadata.set "output" output).set "sensitive_output_redacted" (.bool true)).set
    "sensitive_output_redaction_scope" (.str scope)

/-- The output with the declared paths redacted, if all of them are there. -/
def redactedOutput (metadata : Value.Fields) (paths : List String) : Option Value :=
  match metadata.lookup "output", paths with
  | none, _ | _, [] => none
  | some output, paths => paths.foldlM redactWorkflowOutputPath output

/-- The result with its declared paths redacted, or its whole output. -/
def redactSensitiveWorkflowStepResult (result : StepResult) : StepResult :=
  match workflowSensitiveOutputPaths result.metadata with
  | none => result
  | some paths =>
    match redactedOutput result.metadata paths with
    | some output => { result with metadata := redactedMetadata result.metadata output "paths" }
    | none =>
      { result with
        metadata := redactedMetadata result.metadata (.str redactedWorkflowOutputValue) "output" }

/-- The value with the target redacted in all its strings and keys. -/
def redactWorkflowSensitiveValue (target : String) (fields : Value.Fields) : Value.Fields :=
  Value.mapTextsFields (replaceAll · target redactedWorkflowOutputValue) fields

/-- The result of a producer that has failed, without its output. -/
def sensitiveOutputProducerFailure (result : StepResult) : StepResult :=
  { result with
    status := "failed"
    error := errSensitiveOutputProducer
    metadata := [("output", .str redactedWorkflowOutputValue),
      ("sensitive_output_redacted", .bool true),
      ("sensitive_output_redaction_scope", .str "output")] }

/-- The result that breaks the contract, without its output. -/
def sensitiveOutputContractFailure (result : StepResult) : StepResult :=
  { result with
    status := "failed"
    error := errSensitiveOutputContract
    metadata := [("output", .str redactedWorkflowOutputValue),
      ("sensitive_output_redacted", .bool true),
      ("sensitive_output_redaction_scope", .str "output"),
      ("sensitive_output_contract_violation", .bool true)] }

/-- The declared paths, when they are a list of different plain names. -/
def strictSensitiveOutputPaths (raw : Value) : Option (List String) := do
  let .list items := raw | none
  let paths ← items.mapM fun
    | .str s => some s
    | _ => none
  guard (paths ≠ [] ∧ paths.Nodup ∧
    paths.all fun path => path = trimSpace path && sensitiveOutputPathPattern path)
  some paths

/-- The secret at the planned path, when it is the one that the result declares. -/
def declaredSecret (plan : Plan) (rawPaths : Value) (metadata : Value.Fields) : Option String := do
  let paths ← strictSensitiveOutputPaths rawPaths
  guard (paths = [plan.sourcePath])
  let .map output ← metadata.lookup "output" | none
  let .str value ← output.lookup plan.sourcePath | none
  guard (value ≠ "")
  some value

/-- The output of a result has something at the planned path. -/
def hasPlannedOutput (plan : Plan) (metadata : Value.Fields) : Bool :=
  match metadata.lookup "output" with
  | some (.map output) => (output.lookup plan.sourcePath).isSome
  | _ => false

/-- The result without the secret, and the lease of it. -/
def secureSensitiveProducerResult (result : StepResult) (plan : Option Plan) :
    StepResult × Option Lease :=
  match plan, result.metadata.lookup "sensitive_output_paths" with
  | none, none => (result, none)
  | none, some _ => (sensitiveOutputContractFailure result, none)
  | some plan, declared =>
    if result.status ≠ "succeeded" then (sensitiveOutputProducerFailure result, none)
    else
      match declared with
      | none =>
        if hasPlannedOutput plan result.metadata then (sensitiveOutputContractFailure result, none)
        else (result, none)
      | some rawPaths =>
        match declaredSecret plan rawPaths result.metadata with
        | none => (sensitiveOutputContractFailure result, none)
        | some value =>
          let safe := redactSensitiveWorkflowStepResult result
          ({ safe with metadata := redactWorkflowSensitiveValue value safe.metadata, error := "" },
            some { plan with value })

/-! ## The input of the sink -/

/-- The number of occurrences of a text, without overlaps. -/
def countText (target : String) (text : String) : ℕ :=
  -- Each occurrence is replaced by a mark, and the marks are counted.
  if target = "" then text.toList.length + 1
  else ((replaceFrom (target.toList.map some) [none] 0 (text.toList.map some)).filter
    Option.isNone).length

/-- How often a text occurs in the values. -/
def countWorkflowStringValue (fields : Value.Fields) (target : String) : ℕ :=
  ((Value.textsFields fields).map (countText target)).sum

/-- The results of the steps before, with the secret in its place. -/
def overlay (context : Context) (lease : Lease) : Option Context := do
  let source ← context.lookup lease.producerStepId
  let .map output ← source.metadata.lookup "output" | none
  let output := Value.Fields.set output lease.sourcePath (.str lease.value)
  some (context.set lease.producerStepId
    { source with metadata := source.metadata.set "output" (.map output) })

/-- The rendered input has the secret in its place only, and names where it is to be stored. -/
def isLeasedInput (lease : Lease) (rendered : Value.Fields) : Bool :=
  workflowStringAtPath rendered lease.inputPath = some lease.value &&
    countWorkflowStringValue rendered lease.value = 1 &&
    workflowStringAtPath rendered sensitiveOutputSinkStrategyPath = some "manual" &&
    (workflowStringAtPath rendered sensitiveOutputSinkSecretIdPath).any fun secretId =>
      secretId ≠ "" && secretId = trimSpace secretId && !contains secretId "\x7b\x7b" &&
        !contains secretId "\x7d\x7d"

/-- The input of the sink, in which the secret occurs once and in its place. -/
def renderSensitiveOutputSinkInput (render : Context → Except String Value.Fields)
    (step : WorkflowStepSpec) (context : Context) (lease : Lease) : Option Value.Fields := do
  guard (lease.accepts cm step ∧ lease.value ≠ "")
  let context ← overlay context lease
  let .ok rendered := render context | none
  guard (isLeasedInput lease rendered)
  some rendered

end Yggdrasil.Runs
