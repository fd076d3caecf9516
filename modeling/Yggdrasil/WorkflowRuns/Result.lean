import Yggdrasil.Runs.Lease
import Yggdrasil.WorkflowRuns.Status

/-!
# The recorded result of a run

When a workflow has returned, its dispatcher finalizes the run with the response, and a lookup reads
it back. The dispatcher of the inbox gives the bytes of the document instead, which are stored as a
text.
-/

namespace Yggdrasil.WorkflowRuns

open Text
open Yggdrasil.Runs (ManifestReference)

variable {json : Json} {doc : Value} {step : WorkflowRunStepResult} {docs : List Value}
  {steps : List WorkflowRunStepResult} {fields : Value.Fields}

/-! ## Responses -/

/-- The result of a step, with its times as they are written. -/
structure WorkflowRunStepResult extends Runs.StepResult where
  startedAt : String := ""
  finishedAt : String := ""

/-- What a run returns. -/
structure RunWorkflowResponse where
  workflow : ManifestReference
  status : String
  steps : List WorkflowRunStepResult := []
  metadata : Value.Fields := []
  startedAt : String := ""
  finishedAt : String := ""

/-- An entry that is left out if it is empty. -/
def omitEmpty (key text : String) : Value.Fields := if text = "" then [] else [(key, .str text)]

/-- A map that is left out if it is empty. -/
def omitEmptyMap (key : String) (fields : Value.Fields) : Value.Fields :=
  if fields.isEmpty then [] else [(key, .map fields)]

/-- The document of a reference. -/
def encodeReference (ref : ManifestReference) : Value :=
  .map [("id", .str ref.id), ("kind", .str ref.kind), ("namespace", .str ref.namespaceName),
    ("name", .str ref.name), ("version", .float ref.version)]

/-- A reference that is left out if there is none. -/
def omitNone (key : String) (ref : Option ManifestReference) : Value.Fields :=
  ref.elim [] fun ref => [(key, encodeReference ref)]

/-- The entries of a step's document, given those of its metadata. -/
def encodeStep (step : WorkflowRunStepResult) (metadata : Value.Fields) : Value.Fields :=
  [("id", .str step.id), ("kind", .str step.kind)] ++ omitEmpty "operation" step.operation ++
    omitEmpty "capability" step.capability ++ [("status", .str step.status)] ++
    (if step.attempts = 0 then [] else [("attempts", .float step.attempts)]) ++
    omitEmpty "error" step.error ++ omitEmptyMap "metadata" metadata ++
    omitNone "integration_instance" step.integrationInstance ++
    omitNone "integration_type" step.integrationType ++
    [("started_at", .str step.startedAt), ("finished_at", .str step.finishedAt)]

/-- The document of a step. -/
def WorkflowRunStepResult.document (json : Json) (step : WorkflowRunStepResult) : Option Value :=
  (Value.marshalFields json.supports step.metadata).map fun metadata =>
    .map (encodeStep step metadata)

/-- The entries of a response's document. -/
def encodeResponse (response : RunWorkflowResponse) (steps : List Value)
    (metadata : Value.Fields) : Value.Fields :=
  [("workflow", encodeReference response.workflow), ("status", .str response.status),
    ("steps", .list steps)] ++ omitEmptyMap "metadata" metadata ++
    [("started_at", .str response.startedAt), ("finished_at", .str response.finishedAt)]

/-- The document of a response. -/
def RunWorkflowResponse.document (json : Json) (response : RunWorkflowResponse) : Option Value :=
  (response.steps.mapM (WorkflowRunStepResult.document json)).bind fun steps =>
    (Value.marshalFields json.supports response.metadata).map fun metadata =>
      .map (encodeResponse response steps metadata)

/-! ## Reading documents -/

/-- A text, which may be missing. -/
def decodeText : Option Value → Option String
  | none | some .nil => some ""
  | some (.str s) => some s
  | some _ => none

/-- An integer, which may be missing. -/
def decodeInt : Option Value → Option ℤ
  | none | some .nil => some 0
  | some (.float q) => if q.den = 1 then some q.num else none
  | some _ => none

/-- A map, which may be missing. -/
def decodeMap : Option Value → Option Value.Fields
  | none | some .nil => some []
  | some (.map fields) => some (Value.unmarshalFields Value.float64 fields)
  | some _ => none

/-- The reference of a document. -/
def decodeReference : Value → Option ManifestReference
  | .nil => some { id := "", version := 0 }
  | .map fields => do
    some {
      id := ← decodeText (fields.lookup "id")
      kind := ← decodeText (fields.lookup "kind")
      namespaceName := ← decodeText (fields.lookup "namespace")
      name := ← decodeText (fields.lookup "name")
      version := ← decodeInt (fields.lookup "version") }
  | _ => none

/-- A reference that may be missing. -/
def decodePointer : Option Value → Option (Option ManifestReference)
  | none | some .nil => some none
  | some v => (decodeReference v).map some

/-- The result of a step of a document. -/
def decodeStep : Value → Option WorkflowRunStepResult
  | .nil => some { id := "", kind := "", operation := "", capability := "", status := "" }
  | .map fields => do
    some {
      id := ← decodeText (fields.lookup "id")
      kind := ← decodeText (fields.lookup "kind")
      operation := ← decodeText (fields.lookup "operation")
      capability := ← decodeText (fields.lookup "capability")
      status := ← decodeText (fields.lookup "status")
      attempts := (← decodeInt (fields.lookup "attempts")).toNat
      error := ← decodeText (fields.lookup "error")
      metadata := ← decodeMap (fields.lookup "metadata")
      integrationInstance := ← decodePointer (fields.lookup "integration_instance")
      integrationType := ← decodePointer (fields.lookup "integration_type")
      startedAt := ← decodeText (fields.lookup "started_at")
      finishedAt := ← decodeText (fields.lookup "finished_at") }
  | _ => none

/-- The results of the steps, which may be missing. -/
def decodeSteps : Option Value → Option (List WorkflowRunStepResult)
  | none | some .nil => some []
  | some (.list steps) => steps.mapM decodeStep
  | some _ => none

/-- The response of a document, which may have none. Null leaves the response empty. -/
def decodeResponse : Value → Option RunWorkflowResponse
  | .nil => some { workflow := { id := "", version := 0 }, status := "" }
  | .map fields => do
    some {
      workflow := ← decodeReference ((fields.lookup "workflow").getD .nil)
      status := ← decodeText (fields.lookup "status")
      steps := ← decodeSteps (fields.lookup "steps")
      metadata := ← decodeMap (fields.lookup "metadata")
      startedAt := ← decodeText (fields.lookup "started_at")
      finishedAt := ← decodeText (fields.lookup "finished_at") }
  | _ => none

/-! ## Round trips -/

theorem lookup_singleton (key k : String) (v : Value) :
    [(key, v)].lookup k = if k = key then some v else none := by
  by_cases h : k = key
  · simp [h]
  · rw [List.lookup_cons, beq_false_of_ne h, if_neg h, List.lookup_nil]

theorem lookup_omitEmpty (key text k : String) :
    (omitEmpty key text).lookup k = if k = key ∧ text ≠ "" then some (.str text) else none := by
  unfold omitEmpty
  split
  · simp_all
  · simp_all [lookup_singleton]

theorem lookup_omitEmptyMap (key : String) (fields : Value.Fields) (k : String) :
    (omitEmptyMap key fields).lookup k =
      if k = key ∧ fields.isEmpty = false then some (.map fields) else none := by
  unfold omitEmptyMap
  split
  · simp_all
  · simp_all [lookup_singleton]

theorem lookup_omitNone (key : String) (ref : Option ManifestReference) (k : String) :
    (omitNone key ref).lookup k = if k = key then ref.map encodeReference else none := by
  cases ref with
  | none => simp [omitNone]
  | some ref => simp [omitNone, lookup_singleton]

theorem decodeText_str (text : String) : decodeText (some (.str text)) = some text := rfl

theorem decodeText_omitEmpty (text : String) :
    decodeText (if text = "" then none else some (.str text)) = some text := by
  split
  next h => rw [h, decodeText]
  next => rfl

theorem decodeInt_float (z : ℤ) : decodeInt (some (.float z)) = some z := by
  simp [decodeInt]

theorem decodeInt_attempts (n : ℕ) :
    decodeInt (if n = 0 then none else some (.float n)) = some (n : ℤ) := by
  split
  next h => rw [h, decodeInt, Nat.cast_zero]
  next => exact decodeInt_float n

theorem decodeMap_omitEmptyMap (fields : Value.Fields) [Decidable (fields = [])] :
    decodeMap (if fields = [] then none else some (.map fields)) =
      some (Value.unmarshalFields Value.float64 fields) := by
  split
  next h => rw [h, decodeMap, Value.unmarshalFields]
  next => rfl

theorem decodeReference_encodeReference (ref : ManifestReference) :
    decodeReference (encodeReference ref) = some ref := by
  simp [decodeReference, encodeReference, List.lookup_cons, decodeText_str, decodeInt_float]

theorem decodePointer_omitNone (ref : Option ManifestReference) :
    decodePointer (ref.map encodeReference) = some ref := by
  cases ref with
  | none => rfl
  | some ref =>
    change (decodeReference (encodeReference ref)).map some = some (some ref)
    rw [decodeReference_encodeReference, Option.map_some]

theorem lookup_attempts (n : ℕ) (k : String) :
    (if n = 0 then [] else [("attempts", Value.float n)]).lookup k =
      if k = "attempts" ∧ n ≠ 0 then some (Value.float n) else none := by
  split
  · simp_all
  · simp_all [lookup_singleton]

/-- A step is read back as it was, up to its metadata. -/
theorem decodeStep_encodeStep (step : WorkflowRunStepResult) (metadata : Value.Fields) :
    decodeStep (.map (encodeStep step metadata)) =
      some { step with metadata := Value.unmarshalFields Value.float64 metadata } := by
  simp [decodeStep, encodeStep, List.lookup_append, List.lookup_cons, lookup_omitEmpty,
    lookup_omitEmptyMap, lookup_omitNone, lookup_attempts, decodeText_str, decodeText_omitEmpty,
    decodeInt_attempts, decodeMap_omitEmptyMap, decodePointer_omitNone]

/-- What the document of a step is read as. -/
def WorkflowRunStepResult.readBack (json : Json) (step : WorkflowRunStepResult) :
    WorkflowRunStepResult :=
  { step with metadata := Value.unmarshalFields Value.float64 (mustEncodeJSON json step.metadata) }

/-- What the document of a response is read as: numbers in metadata are rounded. -/
def RunWorkflowResponse.readBack (json : Json) (response : RunWorkflowResponse) :
    RunWorkflowResponse :=
  { response with
    steps := response.steps.map (WorkflowRunStepResult.readBack json)
    metadata := Value.unmarshalFields Value.float64 (mustEncodeJSON json response.metadata) }

theorem decodeStep_document (h : step.document json = some doc) :
    decodeStep doc = some (step.readBack json) := by
  obtain ⟨metadata, hmetadata, rfl⟩ := Option.map_eq_some_iff.1 h
  rw [decodeStep_encodeStep, WorkflowRunStepResult.readBack, mustEncodeJSON, hmetadata,
    Option.getD_some]

theorem mapM_decodeStep (h : steps.mapM (WorkflowRunStepResult.document json) = some docs) :
    docs.mapM decodeStep = some (steps.map (WorkflowRunStepResult.readBack json)) := by
  induction steps generalizing docs with
  | nil =>
    cases h
    rfl
  | cons step steps ih =>
    rw [List.mapM_cons] at h
    obtain ⟨doc, hdoc, h⟩ := Option.bind_eq_some_iff.1 h
    obtain ⟨docs, hdocs, h⟩ := Option.bind_eq_some_iff.1 h
    cases h
    rw [List.mapM_cons, decodeStep_document hdoc, ih hdocs]
    rfl

/-- A response is read back as it was, up to the numbers of its metadata. -/
theorem decodeResponse_document {response : RunWorkflowResponse}
    (h : response.document json = some doc) :
    decodeResponse doc = some (response.readBack json) := by
  obtain ⟨steps, hsteps, h⟩ := Option.bind_eq_some_iff.1 h
  obtain ⟨metadata, hmetadata, rfl⟩ := Option.map_eq_some_iff.1 h
  have hdecoded := mapM_decodeStep hsteps
  simp [decodeResponse, encodeResponse, List.lookup_append, List.lookup_cons, lookup_omitEmptyMap,
    decodeReference_encodeReference, decodeText_str, decodeSteps, hdecoded,
    decodeMap_omitEmptyMap, RunWorkflowResponse.readBack, mustEncodeJSON, hmetadata]

/-! ## Exact metadata -/

/-- The entries have a document, and its numbers are floating-point ones. -/
def Exact (json : Json) (fields : Value.Fields) : Prop :=
  ∃ doc, Value.marshalFields json.supports fields = some doc ∧
    ∀ q ∈ Value.numbersFields doc, Value.float64 q = q

theorem exact_iff {doc : Value.Fields} (h : Value.marshalFields json.supports fields = some doc) :
    Exact json fields ↔ Value.unmarshalFields Value.float64 doc = doc := by
  rw [Value.unmarshalFields_eq_self_iff, Exact]
  constructor
  · rintro ⟨doc', hdoc', hnumbers⟩
    rw [h] at hdoc'
    cases hdoc'
    exact hnumbers
  · exact fun hnumbers => ⟨doc, h, hnumbers⟩

theorem lookup_encodeStep_metadata (step : WorkflowRunStepResult) (metadata : Value.Fields) :
    (encodeStep step metadata).lookup "metadata" =
      if metadata.isEmpty then none else some (.map metadata) := by
  simp [encodeStep, List.lookup_append, List.lookup_cons, lookup_omitEmpty, lookup_omitEmptyMap,
    lookup_omitNone, lookup_attempts]

theorem lookup_encodeResponse_metadata (response : RunWorkflowResponse) (steps : List Value)
    (metadata : Value.Fields) : (encodeResponse response steps metadata).lookup "metadata" =
      if metadata.isEmpty then none else some (.map metadata) := by
  simp [encodeResponse, List.lookup_append, List.lookup_cons, lookup_omitEmptyMap]

/-- Documents with the same entry have the same metadata. -/
theorem eq_of_lookup_metadata {metadata metadata' : Value.Fields}
    (h : (if metadata.isEmpty then none else some (Value.map metadata)) =
      if metadata'.isEmpty then none else some (Value.map metadata')) : metadata = metadata' := by
  cases metadata with
  | nil =>
    cases metadata' with
    | nil => rfl
    | cons => cases h
  | cons =>
    cases metadata' with
    | nil => cases h
    | cons =>
      cases h
      rfl

/-- The metadata that was read is written as it is. -/
theorem marshalFields_readBack {doc : Value.Fields}
    (h : Value.marshalFields json.supports fields = some doc) :
    Value.marshalFields json.supports
        (Value.unmarshalFields Value.float64 (mustEncodeJSON json fields)) =
      some (Value.unmarshalFields Value.float64 doc) := by
  rw [mustEncodeJSON, h, Option.getD_some]
  exact Value.marshalFields_unmarshalFields h

/-- The metadata of a response, and those of its steps. -/
def RunWorkflowResponse.metadatas (response : RunWorkflowResponse) : List Value.Fields :=
  response.metadata :: response.steps.map (·.metadata)

theorem document_step_readBack (h : step.document json = some doc) :
    (step.readBack json).document json = some doc ↔ Exact json step.metadata := by
  obtain ⟨metadata, hmetadata, rfl⟩ := Option.map_eq_some_iff.1 h
  rw [WorkflowRunStepResult.document, WorkflowRunStepResult.readBack,
    marshalFields_readBack hmetadata, Option.map_some, exact_iff hmetadata]
  constructor
  · intro heq
    have hfields := Value.map.inj (Option.some.inj heq)
    have hlookup := congrArg (List.lookup "metadata") hfields
    rw [lookup_encodeStep_metadata, lookup_encodeStep_metadata] at hlookup
    exact eq_of_lookup_metadata hlookup
  · intro heq
    rw [heq]
    rfl

theorem bind_cons_eq_some {α : Type*} {x : Option α} {xs : Option (List α)} {a : α} {as : List α} :
    (do return (← x) :: (← xs)) = some (a :: as) ↔ x = some a ∧ xs = some as := by
  cases x with
  | none => simp
  | some => cases xs with
    | none => simp
    | some => simp

theorem mapM_document_readBack (h : steps.mapM (WorkflowRunStepResult.document json) = some docs) :
    (steps.map (WorkflowRunStepResult.readBack json)).mapM (WorkflowRunStepResult.document json) =
      some docs ↔ ∀ step ∈ steps, Exact json step.metadata := by
  induction steps generalizing docs with
  | nil => simpa using h
  | cons step steps ih =>
    rw [List.mapM_cons] at h
    obtain ⟨doc, hdoc, h⟩ := Option.bind_eq_some_iff.1 h
    obtain ⟨docs, hdocs, h⟩ := Option.bind_eq_some_iff.1 h
    cases h
    rw [List.map_cons, List.mapM_cons, List.forall_mem_cons, ← document_step_readBack hdoc,
      ← ih hdocs]
    exact bind_cons_eq_some

/-- The document of what was read is that of the response, if its metadata is exact. -/
theorem document_readBack {response : RunWorkflowResponse} (h : response.document json = some doc) :
    (response.readBack json).document json = some doc ↔
      ∀ fields ∈ response.metadatas, Exact json fields := by
  obtain ⟨steps, hsteps, h⟩ := Option.bind_eq_some_iff.1 h
  obtain ⟨metadata, hmetadata, rfl⟩ := Option.map_eq_some_iff.1 h
  rw [RunWorkflowResponse.metadatas, List.forall_mem_cons, List.forall_mem_map,
    ← mapM_document_readBack hsteps, exact_iff hmetadata, RunWorkflowResponse.document]
  have hmarshal := marshalFields_readBack hmetadata
  constructor
  · intro heq
    obtain ⟨steps', hsteps', heq⟩ := Option.bind_eq_some_iff.1 heq
    obtain ⟨metadata', hmetadata', heq⟩ := Option.map_eq_some_iff.1 heq
    have hfields := Value.map.inj heq
    have hlookup := congrArg (List.lookup "metadata") hfields
    rw [lookup_encodeResponse_metadata, lookup_encodeResponse_metadata] at hlookup
    have hsame : steps' = steps := by
      have hlist := congrArg (List.lookup "steps") hfields
      simpa [encodeResponse, List.lookup_cons] using hlist
    refine ⟨?_, hsame ▸ hsteps'⟩
    have hread := hmarshal.symm.trans hmetadata'
    rw [Option.some.inj hread]
    exact eq_of_lookup_metadata hlookup
  · rintro ⟨heq, hsteps'⟩
    refine Option.bind_eq_some_iff.2 ⟨steps, hsteps', ?_⟩
    refine Option.map_eq_some_iff.2 ⟨metadata, hmarshal.trans (by rw [heq]), rfl⟩

/-! ## The record of a run -/

/-- A run as it is read. -/
structure WorkflowRunRecord extends Header where
  status : RunStatus
  result : Option RunWorkflowResponse
  error : String
  startedAt : Option ℤ
  finishedAt : Option ℤ

/-- The run with an id, as it is read. -/
def getWorkflowRun (runs : Runs json) (id : String) : Option WorkflowRunRecord :=
  (runs.get? id).map fun run =>
    { id := run.id
      workflowNamespace := run.workflowNamespace
      workflowName := run.workflowName
      workflowVersion := run.workflowVersion
      inputs := Value.unmarshalFields Value.float64 run.inputs
      metadata := Value.unmarshalFields Value.float64 run.metadata
      createdAt := run.createdAt
      status := run.status
      result := run.result.bind decodeResponse
      error := run.error.getD ""
      startedAt := run.startedAt
      finishedAt := run.finishedAt }

/-! ## Dispatchers -/

/-- A digit of the base 64. -/
def base64Digit (n : ℕ) : Char :=
  "ABCDEFGHIJKLMNOPQRSTUVWXYZabcdefghijklmnopqrstuvwxyz0123456789+/".toList.getD n 'A'

/-- `base64.StdEncoding`. -/
def base64 : List UInt8 → List Char
  | [] => []
  | [a] => [base64Digit (a.toNat / 4), base64Digit (a.toNat % 4 * 16), '=', '=']
  | [a, b] => [base64Digit (a.toNat / 4), base64Digit (a.toNat % 4 * 16 + b.toNat / 16),
      base64Digit (b.toNat % 16 * 4), '=']
  | a :: b :: c :: rest => base64Digit (a.toNat / 4) ::
      base64Digit (a.toNat % 4 * 16 + b.toNat / 16) ::
      base64Digit (b.toNat % 16 * 4 + c.toNat / 64) :: base64Digit (c.toNat % 64) :: base64 rest

/-- What a finalization is given: nothing, a response, or the bytes of a document. -/
inductive Payload
  | nothing
  | response (response : RunWorkflowResponse)
  | bytes (content : Option Value)

/-- The document of a payload. Bytes are a text in base 64, and missing ones are null. -/
def Payload.document (json : Json) : Payload → Option Value
  | .nothing => none
  | .response r => r.document json
  | .bytes none => some .nil
  | .bytes (some doc) => some (.str (.ofList (base64 (Text.bytes (json.render doc)))))

/-- Who has dispatched the run. -/
inductive Path
  | httpAsync
  | httpServer
  | scheduler
  | eventTrigger
  | inbox
  deriving DecidableEq

/-- How the execution of a workflow ends. -/
inductive Execution
  | returned (response : RunWorkflowResponse)
  | failed (err : String)
  | panicked

/-- The error of a run with a failed step. -/
def failedStepMessage (metadata : Value.Fields) : String :=
  match metadata.lookup "failed_step" with
  | some (.str v) => if v = "" then "" else "step " ++ v ++ " failed"
  | _ => ""

/-- The error of a run that has panicked. -/
def asyncWorkflowRunPanicError : String := "asynchronous workflow execution panicked"

variable (cm : CaseMap)

/-- The status, the payload and the message that a dispatcher records, if it records any. -/
def Path.summary (json : Json) : Path → Execution → Option (RunStatus × Payload × String)
  | .inbox, .failed err => some (.failed, .bytes none, err)
  -- the status of the response is not looked at
  | .inbox, .returned response => some (.succeeded, .bytes (response.document json), "")
  | _, .failed err => some (.failed, .nothing, err)
  | _, .returned response =>
    if equalFold cm response.status "failed" then
      some (.failed, .response response, failedStepMessage response.metadata)
    else some (.succeeded, .response response, "")
  | .httpAsync, .panicked => some (.failed, .nothing, asyncWorkflowRunPanicError)
  | _, .panicked => none

/-- The finalization of a run. Its errors are not looked at. -/
def finish (path : Path) (runs : Runs json) (id : String) (execution : Execution) (fails : Bool)
    (finishedAt : ℤ) : Runs json :=
  match path.summary cm json execution with
  | none => runs
  | some (status, payload, message) =>
    if fails then runs
    else
      (finalizeWorkflowRun runs id status (payload.document json) message finishedAt).getD runs

/-! ## What is recorded -/

/-- The execution has returned a response that is not failed. -/
def Execution.Succeeded : Execution → Prop
  | .returned response => equalFold cm response.status "failed" = false
  | .failed _ | .panicked => False

/-- The response of an execution. -/
def Execution.response : Execution → Option RunWorkflowResponse
  | .returned response => some response
  | .failed _ | .panicked => none

/-- The record has the status of the execution, and the document of its response. -/
structure Matches (json : Json) (record : WorkflowRunRecord) (execution : Execution) : Prop where
  status : record.status = .succeeded ↔ execution.Succeeded cm
  result : record.result.map (·.document json) = execution.response.map (·.document json)

/-- The text has a null, which the database refuses. -/
def hasNull (text : String) : Bool := text.toList.contains '\x00'

/-- The outcomes that are recorded as they were. -/
def Recordable (json : Json) (fails : Bool) : Path → Execution → Prop
  | .inbox, .returned _ => False
  -- null is recorded for an error, unless nothing is
  | .inbox, .failed err => fails = true ∨ hasNull err = true
  | _, .returned response => fails = false ∧ (∀ fields ∈ response.metadatas, Exact json fields) ∧
      ∀ doc, response.document json = some doc → ∀ text ∈ doc.texts, hasNull text = false
  | _, _ => True

theorem storable_iff {result : Option Value} {message : String} :
    storable result message = true ↔ hasNull message = false ∧
      ∀ doc ∈ result, ∀ text ∈ doc.texts, hasNull text = false := by
  cases result with
  | none => simp [storable, hasNull]
  | some doc => simp [storable, hasNull]

/-- The step that a message names is named in the document. -/
theorem hasNull_failedStepMessage {response : RunWorkflowResponse}
    (h : response.document json = some doc) (hnull : ∀ text ∈ doc.texts, hasNull text = false) :
    hasNull (failedStepMessage response.metadata) = false := by
  obtain ⟨steps, hsteps, h⟩ := Option.bind_eq_some_iff.1 h
  obtain ⟨metadata, hmetadata, rfl⟩ := Option.map_eq_some_iff.1 h
  unfold failedStepMessage
  split
  next v hlookup =>
    have hdoc : metadata.lookup "failed_step" = some (.str v) := by
      rw [Value.lookup_marshalFields hmetadata, hlookup]
      rfl
    have hmem := Value.Fields.mem_of_lookup hdoc
    have hentry : ("metadata", Value.map metadata) ∈ encodeResponse response steps metadata := by
      refine Value.Fields.mem_of_lookup ?_
      rw [lookup_encodeResponse_metadata, if_neg]
      simpa using List.ne_nil_of_mem hmem
    have htext : v ∈ (Value.map (encodeResponse response steps metadata)).texts := by
      refine Value.mem_textsFields.2 ⟨_, hentry, .inr ?_⟩
      exact Value.mem_textsFields.2 ⟨_, hmem, .inr (List.mem_singleton_self v)⟩
    have hv := hnull v htext
    split
    · rfl
    · simpa [hasNull] using hv
  next => rfl

theorem not_succeeded_of_response {cm : CaseMap} {execution : Execution}
    (h : execution.response = none) : ¬ execution.Succeeded cm := by
  cases execution with
  | returned => cases h
  | failed | panicked => exact id

theorem exists_document_of_exact {response : RunWorkflowResponse}
    (h : ∀ fields ∈ response.metadatas, Exact json fields) :
    ∃ doc, response.document json = some doc := by
  rw [RunWorkflowResponse.metadatas, List.forall_mem_cons, List.forall_mem_map] at h
  obtain ⟨⟨metadata, hmetadata, -⟩, hsteps⟩ := h
  obtain ⟨docs, hdocs⟩ : ∃ docs, response.steps.mapM (WorkflowRunStepResult.document json) =
      some docs := by
    generalize response.steps = steps at hsteps
    induction steps with
    | nil => exact ⟨[], rfl⟩
    | cons step steps ih =>
      obtain ⟨⟨doc, hdoc, -⟩, hsteps⟩ := List.forall_mem_cons.1 hsteps
      obtain ⟨docs, hdocs⟩ := ih hsteps
      exact ⟨_, by rw [List.mapM_cons, bind_cons_eq_some]; exact ⟨congrArg _ hdoc, hdocs⟩⟩
  exact ⟨_, by rw [RunWorkflowResponse.document, hdocs, Option.bind_some, hmetadata,
    Option.map_some]⟩

/-- The record of the run matches the execution. -/
def Agrees (runs : Runs json) (id : String) (execution : Execution) : Prop :=
  ∃ record, getWorkflowRun runs id = some record ∧ Matches cm json record execution

section

variable {cm} {path : Path} {runs : Runs json} {id : String} {run : WorkflowRun}
  {execution : Execution} {fails : Bool} {finishedAt : ℤ} {status : RunStatus} {payload : Payload}
  {message : String} (hget : runs.get? id = some run)

include hget

/-- The record of a run, by what is stored. -/
theorem agrees_iff : Agrees cm runs id execution ↔
    (run.status = .succeeded ↔ execution.Succeeded cm) ∧
      (run.result.bind decodeResponse).map (·.document json) =
        execution.response.map (·.document json) := by
  rw [Agrees, getWorkflowRun, hget, Option.map_some]
  constructor
  · rintro ⟨record, hrecord, hmatches⟩
    cases hrecord
    exact ⟨hmatches.status, hmatches.result⟩
  · exact fun h => ⟨_, rfl, h.1, h.2⟩

variable (hstatus : run.status ≠ .succeeded) (hresult : run.result = none)

include hstatus hresult

/-- If nothing is recorded, there was no response. -/
theorem agrees_unrecorded : Agrees cm runs id execution ↔ execution.response = none := by
  rw [agrees_iff hget, hresult, iff_false_left hstatus, Option.bind_none, Option.map_none,
    eq_comm, Option.map_eq_none_iff]
  exact ⟨And.right, fun h => ⟨not_succeeded_of_response h, h⟩⟩

/-- What is recorded is read. A finalization that fails leaves the runs as they are. -/
theorem agrees_finish
    (hsummary : path.summary cm json execution = some (status, payload, message)) :
    Agrees cm (finish cm path runs id execution fails finishedAt) id execution ↔
      if fails = false ∧ storable (payload.document json) message = true then
        (status = .succeeded ↔ execution.Succeeded cm) ∧
          ((payload.document json).bind decodeResponse).map (·.document json) =
            execution.response.map (·.document json)
      else execution.response = none := by
  split
  next h =>
    obtain ⟨rfl, hstorable⟩ := h
    have hfinished : (finish cm path runs id execution false finishedAt).get? id =
        some ⟨run.toHeader, run.toProgress.finalize status (payload.document json) message
          finishedAt⟩ := by
      have hid := (Runs.get?_eq_some.1 hget).2
      simp [finish, hsummary, finalizeWorkflowRun, hstorable, Runs.get?_update, hget, hid]
    exact agrees_iff hfinished
  next h =>
    have hself : finish cm path runs id execution fails finishedAt = runs := by
      rw [finish, hsummary]
      cases fails with
      | true => rfl
      | false => simp_all [finalizeWorkflowRun]
    rw [hself]
    exact agrees_unrecorded hget hstatus hresult

/-- The response of an inbox run is lost. -/
theorem not_agrees_inbox (response : RunWorkflowResponse) :
    ¬ Agrees cm (finish cm .inbox runs id (.returned response) fails finishedAt) id
      (.returned response) := by
  have hsummary : Path.inbox.summary cm json (.returned response) =
    some (.succeeded, .bytes (response.document json), "") := rfl
  rw [agrees_finish hget hstatus hresult hsummary]
  split
  next =>
    rintro ⟨-, hread⟩
    cases hdoc : response.document json with
    | none =>
      -- null is read as an empty response, which has a document
      rw [hdoc, Execution.response, Option.map_some, hdoc] at hread
      cases hread
    | some doc =>
      rw [hdoc] at hread
      cases hread
  next => exact nofun

/-- The empty response of null is recorded for an error of an inbox run. -/
theorem agrees_failed_inbox (err : String) :
    Agrees cm (finish cm .inbox runs id (.failed err) fails finishedAt) id (.failed err) ↔
      fails = true ∨ hasNull err = true := by
  have hsummary : Path.inbox.summary cm json (.failed err) = some (.failed, .bytes none, err) := rfl
  have hstorable : storable (Payload.document json (.bytes none)) err = true ↔
      hasNull err = false := by
    rw [storable_iff]
    exact and_iff_left (by rintro _ ⟨⟩ text ⟨⟩)
  rw [agrees_finish hget hstatus hresult hsummary]
  split
  next h =>
    rw [hstorable] at h
    exact iff_of_false (fun h => nomatch h.2) (by simp [h])
  next h =>
    rw [hstorable, Decidable.not_and_iff_or_not] at h
    exact iff_of_true rfl (by simpa using h)

/-- An execution without a response is recorded as failed, or not at all. -/
theorem agrees_nothing (message : String)
    (hsummary : path.summary cm json execution = none ∨
      path.summary cm json execution = some (.failed, .nothing, message))
    (hresponse : execution.response = none) :
    Agrees cm (finish cm path runs id execution fails finishedAt) id execution := by
  rcases hsummary with hsummary | hsummary
  · rw [finish, hsummary]
    exact (agrees_unrecorded hget hstatus hresult).2 hresponse
  · rw [agrees_finish hget hstatus hresult hsummary, hresponse]
    split
    · exact ⟨iff_of_false nofun (not_succeeded_of_response hresponse), rfl⟩
    · rfl

theorem agrees_returned (hpath : path ≠ .inbox) (response : RunWorkflowResponse) :
    Agrees cm (finish cm path runs id (.returned response) fails finishedAt) id
        (.returned response) ↔
      fails = false ∧ (∀ fields ∈ response.metadatas, Exact json fields) ∧
        ∀ doc, response.document json = some doc → ∀ text ∈ doc.texts, hasNull text = false := by
  obtain ⟨status, message, hsummary, hsucceeded, hmessage⟩ : ∃ status message,
      path.summary cm json (.returned response) = some (status, .response response, message) ∧
      (status = .succeeded ↔ equalFold cm response.status "failed" = false) ∧
      (message = "" ∨ message = failedStepMessage response.metadata) := by
    rw [Path.summary]
    -- The dispatchers other than that of the inbox give the response as it is.
    · split
      next h => exact ⟨_, _, rfl, by simp [h], .inr rfl⟩
      next h => exact ⟨_, _, rfl, by simp [h], .inl rfl⟩
    · exact hpath
  rw [agrees_finish hget hstatus hresult hsummary, Payload.document]
  split
  next h =>
    obtain ⟨hfails, hstorable⟩ := h
    cases hdoc : response.document json with
    | none =>
      refine iff_of_false (fun h => nomatch h.2) fun h => ?_
      obtain ⟨doc, hdoc'⟩ := exists_document_of_exact h.2.1
      rw [hdoc] at hdoc'
      cases hdoc'
    | some doc =>
      have hnull := (storable_iff.1 hstorable).2 doc hdoc
      rw [Option.bind_some, decodeResponse_document hdoc, Option.map_some, Execution.response,
        Option.map_some, Option.some.injEq, hdoc, document_readBack hdoc]
      refine ⟨fun h => ⟨hfails, h.2, fun doc' hdoc' => ?_⟩, fun h => ⟨hsucceeded, h.2.1⟩⟩
      cases hdoc'
      exact hnull
  next hnot =>
    refine iff_of_false nofun fun h => hnot ⟨h.1, ?_⟩
    obtain ⟨doc, hdoc⟩ := exists_document_of_exact h.2.1
    have hnull := h.2.2 doc hdoc
    refine storable_iff.2 ⟨?_, fun doc' hdoc' => ?_⟩
    · rcases hmessage with rfl | rfl
      · rfl
      · exact hasNull_failedStepMessage hdoc hnull
    · rw [hdoc] at hdoc'
      cases hdoc'
      exact hnull

end

/-- A run is recorded as it has ended exactly when the outcome is recordable. -/
theorem matches_iff_recordable {cm : CaseMap} {runs : Runs json} {id : String} {run : WorkflowRun}
    {fails : Bool} {finishedAt : ℤ} (path : Path) (execution : Execution)
    (hget : runs.get? id = some run) (hstatus : run.status ≠ .succeeded)
    (hresult : run.result = none) :
    (∃ record, getWorkflowRun (finish cm path runs id execution fails finishedAt) id =
        some record ∧ Matches cm json record execution) ↔ Recordable json fails path execution := by
  cases execution with
  | returned response =>
    by_cases hpath : path = .inbox
    · subst hpath
      exact iff_of_false (not_agrees_inbox hget hstatus hresult response) not_false
    · refine (agrees_returned hget hstatus hresult hpath response).trans ?_
      cases path with
      | inbox => exact absurd rfl hpath
      | httpAsync | httpServer | scheduler | eventTrigger => rfl
  | failed err =>
    cases path with
    | inbox => exact agrees_failed_inbox hget hstatus hresult err
    | httpAsync | httpServer | scheduler | eventTrigger =>
      exact iff_of_true (agrees_nothing hget hstatus hresult err (.inr rfl) rfl) trivial
  | panicked =>
    have hrecordable : Recordable json fails path .panicked := by cases path <;> trivial
    refine iff_of_true
      (agrees_nothing hget hstatus hresult asyncWorkflowRunPanicError ?_ rfl) hrecordable
    cases path with
    | httpAsync => exact .inr rfl
    | httpServer | scheduler | eventTrigger | inbox => exact .inl rfl

namespace Sample

/-- A response with the result of a step, and numbers in both metadata. -/
def deployed : RunWorkflowResponse where
  workflow := ⟨"m1", "workflow", "global", "deploy", 1⟩
  status := "succeeded"
  steps := [
    { id := "apply"
      kind := "integration"
      operation := "apply"
      capability := "apply"
      status := "succeeded"
      metadata := [("replicas", .int .int 3)] }]
  metadata := [("share", .float (1 / 2)), ("labels", .list [.str "blue"])]

theorem pending_status_ne : pending.status ≠ .succeeded := by decide

end Sample

theorem deployed_recorded :
    ∃ record, getWorkflowRun (finish ascii .scheduler Sample.start.shared.runs "run"
      (.returned Sample.deployed) false 1) "run" = some record ∧
        Matches ascii Sample.plain record (.returned Sample.deployed) := by
  refine (matches_iff_recordable .scheduler (.returned Sample.deployed) rfl
    Sample.pending_status_ne rfl).2
    ⟨rfl, fun fields hfields => ?_, fun doc hdoc => ?_⟩
  · rw [RunWorkflowResponse.metadatas] at hfields
    rcases List.mem_pair.1 hfields with rfl | rfl
    · exact ⟨_, rfl, by decide +kernel⟩
    · exact ⟨_, rfl, by decide +kernel⟩
  · cases hdoc
    decide +kernel

/-- Every outcome is recorded as it was, on every path. -/
def RecordsEveryOutcome : Prop :=
  ∀ (cm : CaseMap) (json : Json) (path : Path) (runs : Runs json) (id : String) (run : WorkflowRun)
    (execution : Execution) (finishedAt : ℤ), runs.get? id = some run → run.status ≠ .succeeded →
    run.result = none →
      ∃ record, getWorkflowRun (finish cm path runs id execution false finishedAt) id =
        some record ∧ Matches cm json record execution

/-- The response of a run that the inbox has dispatched is lost. -/
theorem not_recordsEveryOutcome : ¬ RecordsEveryOutcome := fun h =>
  not_agrees_inbox rfl Sample.pending_status_ne rfl Sample.deployed
    (h ascii Sample.plain .inbox Sample.start.shared.runs "run" Sample.pending
      (.returned Sample.deployed) 1 rfl Sample.pending_status_ne rfl)

end Yggdrasil.WorkflowRuns
