import Yggdrasil.Lib.Go
import Yggdrasil.Lib.Check
import Yggdrasil.Lib.Value

/-!
# Workflow manifests

A workflow is a list of steps, each with the steps it depends on. The case tables of Unicode are a
parameter `cm`, of which nothing is assumed. A missing map is an empty one: no check tells them
apart.
-/

namespace Yggdrasil.Manifest

open Check Text

/-- Names a stored manifest by its id, or by its name and optionally its version. -/
structure ManifestSelector where
  manifestId : String := ""
  namespaceName : String := ""
  name : String := ""
  version : Option ℤ := none

/-- What a step uses. -/
structure WorkflowStepUseSpec where
  kind : String := ""
  instanceRef : Option ManifestSelector := none
  family : String := ""
  providerRef : Option ManifestSelector := none
  capability : String := ""
  operation : String := ""

/-- How often a step is tried. -/
structure WorkflowRetrySpec where
  maxAttempts : ℤ := 0
  backoffSeconds : ℤ := 0

/-- What a step is repeated for. -/
structure WorkflowForEachSpec where
  items : String := ""
  as : String := ""

/-- A step of a workflow. -/
structure WorkflowStepSpec where
  id : String := ""
  condition : String := ""
  use : WorkflowStepUseSpec := {}
  input : Value.Fields := []
  dependsOn : List String := []
  retry : WorkflowRetrySpec := {}
  timeoutSeconds : ℤ := 0
  forEach : Option WorkflowForEachSpec := none

/-- The manifests that authorize a workflow. -/
structure WorkflowAuthorizationSpec where
  rbac : ManifestSelector
  policy : Option ManifestSelector

/-- A workflow. -/
structure WorkflowManifestSpec where
  defaults : Value.Fields := []
  authorization : Option WorkflowAuthorizationSpec := none
  steps : List WorkflowStepSpec

/-- The kinds of steps. -/
def supportedWorkflowStepKinds : List String := ["integration", "product", "yggdrasil"]

/-- The operations of product steps. -/
def supportedProductStepOperations : List String :=
  ["materialize", "installation.reconcile", "installation.apply", "installation.observe",
    "installation.uninstall", "installation_state.discover"]

/-- The operations of the control plane. -/
def supportedYggdrasilStepOperations : List String :=
  ["apply_manifest", "assert", "control_plane.render", "collaborator.reconcile_provider_state",
    "oidc_client.verify_bootstrap_file", "capacity.assess", "capacity.observe",
    "capacity.adopt_executor_power", "capacity.grant_executor_power",
    "capacity.confirm_executor_power", "capacity.initialize_executor_activity",
    "capacity.record_executor_activity", "capacity.observe_executor_activity",
    "capacity.reserve_executor_stop", "capacity.prepare_executor_stop", "capacity.claim",
    "capacity.renew", "capacity.advance", "capacity.recover", "capacity.renew_recovery",
    "capacity.reconcile", "capacity.grant_mutation", "capacity.record_slot",
    "capacity.confirm_mutation", "capacity.grant_compensation", "capacity.confirm_compensation",
    "capacity.observe_vm_inventory", "capacity.observe_vm_node_membership",
    "capacity.observe_original_creation_canary", "capacity.observe_failed_vm_creation",
    "capacity.record_vm_inventory", "capacity.confirm_native_mutation",
    "capacity.observe_bound_assessment", "capacity.assess_bound", "capacity.execute_bound",
    "capacity.admit_bound", "capacity.provision_original_guest", "capacity.plan_original_guest",
    "capacity.complete_original_guest", "capacity.qualify_original_guest_echo",
    "capacity.qualify_original_guest_notify", "capacity.refresh_original_guest_notify",
    "capacity.retire_original_guest", "capacity.finish_original_guest_retirement"]

/-- A lower-case letter or digit, then such characters, dots, underscores, colons and hyphens. -/
def integrationNamePattern (s : String) : Bool :=
  match s.toList with
  | [] => false
  | c :: cs =>
    (isLower c || isDigit c) &&
      cs.all fun c => isLower c || isDigit c || ['.', '_', ':', '-'].contains c

variable (cm : CaseMap)

/-- Names are compared in lower case. -/
def normalizeIntegrationName (value : String) : String := toLower cm (trimSpace value)

/-! ## Checks shared by manifests -/

/-- A selector has an id or a name, and a positive version if any. -/
def validateManifestSelector (label : String) (selector : ManifestSelector) :
    Except Fault Unit := do
  require (!(trimSpace selector.manifestId = "" && trimSpace selector.name = ""))
    (.errorf "%s requires manifest_id or name" [.text label])
  require (selector.version.all (0 < ·))
    (.errorf "%s version must be greater than zero" [.text label])

/-- Names that are well formed, and distinct when normalised. -/
def validateNamedStringList (label : String) (values : List String) : Except Fault Unit :=
  validateEach (normalizeIntegrationName cm) (fun seen value => do
    let normalized := normalizeIntegrationName cm value
    require (normalized ≠ "") (.errorf "%s cannot contain empty values" [.text label])
    require (integrationNamePattern normalized)
      (.errorf "%s value %q is invalid" [.text label, .quoted value])
    require (normalized ∉ seen)
      (.errorf "%s value %q is duplicated" [.text label, .quoted normalized])) [] values

/-- No key is blank. -/
def validateLooseObject (label : String) (input : Value.Fields) : Except Fault Unit :=
  require (input.all fun entry => normalizeIntegrationName cm entry.1 ≠ "")
    (.errorf "%s cannot contain empty keys" [.text label])

/-! ## Assertions -/

/-- Two values must be equal. -/
structure WorkflowAssertEqualCheck where
  name : String
  actual : Value
  expected : Value

/-- A value must not be empty. -/
structure WorkflowAssertNonemptyCheck where
  name : String
  value : Value

/-- The checks of an assertion. -/
structure WorkflowAssertInput where
  equal : List WorkflowAssertEqualCheck := []
  nonempty : List WorkflowAssertNonemptyCheck := []

/-- The fields are these and no others. -/
def hasExactWorkflowAssertFields (input : Value.Fields) (fields : List String) : Bool :=
  input.length = fields.length && fields.all fun field => (input.lookup field).isSome

/-- Reads the checks of one kind, each with exactly the fields `fields` and a new name. -/
def parseWorkflowAssertChecks {α : Type} (fields : List String) (shape name : String)
    (decode : String → Value.Fields → α) :
    ℕ → List String → List Value → Except Fault (List α × List String)
  | _, seenNames, [] => .ok ([], seenNames)
  | position, seenNames, raw :: rest => do
    let check ← match raw with
      | .map check => .ok check
      | _ => .error (.errorf shape [.number position])
    require (hasExactWorkflowAssertFields check fields) (.errorf shape [.number position])
    let checkName ← match check.lookup "name" with
      | some (.str checkName) => .ok checkName
      | _ => .error (.errorf name [.number position])
    require (checkName ≠ "") (.errorf name [.number position])
    require (checkName ∉ seenNames)
      (.errorf "assert check name %q is duplicated" [.quoted checkName])
    let (parsed, seenNames) ← parseWorkflowAssertChecks fields shape name decode (position + 1)
      (checkName :: seenNames) rest
    .ok (decode checkName check :: parsed, seenNames)

/-- The checks that the input of an assertion gives. -/
def parseWorkflowAssertInput (input : Value.Fields) : Except Fault WorkflowAssertInput := do
  require (input.all fun entry => entry.1 = "equal" || entry.1 = "nonempty")
    (.errorf "assert input contains unsupported fields" [])
  let (equal, seenNames) ← match input.lookup "equal" with
    | none => .ok ([], [])
    | some (.list checks) =>
      parseWorkflowAssertChecks ["name", "actual", "expected"]
        "assert equal check %d must contain exactly name, actual, and expected"
        "assert equal check %d requires a non-empty string name"
        (fun name check => ⟨name, (check.lookup "actual").getD .nil,
          (check.lookup "expected").getD .nil⟩) 1 [] checks
    | some _ => .error (.errorf "assert with.equal must be an array" [])
  let (nonempty, _) ← match input.lookup "nonempty" with
    | none => .ok ([], [])
    | some (.list checks) =>
      parseWorkflowAssertChecks ["name", "value"]
        "assert nonempty check %d must contain exactly name and value"
        "assert nonempty check %d requires a non-empty string name"
        (fun name check => ⟨name, (check.lookup "value").getD .nil⟩) 1 seenNames checks
    | some _ => .error (.errorf "assert with.nonempty must be an array" [])
  require (equal.length + nonempty.length ≠ 0)
    (.errorf "assert requires at least one equal or nonempty check" [])
  .ok ⟨equal, nonempty⟩

/-! ## Steps -/

variable (step : WorkflowStepSpec)

/-- The operation of a step, or else its capability. -/
def normalizeWorkflowStepOperation : String :=
  let operation := normalizeIntegrationName cm step.use.operation
  if operation ≠ "" then operation else normalizeIntegrationName cm step.use.capability

/-- The capability of a step, or else its operation. -/
def normalizeWorkflowStepCapability : String :=
  let capability := normalizeIntegrationName cm step.use.capability
  if capability ≠ "" then capability else normalizeWorkflowStepOperation cm step

/-- An integration is named by an instance, or found by its family and operation. -/
def validateIntegrationStep : Except Fault Unit := do
  let family := trimSpace step.use.family
  match step.use.instanceRef with
  | none =>
    require (family ≠ "") (.errorf "integration step requires instance_ref or family" [])
    require (integrationNamePattern family)
      (.errorf "integration step family %q is invalid" [.quoted step.use.family])
    require (trimSpace step.use.operation ≠ "")
      (.errorf "integration step with family requires operation" [])
    match step.use.providerRef with
    | none => .ok ()
    | some ref => validateManifestSelector "workflow step provider_ref" ref
  | some ref =>
    require (family = "") (.errorf
      "integration step cannot combine instance_ref with family; use one resolution mode" [])
    validateManifestSelector "workflow step instance_ref" ref
    require step.use.providerRef.isNone
      (.errorf "integration step cannot set provider_ref when instance_ref is used" [])
  require (normalizeWorkflowStepOperation cm step ≠ "")
    (.errorf "integration step requires capability or operation" [])
  let capability := normalizeWorkflowStepCapability cm step
  require (capability = "" || integrationNamePattern capability)
    (.errorf "integration step capability %q is invalid" [.quoted step.use.capability])

/-- A product step has a supported operation. -/
def validateProductStep : Except Fault Unit := do
  let operation := toLower cm (trimSpace step.use.operation)
  require (operation ≠ "") (.errorf "product step requires use.operation" [])
  require (operation ∈ supportedProductStepOperations)
    (.errorf "product step operation %q is unsupported (allowed: %v)"
      [.quoted operation, .texts supportedProductStepOperations])
  require (step.input.lookup "product_ref").isSome
    (.errorf "product step requires with.product_ref" [])
  require step.use.instanceRef.isNone
    (.errorf "product step must not set use.instance_ref (use with.product_ref instead)" [])

/-- What an operation of the core requires of its input. -/
def validateYggdrasilInput (operation : String) (input : Value.Fields) : Except Fault Unit :=
  if operation = "apply_manifest" then
    require (input.lookup "manifest").isSome (.errorf "yggdrasil step requires with.manifest" [])
  else if operation = "assert" then do
    let _ ← parseWorkflowAssertInput input
    .ok ()
  else if operation = "control_plane.render" then
    require (input.lookup "control_plane_ref").isSome
      (.errorf "yggdrasil step control_plane.render requires with.control_plane_ref" [])
  else if operation = "collaborator.reconcile_provider_state" then
    require (input.lookup "provider").isSome (.errorf
      "yggdrasil step collaborator.reconcile_provider_state requires with.provider" [])
  else if operation = "oidc_client.verify_bootstrap_file" then
    require input.isEmpty (.errorf
      "yggdrasil step oidc_client.verify_bootstrap_file accepts no with input" [])
  else .ok ()

/-- A step of the control plane has a supported operation, and its input. -/
def validateYggdrasilStep : Except Fault Unit := do
  let operation := toLower cm (trimSpace step.use.operation)
  require (operation ≠ "") (.errorf "yggdrasil step requires use.operation" [])
  require (operation ∈ supportedYggdrasilStepOperations)
    (.errorf "yggdrasil step operation %q is unsupported (allowed: %v)"
      [.quoted operation, .texts supportedYggdrasilStepOperations])
  require step.use.instanceRef.isNone (.errorf "yggdrasil step must not set use.instance_ref" [])
  require (trimSpace step.use.family = "") (.errorf "yggdrasil step must not set use.family" [])
  require step.use.providerRef.isNone (.errorf "yggdrasil step must not set use.provider_ref" [])
  validateYggdrasilInput operation step.input

/-- A step is valid for its kind. -/
def validateWorkflowStep : Except Fault Unit := do
  let kind := toLower cm (trimSpace step.use.kind)
  require (kind ∈ supportedWorkflowStepKinds)
    (.errorf "use.kind %q is unsupported" [.quoted step.use.kind])
  if kind = "integration" then validateIntegrationStep cm step
  else if kind = "product" then validateProductStep cm step
  else validateYggdrasilStep cm step
  require (0 ≤ step.timeoutSeconds) (.errorf "timeout_seconds cannot be negative" [])
  require (0 ≤ step.retry.maxAttempts) (.errorf "retry.max_attempts cannot be negative" [])
  require (0 ≤ step.retry.backoffSeconds) (.errorf "retry.backoff_seconds cannot be negative" [])
  validateLooseObject cm "workflow step with" step.input

/-- The name under which a step is known. -/
def WorkflowStepSpec.name : String :=
  normalizeIntegrationName cm step.id

/-- The names of the steps that a step depends on. -/
def WorkflowStepSpec.dependencies : List String :=
  step.dependsOn.map (normalizeIntegrationName cm)

/-- One turn of the first loop over the steps, after those with the ids `seen`. -/
def validateStepEntry (spec : WorkflowManifestSpec) (seen : List String)
    (step : WorkflowStepSpec) : Except Fault Unit := do
  require (!(equalFold cm (trimSpace step.use.kind) "yggdrasil" &&
      hasPrefix (toLower cm (trimSpace step.use.operation)) "capacity." &&
      spec.authorization.isNone))
    (.errorf "capacity steps require workflow authorization" [])
  let id := step.name cm
  require (id ≠ "") (.errorf "workflow step id is required" [])
  require (integrationNamePattern id) (.errorf "workflow step id %q is invalid" [.quoted step.id])
  require (id ∉ seen) (.errorf "workflow step %q is duplicated" [.quoted id])
  (validateWorkflowStep cm step).mapError (.wrap "workflow step %q: %w" [.quoted id])

/-- One turn of the second loop over the steps, whose ids are `names`. -/
def validateStepDependencies (names : List String) (step : WorkflowStepSpec) :
    Except Fault Unit := do
  let id := step.name cm
  (validateNamedStringList cm "workflow step depends_on" step.dependsOn).mapError
    (.wrap "workflow step %q: %w" [.quoted id])
  validateEach (fun _ => ()) (fun _ dependency => do
    require (dependency ∈ names)
      (.errorf "workflow step %q depends_on unknown step %q" [.quoted id, .quoted dependency])
    require (dependency ≠ id)
      (.errorf "workflow step %q cannot depend on itself" [.quoted id])) []
    (step.dependencies cm)

/-- The checks of the steps, before they are put in order. -/
def validateWorkflowSteps (spec : WorkflowManifestSpec) : Except Fault Unit := do
  require (!spec.steps.isEmpty) (.errorf "workflow steps require at least one value" [])
  validateEach (·.name cm) (validateStepEntry cm spec) [] spec.steps
  validateEach (fun _ => ())
    (fun _ => validateStepDependencies cm (spec.steps.map (·.name cm))) [] spec.steps

/-! ## What checked steps satisfy -/

section

variable {cm} {spec : WorkflowManifestSpec}

theorem nodup_names (h : validateWorkflowSteps cm spec = .ok ()) :
    (spec.steps.map (·.name cm)).Nodup := by
  rw [validateWorkflowSteps, require_bind, unit_bind_eq_ok] at h
  refine (nodup_of_validateEach ?_ h.2.1).1
  intro seen step hstep
  simp only [validateStepEntry, require_bind, decide_eq_true_eq] at hstep
  exact hstep.2.2.2.1

theorem mem_names_of_dependency (h : validateWorkflowSteps cm spec = .ok ())
    {step : WorkflowStepSpec} (hstep : step ∈ spec.steps) {d : String}
    (hd : d ∈ step.dependencies cm) : d ∈ spec.steps.map (·.name cm) := by
  rw [validateWorkflowSteps, require_bind, unit_bind_eq_ok] at h
  obtain ⟨-, hcheck⟩ := exists_check_of_validateEach h.2.2 hstep
  rw [validateStepDependencies, unit_bind_eq_ok] at hcheck
  obtain ⟨-, hdep⟩ := exists_check_of_validateEach hcheck.2 hd
  rw [require_bind, decide_eq_true_eq] at hdep
  exact hdep.1

end

end Yggdrasil.Manifest
