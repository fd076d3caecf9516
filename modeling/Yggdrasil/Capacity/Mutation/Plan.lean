import Yggdrasil.Capacity.Intent

/-!
# Mutation plans and reports

The records of a mutation, from its plan to the proof that confirms it, and the checks that concern
one of them alone. The decoder of a desired spec and the validators of the providers' own returns
are parameters (`Providers`).
-/

namespace Yggdrasil.Capacity.Mutation

open Check

/-! ## Records -/

/-- The states of a grant. Only the first six belong to an ordinary one. -/
inductive State
  | issued
  | redeemed
  | settled
  | confirmed
  | rejected
  | expired
  | compensating
  | compensated
  | cleanupClosed
  deriving DecidableEq

/-- A request for a grant. -/
structure CapacityMutationIssue where
  bindingName : String
  desiredSpec : String

/-- The permission for one mutation of a slot. -/
structure CapacityMutationGrant where
  grantID : String
  bindingName : String
  integrationInstanceID : String
  scopeChecksum : String
  profileName : String
  slot : ℤ
  capability : String
  requestSHA256 : String
  expectedResourceID : String
  expectedResourceCreatedAt : String
  expiresAt : ℤ
  state : State
  compensationOf : String := ""

/-- A request to use a grant for an attempt. -/
structure CapacityMutationRedeemRequest where
  grantID : String
  attemptID : String
  settlementTokenSHA256 : String
  capability : String
  integrationInstanceID : String
  scopeChecksum : String
  profileName : String
  slot : ℤ
  requestSHA256 : String
  expectedResourceID : String
  expectedResourceCreatedAt : String
  compensationOf : String := ""

/-- Whether the adapter may send its one mutation, or may only read. -/
inductive Mode
  | readOnly
  | writeOnce
  deriving DecidableEq

/-- What an attempt may do. -/
structure CapacityMutationRedeemResponse where
  mode : Mode
  grantID : String
  attemptID : String
  requestSHA256 : String
  expiresAt : ℤ
  compensationOf : String

/-- How the adapter's call ended. `other` is any text that is none of the four. -/
inductive Outcome
  | accepted
  | uncertain
  | rejectedBeforeSend
  | providerRejected
  | other (text : String)
  deriving DecidableEq

/-- A resource that comes with that of a slot. -/
structure CapacityMutationAuxiliaryResource where
  kind : String
  id : String
  requiresAbsence : Bool
  deriving DecidableEq

/-- The adapter's report. The providers' own returns are kept as texts. -/
structure CapacityMutationSettleRequest where
  originalProviderDestroyReturn : Option String := none
  originalProviderCreateReturn : Option String := none
  grantID : String
  attemptID : String
  requestSHA256 : String
  outcome : Outcome
  transportCompleted : Bool
  resourceID : String := ""
  resourceCreatedAt : String := ""
  actionID : String := ""
  nextActionIDs : List String := []
  observedAt : String
  providerErrorCode : String := ""
  providerStatusCode : ℤ := 0
  auxiliaryResources : List CapacityMutationAuxiliaryResource := []
  auxiliaryInventoryComplete : Bool := false
  deriving DecidableEq

/-- The workflow's fresh read. The providers' lifecycle records are kept as texts. -/
structure CapacityMutationProof where
  awsRetirementLifecycle : Option String := none
  providerNativeIdentity : Option String := none
  awsInstanceLifecycle : Option String := none
  grantID : String
  bindingName : String
  slot : ℤ
  resourceID : String
  resourceCreatedAt : String
  requestSHA256 : String
  observedAt : ℤ
  receiptRef : String
  ownerVerified : Bool
  specVerified : Bool
  resourceAbsent : Bool
  actionIDs : List String
  actionsTerminal : Bool
  actionsSuccessful : Bool
  actionHistoryComplete : Bool := false
  actionsFailed : Bool := false
  compensationIdentityVerified : Bool := false
  observedCreationGrantID : String := ""
  auxiliaryAbsent : List CapacityMutationAuxiliaryResource := []
  deriving DecidableEq

/-- The durable record of a grant. -/
structure CapacityMutationRecord where
  failedUnwitnessedExpansionCleanupID : String := ""
  grant : CapacityMutationGrant
  binding : CapacityMutationBinding
  policyID : String
  policyChecksum : String
  workflowID : String
  generation : ℤ
  fencingToken : ℤ
  leaseOwner : String
  executorID : String
  createdAt : ℤ
  attemptID : String := ""
  settlementTokenSHA256 : String := ""
  settlement : Option CapacityMutationSettleRequest := none
  proof : Option CapacityMutationProof := none
  eventProvider : String
  eventResource : String

/-- What the ledger takes from the provider contracts. -/
structure Providers where
  /-- The one closed object that a desired spec is, or its error. -/
  decodeSpec : String → Except String CapacityMutationSpecV1
  /-- The validators of a provider's own return: binding, grant, attempt, report, creation
      of the grant, and now. -/
  hetznerCreateReturn : CapacityMutationBinding → CapacityMutationGrant → String →
    CapacityMutationSettleRequest → ℤ → ℤ → Bool
  awsCreateReturn : CapacityMutationBinding → CapacityMutationGrant → String →
    CapacityMutationSettleRequest → ℤ → ℤ → Bool
  awsDestroyReturn : CapacityMutationBinding → CapacityMutationGrant → String →
    CapacityMutationSettleRequest → ℤ → ℤ → Bool
  /-- Whether the native reads after the report complete the resource's lifecycle. -/
  awsCreateLifecycleComplete : CapacityMutationBinding → CapacityMutationGrant →
    Option CapacityMutationSettleRequest → CapacityMutationProof → ℤ → Bool
  awsDestroyLifecycleComplete : CapacityMutationBinding → CapacityMutationGrant →
    Option CapacityMutationSettleRequest → CapacityMutationProof → ℤ → Bool
  /-- Whether a provider is the emulator of a qualification build. -/
  nativeQEMUProviderEnabled : String → Bool

/-! ## Plans -/

/-- The mutation that a grant would be for. -/
structure MutationPlan where
  binding : CapacityMutationBinding
  capability : String
  slot : ℤ
  requestSHA256 : String
  expectedResourceID : String
  expectedResourceCreatedAt : String
  approvedSpec : CapacityMutationSpecV1

variable (ext : External)

/-- A timestamp that parses to some instant. -/
def knownTime (s : String) : Bool := (ext.parseTime s).any (· != 0)

/-- A destruction names the unprotected resource it is about, a creation names none. -/
def checkExpectedResource (b : CapacityMutationBinding) (spec : CapacityMutationSpecV1) : Except
    String Unit :=
  if spec.capability = b.destroyCapability then do
    require (b.protectedSlots < spec.slot && spec.expectedResourceID != "" &&
      spec.expectedResourceID.utf8ByteSize ≤ 128)
      "capacity destruction requires an unprotected immutable resource"
    require (knownTime ext spec.expectedResourceCreatedAt)
      "capacity destruction requires immutable creation time"
  else
    require (spec.expectedResourceID == "" && spec.expectedResourceCreatedAt == "")
      "capacity creation cannot supply a destroy identity"

/-- The plan of the revision the operator approved for its slot. -/
def approvedPlan (b : CapacityMutationBinding) (spec : CapacityMutationSpecV1) : Except String
    MutationPlan :=
  match b.slots.find? (·.slot == spec.slot) with
  | none =>
    .error "capacity mutation desired spec is not the operator-approved slot revision"
  | some slot => do
    let approved ← approvedMutationProjection ext b slot
    require ({ spec with
        expectedResourceID := ""
        expectedResourceCreatedAt := ""
        capability := b.ensureCapability } == approved)
      "capacity mutation desired spec is not the operator-approved slot revision"
    .ok { binding := b
          capability := spec.capability
          slot := spec.slot
          requestSHA256 :=
            if spec.capability = b.ensureCapability then slot.desiredSpecSHA256 else ""
          expectedResourceID := spec.expectedResourceID
          expectedResourceCreatedAt := spec.expectedResourceCreatedAt
          approvedSpec := approved }

/-- Binds a desired spec to an operator-approved slot. -/
def prepareMutationPlan (pr : Providers) (p : CapacityPolicySpec) (issue : CapacityMutationIssue) :
    Except String MutationPlan :=
  match p.mutationBindings.find? (·.name == issue.bindingName) with
  | none => .error "capacity mutation requires an approved bounded desired spec"
  | some b => do
    require (b.name != "" && issue.desiredSpec != "" && issue.desiredSpec.utf8ByteSize ≤ 16384)
      "capacity mutation requires an approved bounded desired spec"
    let spec ← pr.decodeSpec issue.desiredSpec
    require (spec.capability != "start_ec2_instance" && spec.capability != "stop_ec2_instance")
      "EC2 power lifecycle is not qualified by the VM slot mutation ledger"
    require (validMutationProjection spec)
      "capacity mutation desired spec requires a bounded closed non-secret projection"
    require (spec.integrationInstanceID == b.integrationInstanceID &&
      spec.scopeChecksum == b.scopeChecksum && spec.profileName == b.profileName)
      "capacity mutation desired spec identity mismatch"
    require (spec.capability == b.ensureCapability || spec.capability == b.destroyCapability)
      "capacity mutation capability is not approved"
    require (1 ≤ spec.slot && spec.slot ≤ b.maxSlots)
      "capacity mutation slot is outside the approved envelope"
    checkExpectedResource ext b spec
    approvedPlan ext b spec

/-- The plan of a destruction, once the store knows the resource in its slot. -/
def bindMutationDestroyPlan (plan : MutationPlan) (resourceID createdAt : String) : Except String
    MutationPlan := do
  require (plan.capability == plan.binding.destroyCapability && resourceID != "" &&
    resourceID == plan.expectedResourceID && createdAt == plan.expectedResourceCreatedAt)
    "capacity mutation destroy identity does not match registered membership"
  .ok { plan with
    requestSHA256 := ext.projectionSHA256 { plan.approvedSpec with
      capability := plan.binding.destroyCapability
      expectedResourceID := resourceID
      expectedResourceCreatedAt := createdAt } }

/-! ## Reports -/

/-- `^[A-Za-z0-9_.-]{0,64}$`. -/
def mutationErrorCodePattern (s : String) : Bool :=
  s.length ≤ 64 && s.toList.all fun c => Text.isLower c || Text.isUpper c || Text.isDigit c ||
    c == '_' || c == '.' || c == '-'

/-- `^[a-z][a-z0-9_]{0,63}$`. -/
def mutationAuxiliaryKindPattern : String → Bool :=
  Text.headTail Text.isLower (fun c => Text.isLower c || Text.isDigit c || c == '_') 63

/-- Distinct names of at most `limit` bytes. -/
def distinctNames (limit : ℕ) (names : List String) : Bool :=
  names.all (fun id => id != "" && id.utf8ByteSize ≤ limit) && decide names.Nodup

/-- A resource is given with the time of its creation, or neither is. -/
def validMutationIdentity (id created : String) (required : Bool) : Bool :=
  if id = "" ∨ created = "" then !required && id == "" && created == ""
  else id.utf8ByteSize ≤ 128 && knownTime ext created

/-- The actions of a report; when none is required, there may be none. -/
def validMutationActions (first : String) (next : List String) (required : Bool) : Bool :=
  !(required && first == "") && next.length ≤ 32 &&
    ((!required && next.isEmpty && first == "") || distinctNames 256 (first :: next))

/-- At most 16 resources, each of a kind and an id, none twice. -/
def validMutationAuxiliaries (resources : List CapacityMutationAuxiliaryResource) : Bool :=
  resources.length ≤ 16 &&
    resources.all (fun r => mutationAuxiliaryKindPattern r.kind && r.id != "" &&
      r.id.utf8ByteSize ≤ 256) &&
    decide (resources.map fun r => r.kind ++ "/" ++ r.id).Nodup

/-- A fresh proof that the resource is owned and as specified. -/
def validMutationProof (p : CapacityPolicySpec) (proof : CapacityMutationProof) (now : ℤ) : Bool :=
  proof.ownerVerified && proof.specVerified && proof.receiptRef != "" &&
    proof.receiptRef.utf8ByteSize ≤ 512 &&
    fresh Machine.wrap proof.observedAt now p.maxEvidenceAgeSeconds &&
    validMutationIdentity ext proof.resourceID proof.resourceCreatedAt true

/-- The read covers every action of the report, and all of them have ended. -/
def completeMutationActionProof (record : CapacityMutationRecord)
    (proof : CapacityMutationProof) : Bool :=
  record.settlement.any (fun settled => settled.transportCompleted &&
    (settled.actionID :: settled.nextActionIDs).all fun id =>
      id == "" || proof.actionIDs.contains id) &&
    proof.actionsTerminal && !proof.actionIDs.isEmpty && proof.actionIDs.length ≤ 64 &&
    distinctNames 256 proof.actionIDs

/-- The read proves the success of the mutation. -/
def successfulOriginalMutationProof (pr : Providers) (record : CapacityMutationRecord)
    (proof : CapacityMutationProof) (now : ℤ) : Bool :=
  let g := record.grant
  let b := record.binding
  let aws := record.eventProvider == "aws" && awsOriginalMutationPair b && g.compensationOf == ""
  if aws && g.capability == b.ensureCapability then
    record.settlement.isSome && pr.awsCreateLifecycleComplete b g record.settlement proof now &&
      record.settlement.any (pr.awsCreateReturn b g record.attemptID · record.createdAt now)
  else if aws && g.capability == b.destroyCapability then
    pr.awsDestroyLifecycleComplete b g record.settlement proof now &&
      record.settlement.any (pr.awsDestroyReturn b g record.attemptID · record.createdAt now)
  else proof.awsRetirementLifecycle.isNone && proof.awsInstanceLifecycle.isNone &&
    completeMutationActionProof record proof && proof.actionsSuccessful && !proof.actionsFailed

end Yggdrasil.Capacity.Mutation
