import Yggdrasil.Capacity.Mutation.Plan
import Yggdrasil.Lib.Table

/-!
# The mutation ledger

The durable permissions to change a provider's resources, and the resources the core knows
(`Tables`). Each operation is one transaction. What it takes from the other tables, the clock and
the guards of other subsystems is its environment (`Env`), and is arbitrary at every call; the
intent of the scope is part of it. A call may also be refused or lost (`Step`).
-/

namespace Yggdrasil.Capacity.Mutation

open Check

/-! ## Tables -/

/-- A logical domain and dimension: what one intent is about. -/
structure Scope where
  ns : String
  environment : String
  domain : String
  dimension : String
  deriving DecidableEq

/-- The dimension of a policy. -/
def scopeOf (policy : Manifest) (p : CapacityPolicySpec) : Scope :=
  ⟨policy.ns, p.environment, p.domain, p.dimension⟩

/-- A slot of a provider, which is global over all scopes. -/
structure NativeSlot where
  integrationInstanceID : String
  scopeChecksum : String
  profileName : String
  slot : ℤ
  deriving DecidableEq

/-- A slot of a binding, as the provider knows it. -/
def nativeSlot (b : CapacityMutationBinding) (slot : ℤ) : NativeSlot :=
  ⟨b.integrationInstanceID, b.scopeChecksum, b.profileName, slot⟩

/-- A row of the grants. `foreignAuthority` marks the record of another authority. -/
structure GrantRow where
  scope : Scope
  record : CapacityMutationRecord
  originalDispositionID : Option String := none
  failedOriginalDispositionID : Option String := none
  nativeDeniedDispositionID : Option String := none
  enrolledFailedDispositionID : Option String := none
  foreignAuthority : Bool := false

namespace GrantRow

variable (r : GrantRow)

/-- Grants are stored by their id. -/
def id : String := r.record.grant.grantID

/-- The state of the grant. -/
def state : State := r.record.grant.state

/-- The slot of the grant, as the provider knows it. -/
def native : NativeSlot :=
  ⟨r.record.grant.integrationInstanceID, r.record.grant.scopeChecksum,
    r.record.grant.profileName, r.record.grant.slot⟩

/-- The row with its record in another state. -/
def withState (state : State) : GrantRow :=
  { r with record := { r.record with grant := { r.record.grant with state } } }

/-- The grant has not been disposed of in any way. -/
def undisposed : Bool :=
  r.originalDispositionID.isNone && r.failedOriginalDispositionID.isNone &&
    r.nativeDeniedDispositionID.isNone && r.enrolledFailedDispositionID.isNone

/-- The row of an adapter's permission to create. -/
def ensures : Bool := r.record.grant.capability == r.record.binding.ensureCapability

/-- The row of an adapter's permission to destroy. -/
def destroys : Bool :=
  r.record.grant.capability == r.record.binding.destroyCapability

end GrantRow

/-- The states in which a grant holds its native slot. -/
def State.isOpen : State → Bool
  | issued | redeemed | settled => true
  | _ => false

/-- The states in which the outcome of a grant is not known to the ledger. -/
def State.isPending : State → Bool
  | compensating => true
  | s => s.isOpen

/-- The rows that the unique index over open native slots covers. -/
def GrantRow.indexed (r : GrantRow) : Bool :=
  r.state.isOpen && r.undisposed && r.record.failedUnwitnessedExpansionCleanupID == ""

/-- The resource that is in a slot. -/
structure CapacityResourceSlot where
  failedServingDisposalID : String := ""
  bindingName : String
  profileName : String
  desiredSpecSHA256 : String
  resourceID : String
  resourceCreatedAt : String
  receiptRef : String
  observedAt : ℤ
  tombstone : Bool := false

/-- A slot of a dimension, as it is stored. -/
structure SlotRow where
  native : NativeSlot
  scope : Scope
  record : CapacityResourceSlot
  foreignAuthority : Bool := false

/-- The tables of the ledger. -/
structure Tables where
  grants : Table GrantRow.id
  slots : Table SlotRow.native

/-! ## What a transaction finds -/

/-- The stored type of an integration instance. -/
structure IntegrationType where
  checksum : String
  active : Bool
  ns : String
  name : String
  version : ℤ

/-- What one transaction finds around the two tables. -/
structure Env where
  now : ℤ
  newID : String
  /-- Checksum and activity of the caller's policy. -/
  stored : Option (String × Bool)
  /-- Activity of the pinned workflow. -/
  workflowActive : Option Bool
  intent : Option CapacityIntent
  /-- Checksum, activity and type of the integration instance. -/
  integrationInstance : Option (String × Bool × ManifestSelector)
  integrationType : Option IntegrationType
  /-- Provider and resource that the integration type declares for the binding. -/
  eventIdentity : Option (String × String)
  /-- The policy a record names: what it decodes to, its activity and checksum. -/
  recordPolicy : Option (CapacityPolicySpec × Bool × String)
  /-- The grants bound to an original host, which do not expire. -/
  hostBound : List String
  /-- The caller is the original provisioning step of a Guest. -/
  guestOriginal : Bool
  /-- The caller is the original factory of a host. -/
  hostOrdinary : Bool
  /-- An exact readback replaces what a lost reply did not report. -/
  postlossConfirmed : Bool
  /-- The second retirement protocol of a Guest proves the destruction. -/
  v2Original : Bool
  /-- What a guard of another subsystem objects to. -/
  refuses : Option CapacityError

/-- The stored integration is active and is the one the binding pins. -/
def checkMutationIntegration (env : Env) (b : CapacityMutationBinding) :
    Except CapacityError Unit :=
  match env.integrationInstance, env.integrationType with
  | some (checksum, active, ref), some type => do
    require (active && checksum == b.integrationChecksum) (.conflict "")
    require (type.active && type.checksum == b.integrationTypeChecksum) (.conflict "")
    require (if ref.manifestID != "" then ref.manifestID == b.integrationTypeID
      else (if ref.ns == "" then "global" else ref.ns) == type.ns && ref.name == type.name &&
        ref.version.all (· == type.version)) (.conflict "")
  | _, _ => .error (.invalid "")

/-- The lease of the intent; a historical transaction may hold a recovery lease. -/
def checkHeldLease (ext : External) (env : Env) (store : CapacityStore) (policy : Manifest)
    (historical : Bool) (p : CapacityPolicySpec) (intent : CapacityIntent)
    (generation fence : ℤ) (owner : String) : Except CapacityError CapacityIntent :=
  if historical && intent.recoveryOnly then
    checkRecoveryLease ext store policy env.now (some intent) generation fence owner
  else checkLease ext store policy p env.now (some intent) generation fence owner

/-- The transaction of a caller that holds the lease of the intent. -/
def mutationTransaction (ext : External) (env : Env) (store : CapacityStore) (policy : Manifest)
    (historical : Bool) (generation fence : ℤ) (owner : String) :
    Except CapacityError (CapacityPolicySpec × CapacityIntent) := do
  let p ← parseCapacityPolicy ext policy
  require (store.workflowID != nilUUID) .authorization
  match env.stored, env.workflowActive, env.intent with
  | some (checksum, active), some workflowActive, some intent => do
    require (checksum == policy.checksum && (historical || active)) (.conflict "")
    require workflowActive .authorization
    requireNone env.refuses
    require (active || intent.recoveryOnly) (.conflict "")
    let intent ← checkHeldLease ext env store policy historical p intent generation fence owner
    .ok (p, intent)
  | _, _, _ => .error (.invalid "")

/-! ## Reading and writing rows -/

/-- The slot of a scope; a slot of another scope or authority is an error. -/
def loadMutationSlot (slots : Table SlotRow.native) (scope : Scope)
    (b : CapacityMutationBinding) (slot : ℤ) :
    Except CapacityError (Option CapacityResourceSlot) :=
  match slots.get? (nativeSlot b slot) with
  | none => .ok none
  | some row => do
    require (row.scope == scope) (.conflict "")
    require (!row.foreignAuthority) (.invalid "VM ledger rejects explicit foreign authority")
    .ok (some row.record)

/-- Writes a slot. A resource of an instance is in one slot only. -/
def saveMutationSlot (slots : Table SlotRow.native) (scope : Scope)
    (b : CapacityMutationBinding) (slot : ℤ) (record : CapacityResourceSlot) :
    Except CapacityError (Table SlotRow.native) := do
  let native := nativeSlot b slot
  require ((slots.get? native).all fun row => !row.foreignAuthority && row.scope == scope)
    (.conflict "")
  require (record.resourceID == "" || slots.rows.all fun row => row.native == native ||
    row.native.integrationInstanceID != native.integrationInstanceID ||
    row.record.resourceID != record.resourceID) (.invalid "duplicate resource")
  .ok (slots.upsert { native, scope, record })

/-- A row that time expires: issued, never redeemed, and not bound to an original host. -/
def expirable (env : Env) (scope : Scope) (r : GrantRow) : Bool :=
  !r.foreignAuthority && r.scope == scope && r.state == .issued &&
    r.record.grant.expiresAt ≤ env.now && !env.hostBound.contains r.id

/-- Expires the permissions of a scope that were never redeemed. -/
def expireIssued (env : Env) (scope : Scope) (grants : Table GrantRow.id) : Table GrantRow.id :=
  grants.map (fun r => if expirable env scope r then r.withState .expired else r) fun r => by
    split <;> rfl

/-- Inserts a row: its identifier is new, and so is its native slot among the open ones. -/
def insertGrant (grants : Table GrantRow.id) (row : GrantRow) :
    Except CapacityError (Table GrantRow.id) := do
  require (!(row.indexed && grants.rows.any fun r => r.indexed && r.native == row.native))
    (.invalid "duplicate open slot")
  match grants.insert? row with
  | none => .error (.invalid "duplicate identifier")
  | some grants => .ok grants

/-! ## Counting -/

/-- A slot of the scope that holds a resource. -/
def SlotRow.live (scope : Scope) (r : SlotRow) : Bool :=
  !r.foreignAuthority && r.scope == scope && r.record.resourceID != ""

variable (t : Tables)

/-- How many slots of a dimension have a resource. -/
def liveSlots (scope : Scope) : ℕ := t.slots.count (SlotRow.live scope)

/-- A row that the budgets of a scope count. -/
def GrantRow.counted (scope : Scope) (r : GrantRow) : Bool :=
  r.undisposed && !r.foreignAuthority && r.scope == scope

/-- The creations of a scope whose outcome is not known. -/
def pendingEnsures (scope : Scope) : ℕ :=
  t.grants.count fun r => r.counted scope && r.state.isPending && r.ensures

/-- The ordinary destructions of a scope whose outcome is not known. -/
def pendingDestroys (scope : Scope) : ℕ :=
  t.grants.count fun r => r.counted scope && r.state.isOpen && r.destroys &&
    r.record.grant.compensationOf == ""

/-- The grants of a generation that have not come to nothing. -/
def startedGrants (scope : Scope) (generation : ℤ) : ℕ :=
  t.grants.count fun r => r.counted scope && r.record.generation == generation &&
    r.state != .expired && r.state != .rejected

/-- The grants of a scope that keep its intent from being closed. -/
def unresolvedGrants (scope : Scope) : ℕ :=
  t.grants.count fun r => r.counted scope && r.state.isPending

/-- The live slots of a scope that were read recently. -/
def freshSlots (scope : Scope) (p : CapacityPolicySpec) (now : ℤ) : ℕ :=
  t.slots.count fun r => r.live scope &&
    now + seconds Machine.wrap (-p.maxEvidenceAgeSeconds) ≤ r.record.observedAt &&
    r.record.observedAt ≤ now + seconds Machine.wrap 5

/-! ## Issue -/

section Issue

variable (ext : External) (pr : Providers) (env : Env) (store : CapacityStore)
  (policy : Manifest)

variable (p : CapacityPolicySpec)

/-- A creation prepares an expansion, a destruction follows the drain of a reduction. -/
def checkPhase (intent : CapacityIntent) (plan : MutationPlan) : Except CapacityError Unit := do
  let b := plan.binding
  require (b.profileName == intent.decision.profile &&
    capacityProfileCurrent p intent.decision env.now) (.conflict "")
  require (plan.capability != b.ensureCapability ||
    (intent.phase == .preparing && !capacityIntentReduction intent)) (.conflict "")
  require (plan.capability != b.destroyCapability ||
    (intent.phase == .drained && capacityIntentReduction intent)) (.conflict "")

/-- The plan of a destruction is bound to the resource in the slot. -/
def boundPlan (plan : MutationPlan) (slot : Option CapacityResourceSlot) :
    Except CapacityError MutationPlan :=
  if plan.capability = plan.binding.destroyCapability then
    match slot with
    | none => .error (.conflict "")
    | some slot =>
      match bindMutationDestroyPlan ext plan slot.resourceID slot.resourceCreatedAt with
      | .ok plan => .ok plan
      | .error _ => .error (.conflict "")
  else .ok plan

/-- The room for one more mutation. No destruction is issued while a creation is pending. -/
def checkBudget (intent : CapacityIntent) (plan : MutationPlan) (slot : Option CapacityResourceSlot)
    (t : Tables) (generation : ℤ) : Except CapacityError Unit := do
  let scope := scopeOf policy p
  let live := liveSlots t scope
  let pending := pendingEnsures t scope
  require (startedGrants t scope generation != 0 || live == intent.baselineSnapshot.units)
    (.conflict "native membership has not been completely registered")
  require (freshSlots t scope p env.now == live) (.conflict "native membership readback is stale")
  if plan.capability = plan.binding.ensureCapability then
    require (slot.all (·.resourceID == "") && live + pending < intent.decision.units &&
      live + pending < p.ceiling) (.conflict "")
  else
    require (slot.any (fun slot => slot.resourceID == plan.expectedResourceID &&
        slot.resourceCreatedAt == plan.expectedResourceCreatedAt &&
        slot.profileName == plan.binding.profileName) &&
      intent.decision.units < live - (pendingDestroys t scope : ℤ) &&
      p.floor < live - (pendingDestroys t scope : ℤ) && pending == 0) (.conflict "")

/-- The permission that a plan becomes: it lasts a minute, and no longer than the lease. -/
def newGrant (intent : CapacityIntent) (plan : MutationPlan) : CapacityMutationGrant where
  grantID := env.newID
  bindingName := plan.binding.name
  integrationInstanceID := plan.binding.integrationInstanceID
  scopeChecksum := plan.binding.scopeChecksum
  profileName := plan.binding.profileName
  slot := plan.slot
  capability := plan.capability
  requestSHA256 := plan.requestSHA256
  expectedResourceID := plan.expectedResourceID
  expectedResourceCreatedAt := plan.expectedResourceCreatedAt
  expiresAt := intent.leaseExpiresAt.elim (env.now + 60 * Instant.second)
    (min (env.now + 60 * Instant.second))
  state := .issued

/-- The row of a grant that is issued. -/
def newRow (intent : CapacityIntent) (plan : MutationPlan) (event : String × String)
    (generation fence : ℤ) (owner : String) : GrantRow where
  scope := scopeOf policy p
  record :=
    { grant := newGrant env intent plan, binding := plan.binding, policyID := policy.id,
      policyChecksum := policy.checksum, workflowID := store.workflowID, generation,
      fencingToken := fence, leaseOwner := owner, executorID := store.executorID,
      createdAt := env.now, eventProvider := event.1, eventResource := event.2 }

/-- The permission that holds the native slot already, which only its own request gets. -/
def replayGrant (plan : MutationPlan) (generation fence : ℤ) (row : GrantRow) :
    Except CapacityError CapacityMutationGrant := do
  require (!row.foreignAuthority) (.invalid "VM ledger rejects explicit foreign authority")
  require (row.record.policyID == policy.id && row.record.generation == generation &&
    row.record.fencingToken == fence && row.record.executorID == store.executorID &&
    row.record.grant.requestSHA256 == plan.requestSHA256) (.conflict "")
  .ok row.record.grant

/-- Creates one durable permission. -/
def issueMutation (generation fence : ℤ) (owner : String) (issue : CapacityMutationIssue)
    (t : Tables) : Except CapacityError (Tables × CapacityMutationGrant) := do
  let (p, intent) ← mutationTransaction ext env store policy false generation fence owner
  require (intent.failedUnwitnessedExpansionCleanupID == "" &&
    intent.failedExpansionTerminalReconcile.isNone) (.conflict "")
  let plan ← checked (prepareMutationPlan ext pr p issue)
  let b := plan.binding
  require (plan.capability != b.ensureCapability ||
    (p.hasGuestRetirementBinding && env.guestOriginal))
    (.conflict "original Guest provisioning step and profile required before create")
  checkMutationIntegration env b
  match env.eventIdentity with
  | none => .error (.conflict "")
  | some event => do
    checkPhase env p intent plan
    let slot ← loadMutationSlot t.slots (scopeOf policy p) b plan.slot
    let plan ← boundPlan ext plan slot
    let t := { t with grants := expireIssued env (scopeOf policy p) t.grants }
    match t.grants.rows.find? fun r => r.undisposed && r.native == nativeSlot b plan.slot &&
        r.state.isPending with
    | some row => do
      let grant ← replayGrant store policy plan generation fence row
      .ok (t, grant)
    | none => do
      require (t.grants.rows.all fun r => r.native != nativeSlot b plan.slot ||
        r.scope == scopeOf policy p) (.conflict "")
      checkBudget env policy p intent plan slot t generation
      let row := newRow env store policy p intent plan event generation fence owner
      let grants ← insertGrant t.grants row
      .ok ({ t with grants }, row.record.grant)

end Issue

/-! ## Callbacks of the adapter -/

section Callbacks

variable (ext : External) (pr : Providers) (env : Env)

/-- The transaction of a callback, which needs no lease. -/
def callbackTransaction {α : Type} (id : String)
    (fn : CapacityMutationRecord → Except CapacityError (CapacityMutationRecord × α))
    (t : Tables) : Except CapacityError (Tables × α) :=
  match (ext.parseUUID id).filter (· != nilUUID) with
  | none => .error .authorization
  | some id =>
    match t.grants.get? id with
    | none => .error (.invalid "")
    | some row => do
      require (!row.foreignAuthority) (.invalid "VM ledger rejects explicit foreign authority")
      requireNone env.refuses
      let (record, reply) ← fn row.record
      .ok ({ t with grants := t.grants.set { row with record } }, reply)

/-- The policy, the integration and the workflow of the record are still in force. -/
def checkRecordPolicy (store : CapacityStore) (record : CapacityMutationRecord) :
    Except CapacityError CapacityPolicySpec :=
  match env.recordPolicy with
  | none => .error (.invalid "")
  | some (p, active, checksum) => do
    require store.executionEnabled .disabled
    require (active && checksum == record.policyChecksum && p.executionEnabled) .disabled
    checkMutationIntegration env record.binding
    match env.workflowActive with
    | none => .error (.invalid "")
    | some active => do
      require active (.conflict "")
      .ok p

/-- An ordinary grant is redeemed under the lease it was issued under. -/
def checkRecordLease (store : CapacityStore) (record : CapacityMutationRecord)
    (p : CapacityPolicySpec) : Except CapacityError Unit :=
  if record.failedUnwitnessedExpansionCleanupID != "" || record.grant.compensationOf != "" then
    .ok ()
  else
    match env.intent with
    | none => .error (.invalid "")
    | some intent => do
      require (intent.failedUnwitnessedExpansionCleanupID == "" &&
        intent.failedExpansionTerminalReconcile.isNone) (.conflict "")
      let intent ← checkLease ext { store with executorID := record.executorID }
        ⟨"", record.policyID, "", "", record.policyChecksum, none⟩ p env.now (some intent)
        record.generation record.fencingToken record.leaseOwner
      require (capacityProfileCurrent p intent.decision env.now) (.conflict "")

/-- The request names the grant as it was issued. -/
def sameGrant (principal : String) (r : CapacityMutationRedeemRequest)
    (record : CapacityMutationRecord) : Bool :=
  let g := record.grant
  principal == record.binding.adapterPrincipalID && r.capability == g.capability &&
    r.integrationInstanceID == g.integrationInstanceID && r.scopeChecksum == g.scopeChecksum &&
    r.profileName == g.profileName && r.slot == g.slot && r.requestSHA256 == g.requestSHA256 &&
    r.expectedResourceID == g.expectedResourceID &&
    r.expectedResourceCreatedAt == g.expectedResourceCreatedAt &&
    r.compensationOf == g.compensationOf

/-- The record after a redemption, and whether its caller may write, which a replay may not. -/
def redeemRecord (store : CapacityStore) (r : CapacityMutationRedeemRequest)
    (record : CapacityMutationRecord) :
    Except CapacityError (CapacityMutationRecord × Mode) :=
  if record.grant.state ≠ .issued then .ok (record, .readOnly)
  else if record.grant.expiresAt ≤ env.now then
    .ok ({ record with grant := { record.grant with state := .expired } }, .readOnly)
  else do
    let p ← checkRecordPolicy env store record
    checkRecordLease ext env store record p
    .ok ({ record with
      attemptID := r.attemptID
      settlementTokenSHA256 := r.settlementTokenSHA256
      grant := { record.grant with state := .redeemed } }, .writeOnce)

/-- Gives the adapter its one permission to write. -/
def redeemMutation (store : CapacityStore) (principal : String)
    (r : CapacityMutationRedeemRequest) (t : Tables) :
    Except CapacityError (Tables × CapacityMutationRedeemResponse) := do
  require (validCapacityExecutor ext r.attemptID && validDigest r.settlementTokenSHA256)
    .authorization
  callbackTransaction ext env r.grantID (fun record => do
    require (sameGrant principal r record) .authorization
    let (next, mode) ← redeemRecord ext env store r record
    .ok (next, { mode, grantID := r.grantID, attemptID := r.attemptID,
                 requestSHA256 := r.requestSHA256, expiresAt := record.grant.expiresAt,
                 compensationOf := record.grant.compensationOf })) t

variable (r : CapacityMutationSettleRequest)

variable (record : CapacityMutationRecord)

/-- The report has the provider's own return where the binding pins a provider. -/
def checkProviderReturn : Except CapacityError Unit := do
  let g := record.grant
  let b := record.binding
  require (!(r.originalProviderCreateReturn.isSome || (b.originalProviderSourceCommit != "" &&
      g.capability == b.ensureCapability && r.outcome == .accepted)) ||
    ((record.eventProvider == "hetzner" || record.eventProvider == "aws") &&
      (if record.eventProvider == "aws" then pr.awsCreateReturn else pr.hetznerCreateReturn)
        b g record.attemptID r record.createdAt env.now)) .authorization
  require (!(r.originalProviderDestroyReturn.isSome || (record.eventProvider == "aws" &&
      awsOriginalMutationPair b && g.capability == b.destroyCapability &&
      r.outcome == .accepted)) ||
    (record.eventProvider == "aws" &&
      pr.awsDestroyReturn b g record.attemptID r record.createdAt env.now)) .authorization

/-- A report of nothing: no resource, no action, no inventory. -/
def CapacityMutationSettleRequest.vacuous : Bool :=
  r.resourceID == "" && r.resourceCreatedAt == "" && r.actionID == "" &&
    r.nextActionIDs.isEmpty && r.auxiliaryResources.isEmpty && !r.auxiliaryInventoryComplete

/-- The report is what its outcome allows. -/
def checkReport : Except CapacityError Unit :=
  let g := record.grant
  let b := record.binding
  match ext.parseTime r.observedAt with
  | none => .error .authorization
  | some observed => do
    require (record.createdAt - 5 * Instant.second ≤ observed &&
      observed ≤ env.now + 5 * Instant.second) .authorization
    require (validMutationIdentity ext r.resourceID r.resourceCreatedAt (r.outcome == .accepted) &&
      validMutationActions r.actionID r.nextActionIDs (r.outcome == .accepted)) .authorization
    require (validMutationAuxiliaries r.auxiliaryResources) .authorization
    require (!(g.capability == b.destroyCapability && r.outcome == .accepted) ||
      (r.auxiliaryInventoryComplete && r.auxiliaryResources.all (·.requiresAbsence)))
      .authorization
    require (!(r.resourceID != "" && g.capability == b.ensureCapability) ||
      (record.createdAt - 5 * Instant.second ≤ (ext.parseTime r.resourceCreatedAt).getD 0 &&
        (ext.parseTime r.resourceCreatedAt).getD 0 ≤ observed + 5 * Instant.second))
      .authorization
    require (r.outcome != .rejectedBeforeSend || r.vacuous) .authorization
    require (if r.outcome == .providerRejected then
        r.vacuous && b.definitiveRejections.any fun rejection =>
          rejection.statusCode == r.providerStatusCode &&
            rejection.errorCode == r.providerErrorCode
      else r.providerStatusCode == 0) .authorization
    require (!(g.expectedResourceID != "" && r.resourceID != "") ||
      (g.expectedResourceID == r.resourceID &&
        g.expectedResourceCreatedAt == r.resourceCreatedAt)) .authorization

/-- The record after a report. The first report stays; only the same one is repeated. -/
def settleRecord : Except CapacityError CapacityMutationRecord :=
  match record.settlement with
  | some old => do
    require (old == r) (.conflict "")
    .ok record
  | none => do
    require (record.grant.state == .redeemed) (.conflict "")
    .ok { record with
      settlement := some r
      grant := { record.grant with
        state := if r.outcome == .rejectedBeforeSend || r.outcome == .providerRejected then
          .rejected else .settled } }

/-- Records the adapter's report, which only the holder of the settlement token can make. -/
def settleMutation (principal nonce : String) (r : CapacityMutationSettleRequest) (t : Tables) :
    Except CapacityError (Tables × CapacityMutationGrant) := do
  require (32 ≤ nonce.utf8ByteSize && nonce.utf8ByteSize ≤ 256 && r.transportCompleted &&
    validCapacityExecutor ext r.attemptID && validDigest r.requestSHA256 &&
    mutationErrorCodePattern r.providerErrorCode) .authorization
  require (r.outcome == .accepted || r.outcome == .uncertain ||
    r.outcome == .rejectedBeforeSend || r.outcome == .providerRejected) .authorization
  callbackTransaction ext env r.grantID (fun record => do
    require (ext.sha256Hex nonce == record.settlementTokenSHA256 &&
      principal == record.binding.adapterPrincipalID && record.attemptID == r.attemptID &&
      record.grant.requestSHA256 == r.requestSHA256) .authorization
    checkProviderReturn pr env r record
    checkReport ext env r record
    let next ← settleRecord r record
    .ok (next, next.grant)) t

end Callbacks

/-! ## Reads of the workflow -/

section Reads

variable (ext : External) (pr : Providers) (env : Env) (store : CapacityStore)
  (policy : Manifest)

variable (record : CapacityMutationRecord)

/-- A confirmation that is recorded already, with the same read. -/
def confirmedAlready (proof : CapacityMutationProof) : Bool :=
  record.policyID == policy.id && record.policyChecksum == policy.checksum &&
    record.workflowID == store.workflowID && record.grant.state == .confirmed &&
    record.proof == some proof

/-- The lost reply of a creation without an action or a lifetime cannot be bound to a read. -/
def unreportedCreation : Bool :=
  record.grant.capability == record.binding.ensureCapability &&
    record.grant.compensationOf == "" && record.settlement.any fun settled =>
      settled.outcome == .uncertain && (settled.actionID == "" || settled.resourceID == "" ||
        settled.resourceCreatedAt == "")

/-- The read is of the settled grant, is fresh, and proves its success. -/
def checkConfirmation (p : CapacityPolicySpec) (record : CapacityMutationRecord)
    (proof : CapacityMutationProof) : Except CapacityError CapacityMutationSettleRequest := do
  let g := record.grant
  let b := record.binding
  require (!(!env.hostOrdinary && unreportedCreation record && !env.postlossConfirmed))
    (.conflict "")
  require (record.policyID == policy.id && record.policyChecksum == policy.checksum &&
    record.workflowID == store.workflowID && g.compensationOf == "" && g.state == .settled)
    (.conflict "")
  match record.settlement with
  | none => .error (.conflict "")
  | some settled => do
    require (settled.transportCompleted && proof.bindingName == b.name && proof.slot == g.slot &&
      proof.requestSHA256 == g.requestSHA256 && validMutationProof ext p proof env.now &&
      (env.v2Original || successfulOriginalMutationProof pr record proof env.now)) (.conflict "")
    require (settled.resourceID == "" || (settled.resourceID == proof.resourceID &&
      settled.resourceCreatedAt == proof.resourceCreatedAt)) (.conflict "")
    require (g.capability != b.ensureCapability || (proof.observedCreationGrantID == g.grantID &&
      record.createdAt - 5 * Instant.second ≤ (ext.parseTime proof.resourceCreatedAt).getD 0 &&
      (ext.parseTime proof.resourceCreatedAt).getD 0 ≤ proof.observedAt + 5 * Instant.second))
      (.conflict "")
    .ok settled

/-- Every resource that goes with the destroyed one was read to be absent. -/
def auxiliariesAbsent (settled : CapacityMutationSettleRequest) (proof : CapacityMutationProof) :
    Bool :=
  settled.auxiliaryInventoryComplete && validMutationAuxiliaries proof.auxiliaryAbsent &&
    settled.auxiliaryResources.all fun aux => !aux.requiresAbsence ||
      proof.auxiliaryAbsent.any fun absent => aux.kind == absent.kind && aux.id == absent.id

/-- The slot after a confirmation: a destruction leaves a tombstone, a creation fills it. -/
def confirmedSlot (settled : CapacityMutationSettleRequest) (proof : CapacityMutationProof)
    (slot : Option CapacityResourceSlot) : Except CapacityError CapacityResourceSlot :=
  let g := record.grant
  let b := record.binding
  if g.capability = b.destroyCapability then
    match slot with
    | none => .error (.conflict "")
    | some slot => do
      require (auxiliariesAbsent settled proof) (.conflict "")
      require (proof.resourceAbsent && slot.resourceID == g.expectedResourceID &&
        slot.resourceCreatedAt == g.expectedResourceCreatedAt &&
        proof.resourceID == g.expectedResourceID &&
        proof.resourceCreatedAt == g.expectedResourceCreatedAt && b.protectedSlots < g.slot)
        (.conflict "")
      .ok { slot with
        resourceID := ""
        tombstone := true
        receiptRef := proof.receiptRef
        observedAt := proof.observedAt }
  else do
    require (!proof.resourceAbsent && slot.all (·.resourceID == "")) (.conflict "")
    .ok { bindingName := b.name, profileName := b.profileName,
          desiredSpecSHA256 := g.requestSHA256, resourceID := proof.resourceID,
          resourceCreatedAt := proof.resourceCreatedAt, receiptRef := proof.receiptRef,
          observedAt := proof.observedAt }

/-- The event of a confirmation has a name that can be routed. -/
def checkEvent : Except CapacityError Unit :=
  require ((mutationAuxiliaryKindPattern record.eventProvider ||
    pr.nativeQEMUProviderEnabled record.eventProvider) &&
    mutationAuxiliaryKindPattern record.eventResource) (.conflict "")

/-- The confirmation of one grant. -/
def confirmRow (p : CapacityPolicySpec) (row : GrantRow) (proof : CapacityMutationProof)
    (t : Tables) : Except CapacityError (Tables × CapacityMutationGrant) :=
  let record := row.record
  if confirmedAlready store policy record proof then .ok (t, record.grant)
  else do
    let settled ← checkConfirmation ext pr env store policy p record proof
    let slot ← loadMutationSlot t.slots (scopeOf policy p) record.binding record.grant.slot
    let slot ← confirmedSlot record settled proof slot
    let slots ← saveMutationSlot t.slots (scopeOf policy p) record.binding record.grant.slot slot
    checkEvent pr record
    let next := { record with
      grant := { record.grant with state := .confirmed }
      proof := some proof }
    .ok (⟨t.grants.set { row with record := next }, slots⟩, next.grant)

/-- Confirms a settled grant from a fresh read, which cannot replace a missing report. -/
def confirmMutation (generation fence : ℤ) (owner : String) (proof : CapacityMutationProof)
    (t : Tables) : Except CapacityError (Tables × CapacityMutationGrant) := do
  let (p, _) ← mutationTransaction ext env store policy true generation fence owner
  match (ext.parseUUID proof.grantID).bind t.grants.get? with
  | none => .error (.invalid "")
  | some row => do
    require (row.scope == scopeOf policy p && row.record.generation == generation) (.invalid "")
    require (!row.foreignAuthority) (.invalid "VM ledger rejects explicit foreign authority")
    confirmRow ext pr env store policy p row proof t

/-- The slot that a read is registered in is new to the ledger, or has the same resource. -/
def checkRegistration (intent : CapacityIntent) (plan : MutationPlan)
    (proof : CapacityMutationProof) (slot : Option CapacityResourceSlot) (t : Tables) :
    Except CapacityError Unit :=
  let native := nativeSlot plan.binding plan.slot
  match slot with
  | none => require (t.grants.rows.all (·.native != native) && !intent.recoveryOnly) (.conflict "")
  | some slot => require (!slot.tombstone && slot.resourceID == proof.resourceID &&
      slot.resourceCreatedAt == proof.resourceCreatedAt &&
      slot.desiredSpecSHA256 == plan.requestSHA256) (.conflict "")

/-- A recovery may still read through an integration that is no longer in force. -/
def checkLiveIntegration (intent : CapacityIntent) (b : CapacityMutationBinding) :
    Except CapacityError Unit :=
  if intent.recoveryOnly then .ok () else checkMutationIntegration env b

/-- Registers an existing resource from a fresh read, or refreshes it. -/
def recordMutationSlot (generation fence : ℤ) (owner : String) (issue : CapacityMutationIssue)
    (proof : CapacityMutationProof) (t : Tables) : Except CapacityError Tables := do
  let (p, intent) ← mutationTransaction ext env store policy true generation fence owner
  let plan ← checked (prepareMutationPlan ext pr p issue)
  let b := plan.binding
  require (plan.capability == b.ensureCapability && !proof.resourceAbsent &&
    proof.bindingName == b.name && proof.slot == plan.slot &&
    proof.requestSHA256 == plan.requestSHA256 && validMutationProof ext p proof env.now)
    (.conflict "")
  checkLiveIntegration env intent b
  require (t.grants.rows.all fun r => !(r.undisposed && r.state.isPending &&
    r.native == nativeSlot b plan.slot)) (.conflict "")
  let slot ← loadMutationSlot t.slots (scopeOf policy p) b plan.slot
  checkRegistration intent plan proof slot t
  let slots ← saveMutationSlot t.slots (scopeOf policy p) b plan.slot
    { bindingName := b.name, profileName := b.profileName,
      desiredSpecSHA256 := plan.requestSHA256, resourceID := proof.resourceID,
      resourceCreatedAt := proof.resourceCreatedAt, receiptRef := proof.receiptRef,
      observedAt := proof.observedAt }
  .ok { t with slots }

/-- What a terminal transition of the intent does to the ledger of its scope. -/
def closeScope (scope : Scope) (t : Tables) : Except CapacityError Tables := do
  let t := { t with grants := expireIssued env scope t.grants }
  require (unresolvedGrants t scope == 0) (.conflict "unresolved provider mutation authority")
  .ok t

end Reads

/-! ## Runs -/

/-- The transactions of the ledger. -/
inductive Operation
  | issue (store : CapacityStore) (policy : Manifest) (generation fence : ℤ) (owner : String)
      (issue : CapacityMutationIssue)
  | redeem (store : CapacityStore) (principal : String) (request : CapacityMutationRedeemRequest)
  | settle (principal nonce : String) (request : CapacityMutationSettleRequest)
  | confirm (store : CapacityStore) (policy : Manifest) (generation fence : ℤ) (owner : String)
      (proof : CapacityMutationProof)
  | recordSlot (store : CapacityStore) (policy : Manifest) (generation fence : ℤ)
      (owner : String) (issue : CapacityMutationIssue) (proof : CapacityMutationProof)
  | close (scope : Scope)

/-- What a transaction replies. -/
inductive Reply
  | grant (grant : CapacityMutationGrant)
  | redemption (response : CapacityMutationRedeemResponse)
  | done

/-- One transaction: the tables it leaves when it commits, and its reply. -/
def perform (ext : External) (pr : Providers) (operation : Operation) (env : Env) (t : Tables) :
    Except CapacityError (Tables × Reply) :=
  match operation with
  | .issue store policy generation fence owner issue => do
    let (t, grant) ← issueMutation ext pr env store policy generation fence owner issue t
    .ok (t, .grant grant)
  | .redeem store principal request => do
    let (t, response) ← redeemMutation ext env store principal request t
    .ok (t, .redemption response)
  | .settle principal nonce request => do
    let (t, grant) ← settleMutation ext pr env principal nonce request t
    .ok (t, .grant grant)
  | .confirm store policy generation fence owner proof => do
    let (t, grant) ← confirmMutation ext pr env store policy generation fence owner proof t
    .ok (t, .grant grant)
  | .recordSlot store policy generation fence owner issue proof => do
    let t ← recordMutationSlot ext pr env store policy generation fence owner issue proof t
    .ok (t, .done)
  | .close scope => do
    let t ← closeScope env scope t
    .ok (t, .done)

/-- A call that committed, with the reply that its caller got or lost. -/
structure Committed where
  operation : Operation
  env : Env
  reply : Reply

/-- A call commits, or leaves the tables as they are (`none`). -/
inductive Step (ext : External) (pr : Providers) : Tables → Option Committed → Tables → Prop
  | commit {t t' : Tables} {c : Committed} :
      perform ext pr c.operation c.env t = .ok (t', c.reply) → Step ext pr t (some c) t'
  | refuse (t : Tables) : Step ext pr t none t

section Execute

variable (ext : External) (pr : Providers) (calls : ℕ → Option (Operation × Env))
  (start : Tables)

/-- The tables that a sequence of calls leaves, each call committing when it can. -/
def execute : ℕ → Tables
  | 0 => start
  | n + 1 =>
    match calls n with
    | none => execute n
    | some (operation, env) =>
      match perform ext pr operation env (execute n) with
      | .ok (t, _) => t
      | .error _ => execute n

/-- The calls of a sequence that commit, with their replies. -/
def committed (n : ℕ) : Option Committed :=
  match calls n with
  | none => none
  | some (operation, env) =>
    match perform ext pr operation env (execute ext pr calls start n) with
    | .ok (_, reply) => some ⟨operation, env, reply⟩
    | .error _ => none

theorem calls_of_committed {n : ℕ} {c : Committed} (h : committed ext pr calls start n = some c) :
    calls n = some (c.operation, c.env) := by
  unfold committed at h
  split at h
  · cases h
  · split at h
    · cases h
      assumption
    · cases h

theorem isRun_execute :
    IsRun (Step ext pr) (execute ext pr calls start) (committed ext pr calls start) := by
  intro n
  rw [committed, execute]
  cases hcall : calls n with
  | none => exact .refuse _
  | some call =>
    obtain ⟨operation, env⟩ := call
    cases hperform : perform ext pr operation env (execute ext pr calls start n) with
    | error e => simpa [hperform] using Step.refuse _
    | ok result =>
      obtain ⟨t, reply⟩ := result
      simpa [hperform] using Step.commit (c := ⟨operation, env, reply⟩) hperform

end Execute

/-! ## A small ledger -/

namespace Sample

/-- A digest in hexadecimal digits. -/
def digest : String := "0123456789abcdef0123456789abcdef0123456789abcdef0123456789abcdef"

/-- One digest for everything, and every timestamp is of second 101. -/
def external : External :=
  { Capacity.Sample.external with
    projectionSHA256 := fun _ => digest
    sha256Hex := fun _ => digest
    parseTime := fun _ => some (101 * Instant.second) }

/-- The approved projection of a slot. -/
def spec (slot : ℤ) : CapacityMutationSpecV1 :=
  ⟨"capacity_vm_slot_v1", "ensure_server", "instance", digest, digest, digest, "large", slot,
    "node", digest, "", ""⟩

/-- The one text that decodes is the spec of the first slot. -/
def providers : Providers where
  decodeSpec text := if text = "first" then .ok (spec 1) else .error ""
  hetznerCreateReturn _ _ _ _ _ _ := false
  awsCreateReturn _ _ _ _ _ _ := false
  awsDestroyReturn _ _ _ _ _ _ := false
  awsCreateLifecycleComplete _ _ _ _ _ := false
  awsDestroyLifecycleComplete _ _ _ _ _ := false
  nativeQEMUProviderEnabled _ := false

/-- Two slots of large units, neither of them protected. -/
def binding : CapacityMutationBinding :=
  ⟨"", "vm", "instance", digest, "type", digest, "adapter", digest, "large", "ensure_server",
    "destroy_server", 0, 2, [⟨1, digest, some (spec 1)⟩, ⟨2, digest, some (spec 2)⟩], [], false⟩

/-- A policy with a binding. -/
def policy : CapacityPolicySpec :=
  { Capacity.Sample.policy with
    mutationBindings := [binding]
    hasGuestRetirementBinding := true }

/-- The manifest of the policy. -/
def manifest : Manifest := ⟨"capacity_policy", "policy", "ops", "web", "checksum", some policy⟩

/-- A store with an executor. -/
def store : CapacityStore := ⟨true, "executor", "workflow", "", false, none⟩

/-- The dimension of the policy. -/
def scope : Scope := scopeOf manifest policy

/-- A leased generation that expands one large unit to two. -/
def intent : CapacityIntent where
  ns := "ops"
  policyName := "web"
  policyID := "policy"
  policyChecksum := "checksum"
  environment := "prod"
  domain := "web"
  dimension := "guests"
  generation := 1
  fencingToken := 1
  phase := .preparing
  leaseOwner := "owner"
  leaseExecutorID := "executor"
  leaseExpiresAt := some (130 * Instant.second)
  baselineSnapshot := Capacity.Sample.snapshot 1 100
  decision := ⟨.prepare, .sustainedPressure, "large", 2, 1, true, {}⟩
  assessment := Capacity.Sample.assessment 1 90 100
  updatedAt := 100 * Instant.second

/-- What a call at `t` seconds finds: everything is in force and no guard objects. -/
def env (t : ℤ) : Env where
  now := t * Instant.second
  newID := "grant"
  stored := some ("checksum", true)
  workflowActive := some true
  intent := some intent
  integrationInstance := some (digest, true, ⟨"type", "", "", none⟩)
  integrationType := some ⟨digest, true, "global", "cloud", 1⟩
  eventIdentity := some ("cloud", "server")
  recordPolicy := some (policy, true, "checksum")
  hostBound := []
  guestOriginal := true
  hostOrdinary := false
  postlossConfirmed := false
  v2Original := false
  refuses := none

/-- The grant is redeemed for an attempt. -/
def redemption : CapacityMutationRedeemRequest :=
  ⟨"grant", "attempt", digest, "ensure_server", "instance", digest, "large", 1, digest, "", "", ""⟩

/-- The provider has accepted the attempt. -/
def report : CapacityMutationSettleRequest where
  grantID := "grant"
  attemptID := "attempt"
  requestSHA256 := digest
  outcome := .accepted
  transportCompleted := true
  resourceID := "vm-1"
  resourceCreatedAt := "second 101"
  actionID := "action"
  observedAt := "second 101"

/-- The resource of the attempt is proved. -/
def proof : CapacityMutationProof where
  grantID := "grant"
  bindingName := "vm"
  slot := 1
  resourceID := "vm-1"
  resourceCreatedAt := "second 101"
  requestSHA256 := digest
  observedAt := 104 * Instant.second
  receiptRef := "receipt"
  ownerVerified := true
  specVerified := true
  resourceAbsent := false
  actionIDs := ["action"]
  actionsTerminal := true
  actionsSuccessful := true
  observedCreationGrantID := "grant"

/-- The second slot holds a resource, and nothing was ever issued. -/
def start : Tables where
  grants := .empty
  slots := ⟨[{ native := nativeSlot binding 2, scope, record :=
    ⟨"", "vm", "large", digest, "vm-2", "second 101", "receipt", 90 * Instant.second, false⟩ }],
    List.nodup_singleton _⟩

/-- The first slot is created: issued, redeemed, redeemed again, settled and confirmed. -/
def calls : ℕ → Option (Operation × Env)
  | 0 => some (.issue store manifest 1 1 "owner" ⟨"vm", "first"⟩, env 100)
  | 1 => some (.redeem store "adapter" redemption, env 101)
  | 2 => some (.redeem store "adapter" redemption, env 102)
  | 3 => some (.settle "adapter" digest report, env 103)
  | 4 => some (.confirm store manifest 1 1 "owner" proof, env 104)
  | _ => none

end Sample

end Yggdrasil.Capacity.Mutation
