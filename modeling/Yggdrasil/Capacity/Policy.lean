import Yggdrasil.Lib.Check
import Yggdrasil.Lib.Go

/-!
# Capacity policies

The operator-owned envelope of a capacity dimension, and the checks it passes (`validatePolicy`),
which stop at the first error. The digests, the UUID, time and URL parsers and the validators of the
bindings that no modelled operation reads are parameters (`External`).
-/

namespace Yggdrasil.Capacity

open Check

/-- A floating-point number; a finite one as an integer multiple of the least positive one. -/
inductive Float64
  | nan
  | inf (negative : Bool)
  | finite (n : ℤ)
  deriving DecidableEq

namespace Float64

/-- Neither infinite nor NaN. -/
def isFinite : Float64 → Bool
  | finite _ => true
  | _ => false

/-- The order of the numbers: nothing compares with `nan`. -/
def le : Float64 → Float64 → Bool
  | nan, _ => false
  | _, nan => false
  | inf true, _ => true
  | _, inf false => true
  | inf false, _ => false
  | _, inf true => false
  | finite a, finite b => a ≤ b

/-- Less, which NaN is not. -/
def lt (a b : Float64) : Bool := le a b && !le b a

end Float64

/-! ## The data of a policy -/

/-- Which manifest is meant. -/
structure ManifestSelector where
  manifestID : String
  ns : String
  name : String
  version : Option ℤ
  deriving DecidableEq

/-- A signal and its thresholds. -/
structure CapacitySignalRule where
  name : String
  sourceIdentity : String
  unit : String
  upAbove : Float64
  downBelow : Float64
  deriving DecidableEq

/-- A kind of unit that can be bought. -/
structure CapacityProfile where
  name : String
  provider : String
  region : String
  minUnits : ℤ
  maxUnits : ℤ
  unitMonthlyCostMinor : ℤ
  quoteValidUntil : ℤ
  validationValidUntil : ℤ
  validationRef : String
  readinessSeconds : ℤ
  deriving DecidableEq

/-- The closed projection of a slot that is shared with the provider adapters. -/
structure CapacityMutationSpecV1 where
  schemaVersion : String
  capability : String
  integrationInstanceID : String
  scopeChecksum : String
  profileChecksum : String
  admissionChecksum : String
  profileName : String
  slot : ℤ
  nativeName : String
  bootstrapSHA256 : String
  expectedResourceID : String
  expectedResourceCreatedAt : String
  deriving DecidableEq

/-- What is to be in a slot. -/
structure CapacityMutationSlotBinding where
  slot : ℤ
  desiredSpecSHA256 : String
  desiredSpec : Option CapacityMutationSpecV1
  deriving DecidableEq

/-- An answer by which a provider is known to have refused. -/
structure CapacityMutationRejection where
  statusCode : ℤ
  errorCode : String
  documentationRef : String
  deriving DecidableEq

/-- How the units of a profile are made. -/
structure CapacityMutationBinding where
  originalProviderSourceCommit : String
  name : String
  integrationInstanceID : String
  integrationChecksum : String
  integrationTypeID : String
  integrationTypeChecksum : String
  adapterPrincipalID : String
  scopeChecksum : String
  profileName : String
  ensureCapability : String
  destroyCapability : String
  protectedSlots : ℤ
  maxSlots : ℤ
  slots : List CapacityMutationSlotBinding
  definitiveRejections : List CapacityMutationRejection
  compensationEnabled : Bool
  deriving DecidableEq

/-- Costs that were reviewed instead of quoted. -/
structure CapacityAdministrativeCostAssumption where
  mode : String
  reviewReference : String
  reviewSHA256 : String
  expiresAt : ℤ
  nativeBillingCurrency : String
  deriving DecidableEq

/-- How guests are notified. -/
structure CapacityGuestNotifyReconcileBinding where
  mode : String
  administrativeCostAssumption : Option CapacityAdministrativeCostAssumption
  deriving DecidableEq

/-- How the activity of an executor is watched. -/
structure CapacityExecutorActivityBinding where
  mode : String
  leaseTTLSeconds : ℤ
  idleAfterSeconds : ℤ
  maxObservationAgeSeconds : ℤ
  maxTasks : ℤ
  deriving DecidableEq

/-- The envelope of one capacity dimension; `otherBindings` are not read here. -/
structure CapacityPolicySpec where
  environment : String
  domain : String
  dimension : String
  targetIdentity : String
  owner : String
  workflow : ManifestSelector
  currency : String
  floor : ℤ
  ceiling : ℤ
  step : ℤ
  maxEvidenceAgeSeconds : ℤ
  minSamples : ℤ
  maxSampleGapSeconds : ℤ
  upHoldSeconds : ℤ
  downHoldSeconds : ℤ
  cooldownSeconds : ℤ
  leaseSeconds : ℤ
  executionEnabled : Bool
  signals : List CapacitySignalRule
  profiles : List CapacityProfile
  mutationBindings : List CapacityMutationBinding
  executorActivityBinding : Option CapacityExecutorActivityBinding
  /-- The adoption workflow of the executor power binding, if there is one. -/
  executorPowerAdoption : Option ManifestSelector
  guestNotifyReconcileBinding : Option CapacityGuestNotifyReconcileBinding
  hasGuestRetirementBinding : Bool
  otherBindings : String
  deriving DecidableEq

/-- What the model takes from outside. -/
structure External where
  /-- The hexadecimal digest of the serialised policy. -/
  fingerprint : CapacityPolicySpec → String
  /-- The hexadecimal digest of the canonical serialisation of a projection. -/
  projectionSHA256 : CapacityMutationSpecV1 → String
  /-- The hexadecimal digest of a text. -/
  sha256Hex : String → String
  /-- The canonical form of a UUID. -/
  parseUUID : String → Option String
  /-- The instant of a timestamp. -/
  parseTime : String → Option ℤ
  /-- Scheme, host and presence of user information of a URL. -/
  parseURL : String → Option (String × String × Bool)
  /-- The validator of the executor power binding. -/
  executorPowerBindingValid : CapacityPolicySpec → Bool
  /-- The error of the VM node membership validator. -/
  vmNodeMembershipError : CapacityPolicySpec → Option String
  /-- The first error of the validators of the Guest and assessment bindings. -/
  otherBindingsError : CapacityPolicySpec → Option String

/-- The UUID of zeros. -/
def nilUUID : String := "00000000-0000-0000-0000-000000000000"

variable (ext : External)

/-- A UUID that is not nil and is written in its canonical form. -/
def canonicalUUID (s : String) : Bool :=
  ext.parseUUID s == some s && s != nilUUID

/-! ## Profiles -/

/-- The only mode of the binding. -/
def guestNotifyReconcileMode : String := "original_guest_notify_reconcile_v1"

/-- The only mode of the assumption. -/
def administrativeCostAssumptionMode : String := "reviewed_administrative_cost_assumption"

/-- A lower-case hexadecimal digest of 256 bits. -/
def validDigest (v : String) : Bool := Text.hexDigits 64 v

variable (p : CapacityPolicySpec)

/-- The assumption of a policy. -/
def administrativeCostAssumption : Option CapacityAdministrativeCostAssumption :=
  p.guestNotifyReconcileBinding.bind (·.administrativeCostAssumption)

/-- The billing currency of the providers an assumption may be made for. -/
def nativeCurrency (provider : String) : String :=
  if provider = "aws" ∨ provider = "hetzner" then "USD" else ""

/-- The assumption is for one profile and one binding, and reviewed. -/
def validateAdministrativeCostAssumption : Except String Unit :=
  match administrativeCostAssumption p with
  | none => .ok ()
  | some c =>
    let refuse := "explicit reviewed original Guest administrative cost assumption required"
    -- Both lists must have exactly one element.
    match p.profiles, p.mutationBindings with
    | [profile], [binding] => do
      require (p.guestNotifyReconcileBinding.any (·.mode == guestNotifyReconcileMode) &&
        p.currency == "USD" && c.mode == administrativeCostAssumptionMode && c.expiresAt != 0 &&
        validDigest c.reviewSHA256 && c.reviewReference != "" &&
        c.reviewReference.utf8ByteSize ≤ 1024 &&
        Text.trimSpace c.reviewReference == c.reviewReference &&
        !Text.containsAny c.reviewReference ['\x00', '\r', '\n', '\t']) refuse
      require (nativeCurrency profile.provider != "" &&
        c.nativeBillingCurrency == nativeCurrency profile.provider &&
        profile.name == "notify-" ++ profile.provider ++ "-elastic" &&
        profile.name == binding.profileName && 0 < profile.unitMonthlyCostMinor &&
        profile.unitMonthlyCostMinor ≤ 1000000000000 && profile.quoteValidUntil == 0 &&
        profile.validationValidUntil == 0) refuse
    | _, _ => .error refuse

/-- Whether a profile declares until when it may be planned with. -/
def profilePlanningDeclarations (profile : CapacityProfile) : Bool :=
  match administrativeCostAssumption p with
  | none => profile.quoteValidUntil != 0 && profile.validationValidUntil != 0
  | some _ => validateAdministrativeCostAssumption p matches .ok _ &&
      p.profiles.head?.any (profile.name == ·.name)

/-- Whether a profile may be planned with at the instant `t`. -/
def profilePlanningCurrent (profile : CapacityProfile) (t : ℤ) : Bool :=
  match administrativeCostAssumption p with
  | some c => profilePlanningDeclarations p profile && decide (t < c.expiresAt)
  | none => decide (t < profile.quoteValidUntil) && decide (t < profile.validationValidUntil)

/-! ## Mutation bindings -/

/-- An exact source commit. -/
def businessSource (s : String) : Bool := Text.hexDigits 40 s

variable (b : CapacityMutationBinding)

/-- The one pair whose destroy capability is not named after its ensure capability. -/
def awsOriginalMutationPair : Bool :=
  b.ensureCapability == "ensure_ec2_instance" &&
    b.destroyCapability == "terminate_ec2_instance" &&
    businessSource b.originalProviderSourceCommit

/-- `^[a-z][a-z0-9_]{0,63}$`. -/
def mutationProjectionSchemaPattern : String → Bool :=
  Text.headTail Text.isLower (fun c => Text.isLower c || Text.isDigit c || c == '_') 63

/-- `^[a-z][a-z0-9_-]{0,63}$`. -/
def mutationProfileNamePattern : String → Bool :=
  Text.headTail Text.isLower (fun c => Text.isLower c || Text.isDigit c || c == '_' || c == '-') 63

/-- Lower-case letters, digits and inner hyphens. -/
def mutationNativeNamePattern (s : String) : Bool :=
  let alnum := fun c => Text.isLower c || Text.isDigit c
  Text.headTail alnum (fun c => alnum c || c == '-') 62 s && s.toList.getLast?.any alnum

/-- `^[A-Za-z0-9_.-]{1,64}$`. -/
def rejectionErrorCodePattern (s : String) : Bool :=
  let ok := fun c => Text.isLower c || Text.isUpper c || Text.isDigit c || c == '_' || c == '.' ||
    c == '-'
  Text.headTail ok ok 63 s

/-- The specification of a slot has its names and digests. -/
def validMutationProjection (spec : CapacityMutationSpecV1) : Bool :=
  spec.schemaVersion == "capacity_vm_slot_v1" && mutationNativeNamePattern spec.nativeName &&
    mutationProfileNamePattern spec.profileName && validDigest spec.profileChecksum &&
    validDigest spec.admissionChecksum && validDigest spec.bootstrapSHA256

/-- The projection of a slot, when it is closed and has the approved digest. -/
def approvedMutationProjection (slot : CapacityMutationSlotBinding) : Except String
    CapacityMutationSpecV1 :=
  match slot.desiredSpec with
  | none => .error "capacity mutation slot requires its exact closed approved ensure projection"
  | some spec => do
    require (validMutationProjection spec && spec.capability == b.ensureCapability &&
      spec.integrationInstanceID == b.integrationInstanceID &&
      spec.scopeChecksum == b.scopeChecksum && spec.profileName == b.profileName &&
      spec.slot == slot.slot && spec.expectedResourceID == "" &&
      spec.expectedResourceCreatedAt == "")
      "capacity mutation slot requires its exact closed approved ensure projection"
    require (ext.projectionSHA256 spec == slot.desiredSpecSHA256)
      "capacity mutation approved projection digest mismatch"
    .ok spec

/-- The slot is a new one within the limit, with its digest. -/
def validateSlotBinding (slots : List ℤ) (slot : CapacityMutationSlotBinding) : Except String Unit
    := do
  require (1 ≤ slot.slot && slot.slot ≤ b.maxSlots && !slots.contains slot.slot &&
    validDigest slot.desiredSpecSHA256)
    "capacity mutation slot requires unique exact desired spec digest"
  let _ ← approvedMutationProjection ext b slot
  .ok ()

/-- The rejection is a documented one that cannot be a success. -/
def validateRejection (rejections : List (ℤ × String)) (r : CapacityMutationRejection) : Except
    String Unit :=
  require (400 ≤ r.statusCode && r.statusCode ≤ 499 && r.statusCode != 408 &&
    r.statusCode != 409 && r.statusCode != 425 && r.statusCode != 429 &&
    rejectionErrorCodePattern r.errorCode && r.documentationRef.utf8ByteSize ≤ 512 &&
    (ext.parseURL r.documentationRef).any (fun (scheme, host, user) =>
      scheme == "https" && host != "" && !user) &&
    !rejections.contains (r.statusCode, r.errorCode))
    "capacity definitive rejection requires an exact reviewed no-acceptance contract"

/-- What identifies the native slots of a binding. -/
def CapacityMutationBinding.target : String × String × String :=
  (b.integrationInstanceID, b.scopeChecksum, b.profileName)

/-- One turn of the loop; `seen` has the names and the targets of the bindings before. -/
def validateMutationBinding (p : CapacityPolicySpec)
    (seen : List (String × String × String × String)) (b : CapacityMutationBinding) : Except String
    Unit := do
  let awsPair := awsOriginalMutationPair b
  let awsProfile := p.profiles.any fun profile =>
    profile.name == b.profileName && profile.provider == "aws"
  require (b.originalProviderSourceCommit == "" || businessSource b.originalProviderSourceCommit)
    "original provider source must be an exact source commit"
  require (canonicalUUID ext b.integrationInstanceID && canonicalUUID ext b.integrationTypeID &&
    validDigest b.integrationTypeChecksum && b.name != "" && b.name.utf8ByteSize ≤ 128 &&
    !seen.any (·.1 == b.name) && b.adapterPrincipalID != "" &&
    b.adapterPrincipalID.utf8ByteSize ≤ 128 && validDigest b.integrationChecksum &&
    validDigest b.scopeChecksum && Text.hasPrefix b.ensureCapability "ensure_" &&
    (Text.hasPrefix b.destroyCapability "destroy_" || (awsPair && awsProfile)) &&
    b.ensureCapability.utf8ByteSize ≤ 128 && b.destroyCapability.utf8ByteSize ≤ 128)
    "capacity mutation binding requires exact identity, digests, principal and capability pair"
  let resource := String.ofList (b.ensureCapability.toList.drop "ensure_".length)
  require (mutationProjectionSchemaPattern resource &&
    (b.destroyCapability == "destroy_" ++ resource || (awsPair && awsProfile)))
    "capacity mutation capabilities require one canonical resource pair"
  require (!seen.any (·.2 == b.target) && 0 ≤ b.protectedSlots && b.protectedSlots ≤ b.maxSlots &&
    b.maxSlots ≤ p.ceiling && b.slots.length == b.maxSlots)
    "capacity mutation binding requires unique bounded scope and every approved slot"
  require (p.profiles.any fun profile =>
    profile.name == b.profileName && b.maxSlots ≤ profile.maxUnits)
    "capacity mutation binding profile is outside the envelope"
  validateEach (·.slot) (validateSlotBinding ext b) [] b.slots
  require (b.definitiveRejections.length ≤ 32) "capacity definitive rejections exceed limit"
  validateEach (fun r => (r.statusCode, r.errorCode)) (validateRejection ext) []
    b.definitiveRejections

/-- The bindings are valid, and their names and targets distinct. -/
def validateMutationBindings (p : CapacityPolicySpec) : Except String Unit := do
  require (p.mutationBindings.length ≤ 64) "capacity mutation bindings exceed limit"
  validateEach (fun b => (b.name, b.target)) (validateMutationBinding ext p) [] p.mutationBindings
  requireNone (ext.vmNodeMembershipError p)

/-! ## Policies -/

/-- Power is adopted with the activity binding and a workflow of its own. -/
def validateExecutorPowerBinding (p : CapacityPolicySpec) : Except String Unit :=
  match p.executorPowerAdoption with
  | none => .ok ()
  | some workflow =>
    require (ext.executorPowerBindingValid p && p.mutationBindings.isEmpty &&
      p.executorActivityBinding.isSome &&
      !(workflow.ns == p.workflow.ns && workflow.name == p.workflow.name))
      "invalid executor power binding or adoption workflow"

/-- The times of the binding are within their limits. -/
def validateExecutorActivityBinding : Except String Unit :=
  match p.executorActivityBinding with
  | none => .ok ()
  | some b =>
    require (b.mode == "executor_activity_v1" && 5 ≤ b.leaseTTLSeconds &&
      b.leaseTTLSeconds ≤ 300 && 1 ≤ b.idleAfterSeconds && b.idleAfterSeconds ≤ 86400 &&
      1 ≤ b.maxObservationAgeSeconds && b.maxObservationAgeSeconds ≤ b.leaseTTLSeconds &&
      1 ≤ b.maxTasks && b.maxTasks ≤ 100000) "invalid executor activity binding"

/-- A scope label is present and bounded. -/
def validateLabel (label value : String) : Except String Unit :=
  require (Text.trimSpace value != "" && value.utf8ByteSize ≤ 256)
    ("capacity " ++ label ++ " is required and bounded")

/-- The signal is a new one, with its thresholds in order. -/
def validateSignal (names : List String) (s : CapacitySignalRule) : Except String Unit :=
  require (s.name != "" && s.sourceIdentity != "" && s.unit != "" && !names.contains s.name &&
    s.upAbove.isFinite && s.downBelow.isFinite && !s.upAbove.le s.downBelow)
    "capacity signal identity/unit/threshold is invalid"

/-- The profile is a new one, within the floor and the ceiling. -/
def validateProfile (names : List String) (profile : CapacityProfile) : Except String Unit := do
  require (profile.name != "" && !names.contains profile.name && profile.provider != "" &&
    profile.region != "" && profile.validationRef != "" && profilePlanningDeclarations p profile)
    "capacity profile requires unique name, provider, region and dated validation/quote"
  require (p.floor ≤ profile.minUnits && profile.minUnits ≤ profile.maxUnits &&
    profile.maxUnits ≤ p.ceiling && 0 ≤ profile.unitMonthlyCostMinor &&
    profile.unitMonthlyCostMinor ≤ 1000000000000 && 0 ≤ profile.readinessSeconds &&
    profile.readinessSeconds ≤ 86400) "capacity profile budget is invalid"

/-- Rejects ambiguous scope, invalid budgets and unsafe numeric inputs. -/
def validatePolicy (p : CapacityPolicySpec) : Except String Unit := do
  validateExecutorPowerBinding ext p
  validateExecutorActivityBinding p
  validateLabel "environment" p.environment
  validateLabel "domain" p.domain
  validateLabel "dimension" p.dimension
  validateLabel "target_identity" p.targetIdentity
  validateLabel "owner" p.owner
  require (p.workflow.manifestID == "" && p.workflow.version.isNone &&
    Text.trimSpace p.workflow.ns != "" && Text.trimSpace p.workflow.name != "")
    "capacity workflow requires exact logical namespace/name without version or manifest ID"
  require (p.currency.utf8ByteSize == 3 && p.currency.toList.all Text.isUpper)
    "capacity currency requires an uppercase three-letter code"
  require (1 ≤ p.floor && p.floor ≤ p.ceiling && p.ceiling ≤ 100000 && 1 ≤ p.step &&
    p.step ≤ p.ceiling) "capacity floor/ceiling/step are invalid"
  require (1 ≤ p.maxEvidenceAgeSeconds && p.maxEvidenceAgeSeconds ≤ 3600 && 1 ≤ p.minSamples &&
    p.minSamples ≤ 100000 && 1 ≤ p.maxSampleGapSeconds &&
    p.maxSampleGapSeconds ≤ p.maxEvidenceAgeSeconds)
    "capacity evidence age and samples are invalid"
  require (0 ≤ p.upHoldSeconds && 1 ≤ p.downHoldSeconds && p.upHoldSeconds ≤ p.downHoldSeconds &&
    p.downHoldSeconds ≤ 86400 && 0 ≤ p.cooldownSeconds && p.cooldownSeconds ≤ 86400)
    "capacity hysteresis/cooldown is invalid"
  require (5 ≤ p.leaseSeconds && p.leaseSeconds ≤ 300)
    "capacity lease must be between 5 and 300 seconds"
  require (!p.signals.isEmpty && p.signals.length ≤ 64 && !p.profiles.isEmpty &&
    p.profiles.length ≤ 64) "capacity requires bounded signals and profiles"
  validateEach (·.name) validateSignal [] p.signals
  validateEach (·.name) (validateProfile p) [] p.profiles
  validateMutationBindings ext p
  requireNone (ext.otherBindingsError p)

/-- What a profile's checks say about its numbers. -/
structure ProfileBounds (p : CapacityPolicySpec) (profile : CapacityProfile) : Prop where
  floor_le_minUnits : p.floor ≤ profile.minUnits
  minUnits_le_maxUnits : profile.minUnits ≤ profile.maxUnits
  maxUnits_le_ceiling : profile.maxUnits ≤ p.ceiling
  cost_nonneg : 0 ≤ profile.unitMonthlyCostMinor
  cost_le : profile.unitMonthlyCostMinor ≤ 1000000000000
  readiness_nonneg : 0 ≤ profile.readinessSeconds
  readiness_le : profile.readinessSeconds ≤ 86400

/-- What the checks of a policy say about its numbers and names. -/
structure PolicyBounds (p : CapacityPolicySpec) : Prop where
  one_le_floor : 1 ≤ p.floor
  floor_le_ceiling : p.floor ≤ p.ceiling
  ceiling_le : p.ceiling ≤ 100000
  one_le_step : 1 ≤ p.step
  step_le_ceiling : p.step ≤ p.ceiling
  one_le_age : 1 ≤ p.maxEvidenceAgeSeconds
  age_le : p.maxEvidenceAgeSeconds ≤ 3600
  one_le_gap : 1 ≤ p.maxSampleGapSeconds
  gap_le_age : p.maxSampleGapSeconds ≤ p.maxEvidenceAgeSeconds
  upHold_nonneg : 0 ≤ p.upHoldSeconds
  one_le_downHold : 1 ≤ p.downHoldSeconds
  upHold_le_downHold : p.upHoldSeconds ≤ p.downHoldSeconds
  downHold_le : p.downHoldSeconds ≤ 86400
  cooldown_nonneg : 0 ≤ p.cooldownSeconds
  cooldown_le : p.cooldownSeconds ≤ 86400
  five_le_lease : 5 ≤ p.leaseSeconds
  lease_le : p.leaseSeconds ≤ 300
  profiles : ∀ profile ∈ p.profiles, ProfileBounds p profile
  profiles_nodup : (p.profiles.map (·.name)).Nodup
  capabilities_ne : ∀ b ∈ p.mutationBindings, b.ensureCapability ≠ b.destroyCapability

variable {p : CapacityPolicySpec} {names : List String} {ext : External}

theorem profileBounds_of_validateProfile {profile : CapacityProfile}
    (h : validateProfile p names profile = .ok ()) : ProfileBounds p profile := by
  simp only [validateProfile, require_bind, require_eq_ok, Bool.and_eq_true,
    decide_eq_true_eq] at h
  obtain ⟨-, ⟨⟨⟨⟨⟨⟨h₁, h₂⟩, h₃⟩, h₄⟩, h₅⟩, h₆⟩, h₇⟩⟩ := h
  exact ⟨h₁, h₂, h₃, h₄, h₅, h₆, h₇⟩

/-- The two capabilities of a checked binding start with different words. -/
theorem capabilities_ne_of_validateMutationBinding {seen : List (String × String × String × String)}
    {b : CapacityMutationBinding} (h : validateMutationBinding ext p seen b = .ok ()) :
    b.ensureCapability ≠ b.destroyCapability := by
  simp only [validateMutationBinding, unit_bind_eq_ok, require_eq_ok, Bool.and_eq_true,
    Bool.or_eq_true] at h
  obtain ⟨-, ⟨⟨⟨⟨-, hensure⟩, hdestroy⟩, -⟩, -⟩, -⟩ := h
  intro heq
  rcases hdestroy with hdestroy | ⟨hpair, -⟩
  · rw [← heq] at hdestroy
    rw [Text.hasPrefix, List.isPrefixOf_iff_prefix] at hensure hdestroy
    have := List.prefix_or_prefix_of_prefix hensure hdestroy
    revert this
    decide
  · simp only [awsOriginalMutationPair, Bool.and_eq_true, beq_iff_eq] at hpair
    rw [hpair.1.1, hpair.1.2] at heq
    revert heq
    decide

theorem bounds_of_validatePolicy (h : validatePolicy ext p = .ok ()) : PolicyBounds p := by
  simp only [validatePolicy, unit_bind_eq_ok, require_eq_ok, Bool.and_eq_true,
    decide_eq_true_eq] at h
  obtain ⟨-, -, -, -, -, -, -, -, -, hbudget, hage, hhold, hlease, -, -, hprofiles, hmutation,
    -⟩ := h
  obtain ⟨⟨⟨⟨h₁, h₂⟩, h₃⟩, h₄⟩, h₅⟩ := hbudget
  obtain ⟨⟨⟨⟨⟨h₆, h₇⟩, -⟩, -⟩, h₈⟩, h₉⟩ := hage
  obtain ⟨⟨⟨⟨⟨h₁₀, h₁₁⟩, h₁₂⟩, h₁₃⟩, h₁₄⟩, h₁₅⟩ := hhold
  simp only [validateMutationBindings, unit_bind_eq_ok] at hmutation
  refine ⟨h₁, h₂, h₃, h₄, h₅, h₆, h₇, h₈, h₉, h₁₀, h₁₁, h₁₂, h₁₃, h₁₄, h₁₅, hlease.1, hlease.2,
    fun profile hp => ?_, ?_, fun b hb => ?_⟩
  · obtain ⟨names, hcheck⟩ := exists_check_of_validateEach hprofiles hp
    exact profileBounds_of_validateProfile hcheck
  · have hnew : ∀ names profile, validateProfile p names profile = .ok () →
        profile.name ∉ names := by
      intro names profile h
      simp [validateProfile] at h
      exact h.1.1.1.1.1.2
    exact (nodup_of_validateEach hnew hprofiles).1
  · obtain ⟨seen, hcheck⟩ := exists_check_of_validateEach hmutation.2.1 hb
    exact capabilities_ne_of_validateMutationBinding hcheck

/-! ## A policy -/

namespace Sample

/-- Digests and parsers that tell nothing apart, and no further bindings. -/
def external : External where
  fingerprint p := p.otherBindings
  projectionSHA256 _ := ""
  sha256Hex s := s
  parseUUID s := some s
  parseTime _ := some 1
  parseURL _ := none
  executorPowerBindingValid _ := false
  vmNodeMembershipError _ := none
  otherBindingsError _ := none

/-- A signal. -/
def signal : CapacitySignalRule := ⟨"cpu", "monitor", "percent", .finite 80, .finite 20⟩

/-- A profile of one to four units that is ready at once and current until `expiry`. -/
def profile (name : String) (cost expiry : ℤ) : CapacityProfile :=
  ⟨name, "metal", "eu", 1, 4, cost, expiry, expiry, "review", 0⟩

/-- One to four units, holds of ten seconds upwards and twenty downwards, and two profiles. -/
def policy : CapacityPolicySpec where
  environment := "prod"
  domain := "web"
  dimension := "guests"
  targetIdentity := "fleet"
  owner := "ops"
  workflow := ⟨"", "ops", "scale", none⟩
  currency := "EUR"
  floor := 1
  ceiling := 4
  step := 1
  maxEvidenceAgeSeconds := 60
  minSamples := 1
  maxSampleGapSeconds := 30
  upHoldSeconds := 10
  downHoldSeconds := 20
  cooldownSeconds := 0
  leaseSeconds := 30
  executionEnabled := true
  signals := [signal]
  profiles := [profile "large" 20 (1000 * Instant.second),
    profile "small" 10 (1000 * Instant.second)]
  mutationBindings := []
  executorActivityBinding := none
  executorPowerAdoption := none
  guestNotifyReconcileBinding := none
  hasGuestRetirementBinding := false
  otherBindings := ""

example : validatePolicy external policy = .ok () := by decide

end Sample

end Yggdrasil.Capacity
