import Yggdrasil.Capacity.Policy

/-!
# The capacity planner

From a policy, an assessment of the current resource, the clock the previous call returned and the
current time, `assess` decides whether capacity changes. Every integer computed is a machine
integer: `ovf` says what an overflow returns, and the program's own `ovf` is `Machine.wrap`.
-/

namespace Yggdrasil.Capacity

open Check

/-! ## The data -/

/-- What was observed for a signal. -/
structure CapacityEvidence where
  name : String
  sourceIdentity : String
  unit : String
  requireData : Bool
  matched : Bool
  dataState : String
  value : Option Float64
  rangeMin : Option Float64
  rangeMax : Option Float64
  sourceSampledAt : ℤ
  windowStart : ℤ
  windowEnd : ℤ
  samples : ℤ
  coverageComplete : Bool
  maxGapSeconds : ℤ
  deriving DecidableEq

/-- What was observed of the resource. -/
structure CapacitySnapshot where
  targetIdentity : String
  resourceUID : String
  workloadUID : String
  workloadResourceVersion : String
  resourceVersion : String
  owner : String
  profile : String
  units : ℤ
  observedAt : ℤ
  deriving DecidableEq

/-- What a decision is made from. -/
structure CapacityAssessment where
  snapshot : CapacitySnapshot
  evidence : List CapacityEvidence
  deriving DecidableEq

/-- What the planner remembers between calls. -/
structure CapacityClockState where
  policyFingerprint : String := ""
  resourceUID : String := ""
  workloadUID : String := ""
  workloadResourceVersion : String := ""
  profile : String := ""
  lastObservedAt : ℤ := 0
  lastActionAt : ℤ := 0
  upSince : ℤ := 0
  downSince : ℤ := 0
  deriving DecidableEq

/-- What a decision asks for. -/
inductive Action
  | hold
  | expand
  | prepare
  | drain
  deriving DecidableEq

/-- Why it does. -/
inductive Reason
  | withinEnvelope
  | snapshotUnavailable
  | currentProfileUnknown
  | validatedProfileUnavailable
  | protectedFloorRecovery
  | duplicateSignal
  | signalCoverageMissing
  | signalEvidenceUnavailable
  | upWindowPending
  | downWindowPending
  | cooldown
  | capacityBoundary
  | profileTransitionRequired
  | sustainedPressure
  | sustainedSurplus
  deriving DecidableEq

/-- A decision, with the clock for the next one. -/
structure CapacityDecision where
  action : Action
  reason : Reason
  profile : String
  units : ℤ
  floor : ℤ
  executionPermitted : Bool
  clock : CapacityClockState
  deriving DecidableEq

/-- The clock without an open window. -/
def CapacityClockState.reset (c : CapacityClockState) : CapacityClockState :=
  { c with upSince := 0, downSince := 0 }

/-! ## Freshness and profiles -/

variable (ovf : ℤ → ℤ)

/-- The duration of `n` seconds. -/
def seconds (n : ℤ) : ℤ := Machine.result ovf (n * Instant.second)

/-- `t` is at most `maxAge` seconds old at `now`, and at most five seconds ahead. -/
def fresh (t now maxAge : ℤ) : Bool :=
  t != 0 && t ≤ now + seconds ovf 5 && now + seconds ovf (-maxAge) ≤ t

variable (p : CapacityPolicySpec)

/-- The policy has a profile of the name. -/
def knownProfile (name : String) : Bool :=
  p.profiles.any (·.name == name)

/-- The monthly cost of `units` units, or of the profile's least. -/
def profileCost (units : ℤ) (profile : CapacityProfile) : ℤ :=
  Machine.result ovf (profile.unitMonthlyCostMinor * max units profile.minUnits)

/-- A profile can take the units and is current when it would be ready. -/
def eligible (units now : ℤ) (floorRepair : Bool) (candidate : CapacityProfile) : Bool :=
  let horizon := now + seconds ovf candidate.readinessSeconds
  (floorRepair || candidate.minUnits ≤ units) && units ≤ candidate.maxUnits &&
    profilePlanningCurrent p candidate horizon

/-- One turn of the selection loop over the eligible candidates. -/
def cheaper (units : ℤ) (selected : Option CapacityProfile) (candidate : CapacityProfile) : Option
    CapacityProfile :=
  match selected with
  | none => some candidate
  | some best =>
    let cost := profileCost ovf units candidate
    let selectedCost := profileCost ovf units best
    if cost < selectedCost ∨ (cost = selectedCost ∧ candidate.name < best.name) then
      some candidate
    else some best

/-- The cheapest profile that is eligible, the first one of those. -/
def selectEligibleProfile (units now : ℤ) (floorRepair : Bool) : Option CapacityProfile :=
  p.profiles.foldl (fun selected candidate =>
    if eligible ovf p units now floorRepair candidate then cheaper ovf units selected candidate
    else selected) none

/-- The cheapest profile, when the floor is not to be repaired. -/
def cheapestEligible (units now : ℤ) : Option CapacityProfile :=
  selectEligibleProfile ovf p units now false

/-! ## Evidence -/

variable (s : CapacitySnapshot)

/-- The snapshot is a fresh one of the target, within the ceiling. -/
def snapshotCurrent (now : ℤ) : Bool :=
  s.targetIdentity == p.targetIdentity && s.owner == p.owner && s.resourceUID != "" &&
    s.workloadUID != "" && s.workloadResourceVersion != "" && s.resourceVersion != "" &&
    0 ≤ s.units && s.units ≤ p.ceiling && fresh ovf s.observedAt now p.maxEvidenceAgeSeconds

/-- The evidence of a signal has data that are complete and fresh. -/
def evidenceAvailable (rule : CapacitySignalRule) (e : CapacityEvidence) (now : ℤ) : Bool :=
  e.requireData && e.matched && e.dataState == "present" && e.value.any (·.isFinite) &&
    e.sourceIdentity == rule.sourceIdentity && e.unit == rule.unit && p.minSamples ≤ e.samples &&
    e.coverageComplete && 0 ≤ e.maxGapSeconds && e.maxGapSeconds ≤ p.maxSampleGapSeconds &&
    fresh ovf e.sourceSampledAt now p.maxEvidenceAgeSeconds &&
    fresh ovf e.windowEnd now p.maxEvidenceAgeSeconds && e.windowStart != 0 &&
    e.windowStart ≤ e.windowEnd && e.windowStart ≤ e.sourceSampledAt &&
    e.sourceSampledAt ≤ e.windowEnd + seconds ovf 5

/-- The value and the range of a signal, when they are finite and in order. -/
def evidenceRange (e : CapacityEvidence) : Option (Float64 × Float64 × Float64) :=
  match e.value, e.rangeMin, e.rangeMax with
  | some value, some rangeMin, some rangeMax =>
    if rangeMin.isFinite && rangeMax.isFinite && !value.lt rangeMin && !rangeMax.lt value &&
      !rangeMax.lt rangeMin then some (value, rangeMin, rangeMax)
    else none
  | _, _, _ => none

/-- What the signals scanned so far show, and the latest start of their windows. -/
structure Pressure where
  up : Bool
  down : Bool
  windowStart : ℤ

/-- Adds one signal to the pressure. -/
def Pressure.add (rule : CapacitySignalRule) (windowStart : ℤ) (value rangeMin rangeMax : Float64)
    (acc : Pressure) : Pressure :=
  let above :=
    if p.guestNotifyReconcileBinding.isSome then
      rule.upAbove.lt value && (p.upHoldSeconds == 0 || rule.upAbove.lt rangeMin)
    else rule.upAbove.le value && (p.upHoldSeconds == 0 || rule.upAbove.le rangeMin)
  let below :=
    if p.guestNotifyReconcileBinding.isSome then rangeMax.lt rule.downBelow
    else rangeMax.le rule.downBelow
  { up := acc.up || above
    down := acc.down && below
    windowStart :=
      if acc.windowStart = 0 ∨ acc.windowStart < windowStart then windowStart
      else acc.windowStart }

/-- The loop over the declared signals. -/
def scanSignals (ovf : ℤ → ℤ) (p : CapacityPolicySpec) (evidence : List CapacityEvidence)
    (now : ℤ) : List CapacitySignalRule → Pressure → Except Reason Pressure
  | [], acc => .ok acc
  | rule :: rules, acc =>
    match evidence.find? (·.name == rule.name) with
    | none => .error .signalEvidenceUnavailable
    | some e =>
      if evidenceAvailable ovf p rule e now then
        match evidenceRange e with
        | none => .error .signalEvidenceUnavailable
        | some (value, rangeMin, rangeMax) =>
          scanSignals ovf p evidence now rules
            (acc.add p rule e.windowStart value rangeMin rangeMax)
      else .error .signalEvidenceUnavailable

/-- The pressure shown, when every declared signal has complete fresh evidence. -/
def scanEvidence (a : CapacityAssessment) (now : ℤ) : Except Reason Pressure := do
  require (decide (a.evidence.map (·.name)).Nodup) .duplicateSignal
  require (a.evidence.length == p.signals.length) .signalCoverageMissing
  scanSignals ovf p a.evidence now p.signals ⟨false, true, 0⟩

/-! ## Decisions -/

/-- The decision a call starts from: to keep everything as it is. -/
def unchanged (previous : CapacityClockState) : CapacityDecision :=
  { action := .hold
    reason := .withinEnvelope
    profile := s.profile
    units := s.units
    floor := p.floor
    executionPermitted := false
    clock := previous }

variable (d : CapacityDecision)

/-- The decision is held, and its windows begin anew. -/
def holdUnknown (reason : Reason) : CapacityDecision :=
  { d with reason, executionPermitted := false, clock := d.clock.reset }

/-- The decision below the floor. It needs no evidence of demand. -/
def repairFloor (now : ℤ) : CapacityDecision :=
  match selectEligibleProfile ovf p p.floor now true with
  | none => { d with reason := .validatedProfileUnavailable }
  | some profile =>
    { d with
      units := max p.floor profile.minUnits
      profile := profile.name
      reason := .protectedFloorRecovery
      action := if profile.name ≠ s.profile then .prepare else .expand
      executionPermitted := p.executionEnabled
      clock := d.clock.reset }

/-- The longest time between two observations of one window. -/
def controllerGapSeconds : ℤ :=
  if p.guestNotifyReconcileBinding.isSome then p.maxEvidenceAgeSeconds else p.maxSampleGapSeconds

variable (ext : External)

/-- The previous observation is of the same policy and resource, and recent. -/
def sameWindow (ovf : ℤ → ℤ) (p : CapacityPolicySpec) (s : CapacitySnapshot)
    (previous : CapacityClockState) (now : ℤ) : Bool :=
  previous.policyFingerprint == ext.fingerprint p && previous.resourceUID == s.resourceUID &&
    previous.workloadUID == s.workloadUID &&
    previous.workloadResourceVersion == s.workloadResourceVersion &&
    previous.profile == s.profile && previous.lastObservedAt != 0 &&
    fresh ovf previous.lastObservedAt now (controllerGapSeconds p)

/-- The clock after this observation, before the pressure is looked at. -/
def observe (ovf : ℤ → ℤ) (p : CapacityPolicySpec) (s : CapacitySnapshot)
    (previous : CapacityClockState) (now : ℤ) : CapacityClockState :=
  let kept := if sameWindow ext ovf p s previous now then previous else previous.reset
  { kept with
    policyFingerprint := ext.fingerprint p
    resourceUID := s.resourceUID
    workloadUID := s.workloadUID
    profile := s.profile
    workloadResourceVersion := s.workloadResourceVersion
    lastObservedAt := now }

/-- The pressure has not lasted for the hold time, or the evidence does not reach back. -/
def windowPending (now since windowStart hold : ℤ) : Bool :=
  Instant.sub now since < seconds ovf hold || now + seconds ovf (-hold) < windowStart

/-- The decision once pressure towards `wanted` units has lasted. -/
def act (previous : CapacityClockState) (now wanted : ℤ) : CapacityDecision :=
  if previous.lastActionAt ≠ 0 ∧
      Instant.sub now previous.lastActionAt < seconds ovf p.cooldownSeconds then
    { d with reason := .cooldown }
  else
    match cheapestEligible ovf p wanted now with
    | none => { d with reason := .validatedProfileUnavailable }
    | some profile =>
      let wanted := max wanted profile.minUnits
      if wanted = s.units ∧ profile.name = s.profile then { d with reason := .capacityBoundary }
      else
        let d := { d with
          profile := profile.name
          units := wanted
          executionPermitted := p.executionEnabled }
        if profile.name ≠ s.profile then
          { d with action := .prepare, reason := .profileTransitionRequired }
        else if s.units < wanted then
          { d with action := .expand, reason := .sustainedPressure }
        else { d with action := .drain, reason := .sustainedSurplus }

/-- The decision on complete evidence: pressure up, pressure down, or neither. -/
def decidePressure (ovf : ℤ → ℤ) (p : CapacityPolicySpec) (s : CapacitySnapshot)
    (d : CapacityDecision) (previous : CapacityClockState) (now : ℤ) (pressure : Pressure) :
    CapacityDecision :=
  let clock := observe ext ovf p s previous now
  if pressure.up then
    let since := if clock.upSince = 0 then now else clock.upSince
    let d := { d with clock := { clock with upSince := since, downSince := 0 } }
    if windowPending ovf now since pressure.windowStart p.upHoldSeconds then
      { d with reason := .upWindowPending }
    else act ovf p s d previous now (min p.ceiling (Machine.result ovf (s.units + p.step)))
  else if pressure.down then
    let since := if clock.downSince = 0 then now else clock.downSince
    let d := { d with clock := { clock with upSince := 0, downSince := since } }
    if windowPending ovf now since pressure.windowStart p.downHoldSeconds then
      { d with reason := .downWindowPending }
    else act ovf p s d previous now (max p.floor (Machine.result ovf (s.units - p.step)))
  else { d with clock := clock.reset }

/-- The decision for a policy that has been validated. -/
def plan (ovf : ℤ → ℤ) (p : CapacityPolicySpec) (a : CapacityAssessment)
    (previous : CapacityClockState) (now : ℤ) : CapacityDecision :=
  let s := a.snapshot
  let d := unchanged p s previous
  if !snapshotCurrent ovf p s now then holdUnknown d .snapshotUnavailable
  else if !knownProfile p s.profile then holdUnknown d .currentProfileUnknown
  else if s.units < p.floor then repairFloor ovf p s d now
  else
    match scanEvidence ovf p a now with
    | .error reason => holdUnknown d reason
    | .ok pressure => decidePressure ext ovf p s d previous now pressure

/-- Profiles change only after sustained pressure; a new profile requires preparation. -/
def assess (ovf : ℤ → ℤ) (p : CapacityPolicySpec) (a : CapacityAssessment)
    (previous : CapacityClockState) (now : ℤ) : Except String CapacityDecision := do
  validatePolicy ext p
  .ok (plan ext ovf p a previous now)

/-- The snapshot is current and its profile known. -/
def validateSnapshot (a : CapacityAssessment) (now : ℤ) : Except String Unit :=
  require (snapshotCurrent ovf p a.snapshot now && knownProfile p a.snapshot.profile)
    "capacity snapshot rejected"

/-- The evidence was not accepted, and the text of its error. -/
def Reason.rejected : Reason → Option String
  | snapshotUnavailable => some "snapshot_unavailable"
  | currentProfileUnknown => some "current_profile_unknown"
  | duplicateSignal => some "duplicate_signal"
  | signalCoverageMissing => some "signal_coverage_missing"
  | signalEvidenceUnavailable => some "signal_evidence_unavailable"
  | _ => none

/-- Applies the same strict evidence checks without requiring a scale decision. -/
def validateAssessment (ovf : ℤ → ℤ) (p : CapacityPolicySpec) (a : CapacityAssessment) (now : ℤ) :
    Except String Unit := do
  validateSnapshot ovf p a now
  let checked := { a with snapshot := { a.snapshot with units := max p.floor a.snapshot.units } }
  let d ← assess ext ovf p checked {} now
  requireNone (d.reason.rejected.map ("capacity evidence rejected: " ++ ·))

namespace Sample

/-- The resource at `t`: `units` units of the profile `large`. -/
def snapshot (units t : ℤ) : CapacitySnapshot :=
  ⟨"fleet", "resource", "workload", "1", "1", "ops", "large", units, t * Instant.second⟩

/-- Evidence at `t` whose values were all at `value` for the thirty seconds before. -/
def evidence (value t : ℤ) : CapacityEvidence where
  name := "cpu"
  sourceIdentity := "monitor"
  unit := "percent"
  requireData := true
  matched := true
  dataState := "present"
  value := some (.finite value)
  rangeMin := some (.finite value)
  rangeMax := some (.finite value)
  sourceSampledAt := t * Instant.second
  windowStart := (t - 30) * Instant.second
  windowEnd := t * Instant.second
  samples := 30
  coverageComplete := true
  maxGapSeconds := 1

/-- An assessment with one signal. -/
def assessment (units value t : ℤ) : CapacityAssessment := ⟨snapshot units t, [evidence value t]⟩

end Sample

end Yggdrasil.Capacity
