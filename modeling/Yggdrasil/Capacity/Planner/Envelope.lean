import Yggdrasil.Capacity.Planner.Exact

/-!
# The envelope of a decision

What every decision of the planner keeps to (`assess_envelope`). Without complete evidence no
decision asks for fewer units than there are, and no integer computed on the way overflows.
-/

namespace Yggdrasil.Capacity

open Check

variable {ext : External} {p : CapacityPolicySpec} {a : CapacityAssessment}
  {s : CapacitySnapshot} {previous : CapacityClockState} {now : ℤ} {d : CapacityDecision}
  {profiles : List CapacityProfile} {wanted : ℤ} {pressure : Pressure}
  {evidence : List CapacityEvidence} {profile : CapacityProfile} {repair : Bool}

/-! ## Complete evidence -/

/-- Every declared signal has exactly one piece of evidence, complete, fresh and in range. -/
structure CompleteEvidence (p : CapacityPolicySpec) (a : CapacityAssessment) (now : ℤ) :
    Prop where
  nodup : (a.evidence.map (·.name)).Nodup
  length_eq : a.evidence.length = p.signals.length
  available : ∀ rule ∈ p.signals, ∃ e ∈ a.evidence, e.name = rule.name ∧
    evidenceAvailable id p rule e now = true ∧ (evidenceRange e).isSome = true

/-- The loop over the signals goes through only when each has its evidence. -/
theorem available_of_scanSignals {rules : List CapacitySignalRule} {acc : Pressure}
    (h : scanSignals id p evidence now rules acc = .ok pressure) :
    ∀ rule ∈ rules, ∃ e ∈ evidence, e.name = rule.name ∧
      evidenceAvailable id p rule e now = true ∧ (evidenceRange e).isSome = true := by
  induction rules generalizing acc with
  | nil => simp
  | cons rule rules ih =>
    rw [scanSignals] at h
    cases hfind : evidence.find? (·.name == rule.name) with
    | none => simp [hfind] at h
    | some e =>
      by_cases havail : evidenceAvailable id p rule e now = true
      case neg => simp [hfind, havail] at h
      cases hrange : evidenceRange e with
      | none => simp [hfind, havail, hrange] at h
      | some range =>
        simp only [hfind, havail, hrange, if_true] at h
        refine List.forall_mem_cons.2 ⟨⟨e, List.mem_of_find?_eq_some hfind, ?_, havail, ?_⟩, ih h⟩
        · simpa using List.find?_some hfind
        · rw [hrange, Option.isSome_some]

theorem completeEvidence_of_scanEvidence (h : scanEvidence id p a now = .ok pressure) :
    CompleteEvidence p a now := by
  simp only [scanEvidence, unit_bind_eq_ok, require_eq_ok, decide_eq_true_eq, beq_iff_eq] at h
  exact ⟨h.1, h.2.1, available_of_scanSignals h.2.2⟩

/-! ## The moves of a decision -/

/-- A move that does not repair the floor takes exactly the units it wants. -/
theorem Moves.units_eq_wanted (hb : PolicyBounds p) (hw : wanted ≤ p.ceiling)
    (h : Moves p s now wanted false profile d) : d.units = wanted := by
  have helig := (cheapest_of_select id hb hw h.selected).is_eligible
  simp only [eligible, Bool.false_or, Bool.and_eq_true, decide_eq_true_eq] at helig
  rw [h.units_eq, max_eq_left helig.1.1]

/-- A move stays within the range of the profile it moves to. -/
theorem Moves.units_mem (hb : PolicyBounds p) (hw : wanted ≤ p.ceiling)
    (h : Moves p s now wanted repair profile d) :
    wanted ≤ d.units ∧ profile.minUnits ≤ d.units ∧ d.units ≤ profile.maxUnits := by
  have hc := cheapest_of_select id hb hw h.selected
  have helig := hc.is_eligible
  simp only [eligible, Bool.and_eq_true, decide_eq_true_eq] at helig
  rw [h.units_eq]
  exact ⟨le_max_left _ _, le_max_right _ _,
    max_le helig.1.2 (hb.profiles _ hc.mem).minUnits_le_maxUnits⟩

/-- A step is at most the step of the policy, in the direction of the pressure. -/
theorem Direction.wanted_step (hb : PolicyBounds p) {units : ℤ} (hfloor : p.floor ≤ units)
    (hceiling : units ≤ p.ceiling) (dir : Direction) :
    |dir.wanted p units - units| ≤ p.step ∧ (dir = .up → units ≤ dir.wanted p units) ∧
      (dir = .down → dir.wanted p units ≤ units) := by
  have := hb.one_le_step
  cases dir with
  | up => refine ⟨abs_le.2 ⟨?_, ?_⟩, fun _ => ?_, by simp⟩ <;> simp only [wanted] <;> omega
  | down => refine ⟨abs_le.2 ⟨?_, ?_⟩, by simp, fun _ => ?_⟩ <;> simp only [wanted] <;> omega

/-! ## The order of the profiles -/

/-- A policy with a reviewed assumption of the cost has one profile. -/
theorem exists_profiles_eq_singleton (hvalid : validatePolicy ext p = .ok ())
    (h : administrativeCostAssumption p ≠ none) : ∃ profile, p.profiles = [profile] := by
  simp only [validatePolicy, unit_bind_eq_ok, require_eq_ok, Bool.and_eq_true] at hvalid
  obtain ⟨-, -, -, -, -, -, -, -, -, -, -, -, -, hlen, -, hprofiles, -⟩ := hvalid
  obtain ⟨profile, hmem⟩ := List.exists_mem_of_ne_nil p.profiles (by simpa using hlen.1.2)
  obtain ⟨names, hcheck⟩ := exists_check_of_validateEach hprofiles hmem
  simp only [validateProfile, unit_bind_eq_ok, require_eq_ok, Bool.and_eq_true] at hcheck
  have hdecl := hcheck.1.2
  cases hc : administrativeCostAssumption p with
  | none => exact absurd hc h
  | some c =>
    simp only [profilePlanningDeclarations, validateAdministrativeCostAssumption, hc] at hdecl
    rcases hp : p.profiles with _ | ⟨x, _ | ⟨y, rest⟩⟩
    · simp [hp] at hmem
    · exact ⟨x, rfl⟩
    · simp [hp] at hdecl

/-- The same profiles in another order are eligible alike. -/
theorem eligible_perm (hvalid : validatePolicy ext p = .ok ()) (hperm : profiles.Perm p.profiles)
    (units : ℤ) (repair : Bool) (c : CapacityProfile) :
    eligible id { p with profiles } units now repair c = eligible id p units now repair c := by
  cases hc : administrativeCostAssumption p with
  | none =>
    have hc' : administrativeCostAssumption { p with profiles } = none := hc
    simp only [eligible, profilePlanningCurrent, hc, hc']
  | some _ =>
    obtain ⟨x, hx⟩ := exists_profiles_eq_singleton hvalid (by simp [hc])
    rw [hx, List.perm_singleton] at hperm
    rw [hperm, ← hx]

theorem scanSignals_profiles (rules : List CapacitySignalRule) (acc : Pressure) :
    scanSignals id { p with profiles } evidence now rules acc =
      scanSignals id p evidence now rules acc := by
  induction rules generalizing acc with
  | nil => rfl
  | cons rule rules ih =>
    simp only [scanSignals, ih]
    rfl

theorem scanEvidence_profiles :
    scanEvidence id { p with profiles } a now = scanEvidence id p a now := by
  simp only [scanEvidence, scanSignals_profiles]

/-- Moves do not depend on the order in which the profiles are listed. -/
theorem Moves.eq_of_perm {c c' : CapacityProfile} {d' : CapacityDecision}
    (hvalid : validatePolicy ext p = .ok ())
    (hvalid' : validatePolicy ext { p with profiles } = .ok ()) (hperm : profiles.Perm p.profiles)
    (hw : wanted ≤ p.ceiling) (h : Moves p s now wanted repair c d)
    (h' : Moves { p with profiles } s now wanted repair c' d') :
    d'.profile = d.profile ∧ d'.units = d.units := by
  have hb := bounds_of_validatePolicy hvalid
  have hc := cheapest_of_select id hb hw h.selected
  have hc' := cheapest_of_select id (bounds_of_validatePolicy hvalid') hw h'.selected
  have hname : c.name = c'.name :=
    hc.name_eq hc' (fun _ => hperm.mem_iff.symm) fun x => (eligible_perm hvalid hperm _ _ x).symm
  have hcc : c = c' := eq_of_name_eq hb hc.mem (hperm.mem_iff.1 hc'.mem) hname
  rw [h.profile_eq, h'.profile_eq, h.units_eq, h'.units_eq, hcc]
  exact ⟨rfl, rfl⟩

/-! ## The envelope -/

/-- What a decision `d` that is not a hold keeps to, with exact arithmetic. -/
structure Envelope (ext : External) (p : CapacityPolicySpec) (a : CapacityAssessment) (now : ℤ)
    (d : CapacityDecision) : Prop where
  floor_le : p.floor ≤ d.units
  le_ceiling : d.units ≤ p.ceiling
  /-- The chosen profile has the units in its range and is the least by cost and
      name among the eligible ones. -/
  chosen : ∃ profile ∈ p.profiles, profile.name = d.profile ∧ profile.minUnits ≤ d.units ∧
    d.units ≤ profile.maxUnits ∧
    if a.snapshot.units < p.floor then Cheapest p p.floor now true profile
    else Cheapest p d.units now false profile
  /-- The order in which the profiles are listed does not matter. -/
  order_irrelevant : ∀ (profiles : List CapacityProfile) (previous' : CapacityClockState)
    (d' : CapacityDecision), profiles.Perm p.profiles →
    assess ext Machine.wrap { p with profiles } a previous' now = .ok d' → d'.action ≠ .hold →
    d'.profile = d.profile ∧ d'.units = d.units
  /-- Outside floor repair, the change is one step in the direction of the pressure. -/
  step : p.floor ≤ a.snapshot.units → |d.units - a.snapshot.units| ≤ p.step ∧
    ∃ pressure dir, scanEvidence Machine.wrap p a now = .ok pressure ∧
      pressure.direction = some dir ∧ (dir = .up → a.snapshot.units ≤ d.units) ∧
      (dir = .down → d.units ≤ a.snapshot.units)

/-- A decision of a valid policy is the exact one, and is always returned. -/
theorem assess_eq_ok {ovf : ℤ → ℤ} :
    assess ext ovf p a previous now = .ok d ↔
      validatePolicy ext p = .ok () ∧ plan ext id p a previous now = d := by
  rw [assess, unit_bind_eq_ok]
  refine and_congr_right fun hvalid => ?_
  rw [plan_ovf ovf id (bounds_of_validatePolicy hvalid), Except.ok.injEq]

theorem FollowsPressure.units_eq {dir : Direction} (hb : PolicyBounds p)
    (h : FollowsPressure ext p a previous now d pressure dir) :
    d.units = dir.wanted p a.snapshot.units := by
  obtain ⟨profile, hm⟩ := h.moves
  exact hm.units_eq_wanted hb (Direction.wanted_le_ceiling hb h.units_le dir)

/-- Decisions that are not holds agree when the profiles are listed in another order. -/
theorem plan_eq_of_perm (hvalid : validatePolicy ext p = .ok ())
    (h : (plan ext id p a previous now).action ≠ .hold) (profiles : List CapacityProfile)
    (previous' : CapacityClockState) (d' : CapacityDecision) (hperm : profiles.Perm p.profiles)
    (hassess : assess ext Machine.wrap { p with profiles } a previous' now = .ok d')
    (h' : d'.action ≠ .hold) : d'.profile = (plan ext id p a previous now).profile ∧
      d'.units = (plan ext id p a previous now).units := by
  obtain ⟨hvalid', rfl⟩ := assess_eq_ok.1 hassess
  have hb := bounds_of_validatePolicy hvalid
  have hb' := bounds_of_validatePolicy hvalid'
  rcases plan_acts hb h with hr | ⟨pressure, dir, hf⟩ <;>
    rcases plan_acts hb' h' with hr' | ⟨pressure', dir', hf'⟩
  · obtain ⟨c, hm⟩ := hr.moves
    obtain ⟨c', hm'⟩ := hr'.moves
    exact Moves.eq_of_perm hvalid hvalid' hperm hb.floor_le_ceiling hm hm'
  · exact absurd hr.below (not_lt.2 hf'.not_below)
  · exact absurd hr'.below (not_lt.2 hf.not_below)
  · -- Both follow the pressure of the same evidence.
    have hpressure := hf'.evidence
    rw [scanEvidence_profiles, hf.evidence, Except.ok.injEq] at hpressure
    have hdir : dir = dir' := by
      rw [← Option.some_inj, ← hf.direction, hpressure, hf'.direction]
    obtain ⟨c, hm⟩ := hf.moves
    obtain ⟨c', hm'⟩ := hf'.moves
    rw [← hdir] at hm'
    exact Moves.eq_of_perm hvalid hvalid' hperm
      (Direction.wanted_le_ceiling hb hf.units_le dir) hm hm'

theorem envelope_of_plan (hvalid : validatePolicy ext p = .ok ())
    (h : (plan ext id p a previous now).action ≠ .hold) :
    Envelope ext p a now (plan ext id p a previous now) := by
  have hb := bounds_of_validatePolicy hvalid
  have horder := plan_eq_of_perm hvalid h
  rcases plan_acts hb h with hr | ⟨pressure, dir, hf⟩
  · obtain ⟨c, hm⟩ := hr.moves
    have hc := cheapest_of_select id hb hb.floor_le_ceiling hm.selected
    obtain ⟨hwanted, hmin, hmax⟩ := hm.units_mem hb hb.floor_le_ceiling
    refine ⟨hwanted, hmax.trans (hb.profiles c hc.mem).maxUnits_le_ceiling,
      ⟨c, hc.mem, hm.profile_eq.symm, hmin, hmax, by rwa [if_pos hr.below]⟩, horder,
      fun hfloor => absurd hr.below (not_lt.2 hfloor)⟩
  · obtain ⟨c, hm⟩ := hf.moves
    have hw := Direction.wanted_le_ceiling hb hf.units_le dir
    have hc := cheapest_of_select id hb hw hm.selected
    obtain ⟨-, hmin, hmax⟩ := hm.units_mem hb hw
    have hunits := hf.units_eq hb
    obtain ⟨hstep, hup, hdown⟩ := Direction.wanted_step hb hf.not_below hf.units_le dir
    rw [← hunits] at hstep hup hdown hw hc
    refine ⟨?_, hw, ⟨c, hc.mem, hm.profile_eq.symm, hmin, hmax, ?_⟩, horder,
      fun _ => ⟨hstep, pressure, dir, ?_, hf.direction, hup, hdown⟩⟩
    · rw [hunits]
      exact Direction.floor_le_wanted hb hf.not_below dir
    · rwa [if_neg (not_lt.2 hf.not_below)]
    · rw [scanEvidence_ovf Machine.wrap id hb, hf.evidence]

/-- Without complete evidence, units are kept, or raised to the floor. -/
theorem units_le_of_not_complete (hb : PolicyBounds p) (h : ¬ CompleteEvidence p a now) :
    a.snapshot.units ≤ (plan ext id p a previous now).units := by
  rcases plan_cases hb with ⟨-, hunits, -⟩ | hr | ⟨pressure, dir, hf⟩
  · exact hunits.ge
  · obtain ⟨c, hm⟩ := hr.moves
    exact hr.below.le.trans (hm.units_mem hb hb.floor_le_ceiling).1
  · exact absurd (completeEvidence_of_scanEvidence hf.evidence) h

/-- The durations a call computes, in nanoseconds. -/
def durations (p : CapacityPolicySpec) : List ℤ :=
  ([5, -p.maxEvidenceAgeSeconds, -controllerGapSeconds p, p.upHoldSeconds, -p.upHoldSeconds,
    p.downHoldSeconds, -p.downHoldSeconds, p.cooldownSeconds] ++
    p.profiles.map (·.readinessSeconds)).map (· * Instant.second)

/-- The units and costs a call computes. -/
def quantities (p : CapacityPolicySpec) (s : CapacitySnapshot) : List ℤ :=
  [s.units + p.step, s.units - p.step] ++ p.profiles.flatMap fun profile =>
    [p.floor, Direction.up.wanted p s.units, Direction.down.wanted p s.units].map fun units =>
      profile.unitMonthlyCostMinor * max units profile.minUnits

theorem durations_fit (hb : PolicyBounds p) : ∀ n ∈ durations p, Machine.Fits n := by
  have hday : ∀ n : ℤ, -86400 ≤ n → n ≤ 86400 → Machine.Fits (n * Instant.second) := by
    intro n h h'
    constructor <;> rw [Instant.second] <;> omega
  have hgap : controllerGapSeconds p = p.maxEvidenceAgeSeconds ∨
      controllerGapSeconds p = p.maxSampleGapSeconds := by
    unfold controllerGapSeconds
    split <;> simp
  have := hb.one_le_age
  have := hb.age_le
  have := hb.one_le_gap
  have := hb.gap_le_age
  have := hb.upHold_nonneg
  have := hb.upHold_le_downHold
  have := hb.downHold_le
  have := hb.cooldown_nonneg
  have := hb.cooldown_le
  simp only [durations, List.mem_map, List.mem_append, List.mem_cons, List.not_mem_nil, or_false]
  rintro _ ⟨n, (rfl | rfl | rfl | rfl | rfl | rfl | rfl | rfl) | ⟨profile, hmem, rfl⟩, rfl⟩
  case inr =>
    have h := (hb.profiles profile hmem).readiness_nonneg
    exact hday _ (by omega) (hb.profiles profile hmem).readiness_le
  all_goals exact hday _ (by omega) (by omega)

theorem quantities_fit (hb : PolicyBounds p) (h0 : 0 ≤ s.units) (hu : s.units ≤ p.ceiling) :
    ∀ n ∈ quantities p s, Machine.Fits n := by
  obtain ⟨hadd, hsub⟩ := units_step_fits hb h0 hu
  simp only [quantities, List.cons_append, List.nil_append, List.forall_mem_cons]
  refine ⟨hadd, hsub, fun n hn => ?_⟩
  obtain ⟨profile, hmem, hn⟩ := List.mem_flatMap.1 hn
  obtain ⟨units, hunits, rfl⟩ := List.mem_map.1 hn
  refine profileCost_fits hb (hb.profiles profile hmem) ?_
  simp only [List.mem_cons, List.not_mem_nil, or_false] at hunits
  rcases hunits with rfl | rfl | rfl
  · exact hb.floor_le_ceiling
  · exact Direction.wanted_le_ceiling hb hu .up
  · exact Direction.wanted_le_ceiling hb hu .down

/-- For every valid policy, assessment, clock and time, a decision is returned; it keeps to the
    envelope unless it is a hold; without complete evidence it does not lower the units; and no
    integer on the way overflows. -/
theorem assess_envelope (ext : External) (p : CapacityPolicySpec) (a : CapacityAssessment)
    (previous : CapacityClockState) (now : ℤ) (hvalid : validatePolicy ext p = .ok ()) :
    ∃ d, assess ext Machine.wrap p a previous now = .ok d ∧
      (d.action ≠ .hold → Envelope ext p a now d) ∧
      (¬ CompleteEvidence p a now → a.snapshot.units ≤ d.units) ∧
      (∀ ovf, assess ext ovf p a previous now = .ok d) ∧
      (∀ n ∈ durations p, Machine.Fits n) ∧
      (snapshotCurrent Machine.wrap p a.snapshot now = true →
        ∀ n ∈ quantities p a.snapshot, Machine.Fits n) := by
  have hb := bounds_of_validatePolicy hvalid
  refine ⟨plan ext id p a previous now, assess_eq_ok.2 ⟨hvalid, rfl⟩, envelope_of_plan hvalid,
    units_le_of_not_complete hb, fun ovf => assess_eq_ok.2 ⟨hvalid, rfl⟩, durations_fit hb,
    fun hcurrent => ?_⟩
  obtain ⟨h0, hu⟩ := units_of_snapshotCurrent Machine.wrap hcurrent
  exact quantities_fit hb h0 hu

/-- Pressure on two large units moves to three small ones. -/
theorem sample_envelope :
    let previous : CapacityClockState :=
      { policyFingerprint := "", resourceUID := "resource", workloadUID := "workload",
        workloadResourceVersion := "1", profile := "large",
        lastObservedAt := 100 * Instant.second, upSince := 100 * Instant.second }
    ∃ d, assess Sample.external Machine.wrap Sample.policy (Sample.assessment 2 90 110) previous
        (110 * Instant.second) = .ok d ∧ d.action = .prepare ∧ d.units = 3 ∧
      d.profile = "small" ∧
      Envelope Sample.external Sample.policy (Sample.assessment 2 90 110)
        (110 * Instant.second) d := by
  intro previous
  obtain ⟨d, hd, henvelope, -⟩ := assess_envelope Sample.external Sample.policy
    (Sample.assessment 2 90 110) previous (110 * Instant.second) (by decide)
  have hd' : assess Sample.external Machine.wrap Sample.policy (Sample.assessment 2 90 110) previous
      (110 * Instant.second) = .ok ⟨.prepare, .profileTransitionRequired, "small", 3, 1, true,
        { previous with lastObservedAt := 110 * Instant.second }⟩ := by decide
  rw [hd] at hd'
  cases hd'
  exact ⟨_, hd, rfl, rfl, rfl, henvelope nofun⟩

end Yggdrasil.Capacity
