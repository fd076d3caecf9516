import Yggdrasil.Capacity.Intent

/-!
# What the operations do

One lemma for each operation on the record of a scope: when it commits, what the record was, what
the caller held, and what changed (`Change`).
-/

namespace Yggdrasil.Capacity

open Check

variable {ext : External} {store : CapacityStore} {policy : Manifest} {p : CapacityPolicySpec}
  {env : Env} {old : Option CapacityIntent} {o next : CapacityIntent}
  {generation fence : ℤ} {owner : String} {assessment : CapacityAssessment}

/-! ## Leases -/

/-- What both lease checks ask of the record `o`. -/
structure HoldsLease (store : CapacityStore) (now : ℤ) (o : CapacityIntent)
    (generation fence : ℤ) (owner : String) : Prop where
  generation_eq : o.generation = generation
  fence_eq : o.fencingToken = fence
  owner_eq : o.leaseOwner = owner
  executor_eq : o.leaseExecutorID = store.executorID
  pending : pendingCapacityPhase o.phase = true
  live : ∃ t, o.leaseExpiresAt = some t ∧ now < t

theorem checkLease_eq_ok {now : ℤ}
    (h : checkLease ext store policy p now old generation fence owner = .ok o) :
    old = some o ∧ HoldsLease store now o generation fence owner ∧ o.recoveryOnly = false := by
  cases old with
  | none =>
    simp only [checkLease] at h
    split at h <;> cases h
  | some old =>
    simp only [checkLease, unit_bind_eq_ok, require_eq_ok, Bool.and_eq_true, beq_iff_eq,
      Bool.not_eq_true', Except.ok.injEq] at h
    obtain ⟨-, -, -, ⟨⟨⟨⟨⟨h₁, h₂⟩, -⟩, -⟩, h₃⟩, h₄⟩, ⟨⟨⟨⟨-, h₅⟩, -⟩, h₆⟩, h₇⟩, rfl⟩ := h
    obtain ⟨t, ht, hlive⟩ := (Option.any_eq_true _ _).1 h₇
    exact ⟨rfl, ⟨h₁, h₂, h₆, h₅, h₄, t, ht, by simpa using hlive⟩, h₃⟩

theorem checkRecoveryLease_eq_ok {now : ℤ}
    (h : checkRecoveryLease ext store policy now old generation fence owner = .ok o) :
    old = some o ∧ HoldsLease store now o generation fence owner ∧ o.recoveryOnly = true ∧
      o.phase ≠ .proposed := by
  cases old with
  | none => simp [checkRecoveryLease] at h
  | some old =>
    simp only [checkRecoveryLease, unit_bind_eq_ok, require_eq_ok, Bool.and_eq_true, beq_iff_eq,
      bne_iff_ne, Except.ok.injEq] at h
    obtain ⟨⟨⟨⟨⟨⟨⟨-, -⟩, h₁⟩, h₂⟩, h₃⟩, h₄⟩, h₅⟩, ⟨⟨⟨⟨-, h₆⟩, -⟩, h₇⟩, h₈⟩, rfl⟩ := h
    obtain ⟨t, ht, hlive⟩ := (Option.any_eq_true _ _).1 h₈
    exact ⟨rfl, ⟨h₁, h₂, h₇, h₆, h₅, t, ht, by simpa using hlive⟩, h₃, h₄⟩

/-! ## Assessments -/

/-- A record that a new assessment may replace. -/
def Replaceable (o : CapacityIntent) : Prop :=
  o.phase = .proposed ∨ pendingCapacityPhase o.phase = false

/-- What an assessment that replaces the record writes. -/
structure Assessed (old : Option CapacityIntent) (next : CapacityIntent) : Prop where
  replaceable : ∀ o, old = some o → Replaceable o
  fence_eq : next.fencingToken = old.elim 0 (·.fencingToken)
  not_recovery : next.recoveryOnly = false
  /-- A hold keeps the generation; a proposal is of the next one, unless the record has
      the same proposal already. -/
  outcome : next.phase = .hold ∧ next.generation = old.elim 0 (·.generation) ∨
    next.phase = .proposed ∧
      (next.generation = old.elim 0 (·.generation) + 1 ∨
        ∃ o, old = some o ∧ o.phase = .proposed ∧ next.generation = o.generation)

theorem proposal_eq_ok {d : CapacityDecision} {numbered : ℤ × Phase}
    (h : proposal policy old d = .ok numbered) :
    numbered.2 = .hold ∧ d.action = .hold ∧ numbered.1 = old.elim 0 (·.generation) ∨
      numbered.2 = .proposed ∧ d.action ≠ .hold ∧
        (numbered.1 = old.elim 0 (·.generation) + 1 ∨
          ∃ o, old = some o ∧ o.phase = .proposed ∧ numbered.1 = o.generation) := by
  simp only [proposal] at h
  split_ifs at h with hhold hsame hmax <;> cases h
  · exact .inl ⟨rfl, hhold, rfl⟩
  · obtain ⟨o, rfl, hproposed⟩ := (Option.any_eq_true _ _).1 hsame
    simp only [sameProposal, Bool.and_eq_true, beq_iff_eq] at hproposed
    exact .inr ⟨rfl, hhold, .inr ⟨o, rfl, hproposed.1.1.1.1.1, rfl⟩⟩
  · exact .inr ⟨rfl, hhold, .inl rfl⟩

theorem assessIntent_eq_ok
    (h : assessIntent ext store policy p env assessment old = .ok next) :
    old = some next ∨ Assessed old next := by
  rw [assessIntent] at h
  cases hcleanup : old.filter (fun old => old.failedUnwitnessedExpansionCleanupID != "") with
  | some o =>
    rw [hcleanup, Except.ok.injEq] at h
    exact .inl (h ▸ (Option.filter_eq_some_iff.1 hcleanup).1)
  | none =>
    rw [hcleanup] at h
    cases hpending : old.filter
        (fun old => pendingCapacityPhase old.phase && old.phase != .proposed) with
    | some o =>
      rw [hpending] at h
      simp only at h
      split at h
      · cases h
      · exact .inl (Except.ok.inj h ▸ (Option.filter_eq_some_iff.1 hpending).1)
    | none =>
      rw [hpending] at h
      simp only [bind_eq_ok, checked_eq_ok] at h
      obtain ⟨d, -, numbered, hproposal, h⟩ := h
      cases h
      refine .inr ⟨fun o ho => ?_, rfl, rfl, ?_⟩
      · rw [ho, Option.filter_eq_none_iff] at hpending
        have hblocked := hpending o rfl
        simp only [Bool.and_eq_true, bne_iff_ne, not_and, not_not] at hblocked
        by_cases hp : pendingCapacityPhase o.phase = true
        · exact .inl (hblocked hp)
        · exact .inr (by simpa using hp)
      · rcases proposal_eq_ok hproposal with ⟨hphase, -, hgen⟩ | ⟨hphase, -, hgen⟩
        · exact .inl ⟨hphase, hgen⟩
        · exact .inr ⟨hphase, hgen⟩

/-! ## Transactions -/

theorem parseCapacityPolicy_eq_ok (h : parseCapacityPolicy ext policy = .ok p) :
    policy.spec = some p ∧ validatePolicy ext p = .ok () := by
  simp only [parseCapacityPolicy, require_bind] at h
  cases hspec : policy.spec with
  | none => simp [hspec] at h
  | some q =>
    simp only [hspec, unit_bind_eq_ok, checked_eq_ok, Except.ok.injEq] at h
    obtain ⟨-, hvalid, rfl⟩ := h
    exact ⟨rfl, hvalid⟩

/-- A call that commits passed its checks, and writes what its operation computes. -/
theorem perform_eq_ok {r : Request} (h : perform ext r old = .ok next) :
    ∃ p, r.policy.spec = some p ∧ validatePolicy ext p = .ok () ∧
      mutate ext r p old = .ok next ∧ checkLedger r.env.ledger next = .ok () := by
  obtain ⟨p, hparse, h⟩ := bind_eq_ok.1 h
  obtain ⟨hspec, hvalid⟩ := parseCapacityPolicy_eq_ok hparse
  cases hstored : r.env.stored with
  | none => simp [hstored] at h
  | some stored =>
    simp only [hstored, unit_bind_eq_ok] at h
    obtain ⟨-, -, -, -, h⟩ := h
    obtain ⟨next', hmutate, h⟩ := bind_eq_ok.1 h
    simp only [unit_bind_eq_ok, Except.ok.injEq] at h
    obtain ⟨-, hledger, rfl⟩ := h
    exact ⟨p, hspec, hvalid, hmutate, hledger⟩

/-- What a call can do to the record, operation by operation. -/
inductive Change (ext : External) (r : Request) : Option CapacityIntent → CapacityIntent → Prop
  /-- An assessment leaves an outstanding generation as it is. -/
  | keep {a : CapacityAssessment} {o : CapacityIntent} (hop : r.operation = .assess a) :
      Change ext r (some o) o
  | assess {a : CapacityAssessment} {old : Option CapacityIntent} {next : CapacityIntent}
      (hop : r.operation = .assess a) (h : Assessed old next) : Change ext r old next
  | claim {generation : ℤ} {a : CapacityAssessment} {o : CapacityIntent}
      {p : CapacityPolicySpec} (hop : r.operation = .claim generation a)
      (hgen : o.generation = generation) (hphase : o.phase = .proposed)
      (hrec : o.recoveryOnly = false)
      (hplan : ∃ d, assess ext Machine.wrap p a o.decision.clock r.env.now = .ok d ∧
        d.action = o.decision.action ∧ d.units = o.decision.units ∧
        d.profile = o.decision.profile) :
      Change ext r (some o) (claimed r.store p r.env o a)
  | renew {generation fence : ℤ} {owner : String} {o : CapacityIntent} {p : CapacityPolicySpec}
      (hop : r.operation = .renew generation fence owner)
      (hlease : HoldsLease r.store r.env.now o generation fence owner)
      (hrec : o.recoveryOnly = false) :
      Change ext r (some o) { o with
        decision := { o.decision with
          executionPermitted := capacityProfileCurrent p o.decision r.env.now }
        leaseExpiresAt := some (leaseEnd p r.env)
        updatedAt := r.env.now }
  | advance {generation fence : ℤ} {owner : String} {phase : Phase}
      {proof : CapacityTransitionProof} {o : CapacityIntent} {p : CapacityPolicySpec}
      (hop : r.operation = .advance generation fence owner phase proof)
      (hlease : HoldsLease r.store r.env.now o generation fence owner)
      (hrec : o.recoveryOnly = false)
      (hallowed : capacityTransitionAllowed o.phase phase = true)
      (hinflight : phase = .promoted → capacityIntentReduction o = true →
        proof.inflight = some 0) :
      Change ext r (some o) (advanced p r.env o phase proof)
  | recover {generation : ℤ} {a : CapacityAssessment} {o : CapacityIntent}
      {p : CapacityPolicySpec} (hop : r.operation = .recover generation a)
      (hgen : o.generation = generation) (hphase : o.phase ≠ .proposed)
      (hpending : pendingCapacityPhase o.phase = true) :
      Change ext r (some o) { o with
        recoveryOnly := true
        decision := { o.decision with executionPermitted := false }
        assessment := a
        updatedAt := r.env.now
        fencingToken := o.fencingToken + 1
        leaseOwner := r.env.newOwner
        leaseExecutorID := r.store.executorID
        leaseExpiresAt := some (leaseEnd p r.env) }
  | renewRecovery {generation fence : ℤ} {owner : String} {o : CapacityIntent}
      {p : CapacityPolicySpec} (hop : r.operation = .renewRecovery generation fence owner)
      (hlease : HoldsLease r.store r.env.now o generation fence owner)
      (hrec : o.recoveryOnly = true) (hphase : o.phase ≠ .proposed) :
      Change ext r (some o) { o with
        decision := { o.decision with executionPermitted := false }
        leaseExpiresAt := some (leaseEnd p r.env)
        updatedAt := r.env.now }
  | reconcile {generation fence : ℤ} {owner : String} {outcome : Phase}
      {proof : CapacityTransitionProof} {o : CapacityIntent}
      (hop : r.operation = .reconcile generation fence owner outcome proof)
      (hlease : HoldsLease r.store r.env.now o generation fence owner)
      (hrec : o.recoveryOnly = true) (hphase : o.phase ≠ .proposed)
      (houtcome : outcome = .reconciled ∨ outcome = .reconciledPartial ∨
        outcome = .reconciledFailedFloor ∨ outcome = .aborted) :
      Change ext r (some o) { o with
        phase := outcome
        assessment := proof.assessment
        updatedAt := r.env.now
        floorDegraded := outcome == .reconciledFailedFloor
        decision := { o.decision with
          executionPermitted := false
          clock := { o.decision.clock.reset with lastActionAt := r.env.now } }
        leaseOwner := ""
        leaseExecutorID := ""
        leaseExpiresAt := none }

section Operations

variable {r : Request} {proof : CapacityTransitionProof}

theorem change_of_claim (hop : r.operation = .claim generation assessment)
    (h : claimIntent ext r.store r.policy p r.env generation assessment old = .ok next) :
    Change ext r old next := by
  simp only [claimIntent, unit_bind_eq_ok] at h
  obtain ⟨-, -, h⟩ := h
  cases old with
  | none => cases h
  | some o =>
    simp only [unit_bind_eq_ok, require_eq_ok, Bool.and_eq_true, beq_iff_eq,
      Bool.not_eq_true'] at h
    obtain ⟨⟨⟨⟨⟨hgen, -⟩, -⟩, hrec⟩, -⟩, -, hphase, -, -, -, -, h⟩ := h
    obtain ⟨d, hd, h⟩ := bind_eq_ok.1 h
    simp only [unit_bind_eq_ok, require_eq_ok, Bool.and_eq_true, beq_iff_eq,
      Except.ok.injEq] at h
    obtain ⟨⟨⟨haction, hunits⟩, hprofile⟩, -, rfl⟩ := h
    exact .claim hop hgen hphase hrec ⟨d, checked_eq_ok.1 hd, haction, hunits, hprofile⟩

theorem change_of_renew (hop : r.operation = .renew generation fence owner)
    (h : renewIntent ext r.store r.policy p r.env generation fence owner old = .ok next) :
    Change ext r old next := by
  obtain ⟨o, hlease, hnext⟩ := bind_eq_ok.1 h
  obtain ⟨rfl, hholds, hrec⟩ := checkLease_eq_ok hlease
  rw [require_bind, Except.ok.injEq] at hnext
  exact hnext.2 ▸ .renew hop hholds hrec

theorem change_of_advance {phase : Phase}
    (hop : r.operation = .advance generation fence owner phase proof)
    (h : advanceIntent ext r.store r.policy p r.env generation fence owner phase proof old =
      .ok next) : Change ext r old next := by
  obtain ⟨o, hlease, hnext⟩ := bind_eq_ok.1 h
  obtain ⟨rfl, hholds, hrec⟩ := checkLease_eq_ok hlease
  simp only [unit_bind_eq_ok, require_eq_ok, Except.ok.injEq] at hnext
  obtain ⟨hallowed, -, -, -, -, hinflight, -, rfl⟩ := hnext
  refine .advance hop hholds hrec hallowed fun hphase hred => ?_
  simpa [hphase, hred] using hinflight

theorem change_of_recover (hop : r.operation = .recover generation assessment)
    (h : recoverIntent ext r.store r.policy p r.env generation assessment old = .ok next) :
    Change ext r old next := by
  cases old with
  | none => cases h
  | some o =>
    simp only [recoverIntent, unit_bind_eq_ok, require_eq_ok, Bool.and_eq_true, beq_iff_eq,
      bne_iff_ne, Except.ok.injEq] at h
    obtain ⟨-, ⟨⟨⟨-, hgen⟩, hphase⟩, hpending⟩, -, -, -, -, rfl⟩ := h
    exact .recover hop hgen hphase hpending

theorem change_of_renewRecovery (hop : r.operation = .renewRecovery generation fence owner)
    (h : renewRecoveryIntent ext r.store r.policy p r.env generation fence owner old = .ok next) :
    Change ext r old next := by
  obtain ⟨o, hlease, hnext⟩ := bind_eq_ok.1 h
  obtain ⟨rfl, hholds, hrec, hphase⟩ := checkRecoveryLease_eq_ok hlease
  exact Except.ok.inj hnext ▸ .renewRecovery hop hholds hrec hphase

theorem change_of_reconcile {outcome : Phase}
    (hop : r.operation = .reconcile generation fence owner outcome proof)
    (h : reconcileIntent ext r.store r.policy p r.env generation fence owner outcome proof old =
      .ok next) : Change ext r old next := by
  obtain ⟨o, hlease, hnext⟩ := bind_eq_ok.1 h
  obtain ⟨rfl, hholds, hrec, hphase⟩ := checkRecoveryLease_eq_ok hlease
  simp only [unit_bind_eq_ok, require_eq_ok] at hnext
  obtain ⟨houtcome, -, -, -, -, -, hnext⟩ := hnext
  obtain ⟨wanted, -, hnext⟩ := bind_eq_ok.1 hnext
  rw [require_bind, Except.ok.injEq] at hnext
  refine hnext.2 ▸ .reconcile hop hholds hrec hphase ?_
  simpa only [Bool.or_eq_true, beq_iff_eq, or_assoc] using houtcome

theorem change_of_perform (h : perform ext r old = .ok next) : Change ext r old next := by
  obtain ⟨p, -, -, h, -⟩ := perform_eq_ok h
  unfold mutate at h
  split at h
  next hop => exact (assessIntent_eq_ok h).elim (fun h => h ▸ .keep hop) (.assess hop)
  next hop => exact change_of_claim hop h
  next hop => exact change_of_renew hop h
  next hop => exact change_of_advance hop h
  next hop => exact change_of_recover hop h
  next hop => exact change_of_renewRecovery hop h
  next hop => exact change_of_reconcile hop h

end Operations

/-- What an advance keeps, and the phase that it leads to. -/
@[simp]
theorem advanced_keeps {phase : Phase} :
    (advanced p env o phase proof).generation = o.generation ∧
    (advanced p env o phase proof).fencingToken = o.fencingToken ∧
    (advanced p env o phase proof).phase = phase ∧
    (advanced p env o phase proof).decision.action = o.decision.action ∧
    (advanced p env o phase proof).decision.units = o.decision.units ∧
    (advanced p env o phase proof).decision.profile = o.decision.profile ∧
    (advanced p env o phase proof).baselineSnapshot = o.baselineSnapshot := by
  unfold advanced
  split <;> exact ⟨rfl, rfl, rfl, rfl, rfl, rfl, rfl⟩

end Yggdrasil.Capacity
