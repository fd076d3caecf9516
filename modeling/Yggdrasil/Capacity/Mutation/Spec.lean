import Yggdrasil.Capacity.Intent.Spec
import Yggdrasil.Capacity.Mutation

/-!
# What the ledger's operations do

One lemma for each operation: when it commits, what it found and what it wrote. They come together
in `change_of_perform`, from which the invariants are read off.
-/

namespace Yggdrasil.Capacity.Mutation

open Check

variable {ext : External} {pr : Providers} {env : Env} {store : CapacityStore}
  {policy : Manifest} {p : CapacityPolicySpec} {intent : CapacityIntent} {plan : MutationPlan}
  {issue : CapacityMutationIssue} {proof : CapacityMutationProof} {t t' : Tables}
  {generation fence : ℤ} {owner : String} {scope : Scope} {grant : CapacityMutationGrant}
  {historical : Bool} {slot old : Option CapacityResourceSlot} {row : GrantRow}
  {record : CapacityMutationRecord} {settled : CapacityMutationSettleRequest}

/-! ## Authority -/

theorem checkHeldLease_eq_ok {held : CapacityIntent}
    (h : checkHeldLease ext env store policy historical p intent generation fence owner =
      .ok held) :
    held = intent := by
  unfold checkHeldLease at h
  split at h
  · exact (Option.some.inj (checkRecoveryLease_eq_ok h).1).symm
  · exact (Option.some.inj (checkLease_eq_ok h).1).symm

/-- A transaction under a lease reads the policy it was called with, and the intent. -/
theorem mutationTransaction_eq_ok
    (h : mutationTransaction ext env store policy historical generation fence owner =
      .ok (p, intent)) :
    policy.spec = some p ∧ validatePolicy ext p = .ok () ∧ env.intent = some intent := by
  obtain ⟨q, hparse, h⟩ := bind_eq_ok.1 h
  obtain ⟨hspec, hvalid⟩ := parseCapacityPolicy_eq_ok hparse
  simp only [require_bind] at h
  obtain ⟨-, h⟩ := h
  split at h
  next checksum active workflowActive i _ _ hintent =>
    simp only [unit_bind_eq_ok] at h
    obtain ⟨-, -, -, -, h⟩ := h
    obtain ⟨j, hlease, h⟩ := bind_eq_ok.1 h
    cases h
    exact ⟨hspec, hvalid, checkHeldLease_eq_ok hlease ▸ hintent⟩
  next => cases h

/-- A plan is for one of the two capabilities of a binding of the policy. -/
theorem prepareMutationPlan_eq_ok (h : prepareMutationPlan ext pr p issue = .ok plan) :
    plan.binding ∈ p.mutationBindings ∧ (plan.capability = plan.binding.ensureCapability ∨
      plan.capability = plan.binding.destroyCapability) := by
  unfold prepareMutationPlan at h
  split at h
  · cases h
  next b hfind =>
    simp only [require_bind] at h
    obtain ⟨-, h⟩ := h
    obtain ⟨spec, -, h⟩ := bind_eq_ok.1 h
    simp only [unit_bind_eq_ok, require_eq_ok, Bool.or_eq_true, beq_iff_eq] at h
    obtain ⟨-, -, -, hcapability, -, -, h⟩ := h
    unfold approvedPlan at h
    split at h
    · cases h
    · obtain ⟨approved, -, h⟩ := bind_eq_ok.1 h
      simp only [require_bind] at h
      obtain ⟨-, h⟩ := h
      cases h
      exact ⟨List.mem_of_find?_eq_some hfind, hcapability⟩

theorem boundPlan_eq_ok {plan' : MutationPlan} (h : boundPlan ext plan slot = .ok plan') :
    plan'.binding = plan.binding ∧ plan'.capability = plan.capability ∧ plan'.slot = plan.slot := by
  unfold boundPlan at h
  split at h
  · split at h
    · cases h
    · split at h
      next hbind =>
        cases h
        simp only [bindMutationDestroyPlan, require_bind, Except.ok.injEq] at hbind
        obtain ⟨-, rfl⟩ := hbind
        exact ⟨rfl, rfl, rfl⟩
      next => cases h
  · cases h
    exact ⟨rfl, rfl, rfl⟩

/-! ## Issue -/

/-- The room that a new permission leaves, in the tables before it is inserted. -/
structure HasRoom (t : Tables) (p : CapacityPolicySpec) (intent : CapacityIntent)
    (row : GrantRow) : Prop where
  ensures : row.ensures = true →
    (liveSlots t row.scope + pendingEnsures t row.scope : ℤ) < intent.decision.units ∧
      (liveSlots t row.scope + pendingEnsures t row.scope : ℤ) < p.ceiling
  destroys : row.ensures = false → pendingEnsures t row.scope = 0 ∧
    p.floor < liveSlots t row.scope - (pendingDestroys t row.scope : ℤ)

/-- A permission as it is issued. -/
structure Fresh (p : CapacityPolicySpec) (row : GrantRow) : Prop where
  issued : row.state = .issued
  undisposed : row.undisposed = true
  ours : row.foreignAuthority = false
  uncompensated : row.record.grant.compensationOf = ""
  binding : row.record.binding ∈ p.mutationBindings
  capability : row.ensures = true ∨ row.destroys = true

/-- What the expiry of a scope leaves. -/
def expired (env : Env) (scope : Scope) (t : Tables) : Tables :=
  { t with grants := expireIssued env scope t.grants }

theorem mem_expired {r' : GrantRow} : r' ∈ (expired env scope t).grants ↔
    ∃ r ∈ t.grants, (if expirable env scope r then r.withState .expired else r) = r' := by
  simp only [expired, expireIssued, Table.mem_map]

theorem state_of_expirable {r : GrantRow} (h : expirable env scope r = true) :
    r.state = .issued := by
  simp only [expirable, Bool.and_eq_true, beq_iff_eq] at h
  exact h.1.1.2

theorem checkBudget_eq_ok (hscope : row.scope = scopeOf policy p)
    (hensures : row.ensures = true ↔ plan.capability = plan.binding.ensureCapability)
    (h : checkBudget env policy p intent plan slot t generation = .ok ()) :
    HasRoom t p intent row := by
  simp only [checkBudget, unit_bind_eq_ok, ← hscope] at h
  obtain ⟨-, -, h⟩ := h
  split at h
  next hcap =>
    simp only [require_eq_ok, Bool.and_eq_true, decide_eq_true_eq] at h
    exact ⟨fun _ => ⟨h.1.2, h.2⟩, fun hnot => by simp [hensures.2 hcap] at hnot⟩
  next hcap =>
    simp only [require_eq_ok, Bool.and_eq_true, decide_eq_true_eq, beq_iff_eq] at h
    exact ⟨fun hyes => absurd (hensures.1 hyes) hcap, fun _ => ⟨h.2, h.1.2⟩⟩

theorem insertGrant_eq_ok {grants grants' : Table GrantRow.id}
    (h : insertGrant grants row = .ok grants') : grants.insert? row = some grants' := by
  simp only [insertGrant, require_bind] at h
  obtain ⟨-, h⟩ := h
  split at h
  · cases h
  · cases h
    assumption

/-! ## Callbacks -/

/-- A record that moved to another state: what identifies the grant stays. -/
structure Moved (old next : CapacityMutationRecord) (state : State) : Prop where
  grant_eq : next.grant = { old.grant with state }
  binding_eq : next.binding = old.binding
  cleanup_eq : next.failedUnwitnessedExpansionCleanupID = old.failedUnwitnessedExpansionCleanupID

theorem callbackTransaction_eq_ok {α : Type} {id : String} {reply : α}
    {fn : CapacityMutationRecord → Except CapacityError (CapacityMutationRecord × α)}
    (h : callbackTransaction ext env id fn t = .ok (t', reply)) :
    ∃ row record, ext.parseUUID id = some row.id ∧ row ∈ t.grants ∧
      fn row.record = .ok (record, reply) ∧
      t' = { t with grants := t.grants.set { row with record } } := by
  unfold callbackTransaction at h
  split at h
  · cases h
  next key hkey =>
    have hparse : ext.parseUUID id = some key := Option.mem_filter_iff.1 hkey |>.1
    split at h
    · cases h
    next row hrow =>
      simp only [unit_bind_eq_ok] at h
      obtain ⟨-, -, h⟩ := h
      obtain ⟨⟨record, reply'⟩, hfn, h⟩ := bind_eq_ok.1 h
      cases h
      obtain ⟨hmem, rfl⟩ := Table.get?_eq_some.1 hrow
      exact ⟨row, record, hparse, hmem, hfn, rfl⟩

/-! ## Reads -/

/-- A slot that is written holds a resource of the scope, or nothing. -/
structure SlotWrite (t : Tables) (scope : Scope) (native : NativeSlot)
    (old : Option CapacityResourceSlot) (record : CapacityResourceSlot)
    (slots : Table SlotRow.native) : Prop where
  before : old = (t.slots.get? native).map (·.record)
  owned : ∀ row, t.slots.get? native = some row →
    row.scope = scope ∧ row.foreignAuthority = false
  after : slots = t.slots.upsert { native, scope, record }

theorem slotWrite_of_eq_ok {b : CapacityMutationBinding} {slot : ℤ} {record : CapacityResourceSlot}
    {slots : Table SlotRow.native} (hload : loadMutationSlot t.slots scope b slot = .ok old)
    (hsave : saveMutationSlot t.slots scope b slot record = .ok slots) :
    SlotWrite t scope (nativeSlot b slot) old record slots := by
  simp only [saveMutationSlot, require_bind, Except.ok.injEq] at hsave
  obtain ⟨-, -, rfl⟩ := hsave
  unfold loadMutationSlot at hload
  split at hload
  next hnone =>
    cases hload
    exact ⟨by simp [hnone], by simp [hnone], rfl⟩
  next row hrow =>
    simp only [require_bind, beq_iff_eq, Bool.not_eq_true', Except.ok.injEq] at hload
    obtain ⟨hscope, hours, rfl⟩ := hload
    refine ⟨by simp [hrow], fun other hother => ?_, rfl⟩
    cases hrow.symm.trans hother
    exact ⟨hscope, hours⟩

/-- What a confirmation finds in the slot and leaves there. -/
theorem confirmedSlot_eq_ok {slot : CapacityResourceSlot}
    (h : confirmedSlot record settled proof old = .ok slot) :
    (record.grant.capability = record.binding.destroyCapability → slot.resourceID = "") ∧
      (record.grant.capability ≠ record.binding.destroyCapability →
        slot.resourceID = proof.resourceID ∧ ∀ s, old = some s → s.resourceID = "") := by
  simp only [confirmedSlot] at h
  split at h
  next hcap =>
    split at h
    · cases h
    · simp only [require_bind, Except.ok.injEq] at h
      obtain ⟨-, -, rfl⟩ := h
      exact ⟨fun _ => rfl, fun hne => absurd hcap hne⟩
  next hcap =>
    simp only [require_bind, Bool.and_eq_true, Except.ok.injEq] at h
    obtain ⟨⟨-, hempty⟩, rfl⟩ := h
    refine ⟨fun heq => absurd heq hcap, fun _ => ⟨rfl, fun s hs => ?_⟩⟩
    subst hs
    simpa using hempty

theorem checkConfirmation_eq_ok
    (h : checkConfirmation ext pr env store policy p record proof = .ok settled) :
    record.grant.state = .settled ∧ record.grant.compensationOf = "" ∧
      proof.resourceID ≠ "" := by
  simp only [checkConfirmation, require_bind, Bool.and_eq_true, beq_iff_eq] at h
  obtain ⟨-, ⟨⟨-, hordinary⟩, hstate⟩, h⟩ := h
  split at h
  · cases h
  · simp only [require_bind, Bool.and_eq_true] at h
    obtain ⟨⟨⟨-, hproof⟩, -⟩, -⟩ := h
    refine ⟨hstate, hordinary, fun hempty => ?_⟩
    simp [validMutationProof, validMutationIdentity, hempty] at hproof

/-! ## Calls -/

/-- A committed redemption of the grant `id` that gives permission to write. -/
def Committed.WritesOnce (ext : External) (c : Committed) (id : String) : Prop :=
  ∃ store principal request response, c.operation = .redeem store principal request ∧
    ext.parseUUID request.grantID = some id ∧ c.reply = .redemption response ∧
    response.mode = .writeOnce

/-- A committed report on the grant `id`. -/
def Committed.Settles (ext : External) (c : Committed) (id : String) : Prop :=
  ∃ principal nonce request, c.operation = .settle principal nonce request ∧
    ext.parseUUID request.grantID = some id

/-- A committed confirmation of the grant `id`. -/
def Committed.Confirms (ext : External) (c : Committed) (id : String) : Prop :=
  ∃ store policy generation fence owner proof,
    c.operation = .confirm store policy generation fence owner proof ∧
    ext.parseUUID proof.grantID = some id

/-- A call issues under a policy that decodes to `p`. -/
def Committed.IssuesUnder (c : Committed) (policy : Manifest) (p : CapacityPolicySpec) : Prop :=
  policy.spec = some p ∧ ∃ store generation fence owner issue,
    c.operation = .issue store policy generation fence owner issue

/-- A call that registers or refreshes a slot under a policy that decodes to `p`. -/
def Committed.RecordsUnder (c : Committed) (policy : Manifest) (p : CapacityPolicySpec) : Prop :=
  policy.spec = some p ∧ ∃ store generation fence owner issue proof,
    c.operation = .recordSlot store policy generation fence owner issue proof

/-- Everything a call can do to the two tables. -/
inductive Change (ext : External) (t : Tables) (c : Committed) : Tables → Prop
  | keep (hreply : ∀ id, ¬ c.WritesOnce ext id) : Change ext t c t
  /-- Permissions that were never redeemed expire. -/
  | expire (scope : Scope) (hreply : ∀ id, ¬ c.WritesOnce ext id) :
      Change ext t c (expired c.env scope t)
  | issue {policy : Manifest} {p : CapacityPolicySpec} {intent : CapacityIntent} {row : GrantRow}
      {grants : Table GrantRow.id} (hcall : c.IssuesUnder policy p)
      (hvalid : validatePolicy ext p = .ok ()) (hintent : c.env.intent = some intent)
      (hscope : row.scope = scopeOf policy p) (hfresh : Fresh p row)
      (hroom : HasRoom (expired c.env row.scope t) p intent row)
      (hfree : ∀ r ∈ (expired c.env row.scope t).grants, r.undisposed = true →
        r.native = row.native → r.state.isPending = false)
      (hinsert : (expired c.env row.scope t).grants.insert? row = some grants) :
      Change ext t c { t with grants }
  | lapse {row : GrantRow} {next : CapacityMutationRecord} (hrow : row ∈ t.grants)
      (hstate : row.state = .issued) (hmoved : Moved row.record next .expired)
      (hreply : ∀ id, ¬ c.WritesOnce ext id) :
      Change ext t c { t with grants := t.grants.set { row with record := next } }
  | redeem {row : GrantRow} {next : CapacityMutationRecord} (hrow : row ∈ t.grants)
      (hcall : c.WritesOnce ext row.id) (hstate : row.state = .issued)
      (hmoved : Moved row.record next .redeemed) :
      Change ext t c { t with grants := t.grants.set { row with record := next } }
  | settle {row : GrantRow} {next : CapacityMutationRecord} {state : State}
      (hrow : row ∈ t.grants) (hcall : c.Settles ext row.id) (hstate : row.state = .redeemed)
      (hnext : state = .settled ∨ state = .rejected) (hmoved : Moved row.record next state) :
      Change ext t c { t with grants := t.grants.set { row with record := next } }
  | confirm {row : GrantRow} {next : CapacityMutationRecord}
      {old : Option CapacityResourceSlot} {slot : CapacityResourceSlot}
      {slots : Table SlotRow.native} (hrow : row ∈ t.grants) (hcall : c.Confirms ext row.id)
      (hours : row.foreignAuthority = false) (hstate : row.state = .settled)
      (hordinary : row.record.grant.compensationOf = "")
      (hmoved : Moved row.record next .confirmed)
      (hdestroys : row.destroys = true → slot.resourceID = "")
      (hensures : row.destroys = false →
        slot.resourceID ≠ "" ∧ ∀ s, old = some s → s.resourceID = "")
      (hslot : SlotWrite t row.scope (nativeSlot row.record.binding row.record.grant.slot) old
        slot slots) :
      Change ext t c ⟨t.grants.set { row with record := next }, slots⟩
  | record {policy : Manifest} {p : CapacityPolicySpec} {native : NativeSlot}
      {old : Option CapacityResourceSlot} {slot : CapacityResourceSlot}
      {slots : Table SlotRow.native} (hcall : c.RecordsUnder policy p)
      (hsame : ∀ s, old = some s → s.resourceID = slot.resourceID)
      (hslot : SlotWrite t (scopeOf policy p) native old slot slots) :
      Change ext t c { t with slots }

/-! The lemmas below are about a call `c` whose operation commits. -/

section Calls

variable {c : Committed} {principal : String}

/-- An issue returns the permission that holds the slot, or inserts a new one. -/
theorem change_of_issue
    (hop : c.operation = .issue store policy generation fence owner issue)
    (h : issueMutation ext pr c.env store policy generation fence owner issue t = .ok (t', grant)) :
    Change ext t c t' := by
  obtain ⟨⟨p, intent⟩, htx, h⟩ := bind_eq_ok.1 h
  obtain ⟨hspec, hvalid, hintent⟩ := mutationTransaction_eq_ok htx
  simp only [require_bind] at h
  obtain ⟨-, h⟩ := h
  obtain ⟨plan, hplan, h⟩ := bind_eq_ok.1 h
  obtain ⟨hbinding, hcapability⟩ := prepareMutationPlan_eq_ok (checked_eq_ok.1 hplan)
  simp only [unit_bind_eq_ok] at h
  obtain ⟨-, -, h⟩ := h
  split at h
  · cases h
  next event _ =>
    simp only [unit_bind_eq_ok] at h
    obtain ⟨-, h⟩ := h
    obtain ⟨slot, -, h⟩ := bind_eq_ok.1 h
    obtain ⟨plan', hbound, h⟩ := bind_eq_ok.1 h
    obtain ⟨hb, hc, hs⟩ := boundPlan_eq_ok hbound
    split at h
    next row hfind =>
      obtain ⟨g, -, h⟩ := bind_eq_ok.1 h
      cases h
      exact .expire _ (by simp [Committed.WritesOnce, hop])
    next hfind =>
      simp only [unit_bind_eq_ok] at h
      obtain ⟨-, hbudget, h⟩ := h
      obtain ⟨grants, hinsert, h⟩ := bind_eq_ok.1 h
      cases h
      have hroom : HasRoom (expired c.env (scopeOf policy p) t) p intent
          (newRow c.env store policy p intent plan' event generation fence owner) :=
        checkBudget_eq_ok rfl (by simp [GrantRow.ensures, newRow, newGrant]) hbudget
      have hscope : (newRow c.env store policy p intent plan' event generation fence owner).scope =
        scopeOf policy p := rfl
      rw [← hscope] at hroom hfind hinsert
      refine .issue ⟨hspec, _, _, _, _, _, hop⟩ hvalid hintent hscope
        ⟨rfl, rfl, rfl, rfl, by rwa [← hb] at hbinding, ?_⟩ hroom ?_ (insertGrant_eq_ok hinsert)
      · rw [← hb, ← hc] at hcapability
        simpa [GrantRow.ensures, GrantRow.destroys, newRow, newGrant] using hcapability
      · intro r hr hundisposed hnative
        have hnot := List.find?_eq_none.1 hfind r hr
        simp only [hundisposed, Bool.true_and, Bool.and_eq_true, beq_iff_eq, not_and,
          Bool.not_eq_true] at hnot
        exact hnot (by rw [hnative, ← hb]; rfl)

/-- A redemption is a replay, finds the permission expired, or gives the one write. -/
theorem change_of_redeem {r : CapacityMutationRedeemRequest}
    {response : CapacityMutationRedeemResponse} (hop : c.operation = .redeem store principal r)
    (hreply : c.reply = .redemption response)
    (h : redeemMutation ext c.env store principal r t = .ok (t', response)) :
    Change ext t c t' := by
  simp only [redeemMutation, require_bind] at h
  obtain ⟨-, h⟩ := h
  obtain ⟨row, next, hid, hrow, hfn, rfl⟩ := callbackTransaction_eq_ok h
  have hread (hmode : response.mode = .readOnly) (id : String) : ¬ c.WritesOnce ext id := by
    rintro ⟨_, _, _, response', -, -, hreply', hmode'⟩
    cases hreply.symm.trans hreply'
    rw [hmode] at hmode'
    cases hmode'
  simp only [require_bind] at hfn
  obtain ⟨-, hfn⟩ := hfn
  obtain ⟨⟨next', mode⟩, hredeem, hfn⟩ := bind_eq_ok.1 hfn
  cases hfn
  unfold redeemRecord at hredeem
  split at hredeem
  · cases hredeem
    rw [Table.set_self hrow]
    exact .keep (hread rfl)
  next hissued =>
    have hstate : row.state = .issued := not_not.1 hissued
    split at hredeem
    · cases hredeem
      exact .lapse hrow hstate ⟨rfl, rfl, rfl⟩ (hread rfl)
    · obtain ⟨p, -, hredeem⟩ := bind_eq_ok.1 hredeem
      simp only [unit_bind_eq_ok] at hredeem
      obtain ⟨-, hredeem⟩ := hredeem
      cases hredeem
      exact .redeem hrow ⟨_, _, _, _, hop, hid, hreply, rfl⟩ hstate ⟨rfl, rfl, rfl⟩

/-- A report is a replay, or settles or rejects what was redeemed. -/
theorem change_of_settle {nonce : String} {r : CapacityMutationSettleRequest}
    (hop : c.operation = .settle principal nonce r)
    (h : settleMutation ext pr c.env principal nonce r t = .ok (t', grant)) :
    Change ext t c t' := by
  simp only [settleMutation, require_bind] at h
  obtain ⟨-, -, h⟩ := h
  obtain ⟨row, next, hid, hrow, hfn, rfl⟩ := callbackTransaction_eq_ok h
  simp only [unit_bind_eq_ok] at hfn
  obtain ⟨-, -, -, hfn⟩ := hfn
  obtain ⟨next', hsettle, hfn⟩ := bind_eq_ok.1 hfn
  cases hfn
  unfold settleRecord at hsettle
  split at hsettle
  · simp only [require_bind] at hsettle
    obtain ⟨-, hsettle⟩ := hsettle
    cases hsettle
    rw [Table.set_self hrow]
    exact .keep (by simp [Committed.WritesOnce, hop])
  · simp only [require_bind, beq_iff_eq] at hsettle
    obtain ⟨hstate, hsettle⟩ := hsettle
    cases hsettle
    refine .settle hrow ⟨_, _, _, hop, hid⟩ hstate ?_ ⟨rfl, rfl, rfl⟩
    split
    · exact .inr rfl
    · exact .inl rfl

/-- A confirmation is a replay, or closes a settled grant and writes its slot. -/
theorem change_of_confirm
    (hop : c.operation = .confirm store policy generation fence owner proof)
    (h : confirmMutation ext pr c.env store policy generation fence owner proof t =
      .ok (t', grant)) : Change ext t c t' := by
  obtain ⟨⟨p, intent⟩, htx, h⟩ := bind_eq_ok.1 h
  dsimp only at h
  split at h
  · cases h
  next row hrow =>
    obtain ⟨key, hparse, hget⟩ := Option.bind_eq_some_iff.1 hrow
    obtain ⟨hmem, rfl⟩ := Table.get?_eq_some.1 hget
    simp only [require_bind, Bool.and_eq_true, beq_iff_eq, Bool.not_eq_true'] at h
    obtain ⟨⟨hscope, -⟩, hours, h⟩ := h
    simp only [confirmRow] at h
    split at h
    · cases h
      exact .keep (by simp [Committed.WritesOnce, hop])
    · obtain ⟨settled, hcheck, h⟩ := bind_eq_ok.1 h
      obtain ⟨old, hload, h⟩ := bind_eq_ok.1 h
      obtain ⟨slot, hslot, h⟩ := bind_eq_ok.1 h
      obtain ⟨slots, hsave, h⟩ := bind_eq_ok.1 h
      simp only [unit_bind_eq_ok] at h
      obtain ⟨-, h⟩ := h
      cases h
      obtain ⟨hstate, hordinary, hresource⟩ := checkConfirmation_eq_ok hcheck
      obtain ⟨hdestroy, hensure⟩ := confirmedSlot_eq_ok hslot
      rw [← hscope] at hload hsave
      refine .confirm hmem ⟨_, _, _, _, _, _, hop, hparse⟩ hours hstate hordinary ⟨rfl, rfl, rfl⟩
        (fun hyes => ?_) (fun hno => ?_) (slotWrite_of_eq_ok hload hsave)
      · exact hdestroy (by simpa [GrantRow.destroys] using hyes)
      · obtain ⟨hid, hempty⟩ := hensure (by simpa [GrantRow.destroys] using hno)
        exact ⟨hid ▸ hresource, hempty⟩

/-- A registration writes the resource it read into a slot that was unknown, or had it. -/
theorem change_of_recordSlot
    (hop : c.operation = .recordSlot store policy generation fence owner issue proof)
    (h : recordMutationSlot ext pr c.env store policy generation fence owner issue proof t =
      .ok t') : Change ext t c t' := by
  obtain ⟨⟨p, intent⟩, htx, h⟩ := bind_eq_ok.1 h
  obtain ⟨hspec, -, -⟩ := mutationTransaction_eq_ok htx
  obtain ⟨plan, -, h⟩ := bind_eq_ok.1 h
  simp only [unit_bind_eq_ok] at h
  obtain ⟨-, -, -, h⟩ := h
  obtain ⟨old, hload, h⟩ := bind_eq_ok.1 h
  simp only [unit_bind_eq_ok] at h
  obtain ⟨hregister, h⟩ := h
  obtain ⟨slots, hsave, h⟩ := bind_eq_ok.1 h
  cases h
  refine .record ⟨hspec, _, _, _, _, _, _, hop⟩ ?_ (slotWrite_of_eq_ok hload hsave)
  rintro s rfl
  simp only [checkRegistration, require_eq_ok, Bool.and_eq_true, beq_iff_eq] at hregister
  exact hregister.1.1.2

theorem change_of_perform (h : perform ext pr c.operation c.env t = .ok (t', c.reply)) :
    Change ext t c t' := by
  unfold perform at h
  split at h
  next hop =>
    obtain ⟨⟨t₁, grant⟩, h₁, h⟩ := bind_eq_ok.1 h
    obtain ⟨rfl, -⟩ := Prod.mk.inj (Except.ok.inj h)
    exact change_of_issue hop h₁
  next hop =>
    obtain ⟨⟨t₁, response⟩, h₁, h⟩ := bind_eq_ok.1 h
    obtain ⟨rfl, hreply⟩ := Prod.mk.inj (Except.ok.inj h)
    exact change_of_redeem hop hreply.symm h₁
  next hop =>
    obtain ⟨⟨t₁, grant⟩, h₁, h⟩ := bind_eq_ok.1 h
    obtain ⟨rfl, -⟩ := Prod.mk.inj (Except.ok.inj h)
    exact change_of_settle hop h₁
  next hop =>
    obtain ⟨⟨t₁, grant⟩, h₁, h⟩ := bind_eq_ok.1 h
    obtain ⟨rfl, -⟩ := Prod.mk.inj (Except.ok.inj h)
    exact change_of_confirm hop h₁
  next hop =>
    obtain ⟨t₁, h₁, h⟩ := bind_eq_ok.1 h
    obtain ⟨rfl, -⟩ := Prod.mk.inj (Except.ok.inj h)
    exact change_of_recordSlot hop h₁
  next hop =>
    obtain ⟨t₁, h₁, h⟩ := bind_eq_ok.1 h
    obtain ⟨rfl, -⟩ := Prod.mk.inj (Except.ok.inj h)
    simp only [closeScope, require_bind, Except.ok.injEq] at h₁
    rw [← h₁.2]
    exact .expire _ (by simp [Committed.WritesOnce, hop])

end Calls

section Runs

variable {ρ : ℕ → Tables} {δ : ℕ → Option Committed} {n : ℕ} {c : Committed}

/-- A step of a run changes nothing, or is what its call does. -/
theorem step_cases (h : IsRun (Step ext pr) ρ δ) (n : ℕ) :
    (δ n = none ∧ ρ (n + 1) = ρ n) ∨
      ∃ c, δ n = some c ∧ Change ext (ρ n) c (ρ (n + 1)) := by
  have hstep := h n
  generalize ρ n = t, ρ (n + 1) = t', δ n = l at hstep
  cases hstep with
  | refuse => exact .inl ⟨rfl, rfl⟩
  | commit hperform => exact .inr ⟨_, rfl, change_of_perform hperform⟩

theorem change_of_eq_some (h : IsRun (Step ext pr) ρ δ) (hn : δ n = some c) :
    Change ext (ρ n) c (ρ (n + 1)) := by
  rcases step_cases h n with ⟨hnone, -⟩ | ⟨c', hc', hchange⟩
  · cases hn.symm.trans hnone
  · cases hn.symm.trans hc'
    exact hchange

end Runs

end Yggdrasil.Capacity.Mutation
