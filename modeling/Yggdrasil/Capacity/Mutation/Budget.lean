import Yggdrasil.Capacity.Mutation.Spec

/-!
# Mutation budgets

The counts that an issue looks at stay within the envelope of the policy over every run
(`mutation_budgets`). A creation or a destruction is counted from its issue to its confirmation, a
rejection or an expiry takes it back, and every pending grant of the scope is one of the two and not
both (`Ordinary`).
-/

namespace Yggdrasil.Capacity.Mutation

variable {ext : External} {pr : Providers} {t t' : Tables} {c : Committed} {s : Scope}
  {env : Env} {row r : GrantRow} {native : NativeSlot} {old : Option CapacityResourceSlot}
  {scope : Scope} {slots : Table SlotRow.native}

/-! ## Live slots -/

/-- A write of a slot changes the live slots of its scope by what it held and holds. -/
theorem SlotWrite.count_live {record : CapacityResourceSlot}
    (h : SlotWrite t scope native old record slots) (s : Scope) :
    slots.count (SlotRow.live s) + (scope == s && old.any (·.resourceID != "")).toNat =
      t.slots.count (SlotRow.live s) + (scope == s && record.resourceID != "").toNat := by
  have hcount := t.slots.count_upsert { native, scope, record } (SlotRow.live s)
  rw [← h.after] at hcount
  suffices hold : (t.slots.get? native).any (SlotRow.live s) =
      (scope == s && old.any (·.resourceID != "")) by
    simpa [SlotRow.live, hold] using hcount
  rw [h.before]
  cases hget : t.slots.get? native with
  | none => simp
  | some row =>
    obtain ⟨hscope, hours⟩ := h.owned row hget
    simp [SlotRow.live, hscope, hours]

/-! ## Pending grants -/

/-- A pending grant that the budgets count exactly once. -/
structure Ordinary (r : GrantRow) : Prop where
  undisposed : r.undisposed = true
  ours : r.foreignAuthority = false
  uncompensated : r.record.grant.compensationOf = ""
  isOpen : r.state.isOpen = true
  exclusive : r.ensures = !r.destroys

/-- Every pending grant of the scope is ordinary. -/
def PendingOrdinary (s : Scope) (grants : Table GrantRow.id) : Prop :=
  ∀ r ∈ grants, r.scope = s → r.state.isPending = true → Ordinary r

/-- The rows that `pendingEnsures` counts. -/
def pendingEnsure (s : Scope) (r : GrantRow) : Bool :=
  r.counted s && r.state.isPending && r.ensures

/-- The rows that `pendingDestroys` counts. -/
def pendingDestroy (s : Scope) (r : GrantRow) : Bool :=
  r.counted s && r.state.isOpen && r.destroys && r.record.grant.compensationOf == ""

theorem pendingEnsures_eq (t : Tables) (s : Scope) :
    pendingEnsures t s = t.grants.count (pendingEnsure s) := rfl

theorem pendingDestroys_eq (t : Tables) (s : Scope) :
    pendingDestroys t s = t.grants.count (pendingDestroy s) := rfl

theorem isPending_of_isOpen {x : State} (h : x.isOpen = true) : x.isPending = true := by
  cases x <;> first | rfl | cases h

/-- An ordinary grant of the scope is counted on one side. -/
theorem Ordinary.counted (h : Ordinary r) (hscope : r.scope = s) :
    pendingEnsure s r = !r.destroys ∧ pendingDestroy s r = r.destroys := by
  simp [pendingEnsure, pendingDestroy, GrantRow.counted, h.undisposed, h.ours, h.isOpen,
    isPending_of_isOpen h.isOpen, h.exclusive, h.uncompensated, hscope]

/-- What is neither pending nor of the scope is not counted. -/
theorem not_counted (h : r.scope ≠ s ∨ r.state.isPending = false) :
    pendingEnsure s r = false ∧ pendingDestroy s r = false := by
  rcases h with hscope | hpending
  · simp [pendingEnsure, pendingDestroy, GrantRow.counted, hscope]
  · have hopen : r.state.isOpen = false := by
      cases hopen : r.state.isOpen with
      | false => rfl
      | true => rw [isPending_of_isOpen hopen] at hpending; cases hpending
    simp [pendingEnsure, pendingDestroy, hpending, hopen]

/-! ## Expiry -/

theorem pendingOrdinary_expired (h : PendingOrdinary s t.grants) (env : Env) (scope : Scope) :
    PendingOrdinary s (expired env scope t).grants := by
  intro r' hr' hscope hpending
  obtain ⟨r, hr, rfl⟩ := mem_expired.1 hr'
  split at hpending
  next => cases hpending
  next hexp =>
    rw [if_neg hexp] at hscope ⊢
    exact h r hr hscope hpending

/-- An expiry does not raise a count that leaves expired rows out. -/
theorem count_expired_le {p : GrantRow → Bool}
    (h : ∀ r : GrantRow, p (r.withState .expired) = false) :
    (expired env s t).grants.count p ≤ t.grants.count p := by
  simp only [expired, expireIssued]
  refine Table.count_map_le fun r _ hp => ?_
  split at hp
  · rw [h r] at hp
    cases hp
  · exact hp

/-! ## Moves of one grant -/

section Moves

variable {next : CapacityMutationRecord} {state : State}

theorem pendingOrdinary_set (h : PendingOrdinary s t.grants) (hrow : row ∈ t.grants)
    (hopen : row.state.isOpen = true) (hmoved : Moved row.record next state)
    (hstate : state ≠ .compensating) :
    PendingOrdinary s (t.grants.set { row with record := next }) := by
  intro r hr hscope hpending
  rcases Table.mem_set.1 hr with ⟨rfl, -⟩ | ⟨hr, -⟩
  · have hold := h row hrow hscope (isPending_of_isOpen hopen)
    refine ⟨hold.undisposed, hold.ours, ?_, ?_, ?_⟩
    · simpa [hmoved.grant_eq] using hold.uncompensated
    · simp only [GrantRow.state, hmoved.grant_eq] at hpending ⊢
      cases state <;> first | rfl | exact absurd rfl hstate | cases hpending
    · simpa [GrantRow.ensures, GrantRow.destroys, hmoved.grant_eq, hmoved.binding_eq] using
        hold.exclusive
  · exact h r hr hscope hpending

/-- A count of rows of the grants when one of them moves on. -/
theorem count_set (hrow : row ∈ t.grants) (hmoved : Moved row.record next state)
    (p : GrantRow → Bool) :
    (t.grants.set { row with record := next }).count p + (p row).toNat =
      t.grants.count p + (p { row with record := next }).toNat :=
  Table.count_set hrow (by simp [GrantRow.id, hmoved.grant_eq]) p

/-- A grant that moves on is counted as before, or no longer. -/
theorem count_set_le (hrow : row ∈ t.grants) (hopen : row.state.isOpen = true)
    (hmoved : Moved row.record next state) (s : Scope) :
    (t.grants.set { row with record := next }).count (pendingEnsure s) ≤
        t.grants.count (pendingEnsure s) ∧
      (t.grants.set { row with record := next }).count (pendingDestroy s) ≤
        t.grants.count (pendingDestroy s) := by
  have hensure := count_set hrow hmoved (pendingEnsure s)
  have hdestroy := count_set hrow hmoved (pendingDestroy s)
  have hcounted : GrantRow.counted s { row with record := next } = row.counted s := rfl
  have hensures : GrantRow.ensures { row with record := next } = row.ensures := by
    simp [GrantRow.ensures, hmoved.grant_eq, hmoved.binding_eq]
  have hdestroys : GrantRow.destroys { row with record := next } = row.destroys := by
    simp [GrantRow.destroys, hmoved.grant_eq, hmoved.binding_eq]
  have hone : ∀ {a b : Bool}, (b = true → a = true) → b.toNat ≤ a.toNat := by decide
  have hle₁ : (pendingEnsure s { row with record := next }).toNat ≤ (pendingEnsure s row).toNat :=
    hone fun h => by
      simp only [pendingEnsure, hcounted, hensures, Bool.and_eq_true] at h ⊢
      exact ⟨⟨h.1.1, isPending_of_isOpen hopen⟩, h.2⟩
  have hle₂ : (pendingDestroy s { row with record := next }).toNat ≤
      (pendingDestroy s row).toNat :=
    hone fun h => by
      simp only [pendingDestroy, hcounted, hdestroys, hmoved.grant_eq, Bool.and_eq_true] at h ⊢
      exact ⟨⟨⟨h.1.1.1, hopen⟩, h.1.2⟩, h.2⟩
  omega

end Moves

/-! ## The envelope -/

/-- The counts of the scope are within the policy's envelope. -/
structure Within (p : CapacityPolicySpec) (s : Scope) (t : Tables) : Prop where
  ordinary : PendingOrdinary s t.grants
  ceiling : (liveSlots t s + pendingEnsures t s : ℤ) ≤ p.ceiling
  floor : p.floor ≤ liveSlots t s - (pendingDestroys t s : ℤ)

/-- The step puts a slot of the scope into the ledger that was not there. -/
def Registers (t t' : Tables) (s : Scope) : Prop :=
  ∃ row ∈ t'.slots, row.scope = s ∧ ∀ old ∈ t.slots, old.native ≠ row.native

section Step

variable {p : CapacityPolicySpec} {next : CapacityMutationRecord} {slot : CapacityResourceSlot}

theorem Within.of_le (h : Within p s t) (hordinary : PendingOrdinary s t'.grants)
    (hlive : liveSlots t' s = liveSlots t s) (hensures : pendingEnsures t' s ≤ pendingEnsures t s)
    (hdestroys : pendingDestroys t' s ≤ pendingDestroys t s) : Within p s t' where
  ordinary := hordinary
  ceiling := by
    have := h.ceiling
    omega
  floor := by
    have := h.floor
    omega

theorem Within.expired (h : Within p s t) (env : Env) (scope : Scope) :
    Within p s (expired env scope t) :=
  h.of_le (pendingOrdinary_expired h.ordinary env scope) rfl
    (count_expired_le (p := pendingEnsure s) fun _ => (not_counted (.inr rfl)).1)
    (count_expired_le (p := pendingDestroy s) fun _ => (not_counted (.inr rfl)).2)

theorem Within.set {state : State} (h : Within p s t) (hrow : row ∈ t.grants)
    (hopen : row.state.isOpen = true) (hmoved : Moved row.record next state)
    (hstate : state ≠ .compensating) :
    Within p s { t with grants := t.grants.set { row with record := next } } :=
  h.of_le (pendingOrdinary_set h.ordinary hrow hopen hmoved hstate) rfl
    (count_set_le hrow hopen hmoved s).1 (count_set_le hrow hopen hmoved s).2

theorem Fresh.ordinary {q : CapacityPolicySpec} (h : Fresh q row) (hq : PolicyBounds q) :
    Ordinary row := by
  refine ⟨h.undisposed, h.ours, h.uncompensated, by rw [h.issued]; rfl, ?_⟩
  have hne := hq.capabilities_ne _ h.binding
  rcases h.capability with hcap | hcap <;>
    simp only [GrantRow.ensures, GrantRow.destroys, beq_iff_eq] at hcap ⊢ <;>
    simp [hcap, hne, hne.symm]

/-- A new permission of the scope stays in the room that its issue found. -/
theorem Within.insert {intent : CapacityIntent} {grants : Table GrantRow.id} (h : Within p s t)
    (hordinary : Ordinary row) (hroom : row.scope = s → HasRoom t p intent row)
    (hinsert : t.grants.insert? row = some grants) : Within p s { t with grants } := by
  have hensure := Table.count_insert? hinsert (pendingEnsure s)
  have hdestroy := Table.count_insert? hinsert (pendingDestroy s)
  have hpending : PendingOrdinary s grants := by
    intro r hr hscope hpending
    rcases (Table.mem_of_insert? hinsert).1 hr with rfl | hr
    · exact hordinary
    · exact h.ordinary r hr hscope hpending
  by_cases hscope : row.scope = s
  · obtain ⟨he, hd⟩ := hordinary.counted hscope
    have hroom := hroom hscope
    have hex := hordinary.exclusive
    have hceiling := h.ceiling
    have hfloor := h.floor
    simp only [pendingEnsures_eq, pendingDestroys_eq, liveSlots] at hceiling hfloor
    cases hdes : row.destroys with
    | false =>
      obtain ⟨-, hroom⟩ := hroom.ensures (hex.trans (hdes ▸ rfl))
      simp only [he, hd, hdes, Bool.not_false, Bool.toNat_true, Bool.toNat_false]
        at hensure hdestroy
      simp only [hscope, pendingEnsures_eq, liveSlots] at hroom
      refine ⟨hpending, ?_, ?_⟩ <;>
        simp only [pendingEnsures_eq, pendingDestroys_eq, liveSlots] <;> omega
    | true =>
      obtain ⟨-, hroom⟩ := hroom.destroys (hex.trans (hdes ▸ rfl))
      simp only [he, hd, hdes, Bool.not_true, Bool.toNat_true, Bool.toNat_false] at hensure hdestroy
      simp only [hscope, pendingDestroys_eq, liveSlots] at hroom
      refine ⟨hpending, ?_, ?_⟩ <;>
        simp only [pendingEnsures_eq, pendingDestroys_eq, liveSlots] <;> omega
  · obtain ⟨he, hd⟩ := not_counted (r := row) (.inl hscope)
    rw [he] at hensure
    rw [hd] at hdestroy
    exact h.of_le hpending rfl hensure.le hdestroy.le

/-- A confirmation moves a grant from the pending to the slots. -/
theorem Within.confirm (h : Within p s t) (hrow : row ∈ t.grants) (hstate : row.state = .settled)
    (hmoved : Moved row.record next .confirmed)
    (hdestroys : row.destroys = true → slot.resourceID = "")
    (hensures : row.destroys = false → slot.resourceID ≠ "" ∧ ∀ x, old = some x → x.resourceID = "")
    (hslot : SlotWrite t row.scope (nativeSlot row.record.binding row.record.grant.slot) old
      slot slots) : Within p s ⟨t.grants.set { row with record := next }, slots⟩ := by
  have hopen : row.state.isOpen = true := by rw [hstate]; rfl
  have hpending := pendingOrdinary_set h.ordinary hrow hopen hmoved (by decide)
  have hlive := hslot.count_live s
  by_cases hscope : row.scope = s
  · have hordinary := h.ordinary row hrow hscope (isPending_of_isOpen hopen)
    obtain ⟨he, hd⟩ := hordinary.counted hscope
    obtain ⟨he', hd'⟩ := not_counted (s := s) (r := { row with record := next })
      (.inr (by simp [GrantRow.state, hmoved.grant_eq, State.isPending, State.isOpen]))
    have hensure := count_set hrow hmoved (pendingEnsure s)
    have hdestroy := count_set hrow hmoved (pendingDestroy s)
    rw [he, he'] at hensure
    rw [hd, hd'] at hdestroy
    simp only [hscope, beq_self_eq_true, Bool.true_and] at hlive
    have hceiling := h.ceiling
    have hfloor := h.floor
    simp only [pendingEnsures_eq, pendingDestroys_eq, liveSlots] at hceiling hfloor
    cases hdes : row.destroys with
    | true =>
      -- The slot loses its resource, if it had one, and the destruction its count.
      rw [hdes] at hensure hdestroy
      simp only [hdestroys hdes, bne_self_eq_false, Bool.toNat_false, Bool.toNat_true,
        Bool.not_true, add_zero] at hlive hensure hdestroy
      have hone := Bool.toNat_le (old.any (·.resourceID != ""))
      refine ⟨hpending, ?_, ?_⟩ <;>
        simp only [pendingEnsures_eq, pendingDestroys_eq, liveSlots] <;> omega
    | false =>
      obtain ⟨hid, hempty⟩ := hensures hdes
      have hold : old.any (·.resourceID != "") = false := by
        cases old with
        | none => rfl
        | some x => simp [hempty x rfl]
      rw [hdes] at hensure hdestroy
      simp only [hold, bne_iff_ne.2 hid, Bool.toNat_false, Bool.toNat_true, Bool.not_false,
        add_zero] at hlive hensure hdestroy
      refine ⟨hpending, ?_, ?_⟩ <;>
        simp only [pendingEnsures_eq, pendingDestroys_eq, liveSlots] <;> omega
  · have hnot : (row.scope == s) = false := beq_eq_false_iff_ne.2 hscope
    simp only [hnot, Bool.false_and, Bool.toNat_false, add_zero] at hlive
    exact h.of_le hpending hlive (count_set_le hrow hopen hmoved s).1
      (count_set_le hrow hopen hmoved s).2

/-- A registration that adds no slot of the scope leaves its live slots. -/
theorem liveSlots_of_not_registers (hslot : SlotWrite t scope native old slot slots)
    (hsame : ∀ x, old = some x → x.resourceID = slot.resourceID)
    (hregister : ¬ Registers t { t with slots } s) :
    slots.count (SlotRow.live s) = t.slots.count (SlotRow.live s) := by
  have hlive := hslot.count_live s
  by_cases hscope : scope = s
  · cases hold : old with
    | none =>
      refine absurd ⟨{ native, scope, record := slot }, ?_, hscope, ?_⟩ hregister
      · rw [hslot.after]
        exact Table.mem_upsert_self _ _
      · have hnone : t.slots.get? native = none := by simpa [hold] using hslot.before
        exact Table.get?_eq_none.1 hnone
    | some x => simpa [hold, hscope, hsame x hold] using hlive
  · have hnot : (scope == s) = false := beq_eq_false_iff_ne.2 hscope
    simpa [hnot] using hlive

theorem Change.within (h : Change ext t c t')
    (hpolicy : ∀ policy q, c.IssuesUnder policy q → scopeOf policy q = s → q = p)
    (hregister : ∀ policy q, c.RecordsUnder policy q → ¬ Registers t t' s)
    (hwithin : Within p s t) : Within p s t' := by
  cases h with
  | keep => exact hwithin
  | expire scope => exact hwithin.expired c.env scope
  | @issue policy q intent row grants hcall hvalid _ hscope hfresh hroom _ hinsert =>
    have hordinary := hfresh.ordinary (bounds_of_validatePolicy hvalid)
    have hroom' (hs : row.scope = s) : HasRoom (expired c.env row.scope t) p intent row :=
      hpolicy _ _ hcall (hscope.symm.trans hs) ▸ hroom
    exact (hwithin.expired c.env row.scope).insert hordinary hroom' hinsert
  | lapse hrow hstate hmoved => exact hwithin.set hrow (by rw [hstate]; rfl) hmoved (by decide)
  | redeem hrow _ hstate hmoved =>
    exact hwithin.set hrow (by rw [hstate]; rfl) hmoved (by decide)
  | settle hrow _ hstate hnext hmoved =>
    exact hwithin.set hrow (by rw [hstate]; rfl) hmoved (by rcases hnext with rfl | rfl <;> decide)
  | confirm hrow _ _ hstate _ hmoved hdestroys hensures hslot =>
    exact hwithin.confirm hrow hstate hmoved hdestroys hensures hslot
  | record hcall hsame hslot =>
    exact hwithin.of_le hwithin.ordinary
      (liveSlots_of_not_registers hslot hsame (hregister _ _ hcall)) le_rfl le_rfl

end Step

/-- A row that a step brings in was issued by it, in the room it found. -/
theorem Change.issues (h : Change ext t c t') (hr : r ∈ t'.grants)
    (hnew : ∀ old ∈ t.grants, old.id ≠ r.id) :
    ∃ p intent, c.env.intent = some intent ∧ Ordinary r ∧
      HasRoom (expired c.env r.scope t) p intent r := by
  -- Apart from an issue, every row keeps the identifier of a row that was there.
  have hset {row : GrantRow} {next : CapacityMutationRecord} {state : State}
      (hrow : row ∈ t.grants) (hmoved : Moved row.record next state) :
      r ∉ t.grants.set { row with record := next } := by
    intro hr
    rcases Table.mem_set.1 hr with ⟨rfl, -⟩ | ⟨hr, -⟩
    · exact hnew row hrow (by simp [GrantRow.id, hmoved.grant_eq])
    · exact hnew r hr rfl
  have hexpired (scope : Scope) : r ∉ (expired c.env scope t).grants := by
    intro hr
    obtain ⟨old, hold, rfl⟩ := mem_expired.1 hr
    exact hnew old hold (by split <;> rfl)
  cases h with
  | keep | record => exact absurd rfl (hnew r hr)
  | expire scope => exact absurd hr (hexpired scope)
  | issue hcall hvalid hintent _ hfresh hroom _ hinsert =>
    rcases (Table.mem_of_insert? hinsert).1 hr with rfl | hr
    · exact ⟨_, _, hintent, hfresh.ordinary (bounds_of_validatePolicy hvalid), hroom⟩
    · exact absurd hr (hexpired _)
  | lapse hrow _ hmoved => exact absurd hr (hset hrow hmoved)
  | redeem hrow _ _ hmoved => exact absurd hr (hset hrow hmoved)
  | settle hrow _ _ _ hmoved => exact absurd hr (hset hrow hmoved)
  | confirm hrow _ _ _ _ hmoved => exact absurd hr (hset hrow hmoved)

section Runs

variable {ρ : ℕ → Tables} {δ : ℕ → Option Committed} {p : CapacityPolicySpec}

theorem within_run (h : IsRun (Step ext pr) ρ δ)
    (hpolicy : ∀ n c policy q, δ n = some c → c.IssuesUnder policy q → scopeOf policy q = s →
      q = p)
    (hregister : ∀ n c policy q, δ n = some c → c.RecordsUnder policy q →
      ¬ Registers (ρ n) (ρ (n + 1)) s)
    (h0 : Within p s (ρ 0)) (n : ℕ) : Within p s (ρ n) := by
  induction n with
  | zero => exact h0
  | succ n ih =>
    rcases step_cases h n with ⟨-, heq⟩ | ⟨c, hc, hchange⟩
    · exact heq ▸ ih
    · exact hchange.within (fun policy q => hpolicy n c policy q hc)
        (fun policy q => hregister n c policy q hc) ih

/-- A start without pending grants, within the envelope. -/
theorem within_of_start {t : Tables}
    (hclosed : ∀ r ∈ t.grants, r.scope = s → r.state.isPending = false)
    (hfloor : p.floor ≤ liveSlots t s) (hceiling : liveSlots t s ≤ p.ceiling) :
    Within p s t := by
  have hnot (r : GrantRow) (hr : r ∈ t.grants) : pendingEnsure s r = false ∧
      pendingDestroy s r = false :=
    not_counted (or_iff_not_imp_left.2 fun hscope => hclosed r hr (not_not.1 hscope))
  have hensures : pendingEnsures t s = 0 := Table.count_eq_zero.2 fun r hr => (hnot r hr).1
  have hdestroys : pendingDestroys t s = 0 := Table.count_eq_zero.2 fun r hr => (hnot r hr).2
  refine ⟨fun r hr hscope hpending => ?_, ?_, ?_⟩
  · rw [hclosed r hr hscope] at hpending
    cases hpending
  · rw [hensures]
    simpa using hceiling
  · rw [hdestroys]
    simpa using hfloor

end Runs

/-- Over every run in which the scope `s` has one policy `p`, starting within its envelope and with
    nothing pending, and registers no slot: live slots with pending creations stay within the
    ceiling, and without pending destructions at or above the floor; a creation is issued below the
    target, a destruction when no creation is pending. -/
theorem mutation_budgets (ext : External) (pr : Providers) (ρ : ℕ → Tables)
    (δ : ℕ → Option Committed) (h : IsRun (Step ext pr) ρ δ) (s : Scope) (p : CapacityPolicySpec)
    (hpolicy : ∀ n c policy q, δ n = some c → c.IssuesUnder policy q → scopeOf policy q = s →
      q = p)
    (hregister : ∀ n c policy q, δ n = some c → c.RecordsUnder policy q →
      ¬ Registers (ρ n) (ρ (n + 1)) s)
    (hclosed : ∀ r ∈ (ρ 0).grants, r.scope = s → r.state.isPending = false)
    (hfloor : p.floor ≤ liveSlots (ρ 0) s) (hceiling : liveSlots (ρ 0) s ≤ p.ceiling) :
    ∀ n, (liveSlots (ρ n) s + pendingEnsures (ρ n) s : ℤ) ≤ p.ceiling ∧
      p.floor ≤ liveSlots (ρ n) s - (pendingDestroys (ρ n) s : ℤ) ∧
      ∀ r ∈ (ρ (n + 1)).grants, r.scope = s → (∀ old ∈ (ρ n).grants, old.id ≠ r.id) →
        ∃ c intent, δ n = some c ∧ c.env.intent = some intent ∧
          (r.ensures = true → (liveSlots (expired c.env s (ρ n)) s +
            pendingEnsures (expired c.env s (ρ n)) s : ℤ) < intent.decision.units) ∧
          (r.destroys = true → pendingEnsures (expired c.env s (ρ n)) s = 0) := by
  intro n
  have hwithin := within_run h hpolicy hregister (within_of_start hclosed hfloor hceiling) n
  refine ⟨hwithin.ceiling, hwithin.floor, fun r hr hscope hnew => ?_⟩
  rcases step_cases h n with ⟨-, heq⟩ | ⟨c, hc, hchange⟩
  · exact absurd rfl (hnew r (heq ▸ hr))
  · obtain ⟨q, intent, hintent, hordinary, hroom⟩ := hchange.issues hr hnew
    rw [hscope] at hroom
    refine ⟨c, intent, hc, hintent, fun hens => hscope ▸ (hroom.ensures hens).1, fun hdes => ?_⟩
    have hnot : r.ensures = false := by rw [hordinary.exclusive, hdes]; rfl
    exact hscope ▸ (hroom.destroys hnot).1

/-- A second unit is created: the envelope holds at its issue and its confirmation. -/
theorem sample_mutation_budgets :
    pendingEnsures (execute Sample.external Sample.providers Sample.calls Sample.start 1)
        Sample.scope = 1 ∧
      liveSlots (execute Sample.external Sample.providers Sample.calls Sample.start 5)
        Sample.scope = 2 ∧
      ∀ n, (liveSlots (execute Sample.external Sample.providers Sample.calls Sample.start n)
          Sample.scope + pendingEnsures (execute Sample.external Sample.providers Sample.calls
          Sample.start n) Sample.scope : ℤ) ≤ Sample.policy.ceiling := by
  refine ⟨by decide +kernel, by decide +kernel, fun n => (mutation_budgets Sample.external
    Sample.providers _ _ (isRun_execute _ _ Sample.calls Sample.start) Sample.scope Sample.policy
    ?_ ?_ ?_ (by decide +kernel) (by decide +kernel) n).1⟩
  · rintro n c policy q hn ⟨hspec, store, generation, fence, owner, issue, hop⟩ -
    have hcall := congrArg (Option.map Prod.fst) (calls_of_committed _ _ _ _ hn)
    rw [Option.map_some, hop] at hcall
    rcases n with _ | _ | _ | _ | _ | n <;> cases hcall
    exact (Option.some.inj hspec).symm
  · rintro n c policy q hn ⟨-, store, generation, fence, owner, issue, proof, hop⟩
    have hcall := congrArg (Option.map Prod.fst) (calls_of_committed _ _ _ _ hn)
    rw [Option.map_some, hop] at hcall
    rcases n with _ | _ | _ | _ | _ | n <;> cases hcall
  · exact fun r hr => by cases hr

end Yggdrasil.Capacity.Mutation
