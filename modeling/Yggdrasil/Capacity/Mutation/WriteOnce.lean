import Yggdrasil.Capacity.Mutation.Spec

/-!
# Grants write once

What is written once over every run of the ledger (`write_once_grants`). That a slot has one open
grant rests on the query that an issue makes before it inserts: the unique index is never what
refuses it.
-/

namespace Yggdrasil.Capacity.Mutation

variable {ext : External} {pr : Providers} {t t' : Tables} {c : Committed} {row r r' : GrantRow}
  {id : String}

/-- The moves of a grant. -/
inductive Moves : State → State → Prop
  | redeem : Moves .issued .redeemed
  | expire : Moves .issued .expired
  | settle : Moves .redeemed .settled
  | reject : Moves .redeemed .rejected
  | confirm : Moves .settled .confirmed

/-- The grant may have been sent to the provider. -/
def State.sent : State → Bool
  | redeemed | settled | confirmed | rejected => true
  | _ => false

theorem Moves.sent {s s' : State} (h : Moves s s') (hs : s.sent = true) : s'.sent = true := by
  cases h <;> first | rfl | cases hs

theorem Moves.isOpen {s s' : State} (h : Moves s s') : s.isOpen = true := by
  cases h <;> rfl

/-- `r'` is the row of the same grant, after at most one move. -/
structure Follows (r r' : GrantRow) : Prop where
  id_eq : r'.id = r.id
  native_eq : r'.native = r.native
  undisposed_eq : r'.undisposed = r.undisposed
  cleanup_eq : r'.record.failedUnwitnessedExpansionCleanupID =
    r.record.failedUnwitnessedExpansionCleanupID
  state : r'.state = r.state ∨ Moves r.state r'.state

theorem Follows.refl (r : GrantRow) : Follows r r := ⟨rfl, rfl, rfl, rfl, .inl rfl⟩

theorem Follows.indexed (h : Follows r r') (hr' : r'.indexed = true) : r.indexed = true := by
  simp only [GrantRow.indexed, Bool.and_eq_true, h.undisposed_eq, h.cleanup_eq] at hr' ⊢
  refine ⟨⟨?_, hr'.1.2⟩, hr'.2⟩
  rcases h.state with heq | hmoves
  · exact heq ▸ hr'.1.1
  · exact hmoves.isOpen

theorem follows_of_moved {next : CapacityMutationRecord} {state : State}
    (hmoved : Moved row.record next state) (hmoves : Moves row.state state) :
    Follows row { row with record := next } where
  id_eq := by simp [GrantRow.id, hmoved.grant_eq]
  native_eq := by simp [GrantRow.native, hmoved.grant_eq]
  undisposed_eq := rfl
  cleanup_eq := hmoved.cleanup_eq
  state := by simp [GrantRow.state, hmoved.grant_eq] at hmoves ⊢; exact .inr hmoves

/-! ## Expiry -/

section Expiry

variable {env : Env} {scope : Scope}

theorem follows_expire (env : Env) (scope : Scope) (r : GrantRow) :
    Follows r (if expirable env scope r then r.withState .expired else r) := by
  split
  next hexp => exact ⟨rfl, rfl, rfl, rfl, .inr (state_of_expirable hexp ▸ .expire)⟩
  next => exact .refl r

theorem mem_expired_of_ne_issued (hr : r ∈ t.grants) (hne : r.state ≠ .issued) :
    r ∈ (expired env scope t).grants :=
  mem_expired.2 ⟨r, hr, if_neg fun hexp => hne (state_of_expirable hexp)⟩

end Expiry

/-! ## One step -/

/-- The row that a move of one grant writes. -/
theorem Change.follows_cases (h : Change ext t c t') :
    t'.grants = t.grants ∨ (∃ scope, t'.grants = (expired c.env scope t).grants) ∨
      (∃ row r', row ∈ t.grants ∧ Follows row r' ∧ t'.grants = t.grants.set r') ∨
      ∃ row, (∀ r ∈ (expired c.env row.scope t).grants, r.undisposed = true →
          r.native = row.native → r.state.isPending = false) ∧
        (expired c.env row.scope t).grants.insert? row = some t'.grants := by
  cases h with
  | keep | record => exact .inl rfl
  | expire scope => exact .inr (.inl ⟨scope, rfl⟩)
  | issue _ _ _ _ _ _ hfree hinsert => exact .inr (.inr (.inr ⟨_, hfree, hinsert⟩))
  | lapse hrow hstate hmoved =>
    exact .inr (.inr (.inl ⟨_, _, hrow, follows_of_moved hmoved (hstate ▸ .expire), rfl⟩))
  | redeem hrow _ hstate hmoved =>
    exact .inr (.inr (.inl ⟨_, _, hrow, follows_of_moved hmoved (hstate ▸ .redeem), rfl⟩))
  | settle hrow _ hstate hnext hmoved =>
    refine .inr (.inr (.inl ⟨_, _, hrow, follows_of_moved hmoved ?_, rfl⟩))
    rcases hnext with rfl | rfl
    · exact hstate ▸ .settle
    · exact hstate ▸ .reject
  | confirm hrow _ _ hstate _ hmoved =>
    exact .inr (.inr (.inl ⟨_, _, hrow, follows_of_moved hmoved (hstate ▸ .confirm), rfl⟩))

/-- No call removes a grant, and each moves it once at most. -/
theorem Change.exists_follows (h : Change ext t c t') (hr : r ∈ t.grants) :
    ∃ r' ∈ t'.grants, Follows r r' := by
  rcases h.follows_cases with heq | ⟨scope, heq⟩ | ⟨row, r', hrow, hfollows, heq⟩ |
    ⟨row, -, hinsert⟩
  · exact ⟨r, heq ▸ hr, .refl r⟩
  · rw [heq]
    exact ⟨_, mem_expired.2 ⟨r, hr, rfl⟩, follows_expire c.env scope r⟩
  · rw [heq]
    exact (Table.rel_set .refl hrow hfollows.id_eq hfollows).1 r hr
  · exact ⟨_, (Table.mem_of_insert? hinsert).2 (.inr (mem_expired.2 ⟨r, hr, rfl⟩)),
      follows_expire c.env row.scope r⟩

/-- Among the rows that the unique index covers, no two hold the same native slot. -/
def OpenSlotsUnique (t : Tables) : Prop :=
  ∀ r ∈ t.grants, ∀ r' ∈ t.grants, r.indexed = true → r'.indexed = true →
    r.native = r'.native → r = r'

/-- When every row follows one that was there, the open slots stay unique. -/
theorem openSlotsUnique_of_follows (h : OpenSlotsUnique t)
    (hback : ∀ r' ∈ t'.grants, ∃ r ∈ t.grants, Follows r r') : OpenSlotsUnique t' := by
  intro r₁ hr₁ r₂ hr₂ hopen₁ hopen₂ hnative
  obtain ⟨s₁, hs₁, hf₁⟩ := hback r₁ hr₁
  obtain ⟨s₂, hs₂, hf₂⟩ := hback r₂ hr₂
  have heq : s₁ = s₂ := h s₁ hs₁ s₂ hs₂ (hf₁.indexed hopen₁) (hf₂.indexed hopen₂)
    (by rw [← hf₁.native_eq, ← hf₂.native_eq, hnative])
  exact Table.eq_of_key_eq hr₁ hr₂ (by
    show r₁.id = r₂.id
    rw [hf₁.id_eq, hf₂.id_eq, heq])

theorem OpenSlotsUnique.expired (h : OpenSlotsUnique t) (env : Env) (scope : Scope) :
    OpenSlotsUnique (expired env scope t) :=
  openSlotsUnique_of_follows h fun r' hr' => by
    obtain ⟨r, hr, rfl⟩ := mem_expired.1 hr'
    exact ⟨r, hr, follows_expire env scope r⟩

theorem OpenSlotsUnique.insert (h : OpenSlotsUnique t)
    (hfree : ∀ r ∈ t.grants, r.undisposed = true → r.native = row.native →
      r.state.isPending = false)
    (hinsert : t.grants.insert? row = some t'.grants) : OpenSlotsUnique t' := by
  -- An open row with the native slot of the new one would have been pending.
  have hclosed : ∀ r ∈ t.grants, r.indexed = true → r.native ≠ row.native := by
    intro r hr hopen hnative
    simp only [GrantRow.indexed, Bool.and_eq_true] at hopen
    have hpending := hfree r hr hopen.1.2 hnative
    cases hstate : r.state <;> simp [hstate, State.isPending, State.isOpen] at hpending hopen
  intro r hr r' hr' hopen hopen' hnative
  rcases (Table.mem_of_insert? hinsert).1 hr with rfl | hr <;>
    rcases (Table.mem_of_insert? hinsert).1 hr' with rfl | hr'
  · rfl
  · exact absurd hnative.symm (hclosed r' hr' hopen')
  · exact absurd hnative (hclosed r hr hopen)
  · exact h r hr r' hr' hopen hopen' hnative

theorem Change.openSlotsUnique (hchange : Change ext t c t') (h : OpenSlotsUnique t) :
    OpenSlotsUnique t' := by
  rcases hchange.follows_cases with heq | ⟨scope, heq⟩ | ⟨row, r', hrow, hfollows, heq⟩ |
    ⟨row, hfree, hinsert⟩
  · exact openSlotsUnique_of_follows h fun r hr => ⟨r, heq ▸ hr, .refl r⟩
  · exact openSlotsUnique_of_follows (h.expired c.env scope) fun r hr =>
      ⟨r, heq ▸ hr, .refl r⟩
  · exact openSlotsUnique_of_follows h fun s hs =>
      (Table.rel_set .refl hrow hfollows.id_eq hfollows).2 s (heq ▸ hs)
  · exact (h.expired c.env row.scope).insert hfree hinsert

/-! ## What a call does to one grant -/

theorem Committed.WritesOnce.unique {id' : String} (h : c.WritesOnce ext id)
    (h' : c.WritesOnce ext id') : id = id' := by
  obtain ⟨_, _, r, _, hop, hid, -⟩ := h
  obtain ⟨_, _, r', _, hop', hid', -⟩ := h'
  rw [hop] at hop'
  cases hop'
  exact Option.some.inj (hid.symm.trans hid')

/-- The call that gives permission to write finds the grant issued and leaves it
    redeemed. -/
theorem Change.of_writesOnce (h : Change ext t c t') (hcall : c.WritesOnce ext id) :
    (∃ r ∈ t.grants, r.id = id ∧ r.state = .issued) ∧
      ∃ r' ∈ t'.grants, r'.id = id ∧ r'.state = .redeemed := by
  have ⟨_, _, _, _, hop', _⟩ := hcall
  cases h with
  | keep hreply | expire _ hreply | lapse _ _ _ hreply => exact absurd hcall (hreply id)
  | issue hissue =>
    obtain ⟨-, _, _, _, _, _, hop⟩ := hissue
    cases hop.symm.trans hop'
  | settle _ hsettles =>
    obtain ⟨_, _, _, hop, -⟩ := hsettles
    cases hop.symm.trans hop'
  | confirm _ hconfirms =>
    obtain ⟨_, _, _, _, _, _, hop, -⟩ := hconfirms
    cases hop.symm.trans hop'
  | record hrecords =>
    obtain ⟨-, _, _, _, _, _, _, hop⟩ := hrecords
    cases hop.symm.trans hop'
  | @redeem row next hrow hwrites hstate hmoved =>
    have hid := hwrites.unique hcall
    have hfollows := follows_of_moved hmoved (hstate ▸ Moves.redeem)
    refine ⟨⟨row, hrow, hid, hstate⟩, _, Table.mem_set.2 (.inl ⟨rfl, row, hrow, ?_⟩), ?_, ?_⟩
    · exact hfollows.id_eq.symm
    · exact hfollows.id_eq.trans hid
    · simp [GrantRow.state, hmoved.grant_eq]

/-- The row of a sent grant stays unless the call settles or confirms it. -/
theorem Change.mem_of_sent (h : Change ext t c t') (hr : r ∈ t.grants)
    (hstate : r.state = .redeemed ∨ r.state = .settled) (hsettles : ¬ c.Settles ext r.id)
    (hconfirms : ¬ c.Confirms ext r.id) : r ∈ t'.grants := by
  have hne : r.state ≠ .issued := by rcases hstate with h | h <;> simp [h]
  -- A write to another grant leaves this row.
  have hother : ∀ {row r' : GrantRow}, row ∈ t.grants → r'.id = row.id → row ≠ r →
      r ∈ t.grants.set r' := by
    intro row r' hrow hid hrow_ne
    exact Table.mem_set.2 (.inr ⟨hr, fun hkey =>
      hrow_ne (Table.eq_of_key_eq hrow hr (hid.symm.trans hkey.symm))⟩)
  cases h with
  | keep | record => exact hr
  | expire scope => exact mem_expired_of_ne_issued hr hne
  | issue _ _ _ _ _ _ _ hinsert =>
    exact (Table.mem_of_insert? hinsert).2 (.inr (mem_expired_of_ne_issued hr hne))
  | lapse hrow hissued hmoved =>
    exact hother hrow (follows_of_moved hmoved (hissued ▸ .expire)).id_eq
      fun heq => hne (heq ▸ hissued)
  | redeem hrow _ hissued hmoved =>
    exact hother hrow (follows_of_moved hmoved (hissued ▸ .redeem)).id_eq
      fun heq => hne (heq ▸ hissued)
  | settle hrow hcall _ _ hmoved =>
    exact hother hrow (by simp [GrantRow.id, hmoved.grant_eq]) fun heq => hsettles (heq ▸ hcall)
  | confirm hrow hcall _ _ _ hmoved =>
    exact hother hrow (by simp [GrantRow.id, hmoved.grant_eq]) fun heq => hconfirms (heq ▸ hcall)

/-! ## Runs -/

section Runs

variable {ρ : ℕ → Tables} {δ : ℕ → Option Committed} {m n : ℕ}

theorem exists_follows_succ (h : IsRun (Step ext pr) ρ δ) (hr : r ∈ (ρ n).grants) :
    ∃ r' ∈ (ρ (n + 1)).grants, Follows r r' := by
  rcases step_cases h n with ⟨-, heq⟩ | ⟨c, -, hchange⟩
  · exact ⟨r, heq ▸ hr, .refl r⟩
  · exact hchange.exists_follows hr

/-- What may have been sent stays so. -/
theorem exists_sent (h : IsRun (Step ext pr) ρ δ) (hmn : m ≤ n) (hr : r ∈ (ρ m).grants)
    (hsent : r.state.sent = true) :
    ∃ r' ∈ (ρ n).grants, r'.id = r.id ∧ r'.state.sent = true := by
  induction n, hmn using Nat.le_induction with
  | base => exact ⟨r, hr, rfl, hsent⟩
  | succ n _ ih =>
    obtain ⟨s, hs, hid, hsent⟩ := ih
    obtain ⟨s', hs', hfollows⟩ := exists_follows_succ h hs
    refine ⟨s', hs', hfollows.id_eq.trans hid, ?_⟩
    rcases hfollows.state with heq | hmoves
    · rwa [heq]
    · exact hmoves.sent hsent

theorem openSlotsUnique (h : IsRun (Step ext pr) ρ δ) (h0 : OpenSlotsUnique (ρ 0)) (n : ℕ) :
    OpenSlotsUnique (ρ n) := by
  induction n with
  | zero => exact h0
  | succ n ih =>
    rcases step_cases h n with ⟨-, heq⟩ | ⟨c, -, hchange⟩
    · exact heq ▸ ih
    · exact hchange.openSlotsUnique ih

/-- A grant that was written once is never issued again. -/
theorem not_writesOnce_of_lt {c c' : Committed} (h : IsRun (Step ext pr) ρ δ) (hmn : m < n)
    (hm : δ m = some c) (hn : δ n = some c') (hwrites : c.WritesOnce ext id) :
    ¬ c'.WritesOnce ext id := by
  intro hwrites'
  obtain ⟨-, r, hr, hid, hredeemed⟩ := (change_of_eq_some h hm).of_writesOnce hwrites
  obtain ⟨⟨s, hs, hsid, hissued⟩, -⟩ := (change_of_eq_some h hn).of_writesOnce hwrites'
  obtain ⟨r', hr', hid', hsent⟩ := exists_sent h hmn hr (by rw [hredeemed]; rfl)
  have heq : r' = s := Table.eq_of_key_eq hr' hs ((hid'.trans hid).trans hsid.symm)
  rw [heq, hissued] at hsent
  cases hsent

theorem mem_of_unanswered (h : IsRun (Step ext pr) ρ δ) (hmn : m ≤ n) (hr : r ∈ (ρ m).grants)
    (hstate : r.state = .redeemed ∨ r.state = .settled)
    (hquiet : ∀ k c, m ≤ k → k < n → δ k = some c →
      ¬ c.Settles ext r.id ∧ ¬ c.Confirms ext r.id) : r ∈ (ρ n).grants := by
  induction n, hmn using Nat.le_induction with
  | base => exact hr
  | succ n hmn ih =>
    have hmem := ih fun k c hmk hkn => hquiet k c hmk (hkn.trans n.lt_succ_self)
    rcases step_cases h n with ⟨-, heq⟩ | ⟨c, hc, hchange⟩
    · exact heq ▸ hmem
    · obtain ⟨hsettles, hconfirms⟩ := hquiet n c hmn n.lt_succ_self hc
      exact hchange.mem_of_sent hmem hstate hsettles hconfirms

end Runs

/-- Over every run of the ledger, a grant gives permission to write at most once; its row stays, in
    its native slot, and its state only moves along `Moves`; open grants hold different native
    slots; and a redeemed or settled grant is unchanged until a report or a confirmation of it
    commits. -/
theorem write_once_grants (ext : External) (pr : Providers) (ρ : ℕ → Tables)
    (δ : ℕ → Option Committed) (h : IsRun (Step ext pr) ρ δ) (h0 : OpenSlotsUnique (ρ 0)) :
    (∀ m n c c' id, δ m = some c → δ n = some c' → c.WritesOnce ext id → c'.WritesOnce ext id →
      m = n) ∧
    (∀ n, ∀ r ∈ (ρ n).grants, ∃ r' ∈ (ρ (n + 1)).grants, r'.id = r.id ∧ r'.native = r.native ∧
      (r'.state = r.state ∨ Moves r.state r'.state)) ∧
    (∀ n, OpenSlotsUnique (ρ n)) ∧
    (∀ m n, m ≤ n → ∀ r ∈ (ρ m).grants, r.state = .redeemed ∨ r.state = .settled →
      (∃ r' ∈ (ρ n).grants, r'.id = r.id ∧ r'.state.sent = true) ∧
      ((∀ k c, m ≤ k → k < n → δ k = some c → ¬ c.Settles ext r.id ∧ ¬ c.Confirms ext r.id) →
        r ∈ (ρ n).grants)) := by
  refine ⟨fun m n c c' id hm hn hwrites hwrites' => ?_, fun n r hr => ?_,
    openSlotsUnique h h0, fun m n hmn r hr hstate => ⟨?_, mem_of_unanswered h hmn hr hstate⟩⟩
  · rcases lt_trichotomy m n with hlt | heq | hlt
    · exact absurd hwrites' (not_writesOnce_of_lt h hlt hm hn hwrites)
    · exact heq
    · exact absurd hwrites (not_writesOnce_of_lt h hlt hn hm hwrites')
  · obtain ⟨r', hr', hfollows⟩ := exists_follows_succ h hr
    exact ⟨r', hr', hfollows.id_eq, hfollows.native_eq, hfollows.state⟩
  · exact exists_sent h hmn hr (by rcases hstate with hs | hs <;> rw [hs] <;> rfl)

/-- In the sample run the grant is written once, by its first redemption. -/
theorem sample_write_once_grants :
    ∃ c, committed Sample.external Sample.providers Sample.calls Sample.start 1 = some c ∧
      c.WritesOnce Sample.external "grant" ∧
      ∀ n c', committed Sample.external Sample.providers Sample.calls Sample.start n = some c' →
        c'.WritesOnce Sample.external "grant" → n = 1 := by
  have hreply : (committed Sample.external Sample.providers Sample.calls Sample.start 1).any
      (fun c => match c.reply with
        | .redemption response => response.mode == .writeOnce
        | _ => false) = true := by decide +kernel
  obtain ⟨c, hc, hreply⟩ := (Option.any_eq_true _ _).1 hreply
  have hop : c.operation = .redeem Sample.store "adapter" Sample.redemption :=
    (congrArg Prod.fst (Option.some.inj (calls_of_committed _ _ _ _ hc))).symm
  have hwrites : c.WritesOnce Sample.external "grant" := by
    split at hreply
    next response hresponse =>
      exact ⟨_, _, _, response, hop, rfl, hresponse, by simpa using hreply⟩
    next => cases hreply
  have hstart : OpenSlotsUnique Sample.start := fun r hr => by cases hr
  exact ⟨c, hc, hwrites, fun n c' hn hwrites' => (write_once_grants Sample.external
    Sample.providers _ _ (isRun_execute _ _ Sample.calls Sample.start) hstart).1
    n 1 c' c "grant" hn hc hwrites' hwrites⟩

end Yggdrasil.Capacity.Mutation
