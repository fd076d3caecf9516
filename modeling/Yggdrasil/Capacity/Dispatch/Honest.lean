import Yggdrasil.Capacity.Dispatch.Finish

/-!
# Honest completion

Over every run, a job is acknowledged only by the call that observed the commit of its return
(`honest_completion`). A return whose commit was not observed need not become unknown: the
transaction that marks it may not commit either (`not_unobservedBecomesUnknown`).
-/

namespace Yggdrasil.Capacity.Dispatch

variable {codec : Codec} {s : System} {e : Event} {c : Call} {env : Env} {delivery : Delivery}
  {current : CapacityDispatchJob} {t : Tables} {now : ℤ} {shutdown : Bool} {p attempt : ℕ}
  {first : FirstCommit} {cm : Committed} {ret : Return}

/-! ## Phases -/

theorem call_cases {c' : Call} (h : (s.advance codec e).calls p = some c') :
    s.calls p = some c' ∨
      (∃ ret contextErr stop minimumAttempts,
        c' = finishCapacityDispatch ret contextErr stop minimumAttempts) ∨
      ∃ c m, s.calls p = some c ∧ e = .move p m ∧
        c' = { c with phase := c.next codec s.tables m } := by
  simp only [System.advance, System.nextCalls.eq_def] at h
  cases e with
  | transact | rewrite => exact .inl h
  | begin q ret contextErr stop minimumAttempts =>
    simp only at h
    split at h
    · by_cases hp : p = q
      · subst hp
        rw [Function.update_self, Option.some.injEq] at h
        exact .inr (.inl ⟨_, _, _, _, h.symm⟩)
      · rw [Function.update_of_ne hp] at h
        exact .inl h
    · exact .inl h
  | move q m =>
    cases hc : s.calls q with
    | none =>
      simp only [hc] at h
      exact .inl h
    | some c =>
      simp only [hc] at h
      by_cases hp : p = q
      · subst hp
        rw [Function.update_self, Option.some.injEq] at h
        exact .inr (.inr ⟨c, m, hc, rfl, h.symm⟩)
      · rw [Function.update_of_ne hp] at h
        exact .inl h
  | crash q =>
    simp only at h
    by_cases hp : p = q
    · subst hp
      rw [Function.update_self] at h
      cases h
    · rw [Function.update_of_ne hp] at h
      exact .inl h

/-- The call relies on having observed its own commit. -/
def Phase.relies : Phase → Bool
  | observed _ | releasing _ => true
  | _ => false

theorem retry_relies : (c.retry attempt now shutdown).relies = false := by
  rw [Call.retry]
  split <;> rfl

theorem commitLost_relies : (c.commitLost current).relies = false := by
  rw [Call.commitLost]
  split <;> rfl

theorem reread_relies : (c.reread codec now shutdown attempt t).relies = false := by
  rw [Call.reread]
  split
  · exact retry_relies
  · split
    · split
      · exact retry_relies
      · split
        · exact commitLost_relies
        · rfl
    · rfl

theorem released_relies : (c.released codec env delivery current t).relies = false := by
  rw [Call.released]
  split
  · rfl
  · split <;> rfl

/-- How a move makes a call rely on its commit. -/
inductive Enters (codec : Codec) (c : Call) (t : Tables) : Move → Phase → Prop
  | observe {env : Env} {now : ℤ} {shutdown : Bool} {attempt : ℕ} {t' : Tables}
      {first : FirstCommit} (hphase : c.phase = .attempting attempt)
      (hwritten : finishCapacityDispatchFirstCommit codec env c.ret c.contextErr t =
        .ok (.written t' first)) :
      Enters codec c t (.attempt env .replied now shutdown) (.observed first)
  | release {env : Env} {fences : List (Option (Option GoError))} {first : FirstCommit}
      (hphase : c.phase = .observed first) (hcertain : first.uncertain = false)
      (hlive : first.current.leaseExpiresAt.any (env.clock 0 < ·) = true) :
      Enters codec c t (.check env fences) (.releasing first.current)

/-- A call that comes to rely on a commit has just observed it. -/
theorem enters_of_attempted (hphase : c.phase = .attempting attempt)
    (h : (c.attempted codec env delivery now shutdown attempt t).relies = true) :
    Enters codec c t (.attempt env delivery now shutdown)
      (c.attempted codec env delivery now shutdown attempt t) := by
  rw [Call.attempted] at h ⊢
  split at h
  · rw [retry_relies] at h
    cases h
  · cases h
  · rw [commitLost_relies] at h
    cases h
  next hwritten =>
    split at h
    next hreplied =>
      subst hreplied
      exact .observe hphase hwritten
    · cases h

/-- A deadline that has passed is an error. -/
theorem live_of_observedErr (h : ¬ (Call.observedErr env current).isSome = true) :
    current.leaseExpiresAt.any (env.clock 0 < ·) = true := by
  by_contra hexpired
  rw [Call.observedErr, if_neg hexpired] at h
  cases hcontext : env.context 0 <;> simp [hcontext, GoError.join] at h

theorem enters_of_checked {fences : List (Option (Option GoError))}
    (hphase : c.phase = .observed first) (h : (c.checked env fences first).relies = true) :
    Enters codec c t (.check env fences) (c.checked env fences first) := by
  simp only [Call.checked] at h ⊢
  split at h
  · cases h
  next hack =>
    split at h
    · cases h
    next hcertain =>
      split at h
      · cases h
      next hfenced =>
        rw [if_neg hack, if_neg hcertain, if_neg hfenced]
        exact .release hphase (Bool.eq_false_iff.2 hcertain) (live_of_observedErr hack)

theorem enters_of_next {m : Move} (h : (c.next codec t m).relies = true) :
    c.next codec t m = c.phase ∨ Enters codec c t m (c.next codec t m) := by
  cases m with
  | attempt env delivery now shutdown =>
    simp only [Call.next] at h ⊢
    split at h
    next hphase => exact .inr (enters_of_attempted hphase h)
    · exact .inl rfl
  | stumble now shutdown =>
    simp only [Call.next] at h ⊢
    split at h
    · simp [retry_relies] at h
    · simp [retry_relies] at h
    · exact .inl rfl
  | reread now shutdown =>
    simp only [Call.next] at h ⊢
    split at h
    · simp [reread_relies] at h
    · exact .inl rfl
  | check env fences =>
    simp only [Call.next] at h ⊢
    split at h
    next hphase => exact .inr (enters_of_checked hphase h)
    · exact .inl rfl
  | settle env delivery =>
    simp only [Call.next] at h ⊢
    split at h
    · simp [released_relies] at h
    · split at h <;> cases h
    · exact .inl rfl

/-- A call that relies on its commit has entered its phase by a move of its own. -/
theorem exists_enters {σ : ℕ → System} {ε : ℕ → Event} {n : ℕ} (h : IsRun (Advances codec) σ ε)
    (h0 : ∀ p, (σ 0).calls p = none) (hc : (σ n).calls p = some c)
    (hrelies : c.phase.relies = true) :
    ∃ k < n, ∃ c₀ m, ε k = .move p m ∧ (σ k).calls p = some c₀ ∧
      Enters codec c₀ (σ k).tables m c.phase := by
  let P : ℕ → Prop := fun k => ∃ d, (σ k).calls p = some d ∧ d.phase = c.phase
  have hstart : ¬ P 0 := by
    rintro ⟨d, hd, -⟩
    simp [h0] at hd
  obtain ⟨k, hk, hnot, hsince⟩ := exists_entry hstart ⟨c, hc, rfl⟩
  obtain ⟨d, hd, hphase⟩ := hsince (k + 1) k.lt_succ_self hk
  rw [h k] at hd
  rw [← hphase] at hrelies ⊢
  rcases call_cases hd with hd | ⟨_, _, _, _, rfl⟩ | ⟨c₀, m, hc₀, hmove, rfl⟩
  · exact absurd ⟨d, hd, hphase⟩ hnot
  · cases hrelies
  · rcases enters_of_next hrelies with hkept | henters
    · exact absurd ⟨c₀, hc₀, hkept.symm.trans hphase⟩ hnot
    · exact ⟨k, hk, c₀, m, hmove, hc₀, henters⟩

/-! ## Transactions of the calls -/

theorem submits_of_committed (h : s.committed codec e = some cm) :
    ∃ delivery, e.submits s = some (cm.operation, cm.env, delivery) := by
  rw [System.committed, Option.bind_eq_some_iff] at h
  obtain ⟨⟨operation, env, delivery⟩, hsubmits, hsubmit⟩ := h
  rw [submit.eq_def] at hsubmit
  refine ⟨delivery, hsubmits.trans ?_⟩
  split at hsubmit
  · cases hsubmit
  next hcall =>
    cases hcall
    split at hsubmit
    · cases hsubmit
    next hcommit =>
      cases hsubmit
      rw [commit] at hcommit
      split at hcommit
      · cases hcommit
        rfl
      · cases hcommit

/-- Only a call that has come to release its job acknowledges it. -/
theorem releasing_of_committed {job : CapacityDispatchJob} (h : s.committed codec e = some cm)
    (hop : cm.operation = .acknowledge job) :
    ∃ p delivery c, e = .move p (.settle cm.env delivery) ∧ s.calls p = some c ∧
      c.phase = .releasing job := by
  obtain ⟨delivery, hsubmits⟩ := submits_of_committed h
  rw [hop] at hsubmits
  cases e with
  | transact operation env delivery' =>
    simp only [Event.submits] at hsubmits
    split at hsubmits
    next hbefore =>
      cases hsubmits
      cases hbefore
    · cases hsubmits
  | move p m =>
    obtain ⟨c, hc, hm⟩ := Option.bind_eq_some_iff.1 hsubmits
    cases m with
    | settle env delivery' =>
      simp only [Call.submits] at hm
      split at hm
      next current hphase =>
        cases hm
        exact ⟨p, delivery, c, rfl, hc, hphase⟩
      · cases hm
      · cases hm
    | attempt env delivery' now shutdown =>
      simp only [Call.submits] at hm
      split at hm <;> cases hm
    | _ => cases hm
  | _ => cases hsubmits

/-! ## Returns -/

section Returns

variable {env : Env} {t t' : Tables} {row row' r r' : JobRow} {current job : CapacityDispatchJob}
  {contextErr : Option GoError}

/-- The row is held by the claim that `job` stands for. -/
structure HeldBy (row : JobRow) (job : CapacityDispatchJob) : Prop where
  id_eq : row.id = job.jobID
  owner_eq : row.leaseOwner = some job.leaseOwner
  fence_eq : row.fencingToken = job.fencingToken
  deadline_eq : row.leaseExpiresAt = job.leaseExpiresAt

theorem heldBy_of_same (hread : decodeJob codec row = .ok current)
    (hsame : sameCapacityDispatchClaim codec current job = true) :
    HeldBy row job ∧ row.leaseExpiresAt.isSome := by
  have hid := jobID_of_decodeJob hread
  have hcurrent := (decodeJob_eq_ok hread).1
  generalize current.toCapacityDispatchEnvelope = e at hcurrent
  subst hcurrent
  simp only [sameCapacityDispatchClaim, Bool.and_eq_true, beq_iff_eq, bne_iff_ne] at hsame
  obtain ⟨⟨⟨⟨⟨⟨⟨⟨-, hjobID⟩, -⟩, hnil⟩, howner⟩, -⟩, hfence⟩, hlease⟩, hdeadline⟩ := hsame
  refine ⟨⟨hid.symm.trans hjobID, ?_, hfence, hdeadline⟩, hlease⟩
  cases hsome : row.leaseOwner with
  | none => simp [JobRow.job, hsome] at hnil
  | some owner => simpa [JobRow.job, hsome] using howner

/-- The transaction wrote the return of the started row, under the claim that holds it. -/
structure Writes (t t' : Tables) (ret : Return) (row row' : JobRow) : Prop where
  mem : row ∈ t.jobs
  mem' : row' ∈ t'.jobs
  id_eq : row'.id = row.id
  started : row.state = .started
  returnedAt_eq : row'.returnedAt = some ret.returnedAt
  held : HeldBy row' ret.job

/-- Nothing was wrong with the return when it was written. -/
structure Sound (codec : Codec) (env : Env) (t : Tables) (ret : Return) (row row' : JobRow) :
    Prop where
  returned : row'.state = .returned
  original : ∃ current, decodeJob codec row = .ok current ∧
    checkCapacityDispatchOriginal codec env t current = true ∧
    returnsWorkflow current ret.response = true
  terminal : terminalStatus (returnStatus codec ret.response) = true
  live : row'.leaseExpiresAt.any (env.clock 2 < ·) = true

theorem doubts_of_certain {r : Return}
    (h : (verdict codec env r contextErr current t).uncertain = false) :
    firstDoubt codec env r contextErr current t = false ∧ late env current = false := by
  simp only [verdict] at h
  split at h
  · cases h
  next hfirst =>
    split at h
    · cases h
    · split at h
      · cases h
      next hlate => exact ⟨Bool.eq_false_iff.2 hfirst, Bool.eq_false_iff.2 hlate⟩

/-- What an attempt that is about to commit has written. -/
theorem writes_of_written
    (h : finishCapacityDispatchFirstCommit codec env ret contextErr t = .ok (.written t' first)) :
    ∃ row row', Writes t t' ret row row' ∧ decodeJob codec row = .ok first.current ∧
      (first.uncertain = false → Sound codec env t ret row row') := by
  rcases change_of_finish h with ⟨t₁, first₁, heq, hchange⟩ | ⟨_, heq, -⟩
  · cases heq
    cases hchange with
    | @finish _ _ current row row' _ hrow hread hsame hstate hupdate =>
      obtain ⟨hmem, -⟩ := Table.get?_eq_some.1 hrow
      have hid : row'.id = row.id := hupdate.follows.id_eq
      obtain ⟨hheld, hsome⟩ := heldBy_of_same hread hsame
      have hcolumns := hupdate.columns
      refine ⟨row, row', ⟨hmem, Table.mem_set.2 (.inl ⟨rfl, row, hmem, hid.symm⟩), hid, hstate,
        by rw [hcolumns], ⟨by rw [hcolumns]; exact hheld.id_eq,
          by rw [hcolumns]; exact hheld.owner_eq, by rw [hcolumns]; exact hheld.fence_eq,
          by rw [hcolumns]; exact hheld.deadline_eq⟩⟩,
        hread, fun hcertain => ?_⟩
      obtain ⟨hfirst, hlate⟩ := doubts_of_certain hcertain
      simp only [firstDoubt, Bool.or_eq_false_iff, Bool.not_eq_false'] at hfirst
      obtain ⟨⟨⟨⟨-, horiginal⟩, -⟩, hworkflow⟩, hterminal⟩ := hfirst
      refine ⟨?_, ⟨current, hread, horiginal, hworkflow⟩, hterminal, ?_⟩
      · rw [hcolumns]
        exact if_neg (Bool.eq_false_iff.1 hcertain)
      · rw [hcolumns]
        rw [late, (decodeJob_eq_ok hread).1, JobRow.job] at hlate
        obtain ⟨deadline, hdeadline⟩ := Option.isSome_iff_exists.1 hsome
        simpa [hdeadline] using hlate
  · cases heq

theorem not_new_of_update {clock : ℤ} {new : JobColumns} (hrow : row ∈ t.jobs)
    (hupdate : Update clock row new row')
    (hkeep : new.finalizationAckAt = row.finalizationAckAt) (hr' : r' ∈ t.jobs.set row')
    (hack : r'.finalizationAckAt ≠ none)
    (hnew : ∀ r ∈ t.jobs, r.id = r'.id → r.finalizationAckAt = none) : False := by
  rcases Table.mem_set.1 hr' with ⟨rfl, -⟩ | ⟨hmem, -⟩
  · rw [hupdate.columns, hkeep] at hack
    exact hack (hnew row hrow hupdate.follows.id_eq.symm)
  · exact hack (hnew r' hmem rfl)

/-- What the transaction that acknowledges a job has found. -/
structure FoundReturned (codec : Codec) (env : Env) (t : Tables) (row : JobRow)
    (current job : CapacityDispatchJob) : Prop where
  mem : row ∈ t.jobs
  read : decodeJob codec row = .ok current
  same : sameCapacityDispatchClaim codec current job = true
  returned : row.state = .returned
  original : checkCapacityDispatchOriginal codec env t current = true

theorem Change.acknowledge_of_new {operation : Operation} {reply : Reply}
    (h : Change codec env t operation t' reply) (hr' : r' ∈ t'.jobs)
    (hack : r'.finalizationAckAt ≠ none)
    (hnew : ∀ r ∈ t.jobs, r.id = r'.id → r.finalizationAckAt = none) :
    ∃ job row current, operation = .acknowledge job ∧
      FoundReturned codec env t row current job ∧ row.id = r'.id ∧ r'.lease = row.lease ∧
      r'.returnedAt = row.returnedAt ∧ r'.runID = row.runID := by
  cases h with
  | duplicate | landed => exact absurd (hnew r' hr' rfl) hack
  | coalesce hrow _ _ _ hupdate => exact (not_new_of_update hrow hupdate rfl hr' hack hnew).elim
  | create hcolumns _ _ hjobs =>
    rcases (Table.mem_of_insert? hjobs).1 hr' with rfl | hmem
    · rw [hcolumns] at hack
      exact absurd rfl hack
    · exact absurd (hnew r' hmem rfl) hack
  | claim hrow _ hupdate => exact (not_new_of_update hrow hupdate rfl hr' hack hnew).elim
  | start hrow _ hupdate | finish hrow _ _ _ hupdate | markUnknown hrow _ _ hupdate =>
    exact (not_new_of_update (Table.get?_eq_some.1 hrow).1 hupdate rfl hr' hack hnew).elim
  | @acknowledge job current row row' hrow hread hsame hstate _ horiginal _ hupdate =>
    have hmem := (Table.get?_eq_some.1 hrow).1
    rcases Table.mem_set.1 hr' with ⟨rfl, -⟩ | ⟨hmem', -⟩
    · exact ⟨job, row, current, rfl, ⟨hmem, hread, hsame, hstate, horiginal⟩,
        hupdate.follows.id_eq.symm, by rw [hupdate.columns]; rfl, by rw [hupdate.columns],
        by rw [hupdate.columns]⟩
    · exact absurd (hnew r' hmem' rfl) hack

/-- The run of a return that is acknowledged has ended. -/
theorem FoundReturned.exists_run (h : FoundReturned codec env t row current job) :
    ∃ run ∈ t.runs, run.id = row.runID ∧ (run.status = .succeeded ∨ run.status = .failed) := by
  have horiginal := h.original
  obtain ⟨hcurrent, hmatches⟩ := decodeJob_eq_ok h.read
  simp only [rowMatches, Bool.and_eq_true, beq_iff_eq] at hmatches
  obtain ⟨⟨⟨⟨⟨-, -⟩, hrunID⟩, -⟩, -⟩, -⟩ := hmatches
  simp only [checkCapacityDispatchOriginal, Bool.and_eq_true, Option.any_eq_true] at horiginal
  obtain ⟨⟨run, hrun, hfollows, -⟩, -⟩ := horiginal
  obtain ⟨hmem, hid⟩ := Table.get?_eq_some.1 hrun
  have hstate : current.state = .returned := by
    rw [hcurrent]
    exact h.returned
  simp only [runFollows, hstate, Bool.and_eq_true, Bool.or_eq_true, beq_iff_eq] at hfollows
  exact ⟨run, hmem, hid.trans hrunID, hfollows.1.1.1.1⟩

end Returns

/-! ## Runs -/

theorem tables_of_attempt {t' : Tables} (hc : s.calls p = some c)
    (hphase : c.phase = .attempting attempt) (hdelivery : delivery ≠ .failed)
    (hwritten : finishCapacityDispatchFirstCommit codec env c.ret c.contextErr s.tables =
      .ok (.written t' first)) :
    (s.advance codec (.move p (.attempt env delivery now shutdown))).tables = t' := by
  have hsubmits : Event.submits s (.move p (.attempt env delivery now shutdown)) =
      some (.finish c.ret c.contextErr, env, delivery) := by
    simp [Event.submits, hc, Call.submits, hphase]
  have hperform : perform codec (.finish c.ret c.contextErr) env s.tables =
      .ok (t', .written first) := by
    simp only [perform, hwritten]
    rfl
  simp only [System.advance, System.nextTables, hsubmits]
  cases delivery with
  | failed => exact absurd rfl hdelivery
  | replied | lost => simp only [submit, commit, hperform]

/-- The call committed its return of the job `id`, and its reply was lost. -/
def LosesCommit (codec : Codec) (s : System) (e : Event) (id : String) : Prop :=
  ∃ p env now shutdown c attempt t' first, e = .move p (.attempt env .lost now shutdown) ∧
    s.calls p = some c ∧ c.phase = .attempting attempt ∧
    finishCapacityDispatchFirstCommit codec env c.ret c.contextErr s.tables =
      .ok (.written t' first) ∧ c.ret.job.jobID = id

/-- The call `p` acknowledges the job `r` at step `n`: it committed the return at step `m`, under
    the claim that the job still has, and got the reply; it read the clock at step `k`, before the
    deadline; and it finds the pins in force, and the run ended. -/
structure Acknowledges (codec : Codec) (σ : ℕ → System) (ε : ℕ → Event) (n : ℕ) (r : JobRow)
    (p m k : ℕ) (ret : Return) : Prop where
  before : m < k ∧ k < n
  commit : ∃ env now shutdown row row', ε m = .move p (.attempt env .replied now shutdown) ∧
    Writes (σ m).tables (σ (m + 1)).tables ret row row' ∧
    Sound codec env (σ m).tables ret row row' ∧ row'.id = r.id ∧ row'.returnedAt = r.returnedAt
  held : HeldBy r ret.job
  check : ∃ env fences, ε k = .move p (.check env fences) ∧
    r.leaseExpiresAt.any (env.clock 0 < ·) = true
  settle : ∃ env delivery row current, ε n = .move p (.settle env delivery) ∧
    row ∈ (σ n).tables.jobs ∧ row.id = r.id ∧ decodeJob codec row = .ok current ∧
    checkCapacityDispatchOriginal codec env (σ n).tables current = true
  ended : ∃ run ∈ (σ n).tables.runs, run.id = r.runID ∧
    (run.status = .succeeded ∨ run.status = .failed)

section Run

variable {σ : ℕ → System} {ε : ℕ → Event} {m n : ℕ} {r r' : JobRow} {ret' : Return}
  {row row' row₁ row₁' : JobRow}

section

variable (h : IsRun (Advances codec) σ ε)

include h

theorem exists_follows_of_system (hmn : m ≤ n) (hr : r ∈ (σ m).tables.jobs) :
    ∃ r' ∈ (σ n).tables.jobs, Follows r r' :=
  exists_follows_of_isRun (isRun_tables h) hmn hr

/-- A return that was written at `m` is not written again. -/
theorem not_writes_of_lt (hmn : m < n) (hm : Writes (σ m).tables (σ (m + 1)).tables ret row row')
    (hn : Writes (σ n).tables (σ (n + 1)).tables ret' row₁ row₁') : row₁.id ≠ row.id := by
  intro hid
  obtain ⟨r, hr, hfollows⟩ := exists_follows_of_system h hmn hm.mem'
  have heq : r = row₁ :=
    Table.eq_of_key_eq hr hn.mem (hfollows.id_eq.trans (hm.id_eq.trans hid.symm))
  have hkept : row₁.returnedAt = row'.returnedAt :=
    heq ▸ hfollows.returned_eq (by rw [hm.returnedAt_eq]; rfl)
  rw [JobRow.returnedAt_of_started hn.started, hm.returnedAt_eq] at hkept
  cases hkept

/-- The return of a job is written at one step at most. -/
theorem eq_of_writes (hm : Writes (σ m).tables (σ (m + 1)).tables ret row row')
    (hn : Writes (σ n).tables (σ (n + 1)).tables ret' row₁ row₁') (hid : row₁.id = row.id) :
    m = n := by
  rcases lt_trichotomy m n with hlt | heq | hlt
  · exact absurd hid (not_writes_of_lt h hlt hm hn)
  · exact heq
  · exact absurd hid.symm (not_writes_of_lt h hlt hn hm)

/-- A job that becomes acknowledged is acknowledged honestly. -/
theorem exists_acknowledges (h0 : ∀ p, (σ 0).calls p = none) (hr' : r' ∈ (σ (n + 1)).tables.jobs)
    (hack : r'.finalizationAckAt ≠ none)
    (hnew : ∀ r ∈ (σ n).tables.jobs, r.id = r'.id → r.finalizationAckAt = none) :
    ∃ p m k ret, Acknowledges codec σ ε n r' p m k ret := by
  have hstep := isRun_tables h n
  cases hcm : (σ n).committed codec (ε n) with
  | none =>
    simp only [hcm] at hstep
    generalize (σ (n + 1)).tables = t' at hstep hr'
    cases hstep with
    | refuse | rewrite => exact absurd (hnew r' hr' rfl) hack
  | some cm =>
    simp only [hcm] at hstep
    obtain ⟨job, row, current, hop, hfound, hid, hlease, hreturnedAt, hrunID⟩ :=
      (change_of_step hstep).acknowledge_of_new hr' hack hnew
    obtain ⟨p, delivery, c, hsettle, hc, hphase⟩ := releasing_of_committed hcm hop
    -- What the call did before: the look at the clock, and before it the observed commit.
    obtain ⟨k, hkn, c₀, _, hcheck, hc₀, hrelease⟩ := exists_enters h h0 hc (by rw [hphase]; rfl)
    rw [hphase] at hrelease
    cases hrelease with | @release env fences first hobserved hcertain hlive =>
    obtain ⟨m, hmk, c₁, _, hattempt, hc₁, hobserve⟩ :=
      exists_enters h h0 hc₀ (by rw [hobserved]; rfl)
    rw [hobserved] at hobserve
    cases hobserve with | @observe env' now shutdown _ t' _ hattempting hwritten =>
    obtain ⟨row₀, row₀', hwrites, hread, hsound⟩ := writes_of_written hwritten
    have htables : (σ (m + 1)).tables = t' := by
      rw [h m, hattempt]
      exact tables_of_attempt hc₁ hattempting (by simp) hwritten
    rw [← htables] at hwrites
    -- The row of the acknowledgement is the one of the commit, some steps later.
    obtain ⟨hheld, -⟩ := heldBy_of_same hfound.read hfound.same
    obtain ⟨r, hr, hfollows⟩ := exists_follows_of_system h (Nat.lt_trans hmk hkn) hwrites.mem'
    have hrow : row.id = row₀'.id :=
      hheld.id_eq.trans ((jobID_of_decodeJob hread).trans hwrites.id_eq.symm)
    have heq : r = row := Table.eq_of_key_eq hr hfound.mem (hfollows.id_eq.trans hrow.symm)
    subst heq
    have hstarted := JobRow.startedAt_of_returned (hsound hcertain).returned
    have hkept : r'.lease = row₀'.lease := hlease.trans (hfollows.started_eq hstarted).2
    have hdeadline : r'.leaseExpiresAt = first.current.leaseExpiresAt := by
      simp only [JobColumns.lease, Prod.mk.injEq] at hlease
      rw [hlease.2.2, hheld.deadline_eq]
    simp only [JobColumns.lease, Prod.mk.injEq] at hkept
    refine ⟨p, m, k, c₁.ret, ⟨hmk, hkn⟩, ⟨env', now, shutdown, row₀, row₀', hattempt, hwrites,
      hsound hcertain, hrow.symm.trans hid, ?_⟩, ⟨?_, ?_, ?_, ?_⟩,
      ⟨env, fences, hcheck, by rw [hdeadline]; exact hlive⟩,
      ⟨cm.env, delivery, r, current, hsettle, hr, hid, hfound.read, hfound.original⟩, ?_⟩
    · rw [hreturnedAt, hfollows.returned_eq (by rw [hwrites.returnedAt_eq]; rfl)]
    · rw [← hid, hrow, hwrites.held.id_eq]
    · rw [hkept.1, hwrites.held.owner_eq]
    · rw [hkept.2.1, hwrites.held.fence_eq]
    · rw [hkept.2.2, hwrites.held.deadline_eq]
    · obtain ⟨run, hrun, hrunid, hstatus⟩ := hfound.exists_run
      exact ⟨run, hrun, hrunid.trans hrunID.symm, hstatus⟩

theorem mem_of_acknowledged (hmn : m ≤ n) (hr : r ∈ (σ m).tables.jobs)
    (hack : r.finalizationAckAt ≠ none) : r ∈ (σ n).tables.jobs :=
  (isRun_tables h).stable (P := fun t => r ∈ t.jobs)
    (fun _ _ _ hmem hstep => (effect_of_step hstep).mem_of_acknowledged hmem hack) hr hmn

/-- A return whose commit was not observed is never acknowledged. -/
theorem unacknowledged_of_losesCommit (hjobs : (σ 0).tables.jobs = .empty)
    (h0 : ∀ p, (σ 0).calls p = none) {id : String} (hlost : LosesCommit codec (σ m) (ε m) id)
    (hmn : m < n) :
    ∃ r ∈ (σ n).tables.jobs, r.id = id ∧ r.finalizationAckAt = none ∧
      (r.state = .returned ∨ r.state = .unknown) := by
  obtain ⟨p, env, now, shutdown, c, attempt, t', first, hattempt, hc, hphase, hwritten, hid⟩ :=
    hlost
  obtain ⟨row, row', hwrites, -, -⟩ := writes_of_written hwritten
  have htables : (σ (m + 1)).tables = t' := by
    rw [h m, hattempt]
    exact tables_of_attempt hc hphase (by simp) hwritten
  rw [← htables] at hwrites
  have hrow : row'.id = id := hwrites.held.id_eq.trans hid
  obtain ⟨r, hr, hfollows⟩ := exists_follows_of_system h hmn hwrites.mem'
  have hreturned : r.returnedAt = row'.returnedAt :=
    hfollows.returned_eq (by rw [hwrites.returnedAt_eq]; rfl)
  refine ⟨r, hr, hfollows.id_eq.trans hrow, ?_, JobRow.state_of_returnedAt ?_⟩
  · -- An acknowledgement would rest on a commit that was observed, and there is one commit.
    by_contra hack
    have hstart : ¬ ∃ r ∈ (σ 0).tables.jobs, r.id = id ∧ r.finalizationAckAt ≠ none := by
      rintro ⟨r, hr, -⟩
      simp [hjobs, Table.mem_def, Table.empty] at hr
    obtain ⟨i, hi, hnot, hsince⟩ :=
      exists_entry (P := fun k => ∃ r ∈ (σ k).tables.jobs, r.id = id ∧ r.finalizationAckAt ≠ none)
        hstart ⟨r, hr, hfollows.id_eq.trans hrow, hack⟩
    obtain ⟨r', hr', hid', hack'⟩ := hsince (i + 1) i.lt_succ_self hi
    obtain ⟨q, m', k, ret, hacknowledges⟩ := exists_acknowledges h h0 hr' hack' fun r₀ hr₀ heq =>
      by_contra fun hne => hnot ⟨r₀, hr₀, heq.trans hid', hne⟩
    obtain ⟨env', now', shutdown', row₁, row₁', hobserved, hwrites', -, hrow', -⟩ :=
      hacknowledges.commit
    have hsame : row₁.id = row.id :=
      hwrites'.id_eq.symm.trans (hrow'.trans (hid'.trans (hrow.symm.trans hwrites.id_eq)))
    have hm : m = m' := eq_of_writes h hwrites hwrites' hsame
    rw [← hm, hattempt] at hobserved
    simp only [Event.move.injEq, Move.attempt.injEq] at hobserved
    exact absurd hobserved.2.2.1 (by simp)
  · rw [hreturned, hwrites.returnedAt_eq]
    rfl

/-- The call finds that its return was written, although it has not observed it. -/
def FindsCommit (codec : Codec) (s : System) (e : Event) (p : ℕ)
    (current : CapacityDispatchJob) : Prop :=
  ∃ c, s.calls p = some c ∧ current.state = .returned ∧
    ((∃ env delivery now shutdown attempt, e = .move p (.attempt env delivery now shutdown) ∧
        c.phase = .attempting attempt ∧
        finishCapacityDispatchFirstCommit codec env c.ret c.contextErr s.tables =
          .ok (.landed current)) ∨
      ∃ now shutdown attempt, e = .move p (.reread now shutdown) ∧ c.phase = .unsure attempt ∧
        readCapacityDispatchJob codec s.tables c.ret.job.jobID = .ok current ∧
        sameCapacityDispatchClaim codec current c.ret.job = true ∧
        capacityDispatchFirstCommitLanded current c.ret.returnedAt = true)
end

theorem calls_of_move {m : Move} (hc : s.calls p = some c) :
    (s.advance codec (.move p m)).calls p =
      some { c with phase := c.next codec s.tables m } := by
  simp [System.advance, System.nextCalls, hc]

theorem commitLost_of_returned (c : Call) (h : current.state = .returned) :
    ∃ reason ok failed, c.commitLost current = .marking current reason ok failed :=
  ⟨_, _, _, if_pos h⟩

/-- Such a call goes on to mark the return unknown. -/
theorem marking_of_findsCommit (h : FindsCommit codec s e p current) :
    ∃ c reason ok failed, (s.advance codec e).calls p = some c ∧
      c.phase = .marking current reason ok failed := by
  obtain ⟨c, hc, hstate, ⟨env, delivery, now, shutdown, attempt, rfl, hphase, hlanded⟩ |
    ⟨now, shutdown, attempt, rfl, hphase, hread, hsame, hlanded⟩⟩ := h
  · obtain ⟨reason, ok, failed, hmarking⟩ := commitLost_of_returned c hstate
    refine ⟨_, reason, ok, failed, calls_of_move hc, ?_⟩
    simp only [Call.next, hphase, Call.attempted, hlanded, hmarking]
  · obtain ⟨reason, ok, failed, hmarking⟩ := commitLost_of_returned c hstate
    refine ⟨_, reason, ok, failed, calls_of_move hc, ?_⟩
    simp only [Call.next, hphase, Call.reread, hread, hsame, hlanded, hmarking, if_true]
    rw [if_neg (by simp [hstate])]

/-- The mark of a call that commits leaves the job unknown. -/
theorem unknown_of_marking {reason : String} {ok failed : Result} (hc : s.calls p = some c)
    (hphase : c.phase = .marking current reason ok failed)
    (hcommitted : s.committed codec (.move p (.settle env delivery)) ≠ none) :
    ∃ r ∈ (s.advance codec (.move p (.settle env delivery))).tables.jobs,
      r.id = current.jobID ∧ r.state = .unknown := by
  obtain ⟨cm, hcm⟩ := Option.ne_none_iff_exists'.1 hcommitted
  obtain ⟨delivery', hsubmits⟩ := submits_of_committed hcm
  simp only [Event.submits, hc, Option.bind_some, Call.submits, hphase, Option.some.injEq,
    Prod.mk.injEq] at hsubmits
  have hstep := step_advance codec s (.move p (.settle env delivery))
  rw [hcm] at hstep
  have hchange := change_of_step hstep
  rw [← hsubmits.1] at hchange
  generalize cm.reply = reply at hchange
  generalize (s.advance codec (.move p (.settle env delivery))).tables = t' at hchange
  cases hchange with
  | @markUnknown _ _ row row' _ hrow _ _ hupdate =>
    obtain ⟨hmem, hid⟩ := Table.get?_eq_some.1 hrow
    have hid' := hupdate.follows.id_eq
    exact ⟨row', Table.mem_set.2 (.inl ⟨rfl, row, hmem, hid'.symm⟩), hid'.trans hid,
      by rw [hupdate.columns]⟩

/-- Over every run that begins without jobs and calls: a job becomes acknowledged only by the call
    that committed its return, observed that commit before the deadline, and found the pins in force
    and the run ended, and then never changes; a return whose commit was not observed is never
    acknowledged, and is unknown once that mark commits; an unknown job stays so; and a job that is
    not acknowledged is the only one that can start in its dimension, and starts once. -/
theorem honest_completion (h : IsRun (Advances codec) σ ε) (hjobs : (σ 0).tables.jobs = .empty)
    (hwakes : (σ 0).tables.wakes = .empty) (h0 : ∀ p, (σ 0).calls p = none) :
    (∀ n, ∀ r ∈ (σ (n + 1)).tables.jobs, r.finalizationAckAt ≠ none →
      (∀ r₀ ∈ (σ n).tables.jobs, r₀.id = r.id → r₀.finalizationAckAt = none) →
      ∃ p m k ret, Acknowledges codec σ ε n r p m k ret) ∧
    (∀ m n, m ≤ n → ∀ r ∈ (σ m).tables.jobs, r.finalizationAckAt ≠ none →
      r ∈ (σ n).tables.jobs) ∧
    (∀ m n id, LosesCommit codec (σ m) (ε m) id → m < n →
      ∃ r ∈ (σ n).tables.jobs, r.id = id ∧ r.finalizationAckAt = none ∧
        (r.state = .returned ∨ r.state = .unknown)) ∧
    (∀ n p current, FindsCommit codec (σ n) (ε n) p current →
      ∃ c reason ok failed, (σ (n + 1)).calls p = some c ∧
        c.phase = .marking current reason ok failed) ∧
    (∀ n p c current reason ok failed env delivery, (σ n).calls p = some c →
      c.phase = .marking current reason ok failed → ε n = .move p (.settle env delivery) →
      (σ n).committed codec (ε n) ≠ none →
      ∃ r ∈ (σ (n + 1)).tables.jobs, r.id = current.jobID ∧ r.state = .unknown) ∧
    (∀ m n, m ≤ n → ∀ r ∈ (σ m).tables.jobs, r.state = .unknown →
      ∃ r' ∈ (σ n).tables.jobs, r'.id = r.id ∧ r'.state = .unknown ∧
        r'.finalizationAckAt = none) ∧
    ∀ n cm id, (σ n).committed codec (ε n) = some cm → cm.Starts id →
      ∀ r ∈ (σ n).tables.jobs, r.finalizationAckAt = none →
      ∀ i ∈ (σ n).tables.jobs, i.id = id → i.scope = r.scope → i = r ∧ r.startedAt = none := by
  refine ⟨fun n r hr hack hnew => exists_acknowledges h h0 hr hack hnew,
    fun m n hmn r hr hack => mem_of_acknowledged h hmn hr hack,
    fun m n id hlost hmn => unacknowledged_of_losesCommit h hjobs h0 hlost hmn,
    fun n p current hfinds => ?_, fun n p c current reason ok failed env delivery hc hphase hsettle
      hcommitted => ?_, fun m n hmn r hr hunknown => ?_,
    fun n cm id hcm hstarts r hr hack i hi hid hscope => ?_⟩
  · rw [h n]
    exact marking_of_findsCommit hfinds
  · rw [h n, hsettle]
    rw [hsettle] at hcommitted
    exact unknown_of_marking hc hphase hcommitted
  · obtain ⟨r', hr', hfollows⟩ := exists_follows_of_system h hmn hr
    have hstate := hfollows.unknown_of hunknown
    exact ⟨r', hr', hfollows.id_eq, hstate,
      JobRow.finalizationAckAt_of_ne (by rw [hstate]; simp)⟩
  · have hstep := isRun_tables h n
    simp only [hcm] at hstep
    obtain ⟨row, hrow, -, -, hrowid, -, hqueued, -⟩ := Change.of_starts hstep hstarts
    have hir : i = row := Table.eq_of_key_eq hi hrow (hid.trans hrowid.symm)
    have hiack : i.finalizationAckAt = none :=
      JobRow.finalizationAckAt_of_ne (by rw [hir, hqueued]; simp)
    have heq : i = r := (queued_of_isRun (isRun_tables h) hjobs hwakes n).active_unique i hi r hr
      (JobRow.active_iff.2 hiack) (JobRow.active_iff.2 hack) hscope
    exact ⟨heq, heq ▸ JobRow.startedAt_of_queued (hir ▸ hqueued)⟩

end Run

/-! ## Two finishing calls -/

/-- The job that is started, finished and acknowledged in time is acknowledged honestly. -/
theorem sample_honest_completion :
    ∃ r ∈ (execute Sample.codec (Sample.events Sample.observing) Sample.system
      (8 + 1)).tables.jobs,
      r.finalizationAckAt ≠ none ∧ ∃ p m k ret, Acknowledges Sample.codec
        (execute Sample.codec (Sample.events Sample.observing) Sample.system)
        (Sample.events Sample.observing) 8 r p m k ret := by
  -- The kernel runs the eight events once for both.
  obtain ⟨hbefore, hafter⟩ :
      (execute Sample.codec (Sample.events Sample.observing) Sample.system
        8).tables.jobs.rows.all (·.finalizationAckAt.isNone) = true ∧
      (execute Sample.codec (Sample.events Sample.observing) Sample.system
        (8 + 1)).tables.jobs.rows.any (·.finalizationAckAt.isSome) = true := by decide +kernel
  obtain ⟨r, hr, hsome⟩ := List.any_eq_true.1 hafter
  have hack : r.finalizationAckAt ≠ none := Option.isSome_iff_ne_none.1 hsome
  have hrun := isRun_execute Sample.codec (Sample.events Sample.observing) Sample.system
  have hhonest := (honest_completion hrun rfl rfl fun _ => rfl).1 8 r hr hack
  exact ⟨r, hr, hack, hhonest fun r₀ hr₀ _ =>
    Option.isNone_iff_eq_none.1 (List.all_eq_true.1 hbefore r₀ hr₀)⟩

/-- Every job that is stored is there at every later point, and what is there of it follows it. -/
theorem jobs_followed (codec : Codec) (ε : ℕ → Event) (s : System) {m n : ℕ} (hmn : m ≤ n)
    {r : JobRow} (hr : r ∈ (execute codec ε s m).tables.jobs) :
    ∃ r' ∈ (execute codec ε s n).tables.jobs, Follows r r' :=
  exists_follows_of_system (isRun_execute codec ε s) hmn hr

/-- A job that waits is followed by one that is acknowledged. -/
theorem sample_jobs_followed :
    ∃ r ∈ (execute Sample.codec (Sample.events Sample.observing) Sample.system 4).tables.jobs,
      r.state = .queued ∧
      ∃ r' ∈ (execute Sample.codec (Sample.events Sample.observing) Sample.system 9).tables.jobs,
        r'.finalizationAckAt ≠ none ∧ Follows r r' := by
  -- The kernel runs the events once for both.
  obtain ⟨hqueued, hacks⟩ :
      (execute Sample.codec (Sample.events Sample.observing) Sample.system
        4).tables.jobs.rows.any (·.state = .queued) = true ∧
      (execute Sample.codec (Sample.events Sample.observing) Sample.system
        9).tables.jobs.rows.all (·.finalizationAckAt.isSome) = true := by decide +kernel
  obtain ⟨r, hr, hstate⟩ := List.any_eq_true.1 hqueued
  obtain ⟨r', hr', hfollows⟩ := jobs_followed Sample.codec (Sample.events Sample.observing)
    Sample.system (m := 4) (n := 9) (by decide) hr
  exact ⟨r, hr, of_decide_eq_true hstate, r', hr',
    Option.isSome_iff_ne_none.1 (List.all_eq_true.1 hacks r' hr'), hfollows⟩

/-- Every return whose commit loses its reply becomes unknown. -/
def UnobservedBecomesUnknown (codec : Codec) : Prop :=
  ∀ (σ : ℕ → System) (ε : ℕ → Event), IsRun (Advances codec) σ ε →
    (σ 0).tables.jobs = .empty → (σ 0).tables.wakes = .empty → (∀ p, (σ 0).calls p = none) →
    ∀ m id, LosesCommit codec (σ m) (ε m) id →
      ∃ n > m, ∃ r ∈ (σ n).tables.jobs, r.id = id ∧ r.state = .unknown

/-- Whether an attempt is about to commit. -/
def Attempt.isWritten : Except DispatchError Attempt → Bool
  | .ok (.written _ _) => true
  | _ => false

/-- The run that loses the reply. -/
def Sample.lost (n : ℕ) : System := execute Sample.codec (events losing) system n

/-- After its call has ended, nothing happens in the run that loses the reply. -/
theorem tables_lost (n : ℕ) : (Sample.lost (n + 9)).tables = (Sample.lost 9).tables := by
  induction n with
  | zero => rfl
  | succ n ih =>
    have hevent : Sample.events Sample.losing (n + 9) = .crash 0 := by
      rfl
    rw [← ih, show n + 1 + 9 = n + 9 + 1 by omega, Sample.lost, execute, hevent]
    rfl

/-- The return of a lost commit stays as it is when the mark does not commit either. -/
theorem not_unobservedBecomesUnknown : ¬ UnobservedBecomesUnknown Sample.codec := by
  intro hclaim
  have hrun : IsRun _ Sample.lost _ := isRun_execute Sample.codec _ Sample.system
  -- The kernel runs the events once for both.
  obtain ⟨hwritten, hnone⟩ : Attempt.isWritten (finishCapacityDispatchFirstCommit Sample.codec
        (Sample.env 133) Sample.call.ret Sample.call.contextErr (Sample.lost 6).tables) = true ∧
      (Sample.lost 9).tables.jobs.rows.all (·.state != .unknown) = true := by decide +kernel
  have hlost : LosesCommit Sample.codec (Sample.lost 6) (Sample.events Sample.losing 6)
      "job one" := by
    cases hattempt : finishCapacityDispatchFirstCommit Sample.codec (Sample.env 133)
        Sample.call.ret Sample.call.contextErr (Sample.lost 6).tables with
    | error err => simp [hattempt, Attempt.isWritten] at hwritten
    | ok attempt =>
      cases attempt with
      | landed => simp [hattempt, Attempt.isWritten] at hwritten
      | written t' first => exact ⟨0, Sample.env 133, 0, false, Sample.call, 1, t', first, rfl, rfl,
          rfl, hattempt, rfl⟩
  obtain ⟨n, hn, r, hr, -, hunknown⟩ := hclaim _ _ hrun rfl rfl (fun _ => rfl) 6 "job one" hlost
  -- An unknown job would still be unknown when the call has ended.
  have hlast : ∃ r ∈ (Sample.lost 9).tables.jobs, r.state = .unknown := by
    rcases Nat.le_total n 9 with hle | hle
    · obtain ⟨r', hr', hfollows⟩ := exists_follows_of_system hrun hle hr
      exact ⟨r', hr', hfollows.unknown_of hunknown⟩
    · obtain ⟨k, rfl⟩ := Nat.exists_eq_add_of_le' hle
      rw [tables_lost k] at hr
      exact ⟨r, hr, hunknown⟩
  obtain ⟨r', hr', hunknown'⟩ := hlast
  simpa [hunknown'] using List.all_eq_true.1 hnone r' hr'

end Yggdrasil.Capacity.Dispatch
