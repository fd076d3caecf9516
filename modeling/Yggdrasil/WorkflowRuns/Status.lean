import Yggdrasil.Lib.Workers
import Yggdrasil.WorkflowRuns.Store

/-!
# The status of a run

Four callers write the progress of a run, in any order: the execution, its finalization, the cleaner
and an operator who aborts it, in three statements, of which the last checks again.
-/

namespace Yggdrasil.WorkflowRuns

variable {json : Json} {f : WorkflowRun → Progress} {run : WorkflowRun} {runs : Runs json}

/-- The run is over. -/
def RunStatus.terminal : RunStatus → Bool
  | .succeeded | .failed | .cancelled => true
  | .pending | .running => false

/-! ## Statements -/

/-- A run that is pending runs. -/
def markWorkflowRunRunning (runs : Runs json) (id : String) (startedAt : ℤ) : Runs json :=
  runs.update fun run =>
    if run.id = id ∧ run.status = .pending then
      { run.toProgress with status := .running, startedAt := some startedAt }
    else run.toProgress

/-- The database has no text with a null character. -/
def storable (result : Option Value) (errMessage : String) : Bool :=
  (errMessage :: result.elim [] Value.texts).all fun text => !text.toList.contains '\x00'

/-- The progress of a run that is finalized. -/
def Progress.finalize (progress : Progress) (status : RunStatus) (result : Option Value)
    (errMessage : String) (finishedAt : ℤ) : Progress :=
  { progress with
    status := status
    result := result
    error := if errMessage = "" then none else some errMessage
    finishedAt := some finishedAt }

/-- The result is given as a document. -/
def finalizeWorkflowRun (runs : Runs json) (id : String) (status : RunStatus)
    (result : Option Value) (errMessage : String) (finishedAt : ℤ) : Option (Runs json) :=
  if storable result errMessage then
    some (runs.update fun run =>
      if run.id = id then run.toProgress.finalize status result errMessage finishedAt
      else run.toProgress)
  else none

/-- The seconds of a duration as `%.0f` writes them, halves to even. -/
def roundSeconds (timeout : ℤ) : ℤ :=
  let seconds := timeout / Instant.second
  let rest := 2 * (timeout % Instant.second)
  if rest > Instant.second ∨ rest = Instant.second ∧ seconds % 2 = 1 then seconds + 1 else seconds

/-- The error of a stale run. -/
def staleMessage (timeout : ℤ) : String :=
  "stale: addon stale_workflow_runs_cleaner (no heartbeat after " ++ toString (roundSeconds timeout)
    ++ "s)"

/-- The runs without a job that have taken too long are cancelled. -/
def cleanupStaleWorkflowRuns (runs : Runs json) (jobs : List String) (timeout now : ℤ) :
    Runs json :=
  if timeout ≤ 0 then runs
  else runs.update fun run =>
    if run.status ∈ [.pending, .running] ∧ run.id ∉ jobs ∧
        run.startedAt.getD run.createdAt < now - roundSeconds timeout * Instant.second then
      { run.toProgress with
        status := .cancelled, finishedAt := some now, error := some (staleMessage timeout) }
    else run.toProgress

/-- A run that an operator may abort. -/
def abortable (jobs : List String) (id : String) (run : WorkflowRun) : Bool :=
  run.id = id ∧ run.status ∈ [RunStatus.pending, .running] ∧ run.id ∉ jobs

/-- The run is cancelled, if it may be aborted. -/
def abortWorkflowRun (runs : Runs json) (jobs : List String) (id : String) (now : ℤ) : Runs json :=
  runs.update fun run =>
    if abortable jobs id run then
      { run.toProgress with status := .cancelled, finishedAt := some now }
    else run.toProgress

/-! ## Callers -/

/-- The runs, and those that have a job of the capacity dispatch. -/
structure State (json : Json) where
  runs : Runs json
  jobs : List String

/-- An abort, between its statements. -/
inductive Abort
  | idle
  | found (id : String)
  | cleared (id : String)
  | answered (code : ℕ) (message : String)

/-- A statement of a caller, with the time and whether the database fails. -/
inductive Call
  | markWorkflowRunRunning (id : String) (startedAt : ℤ)
  | finalizeWorkflowRun (id : String) (status : RunStatus) (result : Option Value)
      (errMessage : String) (finishedAt : ℤ)
  | cleanupStaleWorkflowRuns (timeout now : ℤ)
  | abort (id : String)
  | checkJobs (fails : Bool)
  | cancel (fails : Bool) (now : ℤ)
  | enqueue (id : String)

/-- What a call does to the runs. -/
def act {W : Type*} (_ : W) (call : Call) (s : State json) (abort : Abort) :
    Option (State json × Abort) :=
  match call, abort with
  | .markWorkflowRunRunning id startedAt, abort =>
    some ({ s with runs := markWorkflowRunRunning s.runs id startedAt }, abort)
  | .finalizeWorkflowRun id status result errMessage finishedAt, abort =>
    (finalizeWorkflowRun s.runs id status result errMessage finishedAt).map fun runs =>
      ({ s with runs := runs }, abort)
  | .cleanupStaleWorkflowRuns timeout now, abort =>
    some ({ s with runs := cleanupStaleWorkflowRuns s.runs s.jobs timeout now }, abort)
  | .abort id, .idle =>
    if id = "" then some (s, .answered 400 "missing runId")
    else if (s.runs.get? id).isSome then some (s, .found id)
    else some (s, .answered 404 "run not found")
  | .checkJobs fails, .found id =>
    if fails then some (s, .answered 500 "abort failed")
    else if id ∈ s.jobs then
      some (s, .answered 409 ("capacity dispatch runs cannot be aborted; " ++
        "use the capacity dispatch disposition lanes"))
    else some (s, .cleared id)
  | .cancel fails now, .cleared id =>
    if fails then some (s, .answered 500 "abort failed")
    else
      some ({ s with runs := abortWorkflowRun s.runs s.jobs id now },
        if (s.runs.get? id).any (abortable s.jobs id) then .answered 202 "aborted"
        else .answered 409 "run is not pending or running")
  | .enqueue id, abort => some ({ s with jobs := id :: s.jobs }, abort)
  | _, _ => none

/-! ## What ends, stays -/

/-- The runs that have ended have the same status, result and error later. -/
def Final (runs runs' : Runs json) : Prop :=
  ∀ run ∈ runs, run.status.terminal = true →
    ∃ run' ∈ runs', run'.id = run.id ∧ run'.status = run.status ∧ run'.result = run.result ∧
      run'.error = run.error

/-- A run that the call finalizes has not ended. -/
def Call.Guarded (call : Call) (runs : Runs json) : Prop :=
  match call with
  | .finalizeWorkflowRun id _ _ _ _ => ∀ run ∈ runs, run.id = id → run.status.terminal = false
  | _ => True

/-- An update that changes only runs that have not ended. -/
def Spares (runs : Runs json) (f : WorkflowRun → Progress) : Prop :=
  ∀ run ∈ runs, run.status.terminal = true → f run = run.toProgress

/-- An update with a guard that fails on the runs that have ended. -/
theorem spares_ite {p : WorkflowRun → Prop} [DecidablePred p]
    (h : ∀ run ∈ runs, p run → run.status.terminal = false) :
    Spares runs fun run => if p run then f run else run.toProgress := by
  intro run hrun hterminal
  refine if_neg fun hp => ?_
  rw [h run hrun hp] at hterminal
  cases hterminal

theorem RunStatus.not_terminal_of_mem {status : RunStatus}
    (h : status ∈ [RunStatus.pending, .running]) : status.terminal = false := by
  rcases List.mem_pair.1 h with rfl | rfl <;> rfl

variable {W : Type*} {i : W} {call : Call} {s s' : State json} {abort abort' : Abort}

/-- A statement updates the runs, and spares those that have ended. -/
theorem act_spares (h : act i call s abort = some (s', abort')) (hguard : call.Guarded s.runs) :
    s'.runs = s.runs ∨ ∃ f, Spares s.runs f ∧ s'.runs = s.runs.update f := by
  unfold act at h
  split at h
  next =>
    cases h
    refine .inr ⟨_, spares_ite fun run _ hp => ?_, rfl⟩
    rw [hp.2]
    rfl
  next =>
    rw [finalizeWorkflowRun] at h
    split at h
    · cases h
      exact .inr ⟨_, spares_ite hguard, rfl⟩
    · cases h
  next =>
    cases h
    dsimp only [cleanupStaleWorkflowRuns]
    split
    · exact .inl rfl
    · exact .inr ⟨_, spares_ite fun run _ hp => RunStatus.not_terminal_of_mem hp.1, rfl⟩
  next => split at h <;> [skip; split at h] <;> cases h <;> exact .inl rfl
  next => split at h <;> [skip; split at h] <;> cases h <;> exact .inl rfl
  next =>
    split at h
    · cases h
      exact .inl rfl
    · cases h
      refine .inr ⟨_, spares_ite fun run _ hp => ?_, rfl⟩
      exact RunStatus.not_terminal_of_mem (of_decide_eq_true hp).2.1
  next =>
    cases h
    exact .inl rfl
  next => cases h

section Interleaving

variable [DecidableEq W] {calls : ℕ → W × Call} {start : World W (State json) Abort}

theorem mem_after_of_terminal
    (hguard : ∀ n, (calls n).2.Guarded (World.after act calls start n).shared.runs) {m n : ℕ}
    (hmn : m ≤ n) (hrun : run ∈ (World.after act calls start m).shared.runs)
    (hterminal : run.status.terminal = true) :
    run ∈ (World.after act calls start n).shared.runs := by
  induction n, hmn using Nat.le_induction with
  | base => exact hrun
  | succ n _ ih =>
    rw [World.after_succ]
    obtain heq | ⟨s, abort, hact, heq⟩ :=
      World.step_cases act (World.after act calls start n) (calls n)
    · rwa [heq]
    · rw [heq]
      obtain hsame | ⟨f, hf, hruns⟩ := act_spares hact (hguard n)
      · rwa [hsame]
      · rw [hruns]
        exact Runs.mem_update.2 ⟨run, ih, by rw [hf run ih hterminal]⟩

/-- Runs that have ended stay so, as long as no call finalizes one of them. -/
theorem terminal_final
    (hguard : ∀ n, (calls n).2.Guarded (World.after act calls start n).shared.runs) {m n : ℕ}
    (hmn : m ≤ n) :
    Final (World.after act calls start m).shared.runs (World.after act calls start n).shared.runs :=
  fun run hrun hterminal =>
    ⟨run, mem_after_of_terminal hguard hmn hrun hterminal, rfl, rfl, rfl, rfl⟩

end Interleaving

namespace Sample

/-- A run that has not begun. -/
def pending : WorkflowRun :=
  { id := "run", workflowNamespace := "global", workflowName := "deploy" }

/-- A world with one run, which is pending. -/
def start : World Unit (State plain) Abort where
  shared := ⟨⟨⟨[pending], by simp⟩, by simp [Table.mem_def]⟩, []⟩
  own _ := .idle

/-- The run is finalized once, and then the cleaner goes on. -/
def finalizeOnce : ℕ → Unit × Call
  | 0 => ((), .finalizeWorkflowRun "run" .succeeded (some (.map [])) "" 1)
  | n + 1 => ((), .cleanupStaleWorkflowRuns Instant.second n)

/-- An operator aborts the run, and its execution ends after that. -/
def abortThenFinalize : ℕ → Unit × Call
  | 0 => ((), .abort "run")
  | 1 => ((), .checkJobs false)
  | 2 => ((), .cancel false 1)
  | _ => ((), .finalizeWorkflowRun "run" .succeeded (some (.map [])) "" 2)

end Sample

theorem finalizeOnce_final :
    Final (World.after act Sample.finalizeOnce Sample.start 1).shared.runs
      (World.after act Sample.finalizeOnce Sample.start 5).shared.runs := by
  refine terminal_final (fun n => ?_) (by decide)
  cases n with
  | zero =>
    intro run hrun _
    rw [List.mem_singleton.1 hrun]
    rfl
  | succ n => trivial

/-- A cancelled run becomes a succeeded one when its execution ends. -/
theorem not_terminalFinal : ¬ ∀ (calls : ℕ → Unit × Call)
    (start : World Unit (State Sample.plain) Abort) (m n : ℕ), m ≤ n →
    Final (World.after act calls start m).shared.runs
      (World.after act calls start n).shared.runs := by
  intro h
  obtain ⟨run, hrun, -, hstatus, -⟩ := h Sample.abortThenFinalize Sample.start 3 4 (by omega)
    { Sample.pending with status := .cancelled, finishedAt := some 1 }
    (List.mem_singleton.2 rfl) rfl
  have hlast : run = { Sample.pending with
      status := .succeeded, result := some (.map []), finishedAt := some 2 } :=
    List.mem_singleton.1 hrun
  rw [hlast] at hstatus
  cases hstatus

end Yggdrasil.WorkflowRuns
