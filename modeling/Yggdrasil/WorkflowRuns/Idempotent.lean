import Yggdrasil.Lib.Workers
import Yggdrasil.Runs.Dispatch
import Yggdrasil.WorkflowRuns.Store

/-!
# Idempotent insertion

A request is inserted as a run once for its idempotency key. The key that is looked up is trimmed,
and the key in the index is not; what is compared is the selector, not the workflow that it names.
-/

namespace Yggdrasil.WorkflowRuns

open Text Check Manifest

variable {json : Json} {outcome : Outcome} {k : String}

/-! ## Requests -/

/-- A request for a run, with the id that was drawn for it and the inputs that are stored. -/
structure Request where
  id : String
  selector : ManifestSelector
  inputs : Value.Fields := []
  metadata : Value.Fields := []
  createdAt : ℤ := 0

/-- The key in the metadata of a request. -/
def workflowRunIdempotencyKey (metadata : Value.Fields) : String :=
  match metadata.lookup "idempotency_key" with
  | some (.str key) => trimSpace key
  | _ => ""

/-- The key of a request. -/
def Request.key (req : Request) : String := workflowRunIdempotencyKey req.metadata

/-- What is stored of a request. -/
def Request.header (json : Json) (req : Request) : Header where
  id := req.id
  workflowNamespace := req.selector.namespaceName
  workflowName := req.selector.name
  workflowVersion := req.selector.version
  inputs := mustEncodeJSON json req.inputs
  metadata := mustEncodeJSON json req.metadata
  createdAt := req.createdAt

/-- The run that a request asks for. -/
def Request.run (json : Json) (req : Request) : WorkflowRun := ⟨req.header json, {}⟩

/-! ## Statements -/

/-- How a call ends. -/
inductive Outcome
  | created (id : String)
  | deduped (id : String)
  | conflict (key : String) (run : WorkflowRun)
  | violation (run : WorkflowRun)
  | missing
  | failed (fault : Fault)

/-- The error of a unique constraint. -/
def uniqueViolation (constraint : String) : Fault :=
  .errorf "duplicate key value violates unique constraint %q" [.quoted constraint]

/-- The key belongs to another workflow. -/
def errWorkflowRunIdempotencyConflict : Fault :=
  .errorf "workflow run idempotency key already belongs to another workflow" []

/-- The error of a call. -/
def Outcome.error : Outcome → Option Fault
  | .created _ | .deduped _ => none
  | .conflict key run =>
    some (.wrap "%w: key %q is bound to %s/%s"
      [.quoted key, .text run.workflowNamespace, .text run.workflowName]
      errWorkflowRunIdempotencyConflict)
  | .violation _ =>
    some (.wrap "insert workflow_run: %w" []
      (uniqueViolation "workflow_runs_idempotency_unique_idx"))
  | .missing =>
    some (.wrap "lookup idempotent workflow_run: %w" [] (.errorf "sql: no rows in result set" []))
  | .failed fault => some fault

/-- A run was created. -/
def Outcome.isCreated : Outcome → Bool
  | .created _ => true
  | _ => false

/-- The call has failed. -/
def Outcome.isFailed : Outcome → Bool
  | .failed _ => true
  | _ => false

theorem Outcome.isCreated_of_isFailed (h : outcome.isFailed = true) :
    outcome.isCreated = false := by
  cases outcome with
  | failed => rfl
  | created | deduped | conflict | violation | missing => cases h

/-- What the first statement of a call leads to. -/
inductive First (json : Json)
  | stored (runs : Runs json)
  | answer (outcome : Outcome)
  | lookup

/-- The first statement. Without a key it is a plain insertion, which the index refuses. -/
def insertWorkflowRunIdempotent (runs : Runs json) (req : Request) : First json :=
  match runs.insert (req.run json) with
  | .stored runs => .stored runs
  | .clash run => if req.key = "" then .answer (.violation run) else .lookup
  | .taken => .answer (.failed (.wrap "insert workflow_run: %w" []
      (uniqueViolation "workflow_runs_pkey")))

/-- The second statement, which finds the run that has the key. -/
def lookupWorkflowRun (runs : Runs json) (req : Request) : Outcome :=
  match runs.table.rows.find? fun run =>
      run.metadataText json "idempotency_key" = some req.key with
  | none => .missing
  | some run =>
    if run.workflowNamespace ≠ req.selector.namespaceName ∨ run.workflowName ≠ req.selector.name
    then .conflict req.key run
    else .deduped run.id

/-! ## The index -/

/-- The key is one that is stored as it is compared. -/
def TrimmedKey (metadata : Value.Fields) : Prop :=
  match metadata.lookup "idempotency_key" with
  | none | some .nil => True
  | some (.str key) => trimSpace key = key
  | some _ => False

instance : DecidablePred TrimmedKey := fun metadata => by
  unfold TrimmedKey
  split <;> infer_instance

theorem mustEncodeJSON_lookup {fields : Value.Fields}
    (h : (Value.marshalFields json.supports fields).isSome = true) (k : String) :
    (mustEncodeJSON json fields).lookup k =
      (fields.lookup k).bind (Value.marshal json.supports) := by
  obtain ⟨doc, hdoc⟩ := Option.isSome_iff_exists.1 h
  rw [mustEncodeJSON, hdoc, Option.getD_some]
  exact Value.lookup_marshalFields hdoc k

/-- A key that is trimmed is in the index as it is compared. -/
theorem Request.indexed_header {req : Request} (hkey : TrimmedKey req.metadata)
    (hjson : (Value.marshalFields json.supports req.metadata).isSome = true) :
    (req.header json).indexed json = (some req.key).filter (· ≠ "") := by
  have hlookup := mustEncodeJSON_lookup hjson "idempotency_key"
  rw [Header.indexed, Header.metadataText]
  change (((mustEncodeJSON json req.metadata).lookup "idempotency_key").bind json.text).filter _ = _
  rw [hlookup, Request.key, workflowRunIdempotencyKey]
  unfold TrimmedKey at hkey
  split at hkey
  next hnone => simp [hnone, Option.filter]
  next hnil => simp [hnil, Value.marshal, Json.text, Option.filter]
  next key hstr => simp [hstr, Value.marshal, Json.text, hkey]
  next => exact hkey.elim

/-- What a lookup finds, or that it finds nothing. -/
theorem lookupWorkflowRun_cases (runs : Runs json) (req : Request) (hkey : req.key ≠ "") :
    (∃ run ∈ runs, run.indexed json = some req.key ∧
      ((run.workflowNamespace, run.workflowName) = (req.selector.namespaceName, req.selector.name) ∧
          lookupWorkflowRun runs req = .deduped run.id ∨
        (run.workflowNamespace, run.workflowName) ≠
            (req.selector.namespaceName, req.selector.name) ∧
          lookupWorkflowRun runs req = .conflict req.key run)) ∨
    (∀ run ∈ runs, run.indexed json ≠ some req.key) ∧ lookupWorkflowRun runs req = .missing := by
  unfold lookupWorkflowRun
  split
  next hfind =>
    refine .inr ⟨fun run hrun hindexed => ?_, rfl⟩
    have hnot := List.find?_eq_none.1 hfind run hrun
    obtain ⟨htext, -⟩ := Option.filter_eq_some_iff.1 hindexed
    exact hnot (by simpa using htext)
  next run hfind =>
    refine .inl ⟨run, List.mem_of_find?_eq_some hfind, ?_, ?_⟩
    · have htext : run.metadataText json "idempotency_key" = some req.key := by
        simpa using List.find?_some hfind
      rw [Header.indexed, htext, Option.filter_some, if_pos (by simpa using hkey)]
    · split
      next h => exact .inr ⟨by rwa [ne_eq, Prod.mk.injEq, not_and_or], rfl⟩
      next h => exact .inl ⟨by rwa [not_or, not_not, not_not, ← Prod.mk.injEq] at h, rfl⟩

/-! ## Calls -/

/-- A request with the workflow that its selector has named. -/
structure Prepared extends Request where
  workflow : String × String

namespace Idempotent

/-- The runs, with the requests that have created them and the answers of the calls. -/
structure State (json : Json) where
  runs : Runs json
  created : List Prepared
  replies : List (Prepared × Outcome)

/-- A statement of a call, with what it gets; the answer to an insertion may be lost. -/
inductive Call
  | insert (req : Request) (manifests : Catalog.Manifests) (env : Runs.Env) (lost : Option Fault)
  | lookup (fails : Option Fault)
  | write (f : WorkflowRun → Progress)

variable (cm : CaseMap) (codec : Runs.Codec)

/-- A call that has inserted nothing waits for its second statement. -/
def act {W : Type*} (_ : W) (call : Call) (s : State json) (waiting : Option Prepared) :
    Option (State json × Option Prepared) :=
  match call, waiting with
  | .insert req manifests env lost, none =>
    match Runs.prepareWorkflowRun cm codec manifests env ⟨req.selector, req.inputs⟩ with
    | .error _ => none
    | .ok (row, _, _) =>
      let prepared : Prepared := ⟨req, (row.identity.namespace_, row.identity.name)⟩
      match insertWorkflowRunIdempotent s.runs req with
      | .stored runs =>
        let outcome := lost.elim (.created req.id) .failed
        some (⟨runs, prepared :: s.created, (prepared, outcome) :: s.replies⟩, none)
      | .answer outcome => some ({ s with replies := (prepared, outcome) :: s.replies }, none)
      | .lookup => some (s, some prepared)
  | .lookup fails, some prepared =>
    let outcome := fails.elim (lookupWorkflowRun s.runs prepared.toRequest) .failed
    some ({ s with replies := (prepared, outcome) :: s.replies }, none)
  | .write f, waiting => some ({ s with runs := s.runs.update f }, waiting)
  | _, _ => none

/-- Nothing is stored, and no call has begun. -/
def start (json : Json) (W : Type*) : World W (State json) (Option Prepared) :=
  ⟨⟨.empty, [], []⟩, fun _ => none⟩

/-! ## What is claimed of a key -/

/-- The answer to a call, given the request that has created the run of the key. -/
def Answers (first req : Prepared) : Outcome → Prop
  | .created id => first = req ∧ id = first.id
  | .deduped id => first.workflow = req.workflow ∧ id = first.id
  | .conflict _ _ => first.workflow ≠ req.workflow
  | .violation _ | .missing => False
  | .failed _ => True

/-- A key has one run and one creator; other calls report that run or a conflict. -/
structure IsIdempotent (s : State json) : Prop where
  once : ∀ k ≠ "", (s.created.filter (·.key = k)).length ≤ 1
  creators : ∀ k ≠ "", (s.replies.filter fun r => r.1.key = k ∧ r.2.isCreated).length ≤ 1
  answered : ∀ req outcome, (req, outcome) ∈ s.replies → req.key ≠ "" → outcome.isFailed = false →
    ∃ first ∈ s.created, first.key = req.key ∧ Answers first req outcome

/-! ## Steps -/

/-- The key is trimmed, and the selector has the namespace and the name of the workflow. -/
def Call.Proper (json : Json) (call : Call) : Prop :=
  match call with
  | .insert req manifests _ _ =>
    TrimmedKey req.metadata ∧ (Value.marshalFields json.supports req.metadata).isSome = true ∧
      ∀ row spec, Runs.resolveActiveWorkflowManifestSpec cm codec manifests req.selector =
        .ok (row, spec) → (row.identity.namespace_, row.identity.name) =
          (req.selector.namespaceName, req.selector.name)
  | _ => True

/-- The same of a request whose selector has been resolved. -/
structure IsProper (json : Json) (req : Prepared) : Prop where
  key : TrimmedKey req.metadata
  marshals : (Value.marshalFields json.supports req.metadata).isSome = true
  workflow : req.workflow = (req.selector.namespaceName, req.selector.name)

/-- What a statement does. -/
inductive Acts (json : Json) (s : State json) :
    Option Prepared → State json → Option Prepared → Prop
  | stored (req : Prepared) (runs : Runs json) (outcome : Outcome) (hreq : IsProper json req)
      (hmem : ∀ r, r ∈ runs ↔ r = req.run json ∨ r ∈ s.runs)
      (hid : ∀ r ∈ s.runs, r.id ≠ req.id)
      (houtcome : outcome = .created req.id ∨ outcome.isFailed = true) :
      Acts json s none ⟨runs, req :: s.created, (req, outcome) :: s.replies⟩ none
  | refused (req : Prepared) (outcome : Outcome)
      (houtcome : req.key = "" ∧ outcome.isCreated = false ∨ outcome.isFailed = true) :
      Acts json s none { s with replies := (req, outcome) :: s.replies } none
  | waits (req : Prepared) (hreq : IsProper json req) (hkey : req.key ≠ "")
      (hrun : ∃ run ∈ s.runs, run.indexed json = some req.key) : Acts json s none s (some req)
  | found (req : Prepared) (outcome : Outcome)
      (houtcome : outcome = lookupWorkflowRun s.runs req.toRequest ∨ outcome.isFailed = true) :
      Acts json s (some req) { s with replies := (req, outcome) :: s.replies } none
  | wrote (f : WorkflowRun → Progress) (waiting : Option Prepared) :
      Acts json s waiting { s with runs := s.runs.update f } waiting

variable {cm codec} {W : Type*} {i : W} {call : Call} {req : Prepared} {s s' : State json}
  {waiting waiting' : Option Prepared}

theorem acts (h : act cm codec i call s waiting = some (s', waiting'))
    (hproper : call.Proper cm codec json) : Acts json s waiting s' waiting' := by
  unfold act at h
  split at h
  next req manifests env lost =>
    split at h
    · cases h
    next row spec request hprepare =>
      obtain ⟨hkey, hjson, hnamed⟩ := hproper
      have hresolve := (Runs.prepareWorkflowRun_eq_ok hprepare).1
      have hreq : IsProper json ⟨req, (row.identity.namespace_, row.identity.name)⟩ :=
        ⟨hkey, hjson, hnamed row spec hresolve⟩
      have hinserts := s.runs.inserts (req.run json)
      dsimp only [insertWorkflowRunIdempotent] at h
      generalize s.runs.insert (req.run json) = inserted at h hinserts
      cases hinserts with
      | stored runs hmem hid =>
        cases h
        refine .stored _ runs _ hreq hmem hid ?_
        cases lost
        · exact .inl rfl
        · exact .inr rfl
      | clash run k hrun hk hrk =>
        have hindexed : some k = (some req.key).filter (· ≠ "") :=
          hk.symm.trans (Request.indexed_header hkey hjson)
        obtain ⟨hkey', hne⟩ := Option.filter_eq_some_iff.1 hindexed.symm
        cases hkey'
        dsimp only at h
        rw [if_neg (by simpa using hne)] at h
        cases h
        exact .waits _ hreq (by simpa using hne) ⟨run, hrun, hrk⟩
      | taken =>
        cases h
        exact .refused _ _ (.inr rfl)
  next fails req =>
    cases h
    refine .found req _ ?_
    cases fails
    · exact .inl rfl
    · exact .inr rfl
  next =>
    cases h
    exact .wrote _ _
  next => cases h

/-! ## Runs of calls -/

/-- The runs are those the requests have created, and the answers are right. -/
structure Consistent (s : State json) : Prop where
  run : ∀ run ∈ s.runs, ∃ req ∈ s.created, run.toHeader = req.header json
  created : ∀ req ∈ s.created, IsProper json req ∧ ∃ run ∈ s.runs, run.toHeader = req.header json
  nodup : (s.created.map (·.id)).Nodup
  reported : ((s.replies.filter (·.2.isCreated)).map (·.1.id)).Nodup
  mem_created : ∀ reply ∈ s.replies, reply.2.isCreated = true → reply.1 ∈ s.created
  answered : ∀ req outcome, (req, outcome) ∈ s.replies → req.key ≠ "" → outcome.isFailed = false →
    ∃ first ∈ s.created, first.key = req.key ∧ Answers first req outcome

/-- A call that waits has a key that has a run. -/
def Waits (s : State json) (waiting : Option Prepared) : Prop :=
  ∀ req ∈ waiting, IsProper json req ∧ req.key ≠ "" ∧
    ∃ run ∈ s.runs, run.indexed json = some req.key

theorem IsProper.indexed (h : IsProper json req) :
    (req.header json).indexed json = (some req.key).filter (· ≠ "") :=
  Request.indexed_header h.key h.marshals

theorem IsProper.key_eq (h : IsProper json req) (hk : (req.header json).indexed json = some k) :
    req.key = k := by
  rw [h.indexed] at hk
  exact Option.some.inj (Option.filter_eq_some_iff.1 hk).1

namespace Consistent

/-- A run with a key was created by a request with that key. -/
theorem exists_first (hs : Consistent s) {run : WorkflowRun} (hrun : run ∈ s.runs)
    (hk : run.indexed json = some k) : ∃ first ∈ s.created, first.key = k ∧ run.id = first.id ∧
      first.workflow = (run.workflowNamespace, run.workflowName) := by
  obtain ⟨first, hfirst, hheader⟩ := hs.run run hrun
  have hproper := (hs.created first hfirst).1
  rw [hheader] at hk
  refine ⟨first, hfirst, hproper.key_eq hk, congrArg Header.id hheader, ?_⟩
  rw [hproper.workflow, hheader]
  rfl

/-- The id of a new run is not among those of the requests before. -/
theorem id_ne (hs : Consistent s) {id : String} (hid : ∀ run ∈ s.runs, run.id ≠ id)
    (hreq : req ∈ s.created) : req.id ≠ id := by
  obtain ⟨run, hrun, hheader⟩ := (hs.created req hreq).2
  have hne := hid run hrun
  rwa [congrArg Header.id hheader] at hne

/-- Two requests that have created runs for one key are the same. -/
theorem id_eq (hs : Consistent s) (hk : k ≠ "") {req' : Prepared} (hreq : req ∈ s.created)
    (hreq' : req' ∈ s.created) (hkey : req.key = k) (hkey' : req'.key = k) : req.id = req'.id := by
  obtain ⟨hproper, run, hrun, hheader⟩ := hs.created req hreq
  obtain ⟨hproper', run', hrun', hheader'⟩ := hs.created req' hreq'
  have hindexed : (some k).filter (· ≠ "") = some k := by simp [Option.filter, hk]
  have heq : run = run' := s.runs.unique run hrun run' hrun' k
    (by rw [hheader, hproper.indexed, hkey, hindexed])
    (by rw [hheader', hproper'.indexed, hkey', hindexed])
  rw [heq] at hheader
  exact congrArg Header.id (hheader.symm.trans hheader')

end Consistent

/-- An answer that reports no new run leaves the state consistent. -/
theorem Consistent.reply (hs : Consistent s) (hcreated : outcome.isCreated = false)
    (hanswer : req.key ≠ "" → outcome.isFailed = false →
      ∃ first ∈ s.created, first.key = req.key ∧ Answers first req outcome) :
    Consistent { s with replies := (req, outcome) :: s.replies } where
  run := hs.run
  created := hs.created
  nodup := hs.nodup
  reported := by
    rw [List.filter_cons_of_neg (by simp [hcreated])]
    exact hs.reported
  mem_created := by
    rintro reply hreply hisCreated
    rcases List.mem_cons.1 hreply with rfl | hreply
    · rw [hcreated] at hisCreated
      cases hisCreated
    · exact hs.mem_created reply hreply hisCreated
  answered := by
    rintro req' outcome' hreply hkey hfailed
    rcases List.mem_cons.1 hreply with heq | hreply
    · cases heq
      exact hanswer hkey hfailed
    · exact hs.answered req' outcome' hreply hkey hfailed

/-- The answer of the second statement is right. -/
theorem Consistent.lookup (hs : Consistent s) (hwaits : Waits s (some req)) :
    (lookupWorkflowRun s.runs req.toRequest).isCreated = false ∧
      ∃ first ∈ s.created, first.key = req.key ∧
        Answers first req (lookupWorkflowRun s.runs req.toRequest) := by
  obtain ⟨hproper, hkey, found, hfound, hindexed⟩ := hwaits req rfl
  obtain ⟨run, hrun, hk, hrest⟩ | ⟨hnone, -⟩ := lookupWorkflowRun_cases s.runs req.toRequest hkey
  · obtain ⟨first, hfirst, hfirstKey, hid, hworkflow⟩ := hs.exists_first hrun hk
    rcases hrest with ⟨hsame, heq⟩ | ⟨hne, heq⟩
    · rw [heq]
      exact ⟨rfl, first, hfirst, hfirstKey,
        hworkflow.trans (hsame.trans hproper.workflow.symm), hid⟩
    · rw [heq]
      refine ⟨rfl, first, hfirst, hfirstKey, fun hsame => hne ?_⟩
      exact hworkflow.symm.trans (hsame.trans hproper.workflow)
  · exact absurd hindexed (hnone found hfound)

theorem Acts.exists_header_eq (h : Acts json s waiting s' waiting') {run : WorkflowRun}
    (hrun : run ∈ s.runs) : ∃ run' ∈ s'.runs, run'.toHeader = run.toHeader := by
  cases h with
  | stored req runs outcome hreq hmem => exact ⟨run, (hmem run).2 (.inr hrun), rfl⟩
  | wrote f => exact ⟨_, Runs.mem_update.2 ⟨run, hrun, rfl⟩, rfl⟩
  | refused | waits | found => exact ⟨run, hrun, rfl⟩

theorem Acts.keeps_waits (h : Acts json s waiting s' waiting') {other : Option Prepared}
    (hother : Waits s other) : Waits s' other := by
  intro req hreq
  obtain ⟨hproper, hkey, run, hrun, hk⟩ := hother req hreq
  obtain ⟨run', hrun', hheader⟩ := h.exists_header_eq hrun
  exact ⟨hproper, hkey, run', hrun', by rwa [hheader]⟩

theorem Acts.waits_self (h : Acts json s waiting s' waiting') (hwaits : Waits s waiting) :
    Waits s' waiting' := by
  cases h with
  | waits req hreq hkey hrun =>
    intro req' hreq'
    cases hreq'
    exact ⟨hreq, hkey, hrun⟩
  | wrote f waiting => exact (Acts.wrote f waiting).keeps_waits hwaits
  | stored | refused | found => exact nofun

theorem Acts.consistent (h : Acts json s waiting s' waiting') (hs : Consistent s)
    (hwaits : Waits s waiting) : Consistent s' := by
  have hkeeps {run : WorkflowRun} (hrun : run ∈ s.runs) := h.exists_header_eq hrun
  have hfails (req : Prepared) {outcome : Outcome} (hfailed : outcome.isFailed = true) :
      Consistent { s with replies := (req, outcome) :: s.replies } :=
    hs.reply (Outcome.isCreated_of_isFailed hfailed) fun _ h => by simp [hfailed] at h
  cases h with
  | stored req runs outcome hreq hmem hid houtcome =>
    have hfresh : ∀ first ∈ s.created, first.id ≠ req.id := fun first => hs.id_ne hid
    refine ⟨fun run hrun => ?_, fun first hfirst => ?_, ?_, ?_, fun reply hreply hcreated => ?_,
      fun req' outcome' hreply hkey hfailed => ?_⟩
    · rcases (hmem run).1 hrun with rfl | hrun
      · exact ⟨req, List.mem_cons_self, rfl⟩
      · obtain ⟨first, hfirst, hheader⟩ := hs.run run hrun
        exact ⟨first, List.mem_cons_of_mem _ hfirst, hheader⟩
    · rcases List.mem_cons.1 hfirst with rfl | hfirst
      · exact ⟨hreq, first.run json, (hmem _).2 (.inl rfl), rfl⟩
      · obtain ⟨hproper, run, hrun, hheader⟩ := hs.created first hfirst
        exact ⟨hproper, run, (hmem run).2 (.inr hrun), hheader⟩
    · refine List.nodup_cons.2 ⟨fun hin => ?_, hs.nodup⟩
      obtain ⟨first, hfirst, heq⟩ := List.mem_map.1 hin
      exact hfresh first hfirst heq
    · rw [List.filter_cons]
      split
      · refine List.nodup_cons.2 ⟨fun hin => ?_, hs.reported⟩
        obtain ⟨reply, hreply, heq⟩ := List.mem_map.1 hin
        obtain ⟨hreply, hcreated⟩ := List.mem_filter.1 hreply
        exact hfresh reply.1 (hs.mem_created reply hreply hcreated) heq
      · exact hs.reported
    · rcases List.mem_cons.1 hreply with rfl | hreply
      · exact List.mem_cons_self
      · exact List.mem_cons_of_mem _ (hs.mem_created reply hreply hcreated)
    · rcases List.mem_cons.1 hreply with heq | hreply
      · cases heq
        rcases houtcome with rfl | houtcome
        · exact ⟨req, List.mem_cons_self, rfl, rfl, rfl⟩
        · rw [houtcome] at hfailed
          cases hfailed
      · obtain ⟨first, hfirst, hanswers⟩ := hs.answered req' outcome' hreply hkey hfailed
        exact ⟨first, List.mem_cons_of_mem _ hfirst, hanswers⟩
  | refused req outcome houtcome =>
    rcases houtcome with ⟨hkey, hcreated⟩ | hfailed
    · exact hs.reply hcreated fun hne => absurd hkey hne
    · exact hfails req hfailed
  | waits => exact hs
  | found req outcome houtcome =>
    rcases houtcome with rfl | hfailed
    · obtain ⟨hcreated, hanswer⟩ := hs.lookup hwaits
      exact hs.reply hcreated fun _ _ => hanswer
    · exact hfails req hfailed
  | wrote f =>
    refine ⟨fun run hrun => ?_, fun req hreq => ?_, hs.nodup, hs.reported, hs.mem_created,
      hs.answered⟩
    · obtain ⟨old, hold, rfl⟩ := Runs.mem_update.1 hrun
      exact hs.run old hold
    · obtain ⟨hproper, run, hrun, hheader⟩ := hs.created req hreq
      obtain ⟨run', hrun', hheader'⟩ := hkeeps hrun
      exact ⟨hproper, run', hrun', hheader'.trans hheader⟩

theorem consistent_start (W : Type*) : Consistent (start json W).shared where
  run _ h := absurd h Runs.notMem_empty
  created _ h := nomatch h
  nodup := List.nodup_nil
  reported := List.nodup_nil
  mem_created _ h := nomatch h
  answered _ _ h := nomatch h

/-- Elements that differ in `f` are not equal in it. -/
theorem length_filter_le_one {α β : Type*} {f : α → β} {p : α → Bool} {l : List α}
    (hnodup : (l.map f).Nodup)
    (h : ∀ a ∈ l, ∀ b ∈ l, p a = true → p b = true → f a = f b) : (l.filter p).length ≤ 1 := by
  have hsub : ((l.filter p).map f).Nodup := hnodup.sublist (List.filter_sublist.map f)
  have hmem : ∀ a ∈ l.filter p, a ∈ l ∧ p a = true := fun a ha => List.mem_filter.1 ha
  match hl : l.filter p with
  | [] => exact Nat.zero_le 1
  | [_] => exact le_rfl
  | a :: b :: rest =>
    rw [hl] at hsub hmem
    obtain ⟨ha, hpa⟩ := hmem a (by simp)
    obtain ⟨hb, hpb⟩ := hmem b (by simp)
    have heq := h a ha b hb hpa hpb
    simp [heq] at hsub

theorem Consistent.isIdempotent (hs : Consistent s) : IsIdempotent s where
  once k hk := by
    refine length_filter_le_one hs.nodup fun req hreq req' hreq' hkey hkey' => ?_
    exact hs.id_eq hk hreq hreq' (of_decide_eq_true hkey) (of_decide_eq_true hkey')
  creators k hk := by
    have hsplit : (s.replies.filter fun r => r.1.key = k ∧ r.2.isCreated) =
        (s.replies.filter (·.2.isCreated)).filter (·.1.key = k) := by
      simp [List.filter_filter, Bool.decide_and]
    rw [hsplit]
    refine length_filter_le_one hs.reported fun a ha b hb hkey hkey' => ?_
    obtain ⟨ha, hacreated⟩ := List.mem_filter.1 ha
    obtain ⟨hb, hbcreated⟩ := List.mem_filter.1 hb
    exact hs.id_eq hk (hs.mem_created a ha hacreated) (hs.mem_created b hb hbcreated)
      (of_decide_eq_true hkey) (of_decide_eq_true hkey')
  answered := hs.answered

section Interleaving

variable [DecidableEq W] {calls : ℕ → W × Call}

theorem sound_after (hproper : ∀ n, (calls n).2.Proper cm codec json) (n : ℕ) :
    (World.after (act cm codec) calls (start json W) n).Sound Consistent
      fun _ s waiting => Waits s waiting := by
  refine World.sound_after ⟨consistent_start W, fun _ => nofun⟩
    (fun n hn => hn.step fun s waiting hact => ?_) n
  have hacts := acts hact (hproper n)
  exact ⟨hacts.consistent hn.1 (hn.2 _), hacts.waits_self (hn.2 _),
    fun j _ => hacts.keeps_waits (hn.2 j)⟩

/-- Calls with trimmed keys, whose selectors have the names of their workflows, are idempotent. -/
theorem idempotent_after (hproper : ∀ n, (calls n).2.Proper cm codec json) (n : ℕ) :
    IsIdempotent (World.after (act cm codec) calls (start json W) n).shared :=
  (sound_after hproper n).1.isIdempotent

end Interleaving

namespace Sample

/-- Two workflows. -/
def twoWorkflows : Catalog.Manifests :=
  ⟨[(Runs.Sample.workflow "deploy" "open").row "" 1 "m1" 0,
    (Runs.Sample.workflow "scale" "open").row "" 1 "m2" 0], by decide⟩

/-- A call for a workflow, under a key. -/
def insert (id : String) (selector : ManifestSelector) (key : String) : Unit × Call :=
  ((), .insert { id, selector, metadata := [("idempotency_key", .str key)] } twoWorkflows
    Runs.Sample.calm none)

/-- The worlds of the calls. -/
def after (calls : ℕ → Unit × Call) :
    ℕ → World Unit (State WorkflowRuns.Sample.plain) (Option Prepared) :=
  World.after (act ascii Runs.Sample.twoSpecs) calls (start WorkflowRuns.Sample.plain Unit)

/-- A call is repeated, by its namespace and name. -/
def repeated : ℕ → Unit × Call
  | 0 => insert "r1" { namespaceName := "global", name := "deploy" } "k"
  | 1 => insert "r2" { namespaceName := "global", name := "deploy" } "k"
  | _ => ((), .lookup none)

/-- A call is repeated, with a blank before its key. -/
def blank : ℕ → Unit × Call
  | 0 => insert "r1" { namespaceName := "global", name := "deploy" } "k"
  | _ => insert "r2" { namespaceName := "global", name := "deploy" } " k"

/-- The key of a workflow is used for another one, and both are selected by their ids. -/
def byId : ℕ → Unit × Call
  | 0 => insert "r1" { manifestId := "m1" } "k"
  | 1 => insert "r2" { manifestId := "m2" } "k"
  | _ => ((), .lookup none)

/-- The workflow and the key of a call, with the run that is reported as known. -/
def known (reply : Prepared × Outcome) : (String × String) × String × Option String :=
  (reply.1.workflow, reply.1.key, match reply.2 with
    | .deduped id => some id
    | _ => none)

/-- A call for a workflow that the selector has the namespace and the name of. -/
theorem proper_insert (id key : String) (hkey : trimSpace key = key) :
    (insert id { namespaceName := "global", name := "deploy" } key).2.Proper ascii
      Runs.Sample.twoSpecs WorkflowRuns.Sample.plain := by
  refine ⟨hkey, rfl, fun row spec h => ?_⟩
  have hnames : (Runs.resolveActiveWorkflowManifestSpec ascii Runs.Sample.twoSpecs twoWorkflows
      { namespaceName := "global", name := "deploy" }).toOption.map
        (fun found => (found.1.identity.namespace_, found.1.identity.name)) =
          some ("global", "deploy") := by
    decide +kernel
  rw [h] at hnames
  exact Option.some.inj hnames

end Sample

theorem repeated_idempotent : IsIdempotent (Sample.after Sample.repeated 3).shared := by
  refine idempotent_after (fun n => ?_) 3
  match n with
  | 0 => exact Sample.proper_insert "r1" "k" (by decide +kernel)
  | 1 => exact Sample.proper_insert "r2" "k" (by decide +kernel)
  | _ + 2 => trivial

/-- Insertion is idempotent, whatever the keys and the selectors are. -/
def IdempotentInsertion : Prop :=
  ∀ (cm : CaseMap) (codec : Runs.Codec) (json : Json) (calls : ℕ → Unit × Call) (n : ℕ),
    IsIdempotent (World.after (act cm codec) calls (start json Unit) n).shared

/-- A key with a blank before it has a run of its own. -/
theorem not_idempotentInsertion : ¬ IdempotentInsertion := by
  intro h
  have honce := (h ascii Runs.Sample.twoSpecs WorkflowRuns.Sample.plain Sample.blank 2).once "k"
    (by decide)
  have htwo : ((Sample.after Sample.blank 2).shared.created.filter (·.key = "k")).length = 2 := by
    decide +kernel
  exact absurd (htwo ▸ honce) (by decide)

/-- The run of a workflow is the answer to a call for another one. -/
theorem not_isIdempotent_byId : ¬ IsIdempotent (Sample.after Sample.byId 3).shared := by
  intro h
  have hcreated : ∀ first ∈ (Sample.after Sample.byId 3).shared.created,
      first.workflow = ("global", "deploy") := by decide +kernel
  have hknown : (("global", "scale"), "k", some "r1") ∈
      (Sample.after Sample.byId 3).shared.replies.map Sample.known := by decide +kernel
  obtain ⟨⟨req, outcome⟩, hreply, hknown⟩ := List.mem_map.1 hknown
  cases outcome with
  | deduped id =>
    simp only [Sample.known, Prod.mk.injEq] at hknown
    obtain ⟨hworkflow, hkey, -⟩ := hknown
    obtain ⟨first, hfirst, -, hsame, -⟩ :=
      h.answered req _ hreply (by rw [hkey]; decide) rfl
    rw [hcreated first hfirst, hworkflow] at hsame
    exact absurd hsame (by decide)
  | created | conflict | violation | missing | failed => simp [Sample.known] at hknown

end Idempotent

end Yggdrasil.WorkflowRuns
