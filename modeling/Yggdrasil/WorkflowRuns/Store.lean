import Yggdrasil.Lib.Table
import Yggdrasil.Lib.Json
import Yggdrasil.Manifest.Workflow

/-!
# The table of workflow runs

A run has a header, which is written when the run is inserted, and its progress, which the
later statements update. The table has two constraints: the ids of its runs are different, and
so are their idempotency keys. The index of the keys is over the text that the database finds
in the metadata, as it is stored.
-/

namespace Yggdrasil.WorkflowRuns

open Text Manifest

/-- The statuses of a run. -/
inductive RunStatus
  | pending
  | running
  | succeeded
  | failed
  | cancelled
  deriving DecidableEq

/-- What is written of a run when it is inserted. -/
structure Header where
  id : String
  workflowNamespace : String
  workflowName : String
  workflowVersion : Option ℤ := none
  inputs : Value.Fields := []
  metadata : Value.Fields := []
  createdAt : ℤ := 0

/-- What is updated as a run goes on. -/
structure Progress where
  status : RunStatus := .pending
  result : Option Value := none
  error : Option String := none
  startedAt : Option ℤ := none
  finishedAt : Option ℤ := none

/-- A run as it is stored. -/
structure WorkflowRun extends Header, Progress

/-- Which other types have a document, and the text of a document. -/
structure Json where
  supports : String → Bool
  render : Value → String

variable (json : Json)

/-- The document of a map, which is empty if there is none. -/
def mustEncodeJSON (fields : Value.Fields) : Value.Fields :=
  (Value.marshalFields json.supports fields).getD []

/-- The text of a document: `->>`. -/
def Json.text : Value → Option String
  | .nil => none
  | .str s => some s
  | v => some (json.render v)

/-- The text of an entry of the metadata. -/
def Header.metadataText (run : Header) (key : String) : Option String :=
  (run.metadata.lookup key).bind json.text

/-- The idempotency key of a run in the index, which is partial. -/
def Header.indexed (run : Header) : Option String :=
  (run.metadataText json "idempotency_key").filter (· ≠ "")

/-- The rows of the table. -/
structure Runs where
  table : Table fun run : WorkflowRun => run.id
  unique : ∀ r ∈ table, ∀ s ∈ table, ∀ k,
    r.indexed json = some k → s.indexed json = some k → r = s

variable {json} {runs : Runs json} {run : WorkflowRun}

namespace Runs

instance : Membership WorkflowRun (Runs json) := ⟨fun runs run => run ∈ runs.table⟩

theorem mem_def : run ∈ runs ↔ run ∈ runs.table := Iff.rfl

/-- No runs. -/
def empty : Runs json := ⟨.empty, fun _ h => nomatch h⟩

theorem notMem_empty : run ∉ (empty : Runs json) := List.not_mem_nil

/-- The run with an id. -/
def get? (runs : Runs json) (id : String) : Option WorkflowRun := runs.table.get? id

theorem get?_eq_some {id : String} :
    runs.get? id = some run ↔ run ∈ runs ∧ run.id = id := Table.get?_eq_some

/-! ## Updates -/

/-- An update of the progress of the runs. -/
def update (runs : Runs json) (f : WorkflowRun → Progress) : Runs json where
  table := runs.table.map (fun run => ⟨run.toHeader, f run⟩) fun _ => rfl
  unique := by
    intro r hr s hs k hrk hsk
    obtain ⟨r₀, hr₀, rfl⟩ := Table.mem_map.1 hr
    obtain ⟨s₀, hs₀, rfl⟩ := Table.mem_map.1 hs
    rw [runs.unique r₀ hr₀ s₀ hs₀ k hrk hsk]

theorem mem_update {f : WorkflowRun → Progress} :
    run ∈ runs.update f ↔ ∃ r ∈ runs, ⟨r.toHeader, f r⟩ = run := List.mem_map

theorem get?_update (runs : Runs json) (f : WorkflowRun → Progress) (id : String) :
    (runs.update f).get? id = (runs.get? id).map fun run => ⟨run.toHeader, f run⟩ := by
  simp only [get?, update, Table.get?_map]

/-! ## Insertions -/

/-- The run whose idempotency key a new one has. -/
def clash? (runs : Runs json) (run : WorkflowRun) : Option WorkflowRun :=
  (run.indexed json).bind fun k => runs.table.rows.find? fun r => r.indexed json = some k

theorem clash?_eq_some {r : WorkflowRun} (h : runs.clash? run = some r) :
    r ∈ runs ∧ ∃ k, run.indexed json = some k ∧ r.indexed json = some k := by
  obtain ⟨k, hk, hfind⟩ := Option.bind_eq_some_iff.1 h
  refine ⟨List.mem_of_find?_eq_some hfind, k, hk, ?_⟩
  simpa using List.find?_some hfind

theorem clash?_eq_none (h : runs.clash? run = none) {r : WorkflowRun} (hr : r ∈ runs) {k : String}
    (hk : run.indexed json = some k) : r.indexed json ≠ some k := by
  rw [clash?, hk, Option.bind_some, List.find?_eq_none] at h
  simpa using h r hr

/-- The table with a new run, or the constraint that refuses it. -/
inductive Inserted (json : Json)
  | stored (runs : Runs json)
  | clash (run : WorkflowRun)
  | taken

/-- Both constraints hold with the new run. -/
def add (runs : Runs json) (run : WorkflowRun) (table : Table fun run : WorkflowRun => run.id)
    (htable : runs.table.insert? run = some table) (hclash : runs.clash? run = none) :
    Runs json where
  table := table
  unique := by
    intro r hr s hs k hrk hsk
    rcases (Table.mem_of_insert? htable).1 hr with rfl | hr <;>
      rcases (Table.mem_of_insert? htable).1 hs with rfl | hs
    · rfl
    · exact absurd hsk (clash?_eq_none hclash hs hrk)
    · exact absurd hrk (clash?_eq_none hclash hr hsk)
    · exact runs.unique r hr s hs k hrk hsk

/-- The insertion of a run. -/
def insert (runs : Runs json) (run : WorkflowRun) : Inserted json :=
  match hclash : runs.clash? run with
  | some r => .clash r
  | none =>
    match htable : runs.table.insert? run with
    | some table => .stored (runs.add run table htable hclash)
    | none => .taken

/-- What an insertion says of the runs. -/
inductive Inserts (runs : Runs json) (run : WorkflowRun) : Inserted json → Prop
  | stored (runs') (hmem : ∀ r, r ∈ runs' ↔ r = run ∨ r ∈ runs)
      (hid : ∀ r ∈ runs, r.id ≠ run.id)
      (hkey : ∀ r ∈ runs, ∀ k, run.indexed json = some k → r.indexed json ≠ some k) :
      Inserts runs run (.stored runs')
  | clash (r k) (hr : r ∈ runs) (hk : run.indexed json = some k) (hrk : r.indexed json = some k) :
      Inserts runs run (.clash r)
  | taken : Inserts runs run .taken

theorem inserts (runs : Runs json) (run : WorkflowRun) : Inserts runs run (runs.insert run) := by
  unfold insert
  split
  next r hclash =>
    obtain ⟨hr, k, hk, hrk⟩ := clash?_eq_some hclash
    exact .clash r k hr hk hrk
  next hclash =>
    split
    next table htable =>
      refine .stored _ (fun r => Table.mem_of_insert? htable) (Table.insert?_eq_some htable).1 ?_
      exact fun r hr k hk => clash?_eq_none hclash hr hk
    next => exact .taken

end Runs

namespace Sample

/-- Every type can be written. -/
def plain : Json := ⟨fun _ => true, fun _ => "1"⟩

end Sample

end Yggdrasil.WorkflowRuns
