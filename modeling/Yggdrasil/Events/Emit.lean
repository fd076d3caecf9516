import Yggdrasil.Lib.Workers
import Yggdrasil.Lib.Check
import Yggdrasil.Events.Log

/-!
# The emission of events

An event is emitted inside a transaction of its caller. With an idempotency key, it is inserted
unless its type and key are taken. An insert waits for the transaction that has inserted the same
type and key; on a snapshot it fails when it finds a row that the snapshot does not have.
-/

namespace Yggdrasil.Events

open Text Check

/-! ## Requests -/

/-- An event as it is sent. -/
structure EmitEventRequest where
  type : String
  schemaVersion : String
  aggregateType : String
  aggregateID : String
  payload : Option Value
  idempotencyKey : String

/-- The closed set of the events that may have reactors. -/
def canonLifecycleEventTypes : List String :=
  ["collaborator.created", "collaborator.offboarded", "collaborator.session.terminated",
    "collaborator.absence_started", "collaborator.absence_ended", "collaborator.role_changed",
    "collaborator.re_onboarded", "team.created", "team.updated", "team.deleted",
    "team_membership.added", "team_membership.removed", "team_grant.added", "team_grant.revoked"]

/-- The type is one of them. -/
def isCanonLifecycleEvent (type : String) : Bool := canonLifecycleEventTypes.contains type

/-- A name in snake case. -/
def isSnakeCase (s : String) : Bool :=
  match s.toList with
  | [] => false
  | c :: cs => isLower c && cs.all fun c => isLower c || isDigit c || c = '_'

/-- A provider, a resource and a verb in the past. -/
def isIntegrationMutationEvent (type : String) : Bool :=
  match split type '.' with
  | [provider, resource, verb] =>
    isSnakeCase provider && isSnakeCase resource
      && ["ensured", "destroyed", "created"].contains verb
  | _ => false

/-- A reaction to an event. -/
structure Reaction where
  eventID : String
  integrationInstanceID : String
  capability : String
  deriving DecidableEq

/-- The reactions of an event to the reactors that are found for its type. -/
def materializeReactions (eventID type : String) (reactors : List (String × String)) :
    List Reaction :=
  if isCanonLifecycleEvent type || isIntegrationMutationEvent type then
    reactors.map fun (instanceID, capability) =>
      { eventID, integrationInstanceID := instanceID, capability }
  else []

/-! ## Transactions -/

/-- A row of the log; only its identity, type and key matter for emission. -/
structure Row where
  eventID : String
  type : String
  idempotencyKey : Option String
  deriving DecidableEq

/-- The row has a type and a key. -/
def Row.Has (type key : String) (row : Row) : Prop :=
  row.type = type ∧ row.idempotencyKey = some key

instance (type key : String) : DecidablePred (Row.Has type key) :=
  fun _ => inferInstanceAs (Decidable (_ ∧ _))

variable {key type : String} {row : Row}

/-- What a call that succeeds reports, with the reactors that its query found. -/
structure Report where
  type : String
  idempotencyKey : Option String
  eventID : String
  reactors : List (String × String)
  deduped : Bool
  deriving DecidableEq

/-- The committed rows and reactions, the rows in progress, and what committed calls reported. -/
structure Store (T : Type) where
  committed : List Row
  reactions : List Reaction
  uncommitted : List (T × Row)
  reported : List Report

/-- Where a call is. -/
inductive CallPhase
  | idle
  | inserted (row : Row)
  | conflicted (type key : String)

/-- How far a transaction has come. -/
inductive Status
  | unstarted
  | active
  | aborted
  | committed
  | rolledBack
  deriving DecidableEq

/-- A transaction: the snapshot it works on, unless each of its statements has its own. -/
structure Tx where
  status : Status
  snapshot : Option (List Row)
  phase : CallPhase
  reactions : List Reaction
  reports : List Report

/-- The statements of a transaction, with what the database answers. -/
inductive Statement
  | begin (onSnapshot : Bool)
  | insert (req : EmitEventRequest) (newEventID : String) (fails : Bool)
  | materialize (reactors : List (String × String)) (fails : Bool)
  | lookup (fails : Bool)
  | commit (fails : Bool)
  | rollback

variable {T : Type} [DecidableEq T]

variable (s : Store T)

/-- The rows that a transaction has inserted. -/
def Store.rowsOf (t : T) : List Row := ownedBy t s.uncommitted

/-- The rows that a transaction sees. -/
def Store.visible (t : T) (tx : Tx) : List Row :=
  tx.snapshot.getD s.committed ++ s.rowsOf t

/-- The transaction can only be rolled back. -/
def Tx.abort (tx : Tx) : Tx := { tx with status := .aborted, phase := .idle }

/-- The rows of a transaction leave the ones in progress. -/
def Store.discard (t : T) : Store T :=
  { s with uncommitted := notOwnedBy t s.uncommitted }

/-- The rows of the transactions in progress, and the committed ones. -/
def Store.rows : List Row := s.uncommitted.map Prod.snd ++ s.committed

/-- What a statement does: it fails, moves on, inserts, reports, or ends the transaction. -/
inductive Emits (t : T) (call : Statement) (s : Store T) (tx : Tx) : Store T → Tx → Prop
  | start (snapshot : Option (List Row)) (hstatus : tx.status = .unstarted)
      (hsnapshot : ∀ l, snapshot = some l → l = s.committed) :
      Emits t call s tx s { tx with status := .active, snapshot }
  | abort (hstatus : tx.status = .active) : Emits t call s tx s tx.abort
  | move (phase : CallPhase) (hstatus : tx.status = .active)
      (hbefore : ∀ row, tx.phase ≠ .inserted row) (hafter : ∀ row, phase ≠ .inserted row) :
      Emits t call s tx s { tx with phase }
  | insert (row : Row) (hstatus : tx.status = .active) (hphase : tx.phase = .idle)
      (hid : ∀ other ∈ s.rows, other.eventID ≠ row.eventID)
      (hkey : ∀ other ∈ s.rows, ∀ type key, row.Has type key → ¬ other.Has type key) :
      Emits t call s tx { s with uncommitted := (t, row) :: s.uncommitted }
        { tx with phase := .inserted row }
  | materialize (row : Row) (reactors : List (String × String)) (hstatus : tx.status = .active)
      (hphase : tx.phase = .inserted row) (hcall : call = .materialize reactors false)
      (hnodup : ((materializeReactions row.eventID row.type reactors).map
        (·.integrationInstanceID)).Nodup) :
      Emits t call s tx s { tx with
        phase := .idle
        reactions := materializeReactions row.eventID row.type reactors ++ tx.reactions
        reports :=
          { type := row.type, idempotencyKey := row.idempotencyKey, eventID := row.eventID,
            reactors, deduped := false } :: tx.reports }
  | lookup (row : Row) (type key : String) (hstatus : tx.status = .active)
      (hphase : tx.phase = .conflicted type key) (hrow : row ∈ s.visible t tx)
      (hhas : row.Has type key) :
      Emits t call s tx s { tx with
        phase := .idle
        reports :=
          { type, idempotencyKey := some key, eventID := row.eventID, reactors := [],
            deduped := true } :: tx.reports }
  | discard (tx' : Tx) (hstatus : tx'.status = .rolledBack) : Emits t call s tx (s.discard t) tx'
  | commit (hstatus : tx.status = .active) (hphase : tx.phase = .idle) :
      Emits t call s tx
        { s.discard t with
          committed := s.rowsOf t ++ s.committed
          reactions := tx.reactions ++ s.reactions
          reported := tx.reports ++ s.reported }
        { tx with status := .committed }

section

variable {validate : ValidateEventPayload} {t : T} {call : Statement} {s s' : Store T} {tx tx' : Tx}

end

/-! ## Accounts -/

/-- The report names the row. -/
def Report.Names (report : Report) (row : Row) : Prop :=
  row.eventID = report.eventID ∧ row.type = report.type
    ∧ row.idempotencyKey = report.idempotencyKey

/-- The events that the reported calls inserted. -/
def insertedIDs (reports : List Report) : List String :=
  (reports.filter (!·.deduped)).map (·.eventID)

/-- The reactions to the reactors that the call found, of which an instance has one. -/
structure Report.Materialized (answers : List (String × String) → Prop) (reactions : List Reaction)
    (r : Report) : Prop where
  found : answers r.reactors
  eq : reactions.filter (·.eventID = r.eventID) = materializeReactions r.eventID r.type r.reactors
  nodup : ((reactions.filter (·.eventID = r.eventID)).map (·.integrationInstanceID)).Nodup

/-- Each row was inserted by one call, with its reactions; a call that inserted nothing names a row,
    or another one. -/
structure Accounts (answers : List (String × String) → Prop) (reports : List Report)
    (reactions : List Reaction) (rows others : List Row) : Prop where
  inserted : insertedIDs reports = rows.map (·.eventID)
  named : ∀ r ∈ reports, ∃ row ∈ rows ++ others, r.Names row
  fresh : ∀ r ∈ reports, r.deduped = false → r.Materialized answers reactions
  owned : ∀ x ∈ reactions, x.eventID ∈ rows.map (·.eventID)

variable {answers : List (String × String) → Prop}

theorem Report.Materialized.congr {reactions reactions' : List Reaction} {r : Report}
    (h : r.Materialized answers reactions)
    (heq : reactions'.filter (·.eventID = r.eventID) = reactions.filter (·.eventID = r.eventID)) :
    r.Materialized answers reactions' :=
  ⟨h.found, heq.trans h.eq, heq ▸ h.nodup⟩

namespace Accounts

variable {reports reports' : List Report} {reactions reactions' : List Reaction}
  {rows rows' others others' : List Row} {r : Report} {id : String}

theorem nil : Accounts answers [] [] [] others := ⟨rfl, nofun, nofun, nofun⟩

section

variable (h : Accounts answers reports reactions rows others)

include h

theorem mem_of_fresh (hr : r ∈ reports) (hfresh : r.deduped = false) :
    r.eventID ∈ rows.map (·.eventID) := by
  rw [← h.inserted]
  exact List.mem_map_of_mem (List.mem_filter.2 ⟨hr, by rw [hfresh]; rfl⟩)

/-- An event that is not accounted for has no reactions. -/
theorem filter_eq_nil (hid : id ∉ rows.map (·.eventID)) :
    reactions.filter (·.eventID = id) = [] := by
  refine List.filter_eq_nil_iff.2 fun x hx heq => hid ?_
  rw [← of_decide_eq_true heq]
  exact h.owned x hx

theorem mono (hsub : others ⊆ others') : Accounts answers reports reactions rows others' where
  inserted := h.inserted
  named r hr := by
    obtain ⟨row, hrow, hnames⟩ := h.named r hr
    rcases List.mem_append.1 hrow with hrow | hrow
    · exact ⟨row, List.mem_append_left _ hrow, hnames⟩
    · exact ⟨row, List.mem_append_right _ (hsub hrow), hnames⟩
  fresh := h.fresh
  owned := h.owned

end

/-- A transaction's account is joined to that of the rows that it sees. -/
theorem append (h : Accounts answers reports reactions rows rows')
    (h' : Accounts answers reports' reactions' rows' [])
    (hdisjoint : List.Disjoint (rows.map (·.eventID)) (rows'.map (·.eventID))) :
    Accounts answers (reports ++ reports') (reactions ++ reactions') (rows ++ rows') [] where
  inserted := by
    rw [insertedIDs, List.filter_append, List.map_append, List.map_append]
    exact congrArg₂ (· ++ ·) h.inserted h'.inserted
  named r hr := by
    rw [List.append_nil]
    rcases List.mem_append.1 hr with hr | hr
    · exact h.named r hr
    · obtain ⟨row, hrow, hnames⟩ := h'.named r hr
      rw [List.append_nil] at hrow
      exact ⟨row, List.mem_append_right _ hrow, hnames⟩
  fresh r hr hfresh := by
    rcases List.mem_append.1 hr with hr | hr
    · refine (h.fresh r hr hfresh).congr ?_
      rw [List.filter_append, h'.filter_eq_nil (hdisjoint (h.mem_of_fresh hr hfresh)),
        List.append_nil]
    · have hid := h'.mem_of_fresh hr hfresh
      refine (h'.fresh r hr hfresh).congr ?_
      rw [List.filter_append, h.filter_eq_nil fun hmem => hdisjoint hmem hid, List.nil_append]
  owned x hx := by
    rw [List.map_append, List.mem_append]
    exact (List.mem_append.1 hx).imp (h.owned x) (h'.owned x)

end Accounts

/-! ## The invariant -/

/-- Two rows do not share a type and a key. -/
def Row.Apart (row other : Row) : Prop := ∀ type key, row.Has type key → ¬ other.Has type key

theorem Row.Apart.symm {other : Row} (h : row.Apart other) : other.Apart row :=
  fun type key hother hrow => h type key hrow hother

/-- The rows have their own identities, types and keys, and committed calls account for them. -/
structure Emitted (answers : List (String × String) → Prop) (s : Store T) : Prop where
  ids : (s.rows.map (·.eventID)).Nodup
  keys : s.rows.Pairwise Row.Apart
  accounts : Accounts answers s.reported s.reactions s.committed []

/-- The calls of a transaction account for its rows, except for one that is being reported. -/
def TxOk (answers : List (String × String) → Prop) (t : T) (s : Store T) (tx : Tx) : Prop :=
  match tx.status with
  | .unstarted => s.rowsOf t = [] ∧ tx.phase = .idle ∧ tx.reports = [] ∧ tx.reactions = []
  | .active =>
    (∀ l, tx.snapshot = some l → l ⊆ s.committed) ∧
      match tx.phase with
      | .inserted row =>
        ∃ rows, s.rowsOf t = row :: rows ∧
          Accounts answers tx.reports tx.reactions rows s.committed
      | _ => Accounts answers tx.reports tx.reactions (s.rowsOf t) s.committed
  | .committed => ∀ r ∈ tx.reports, r ∈ s.reported
  | _ => True

section

variable {t u : T} {call : Statement} {s s' : Store T} {tx tx' other : Tx}

/-- The rows of other transactions, committed rows and reports stay. -/
theorem Emits.frame (h : Emits t call s tx s' tx') :
    (∀ u, u ≠ t → s'.rowsOf u = s.rowsOf u) ∧ s.committed ⊆ s'.committed
      ∧ s.reported ⊆ s'.reported := by
  cases h with
  | insert => exact ⟨fun u hu => by simp [Store.rowsOf, ownedBy, hu.symm], fun _ => id, fun _ => id⟩
  | discard => exact ⟨fun u hu => ownedBy_notOwnedBy_of_ne hu, fun _ => id, fun _ => id⟩
  | commit =>
    exact ⟨fun u hu => ownedBy_notOwnedBy_of_ne hu, List.subset_append_right _ _,
      List.subset_append_right _ _⟩
  | _ => exact ⟨fun _ _ => rfl, fun _ => id, fun _ => id⟩

theorem Emits.others (h : Emits t call s tx s' tx') (hu : u ≠ t) (hother : TxOk answers u s other) :
    TxOk answers u s' other := by
  obtain ⟨hrows, hcommitted, hreported⟩ := h.frame
  simp only [TxOk, hrows u hu] at hother ⊢
  split at hother
  · exact hother
  · refine ⟨fun l hl row hrow => hcommitted (hother.1 l hl hrow), ?_⟩
    have haccounts := hother.2
    split at haccounts
    · obtain ⟨rows, heq, haccounts⟩ := haccounts
      exact ⟨rows, heq, haccounts.mono hcommitted⟩
    · exact haccounts.mono hcommitted
  · exact fun r hr => hreported (hother r hr)
  · trivial

/-- The account of a transaction whose call is not inserting. -/
theorem TxOk.accounts (h : TxOk answers t s tx) (hstatus : tx.status = .active)
    (hphase : ∀ row, tx.phase ≠ .inserted row) :
    Accounts answers tx.reports tx.reactions (s.rowsOf t) s.committed := by
  rw [TxOk, hstatus] at h
  have haccounts := h.2
  split at haccounts
  next row hrow => exact absurd hrow (hphase row)
  · exact haccounts

theorem perm_commit (s : Store T) (t : T) :
    ((notOwnedBy t s.uncommitted).map Prod.snd ++ (s.rowsOf t ++ s.committed)).Perm s.rows := by
  rw [← List.append_assoc]
  exact (perm_ownedBy t s.uncommitted).append_right _

/-- A statement keeps the rows apart, and what accounts for them. -/
theorem Emits.emitted (h : Emits t call s tx s' tx') (hs : Emitted answers s)
    (htx : TxOk answers t s tx) : Emitted answers s' := by
  cases h with
  | insert row hstatus hphase hid hkey =>
    refine ⟨List.nodup_cons.2 ⟨fun hmem => ?_, hs.ids⟩, List.pairwise_cons.2 ⟨?_, hs.keys⟩,
      hs.accounts⟩
    · obtain ⟨other, hother, heq⟩ := List.mem_map.1 hmem
      exact hid other hother heq
    · exact fun other hother => hkey other hother
  | discard =>
    have hsub : (s.discard t).rows.Sublist s.rows :=
      (List.filter_sublist.map _).append (List.Sublist.refl _)
    exact ⟨hs.ids.sublist (hsub.map _), hs.keys.sublist hsub, hs.accounts⟩
  | commit hstatus hphase =>
    have hperm := perm_commit s t
    have hids := (hperm.map (·.eventID)).nodup_iff.2 hs.ids
    have haccounts := htx.accounts hstatus (by simp [hphase])
    refine ⟨hids, (hperm.pairwise_iff Row.Apart.symm).2 hs.keys, haccounts.append hs.accounts ?_⟩
    rw [List.map_append, List.map_append] at hids
    exact List.disjoint_of_nodup_append (List.nodup_append.1 hids).2.1
  | _ => exact ⟨hs.ids, hs.keys, hs.accounts⟩

end

/-! ## Runs -/

section Runs

variable (validate : ValidateEventPayload) (calls : ℕ → T × Statement)

/-- What the queries for reactors find. -/
def Answers (reactors : List (String × String)) : Prop :=
  ∃ k, (calls k).2 = .materialize reactors false

variable {validate calls} {s : Store T}

omit [DecidableEq T] in
theorem Emitted.unique (h : Emitted answers s) (type key : String) :
    (s.committed.filter (·.Has type key)).length ≤ 1 := by
  have hpair : (s.committed.filter (·.Has type key)).Pairwise Row.Apart :=
    h.keys.sublist (List.filter_sublist.trans (List.sublist_append_right _ _))
  have hall : ∀ row ∈ s.committed.filter (·.Has type key), row.Has type key :=
    fun row hrow => of_decide_eq_true (List.mem_filter.1 hrow).2
  generalize s.committed.filter (·.Has type key) = l at hpair hall
  match l with
  | [] => exact Nat.zero_le _
  | [_] => exact le_rfl
  | row :: other :: _ =>
    have hapart := (List.pairwise_cons.1 hpair).1 other List.mem_cons_self
    exact absurd (hall other (List.mem_cons_of_mem _ List.mem_cons_self))
      (hapart type key (hall row List.mem_cons_self))

end Runs

section Sample

end Sample

end Yggdrasil.Events
