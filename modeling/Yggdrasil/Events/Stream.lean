import Yggdrasil.Events.Log
import Yggdrasil.Lib.Workers

/-!
# The stream of events

Transactions take the numbers of events when they insert them, and commit them in any order. A batch
that ends past a number that is not committed yet moves the cursor past its event, and no later
batch has it.
-/

namespace Yggdrasil.Events

open Machine

/-- The log, with the events of transactions in progress, and the consumer. -/
structure Stream (T : Type) where
  next : ℕ
  pending : List (T × Event)
  committed : List Event
  cursor : String
  delivered : List Event

/-- What happens to the log; `skip` takes a number without a row, and a pull may fail. -/
inductive Call (T : Type)
  | insert (tx : T) (draft : Event)
  | skip
  | commit (tx : T)
  | rollback (tx : T)
  | expire (expired : Event → Bool)
  | pull (limit : ℤ) (fails : Bool)

variable {T : Type} {s : Stream T} {call : Call T} {e : Event} {n : ℕ}

/-- The consumer's next batch. -/
def Stream.pull (s : Stream T) (limit : ℤ) : Stream T :=
  match pullEvents s.committed { cursor := s.cursor, limit } with
  | .error _ => s
  | .ok response =>
    { s with cursor := response.nextCursor, delivered := s.delivered ++ response.events }

/-- What a call does to the stream. -/
def step [DecidableEq T] (call : Call T) (s : Stream T) : Stream T :=
  match call with
  | .insert tx draft =>
    -- the sequence ends with the largest number of the column
    if Fits s.next then
      { s with next := s.next + 1, pending := (tx, { draft with sequence := s.next }) :: s.pending }
    else s
  | .skip => if Fits s.next then { s with next := s.next + 1 } else s
  | .commit tx =>
    { s with
      pending := notOwnedBy tx s.pending
      committed := ownedBy tx s.pending ++ s.committed }
  | .rollback tx => { s with pending := notOwnedBy tx s.pending }
  | .expire expired => { s with committed := s.committed.filter fun e => !expired e }
  | .pull limit fails => if fails then s else s.pull limit

theorem step_pull [DecidableEq T] (limit : ℤ) (s : Stream T) :
    step (.pull limit false) s = s.pull limit := by
  simp only [step, Bool.false_eq_true, if_false]

/-- What is delivered stays delivered. -/
theorem mem_delivered_step [DecidableEq T] (he : e ∈ s.delivered) :
    e ∈ (step call s).delivered := by
  cases call with
  | insert tx draft =>
    rw [step]
    split <;> exact he
  | skip =>
    rw [step]
    split <;> exact he
  | commit tx => exact he
  | rollback tx => exact he
  | expire expired => exact he
  | pull limit fails =>
    cases fails with
    | true => exact he
    | false =>
      rw [step_pull, Stream.pull]
      split
      · exact he
      · exact List.mem_append_left _ he

/-- The empty log, and a consumer at its beginning. -/
def emptyStream : Stream T :=
  { next := 1, pending := [], committed := [], cursor := "", delivered := [] }

/-- The states that a sequence of calls leads through. -/
def stream [DecidableEq T] (calls : ℕ → Call T) : ℕ → Stream T := unfold step calls emptyStream

/-- A batch that the consumer gets. -/
def Call.Pulls (call : Call T) : Prop := ∃ limit, call = .pull limit false

/-- No transaction in progress has an event before a committed one. -/
def Settled (s : Stream T) : Prop :=
  ∀ p ∈ s.pending, ∀ e ∈ s.committed, e.sequence < p.2.sequence

/-! ## The numbers of the log -/

/-- The numbers are different, and were taken from the sequence. -/
structure Numbered (s : Stream T) : Prop where
  nodup : ((s.pending.map Prod.snd ++ s.committed).map (·.sequence)).Nodup
  lt_next : ∀ e ∈ s.pending.map Prod.snd ++ s.committed, e.sequence < s.next
  fits : (s.next : ℤ) ≤ 2 ^ 63

/-- The numbers stay different when events are moved or leave. -/
theorem Numbered.of_subperm {s' : Stream T} (h : Numbered s)
    (hsub : (s'.pending.map Prod.snd ++ s'.committed).Subperm
      (s.pending.map Prod.snd ++ s.committed)) (hnext : s'.next = s.next) : Numbered s' where
  nodup := by
    obtain ⟨l, hperm, hl⟩ := hsub
    exact (hperm.symm.map _).nodup_iff.2 (h.nodup.sublist (hl.map _))
  lt_next e he := hnext ▸ h.lt_next e (hsub.subset he)
  fits := hnext ▸ h.fits

theorem Numbered.committed (h : Numbered s) : (s.committed.map (·.sequence)).Nodup :=
  h.nodup.sublist ((List.sublist_append_right _ _).map _)

theorem pull_eq (s : Stream T) (limit : ℤ) :
    (s.pull limit).next = s.next ∧ (s.pull limit).pending = s.pending
      ∧ (s.pull limit).committed = s.committed := by
  rw [Stream.pull]
  split <;> exact ⟨rfl, rfl, rfl⟩

/-- Every step keeps the numbers different. -/
theorem Numbered.step [DecidableEq T] (h : Numbered s) (call : Call T) :
    Numbered (step call s) := by
  cases call with
  | insert tx draft =>
    rw [Events.step]
    split
    next hfits =>
      have hfresh (e) (he : e ∈ s.pending.map Prod.snd ++ s.committed) : e.sequence ≠ s.next :=
        (h.lt_next e he).ne
      refine ⟨List.nodup_cons.2 ⟨?_, h.nodup⟩, fun e he => ?_, hfits.2⟩
      · intro hmem
        obtain ⟨e, he, heq⟩ := List.mem_map.1 hmem
        exact hfresh e he heq
      · rcases List.mem_cons.1 he with rfl | he
        · exact Nat.lt_succ_self _
        · exact (h.lt_next e he).trans (Nat.lt_succ_self _)
    · exact h
  | skip =>
    rw [Events.step]
    split
    next hfits =>
      exact ⟨h.nodup, fun e he => (h.lt_next e he).trans (Nat.lt_succ_self _), hfits.2⟩
    · exact h
  | commit tx =>
    have hperm := (perm_ownedBy tx s.pending).append_right s.committed
    rw [List.append_assoc] at hperm
    exact h.of_subperm hperm.subperm rfl
  | rollback tx =>
    refine h.of_subperm (List.Sublist.subperm ?_) rfl
    exact (List.filter_sublist.map _).append (List.Sublist.refl _)
  | expire expired =>
    refine h.of_subperm (List.Sublist.subperm ?_) rfl
    exact (List.Sublist.refl _).append List.filter_sublist
  | pull limit fails =>
    rw [Events.step]
    split
    · exact h
    · obtain ⟨hnext, hpending, hcommitted⟩ := pull_eq s limit
      refine h.of_subperm ?_ hnext
      rw [hpending, hcommitted]

/-! ## The position of the consumer -/

/-- The consumer has what is committed up to a number, and nothing there is to come. -/
structure ReadTo (s : Stream T) (position : ℕ) : Prop where
  cursor : decodePullCursor s.cursor = .ok position
  lt_next : position < s.next
  pending : ∀ p ∈ s.pending, position < p.2.sequence
  seen : ∀ e ∈ s.committed, e.sequence ≤ position → e ∈ s.delivered
  le : ∀ e ∈ s.delivered, e.sequence ≤ position
  sorted : s.delivered.Pairwise fun e e' => e.sequence < e'.sequence

variable {position : ℕ}

/-- What a batch does to the consumer: the cursor moves to its end. -/
theorem pull_spec (hcursor : decodePullCursor s.cursor = .ok position) (hlt : position < s.next)
    (hn : Numbered s) (limit : ℤ) :
    ∃ stop events, (s.pull limit).delivered = s.delivered ++ events
      ∧ IsBatch s.committed position stop events
      ∧ decodePullCursor (s.pull limit).cursor = .ok stop ∧ stop < s.next := by
  obtain ⟨response, stop, hpull, hnext, hbatch⟩ := pullEvents_spec hn.committed hcursor limit
  have hstop : stop < s.next := by
    rcases hbatch.stop_eq with rfl | ⟨e, he, rfl⟩
    · exact hlt
    · exact hn.lt_next e (List.mem_append_right _ ((hbatch.mem_iff e).1 he).1)
  refine ⟨stop, response.events, ?_, hbatch, ?_, hstop⟩
  · simp only [Stream.pull, hpull]
  · simp only [Stream.pull, hpull, hnext]
    have hfits := hn.fits
    exact decodePullCursor_encode ⟨by omega, by omega⟩

/-- A batch of a settled log leaves nothing behind, and moves the consumer if it can. -/
theorem ReadTo.pull (h : ReadTo s position) (hn : Numbered s) (hsettled : Settled s) (limit : ℤ) :
    ∃ stop, position ≤ stop ∧ ReadTo (s.pull limit) stop
      ∧ ∀ e ∈ s.committed, position < e.sequence → position < stop := by
  obtain ⟨stop, events, hdelivered, hbatch, hdecode, hstop⟩ := pull_spec h.cursor h.lt_next hn limit
  obtain ⟨hnext, hpending, hcommitted⟩ := pull_eq s limit
  rw [← hnext] at hstop
  refine ⟨stop, hbatch.le, ⟨hdecode, hstop, ?_, ?_, ?_, ?_⟩, hbatch.progress⟩
  · rw [hpending]
    intro p hp
    rcases hbatch.stop_eq with rfl | ⟨e, he, rfl⟩
    · exact h.pending p hp
    · exact hsettled p hp e ((hbatch.mem_iff e).1 he).1
  · rw [hcommitted, hdelivered]
    intro e he hle
    by_cases hold : e.sequence ≤ position
    · exact List.mem_append_left _ (h.seen e he hold)
    · exact List.mem_append_right _ ((hbatch.mem_iff e).2 ⟨he, not_le.1 hold, hle⟩)
  · rw [hdelivered]
    intro e he
    rcases List.mem_append.1 he with he | he
    · exact (h.le e he).trans hbatch.le
    · exact ((hbatch.mem_iff e).1 he).2.2
  · rw [hdelivered, List.pairwise_append]
    exact ⟨h.sorted, hbatch.sorted, fun e he e' he' =>
      (h.le e he).trans_lt ((hbatch.mem_iff e').1 he').2.1⟩

/-- A step other than a batch does not move the consumer. -/
theorem ReadTo.step_of_not_pulls [DecidableEq T] (h : ReadTo s position) (hcall : ¬ call.Pulls) :
    ReadTo (step call s) position := by
  cases call with
  | insert tx draft =>
    rw [Events.step]
    split
    · refine ⟨h.cursor, h.lt_next.trans (Nat.lt_succ_self _), fun p hp => ?_, h.seen, h.le,
        h.sorted⟩
      rcases List.mem_cons.1 hp with rfl | hp
      · exact h.lt_next
      · exact h.pending p hp
    · exact h
  | skip =>
    rw [Events.step]
    split
    · exact ⟨h.cursor, h.lt_next.trans (Nat.lt_succ_self _), h.pending, h.seen, h.le, h.sorted⟩
    · exact h
  | commit tx =>
    refine ⟨h.cursor, h.lt_next, fun p hp => h.pending p (List.mem_filter.1 hp).1, ?_, h.le,
      h.sorted⟩
    intro e he hle
    rcases List.mem_append.1 he with he | he
    · exact absurd hle (not_le.2 (h.pending (tx, e) (by simpa [ownedBy] using he)))
    · exact h.seen e he hle
  | rollback tx =>
    exact ⟨h.cursor, h.lt_next, fun p hp => h.pending p (List.mem_filter.1 hp).1, h.seen, h.le,
      h.sorted⟩
  | expire expired =>
    exact ⟨h.cursor, h.lt_next, h.pending, fun e he => h.seen e (List.mem_filter.1 he).1, h.le,
      h.sorted⟩
  | pull limit fails =>
    cases fails with
    | true => exact h
    | false => exact absurd ⟨limit, rfl⟩ hcall

/-! ## Runs -/

section Runs

variable [DecidableEq T] {calls : ℕ → Call T}

theorem stream_succ (n : ℕ) : stream calls (n + 1) = step (calls n) (stream calls n) := rfl

theorem numbered_stream (n : ℕ) : Numbered (stream calls n) := by
  induction n with
  | zero => exact ⟨List.nodup_nil, nofun, (by decide : ((1 : ℕ) : ℤ) ≤ 2 ^ 63)⟩
  | succ n ih => exact ih.step (calls n)

/-- The consumer reads on from where it is, and gets further with each batch if it can. -/
theorem ReadTo.succ {position : ℕ} (h : ReadTo (stream calls n) position)
    (hsettled : (calls n).Pulls → Settled (stream calls n)) :
    ∃ position', position ≤ position' ∧ ReadTo (stream calls (n + 1)) position'
      ∧ ((calls n).Pulls → ∀ e ∈ (stream calls n).committed, position < e.sequence →
        position < position') := by
  by_cases hpulls : (calls n).Pulls
  · obtain ⟨limit, hlimit⟩ := hpulls
    obtain ⟨stop, hle, hread, hprogress⟩ :=
      h.pull (numbered_stream n) (hsettled ⟨limit, hlimit⟩) limit
    have hstep : stream calls (n + 1) = (stream calls n).pull limit := by
      rw [stream_succ, hlimit, step_pull]
    exact ⟨stop, hle, hstep ▸ hread, fun _ => hprogress⟩
  · exact ⟨position, le_rfl, h.step_of_not_pulls hpulls, fun h => absurd h hpulls⟩

section

variable (hsettled : ∀ n, (calls n).Pulls → Settled (stream calls n))

include hsettled

theorem exists_readTo (n : ℕ) : ∃ position, ReadTo (stream calls n) position := by
  induction n with
  | zero => exact ⟨0, rfl, Nat.one_pos, nofun, nofun, nofun, List.Pairwise.nil⟩
  | succ n ih =>
    obtain ⟨position, h⟩ := ih
    obtain ⟨position', -, h', -⟩ := h.succ (hsettled n)
    exact ⟨position', h'⟩

theorem ReadTo.later {m position : ℕ} (h : ReadTo (stream calls n) position) (hnm : n ≤ m) :
    ∃ position', position ≤ position' ∧ ReadTo (stream calls m) position' := by
  induction m, hnm using Nat.le_induction with
  | base => exact ⟨position, le_rfl, h⟩
  | succ m _ ih =>
    obtain ⟨position₁, hle₁, h₁⟩ := ih
    obtain ⟨position₂, hle₂, h₂, -⟩ := h₁.succ (hsettled m)
    exact ⟨position₂, hle₁.trans hle₂, h₂⟩

/-- While an event stays, a consumer that keeps pulling gets to every position up to it. -/
theorem exists_readTo_ge (hpulls : ∀ n, ∃ m ≥ n, (calls m).Pulls)
    (he : ∀ m ≥ n, e ∈ (stream calls m).committed) (k : ℕ) :
    ∃ m ≥ n, ∃ position, ReadTo (stream calls m) position ∧ min k e.sequence ≤ position := by
  induction k with
  | zero =>
    obtain ⟨position, h⟩ := exists_readTo hsettled n
    exact ⟨n, le_rfl, position, h, by omega⟩
  | succ k ih =>
    obtain ⟨m, hm, position, h, hle⟩ := ih
    obtain ⟨m', hm', hcall⟩ := hpulls m
    obtain ⟨position₁, hle₁, h₁⟩ := h.later hsettled hm'
    obtain ⟨position₂, hle₂, h₂, hprogress⟩ := h₁.succ (hsettled m')
    refine ⟨m' + 1, (hm.le.trans hm').trans (Nat.le_succ _), position₂, h₂, ?_⟩
    by_cases hread : e.sequence ≤ position₁
    · omega
    · have := hprogress hcall e (he m' (hm.le.trans hm')) (not_le.1 hread)
      omega

/-- What is delivered was committed. -/
theorem exists_committed_of_delivered (he : e ∈ (stream calls n).delivered) :
    ∃ m ≤ n, e ∈ (stream calls m).committed := by
  induction n with
  | zero => exact absurd he List.not_mem_nil
  | succ n ih =>
    by_cases hold : e ∈ (stream calls n).delivered
    · obtain ⟨m, hm, hcommitted⟩ := ih hold
      exact ⟨m, hm.trans (Nat.le_succ n), hcommitted⟩
    obtain ⟨position, h⟩ := exists_readTo hsettled n
    refine ⟨n, Nat.le_succ n, ?_⟩
    change e ∈ (step (calls n) (stream calls n)).delivered at he
    cases hcall : calls n with
    | pull limit fails =>
      rw [hcall] at he
      cases fails with
      | true => exact absurd he hold
      | false =>
        obtain ⟨stop, events, hdelivered, hbatch, -⟩ :=
          pull_spec h.cursor h.lt_next (numbered_stream n) limit
        rw [step_pull, hdelivered] at he
        exact ((hbatch.mem_iff e).1 ((List.mem_append.1 he).resolve_left hold)).1
    | insert tx draft =>
      rw [hcall, step] at he
      split at he <;> exact absurd he hold
    | skip =>
      rw [hcall, step] at he
      split at he <;> exact absurd he hold
    | commit tx =>
      rw [hcall] at he
      exact absurd he hold
    | rollback tx =>
      rw [hcall] at he
      exact absurd he hold
    | expire expired =>
      rw [hcall] at he
      exact absurd he hold

end

/-- When no batch is taken while an event before a committed one is in progress, the consumer gets
    what was committed, in order and once, and in the end every event that stays. -/
theorem delivered_of_settled (calls : ℕ → Call T)
    (hsettled : ∀ n, (calls n).Pulls → Settled (stream calls n)) :
    (∀ n, (stream calls n).delivered.Pairwise fun e e' => e.sequence < e'.sequence)
    ∧ (∀ n, ∀ e ∈ (stream calls n).delivered, ∃ m ≤ n, e ∈ (stream calls m).committed)
    ∧ ((∀ n, ∃ m ≥ n, (calls m).Pulls) →
      ∀ n e, (∀ m ≥ n, e ∈ (stream calls m).committed) → ∃ m, e ∈ (stream calls m).delivered) := by
  refine ⟨fun n => ?_, fun n e => exists_committed_of_delivered hsettled, ?_⟩
  · obtain ⟨position, h⟩ := exists_readTo hsettled n
    exact h.sorted
  · intro hpulls n e he
    obtain ⟨m, hm, position, h, hle⟩ := exists_readTo_ge hsettled hpulls he e.sequence
    rw [min_self] at hle
    exact ⟨m, h.seen e (he m hm) hle⟩

/-- Whenever batches are taken, the consumer gets what it gets in order and once. -/
theorem delivered_increasing (calls : ℕ → Call T) (n : ℕ) :
    ∃ position, decodePullCursor (stream calls n).cursor = .ok position ∧
      position < (stream calls n).next ∧
      (∀ e ∈ (stream calls n).delivered, e.sequence ≤ position) ∧
      (stream calls n).delivered.Pairwise fun e e' => e.sequence < e'.sequence := by
  induction n with
  | zero => exact ⟨0, rfl, Nat.one_pos, nofun, .nil⟩
  | succ n ih =>
    obtain ⟨position, hcursor, hlt, hle, hsorted⟩ := ih
    rw [stream_succ]
    cases calls n with
    | pull limit fails =>
      cases fails with
      | true => exact ⟨position, hcursor, hlt, hle, hsorted⟩
      | false =>
        obtain ⟨stop, events, hdelivered, hbatch, hdecode, hstop⟩ :=
          pull_spec hcursor hlt (numbered_stream n) limit
        rw [step_pull, hdelivered, (pull_eq _ limit).1, List.pairwise_append]
        refine ⟨stop, hdecode, hstop, fun e he => ?_, hsorted, hbatch.sorted, fun e he e' he' =>
          (hle e he).trans_lt ((hbatch.mem_iff e').1 he').2.1⟩
        rcases List.mem_append.1 he with he | he
        · exact (hle e he).trans hbatch.le
        · exact ((hbatch.mem_iff e).1 he).2.2
    | insert | skip =>
      rw [step]
      split
      · exact ⟨position, hcursor, hlt.trans (Nat.lt_succ_self _), hle, hsorted⟩
      · exact ⟨position, hcursor, hlt, hle, hsorted⟩
    | commit | rollback | expire => exact ⟨position, hcursor, hlt, hle, hsorted⟩

end Runs

/-! ## Two transactions and a consumer -/

section Sample

/-- An event. -/
def created : Event :=
  { eventID := "", sequence := 0, type := "manifest.created", schemaVersion := "v1",
    aggregateType := "manifest", aggregateID := "m", emittedAt := 0, payload := .nil }

/-- A list of calls, and batches from then on. -/
def thenPull (calls : List (Call Bool)) (n : ℕ) : Call Bool := calls.getD n (.pull 10 false)

/-- One transaction after the other. -/
def inTurn : ℕ → Call Bool :=
  thenPull [.insert true created, .commit true, .insert false created, .commit false]

theorem pending_inTurn (n : ℕ) : (stream inTurn (n + 4)).pending = [] := by
  induction n with
  | zero => rfl
  | succ n ih =>
    have hcall : inTurn (n + 4) = .pull 10 false := rfl
    rw [stream_succ, hcall, step_pull, (pull_eq _ _).2.1, ih]

theorem inTurn_delivered_of_settled :
    (∀ n, (inTurn n).Pulls → Settled (stream inTurn n))
    ∧ (∀ n, (stream inTurn n).delivered.Pairwise fun e e' => e.sequence < e'.sequence)
    ∧ (∀ n, ∀ e ∈ (stream inTurn n).delivered, ∃ m ≤ n, e ∈ (stream inTurn m).committed)
    ∧ ((∀ n, ∃ m ≥ n, (inTurn m).Pulls) →
      ∀ n e, (∀ m ≥ n, e ∈ (stream inTurn m).committed) →
        ∃ m, e ∈ (stream inTurn m).delivered) := by
  have hsettled : ∀ n, (inTurn n).Pulls → Settled (stream inTurn n) := by
    rintro n ⟨limit, hlimit⟩
    match n with
    | 0 => cases hlimit
    | 1 => cases hlimit
    | 2 => cases hlimit
    | 3 => cases hlimit
    | n + 4 =>
      intro p hp
      rw [pending_inTurn] at hp
      cases hp
  exact ⟨hsettled, delivered_of_settled inTurn hsettled⟩

end Sample

/-- The consumer that keeps pulling gets every event that stays. -/
def StreamComplete : Prop :=
  ∀ calls : ℕ → Call Bool, (∀ n, ∃ m ≥ n, (calls m).Pulls) →
    ∀ n e, (∀ m ≥ n, e ∈ (stream calls m).committed) → ∃ m, e ∈ (stream calls m).delivered

section Sample

/-- The transaction that inserts first commits last, after a batch. -/
def overtaken : ℕ → Call Bool :=
  thenPull [.insert true created, .insert false created, .commit false, .pull 10 false,
    .commit true]

/-- The event that is committed last. -/
def first : Event := { created with sequence := 1 }

/-- The consumer is past the event that is committed last, and stays there. -/
theorem stream_overtaken (n : ℕ) :
    decodePullCursor (stream overtaken (n + 5)).cursor = .ok 2
    ∧ (stream overtaken (n + 5)).next = 3
    ∧ (stream overtaken (n + 5)).committed = [first, { created with sequence := 2 }]
    ∧ (stream overtaken (n + 5)).delivered = [{ created with sequence := 2 }] := by
  induction n with
  | zero => exact ⟨by decide +kernel, rfl, rfl, rfl⟩
  | succ n ih =>
    obtain ⟨hcursor, hnext, hcommitted, hdelivered⟩ := ih
    have hcall : overtaken (n + 5) = .pull 10 false := rfl
    have hsucc : stream overtaken (n + 1 + 5) = (stream overtaken (n + 5)).pull 10 := by
      rw [show n + 1 + 5 = n + 5 + 1 by omega, stream_succ, hcall, step_pull]
    obtain ⟨stop, events, hmore, hbatch, hdecode, -⟩ :=
      pull_spec hcursor (by rw [hnext]; decide) (numbered_stream _) 10
    have hnone : events = [] := by
      refine List.eq_nil_iff_forall_not_mem.2 fun e he => ?_
      obtain ⟨hrow, hlt, -⟩ := (hbatch.mem_iff e).1 he
      rw [hcommitted] at hrow
      fin_cases hrow <;> exact absurd hlt (by decide)
    have hstop : stop = 2 := by
      refine hbatch.stop_eq.resolve_right fun ⟨e, he, _⟩ => ?_
      rw [hnone] at he
      cases he
    obtain ⟨hnext', -, hcommitted'⟩ := pull_eq (stream overtaken (n + 5)) 10
    rw [hsucc, hdecode, hstop, hnext', hnext, hcommitted', hcommitted, hmore, hdelivered, hnone]
    exact ⟨rfl, rfl, rfl, rfl⟩

end Sample

/-- The event of the transaction that was overtaken stays, and is never delivered. -/
theorem not_streamComplete : ¬ StreamComplete := by
  intro h
  have hpulls (n) : ∃ m ≥ n, (overtaken m).Pulls := ⟨n + 5, Nat.le_add_right _ _, 10, rfl⟩
  have hstays (m) (hm : m ≥ 5) : first ∈ (stream overtaken m).committed := by
    obtain ⟨n, rfl⟩ := Nat.exists_eq_add_of_le' hm
    rw [(stream_overtaken n).2.2.1]
    exact List.mem_cons_self
  obtain ⟨m, hm⟩ := h overtaken hpulls 5 first hstays
  have hmem : first ∈ (stream overtaken (m + 5)).delivered :=
    (isRun_unfold step overtaken emptyStream).stable (P := fun s => first ∈ s.delivered)
      (fun s call s' he hstep => hstep ▸ mem_delivered_step he) hm (Nat.le_add_right m 5)
  rw [(stream_overtaken m).2.2.2, List.mem_singleton] at hmem
  exact absurd (congrArg Event.sequence hmem) (by decide)

end Yggdrasil.Events
