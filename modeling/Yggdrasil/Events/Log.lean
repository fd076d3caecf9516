import Yggdrasil.Lib.Like
import Yggdrasil.Lib.Value

/-!
# The event log

Events are rows of a log, numbered by a sequence. A consumer pulls them in batches, each from the
cursor that the last batch returned.
-/

namespace Yggdrasil.Events

open Text Machine

/-- An event of the log. -/
structure Event where
  eventID : String
  sequence : ℕ
  type : String
  schemaVersion : String
  aggregateType : String
  aggregateID : String
  emittedAt : ℤ
  payload : Value

/-- A pattern with `*`, as the operand of `LIKE`. -/
def wildcardToLike (pattern : String) : String := replaceAll pattern "*" "%"

/-! ## Cursors -/

/-- The cursor after the event of a number. -/
def encodePullCursor (seq : ℕ) : String := "seq:" ++ .ofList (Nat.toDigits 10 seq)

/-- The sign at the beginning of a text, and what follows it. -/
def scanSign : List Char → ℤ × List Char
  | '-' :: cs => (-1, cs)
  | '+' :: cs => (1, cs)
  | cs => (1, cs)

/-- The integer at the beginning of a text, after blanks, when it fits. -/
def scanInt (cs : List Char) : Option ℤ :=
  let number := scanSign (cs.dropWhile fun c => isSpace c && c ≠ '\n')
  let digits := number.2.takeWhile Char.isDigit
  let n := number.1 * (Nat.ofDigitChars 10 digits 0 : ℤ)
  if digits ≠ [] ∧ Fits n then some n else none

/-- The cursor has another beginning. -/
def cursorStart : Fault := .errorf "cursor must start with %q" [.quoted "seq:"]

/-- The cursor has no number. -/
def cursorSequence : Fault := .errorf "parse cursor sequence: %w" []

/-- The number is negative. -/
def cursorNegative : Fault := .errorf "cursor sequence must be non-negative" []

/-- The number that a cursor stands for; the empty cursor is at the beginning. -/
def decodePullCursor (cursor : String) : Except Fault ℕ :=
  let cursor := trimSpace cursor
  if cursor = "" then .ok 0
  else if !hasPrefix cursor "seq:" then .error cursorStart
  else
    match scanInt (cursor.toList.drop 4) with
    | none => .error cursorSequence
    | some seq => if seq < 0 then .error cursorNegative else .ok seq.toNat

theorem trim_eq_self {l : List Char} (hhead : ∀ c ∈ l.head?, isSpace c = false)
    (hlast : ∀ c ∈ l.getLast?, isSpace c = false) : trim l = l := by
  have hdrop : l.dropWhile isSpace = l := by
    cases l with
    | nil => rfl
    | cons c l => exact List.dropWhile_cons_of_neg (by simp [hhead c rfl])
  rw [trim, hdrop, List.rdropWhile_eq_self_iff]
  intro hne
  rw [hlast _ (List.getLast?_eq_some_getLast hne)]
  exact Bool.false_ne_true

theorem isSpace_of_isDigit {c : Char} (h : c.isDigit = true) : isSpace c = false := by
  have hrange : 48 ≤ c.toNat ∧ c.toNat ≤ 57 := by
    simp only [Char.isDigit, ge_iff_le, Bool.and_eq_true, decide_eq_true_eq, UInt32.le_iff_toNat_le]
      at h
    exact h
  obtain ⟨n, hn⟩ : ∃ n, c.toNat = n := ⟨_, rfl⟩
  rw [isSpace, hn]
  rw [hn] at hrange
  obtain ⟨hlo, hhi⟩ := hrange
  interval_cases n <;> rfl

theorem scanInt_toDigits {n : ℕ} (hn : Fits n) : scanInt (Nat.toDigits 10 n) = some (n : ℤ) := by
  have hdigit : ∀ c ∈ Nat.toDigits 10 n, c.isDigit = true :=
    fun c hc => Nat.isDigit_of_mem_toDigits (by decide) (by decide) hc
  have hread : Nat.ofDigitChars 10 (Nat.toDigits 10 n) 0 = n := Nat.ofDigitChars_ten_toDigits
  have htake : (Nat.toDigits 10 n).takeWhile Char.isDigit = Nat.toDigits 10 n :=
    List.takeWhile_eq_self_iff.2 hdigit
  have hne : Nat.toDigits 10 n ≠ [] := Nat.toDigits_ne_nil
  obtain ⟨c, cs, hcons⟩ := List.exists_cons_of_ne_nil hne
  have hc : c.isDigit = true := hdigit c (by rw [hcons]; exact List.mem_cons_self)
  have hblank : ¬ (isSpace c && decide (c ≠ '\n')) = true := by
    rw [isSpace_of_isDigit hc]
    exact Bool.false_ne_true
  have hsign : scanSign (c :: cs) = (1, c :: cs) := by
    unfold scanSign
    split
    next heq =>
      obtain ⟨rfl, -⟩ := List.cons_eq_cons.1 heq
      cases hc
    next heq =>
      obtain ⟨rfl, -⟩ := List.cons_eq_cons.1 heq
      cases hc
    · rfl
  have hskip : (Nat.toDigits 10 n).dropWhile (fun c => isSpace c && decide (c ≠ '\n'))
      = c :: cs := by
    rw [hcons]
    exact List.dropWhile_cons_of_neg hblank
  rw [hcons] at hread htake hne
  rw [scanInt, hskip, hsign]
  dsimp only
  rw [htake, hread, one_mul, if_pos ⟨hne, hn⟩]

theorem decodePullCursor_encode {seq : ℕ} (hseq : Fits seq) :
    decodePullCursor (encodePullCursor seq) = .ok seq := by
  have hlist : (encodePullCursor seq).toList = "seq:".toList ++ Nat.toDigits 10 seq := by
    rw [encodePullCursor, String.toList_append, String.toList_ofList (l := Nat.toDigits 10 seq)]
  have htrim : trimSpace (encodePullCursor seq) = encodePullCursor seq := by
    rw [trimSpace_eq, trim_eq_self, String.ofList_toList]
    · rintro c hc
      rw [hlist] at hc
      cases hc
      rfl
    · intro c hc
      rw [hlist, List.getLast?_append_of_ne_nil _ Nat.toDigits_ne_nil] at hc
      exact isSpace_of_isDigit
        (Nat.isDigit_of_mem_toDigits (by decide) (by decide) (List.mem_of_getLast? hc))
  have hne : encodePullCursor seq ≠ "" := by
    intro heq
    rw [heq] at hlist
    cases hlist
  have hstart : hasPrefix (encodePullCursor seq) "seq:" = true := by
    rw [hasPrefix, hlist, List.isPrefixOf_iff_prefix]
    exact List.prefix_append _ _
  have hdrop : (encodePullCursor seq).toList.drop 4 = Nat.toDigits 10 seq := by
    rw [hlist]
    rfl
  simp only [decodePullCursor, htrim, if_neg hne, hstart, hdrop, scanInt_toDigits hseq,
    Bool.not_true, Bool.false_eq_true, if_false, if_neg (Int.not_lt.2 (Int.natCast_nonneg seq)),
    Int.toNat_natCast]

/-! ## Batches -/

/-- What a consumer asks for; a filter that is empty accepts every event. -/
structure PullEventsFilters where
  types : List String := []
  aggregateType : String := ""
  aggregateID : String := ""
  supportedSchemaVersions : List String := []
  emittedAfter : Option ℤ := none

/-- A request for the events after a cursor. -/
structure PullEventsRequest where
  cursor : String
  limit : ℤ
  filters : PullEventsFilters := {}

/-- A page of events. -/
structure PullEventsResponse where
  events : List Event
  nextCursor : String
  hasMore : Bool

/-- The limit of a page without one. -/
def defaultPullLimit : ℕ := 100

/-- The largest page. -/
def maxPullLimit : ℕ := 1000

/-- The number of events of a batch. -/
def pullLimit (limit : ℤ) : ℕ :=
  if limit ≤ 0 then defaultPullLimit
  else if (maxPullLimit : ℤ) < limit then maxPullLimit
  else limit.toNat

/-- The conditions of the query on an event. -/
def PullEventsFilters.accepts (filters : PullEventsFilters) (e : Event) : Bool :=
  let patterns := (filters.types.map trimSpace).filter (· ≠ "")
  (patterns.isEmpty || patterns.any fun pattern => like e.type (wildcardToLike pattern))
    && (filters.aggregateType = "" || e.aggregateType = filters.aggregateType)
    && (filters.aggregateID = "" || e.aggregateID = filters.aggregateID)
    && (filters.supportedSchemaVersions.isEmpty
      || filters.supportedSchemaVersions.contains e.schemaVersion)
    && filters.emittedAfter.all (· < e.emittedAt)

/-- The order of the log. -/
def Earlier (e e' : Event) : Prop := e.sequence ≤ e'.sequence

instance : DecidableRel Earlier := fun _ _ => inferInstanceAs (Decidable (_ ≤ _))

instance : Std.Total Earlier := ⟨fun e e' => Nat.le_total e.sequence e'.sequence⟩

instance : IsTrans Event Earlier := ⟨fun _ _ _ h h' => Nat.le_trans h h'⟩

/-- The rows after a number that the query returns, in the order of the log. -/
def buildPullQuery (rows : List Event) (cursorSeq : ℕ) (filters : PullEventsFilters) (limit : ℕ) :
    List Event :=
  ((rows.filter fun e => decide (cursorSeq < e.sequence) && filters.accepts e).insertionSort
    Earlier).take limit

/-- The error of a cursor. -/
def invalidCursor (cause : Fault) : Fault := .wrap "invalid cursor: %w" [] cause

/-- A batch of the rows that the query sees. -/
def pullEvents (rows : List Event) (req : PullEventsRequest) : Except Fault PullEventsResponse :=
  match decodePullCursor req.cursor with
  | .error e => .error (invalidCursor e)
  | .ok cursorSeq =>
    let limit := pullLimit req.limit
    let found := buildPullQuery rows cursorSeq req.filters (limit + 1)
    let events := found.take limit
    .ok {
      events
      nextCursor := encodePullCursor ((events.getLast?.map (·.sequence)).getD cursorSeq)
      hasMore := limit < found.length }

/-! ## What a batch has -/

/-- A batch is the events from a number to another, and not empty if there is one. -/
structure IsBatch (rows : List Event) (start stop : ℕ) (events : List Event) : Prop where
  mem_iff : ∀ e, e ∈ events ↔ e ∈ rows ∧ start < e.sequence ∧ e.sequence ≤ stop
  sorted : events.Pairwise fun e e' => e.sequence < e'.sequence
  le : start ≤ stop
  progress : ∀ e ∈ rows, start < e.sequence → start < stop
  stop_eq : stop = start ∨ ∃ e ∈ events, e.sequence = stop

variable {rows : List Event} {start : ℕ}

/-- The events after a number, in order. -/
def eventsAfter (rows : List Event) (start : ℕ) : List Event :=
  (rows.filter fun e => decide (start < e.sequence)).insertionSort Earlier

theorem mem_eventsAfter {e : Event} :
    e ∈ eventsAfter rows start ↔ e ∈ rows ∧ start < e.sequence := by
  rw [eventsAfter, List.mem_insertionSort, List.mem_filter, decide_eq_true_iff]

variable (start) in
theorem pairwise_eventsAfter (hrows : (rows.map (·.sequence)).Nodup) :
    (eventsAfter rows start).Pairwise fun e e' => e.sequence < e'.sequence := by
  have hperm := List.perm_insertionSort Earlier (rows.filter fun e => decide (start < e.sequence))
  have hnodup : ((eventsAfter rows start).map (·.sequence)).Nodup :=
    (hperm.map _).nodup_iff.2 (hrows.sublist (List.filter_sublist.map _))
  have hle := List.pairwise_insertionSort Earlier
    (rows.filter fun e => decide (start < e.sequence))
  exact (hle.and (List.pairwise_map.1 hnodup)).imp fun h => lt_of_le_of_ne h.1 h.2

variable (start) in
/-- The first events of the log after a number are a batch. -/
theorem isBatch_take (hrows : (rows.map (·.sequence)).Nodup) {limit : ℕ} (hlimit : 0 < limit) :
    IsBatch rows start
      ((((eventsAfter rows start).take limit).getLast?.map (·.sequence)).getD start)
      ((eventsAfter rows start).take limit) := by
  have hsorted := pairwise_eventsAfter start hrows
  obtain ⟨l, hl⟩ : ∃ l, eventsAfter rows start = l := ⟨_, rfl⟩
  rw [hl] at hsorted ⊢
  have hmem (e) : e ∈ l ↔ e ∈ rows ∧ start < e.sequence := hl ▸ mem_eventsAfter
  rcases List.eq_nil_or_concat' (l.take limit) with hnil | ⟨init, last, htake⟩
  · -- nothing is taken, so there is nothing after the number
    have hempty : l = [] := (List.take_eq_nil_iff.1 hnil).resolve_left hlimit.ne'
    rw [hempty] at hmem
    rw [hnil]
    refine ⟨fun e => ?_, List.Pairwise.nil, le_rfl, fun e he hlt => ?_, .inl rfl⟩
    · exact ⟨nofun, fun h => absurd h.2.2 (not_le.2 h.2.1)⟩
    · exact absurd ((hmem e).2 ⟨he, hlt⟩) List.not_mem_nil
  · have hlast : last ∈ l := by
      refine List.mem_of_mem_take (i := limit) ?_
      rw [htake]
      exact List.mem_concat_self
    have hstop : ((l.take limit).getLast?.map (·.sequence)).getD start = last.sequence := by
      rw [htake, List.getLast?_concat]
      rfl
    have hpair := hsorted
    rw [← List.take_append_drop limit l, List.pairwise_append] at hpair
    obtain ⟨htaken, -, hdropped⟩ := hpair
    have hmemLast : last ∈ l.take limit := by
      rw [htake]
      exact List.mem_concat_self
    have hupto (e) (he : e ∈ l.take limit) : e.sequence ≤ last.sequence := by
      rw [htake] at he htaken
      rcases List.mem_append.1 he with he | he
      · exact ((List.pairwise_append.1 htaken).2.2 e he last List.mem_cons_self).le
      · rw [List.mem_singleton.1 he]
    rw [hstop]
    refine ⟨fun e => ⟨fun he => ?_, fun ⟨he, hlt, hle⟩ => ?_⟩, htaken, ((hmem last).1 hlast).2.le,
      fun _ _ _ => ((hmem last).1 hlast).2, .inr ⟨last, hmemLast, rfl⟩⟩
    · obtain ⟨hrow, hlt⟩ := (hmem e).1 (List.mem_of_mem_take he)
      exact ⟨hrow, hlt, hupto e he⟩
    · have hel := (hmem e).2 ⟨he, hlt⟩
      rw [← List.take_append_drop limit l] at hel
      rcases List.mem_append.1 hel with hel | hel
      · exact hel
      · exact absurd (hdropped last hmemLast e hel) (not_lt.2 hle)

theorem pullLimit_pos (limit : ℤ) : 0 < pullLimit limit := by
  rw [pullLimit]
  split
  · decide
  split
  · decide
  · omega

/-- Without filters, a batch is the beginning of the log after the cursor. -/
theorem pullEvents_spec {cursor : String} (hrows : (rows.map (·.sequence)).Nodup)
    (hcursor : decodePullCursor cursor = .ok start) (limit : ℤ) :
    ∃ response stop, pullEvents rows { cursor, limit } = .ok response
      ∧ response.nextCursor = encodePullCursor stop ∧ IsBatch rows start stop response.events := by
  have hfound : buildPullQuery rows start {} (pullLimit limit + 1)
      = (eventsAfter rows start).take (pullLimit limit + 1) := by
    simp [buildPullQuery, eventsAfter, PullEventsFilters.accepts]
  have htake : ((eventsAfter rows start).take (pullLimit limit + 1)).take (pullLimit limit)
      = (eventsAfter rows start).take (pullLimit limit) := by
    rw [List.take_take, min_eq_left (Nat.le_succ _)]
  have hbatch := isBatch_take start hrows (pullLimit_pos limit)
  refine ⟨{
    events := (eventsAfter rows start).take (pullLimit limit)
    nextCursor := encodePullCursor ((((eventsAfter rows start).take (pullLimit limit)).getLast?.map
      (·.sequence)).getD start)
    hasMore := pullLimit limit < ((eventsAfter rows start).take (pullLimit limit + 1)).length },
    _, ?_, rfl, hbatch⟩
  simp only [pullEvents, hcursor, hfound, htake]

end Yggdrasil.Events
