import Yggdrasil.Lib.Workers
import Yggdrasil.Schedule.Tick

/-!
# The workers of the scheduler

A worker reads when a workflow last fired, selects the tick that is due, asks whether it may fire,
and records the tick in a transaction whose commit is the fire. The row is written only when the
tick is later than the one it holds; other writers wait for it (`Shared.lock`).
-/

namespace Yggdrasil.Schedule

open Function Instant Text

/-! ## The state of a schedule -/

/-- A row of the schedule state. -/
structure ScheduleState where
  lastFiredAt : ℤ
  nextFireAt : ℤ

/-- The schedule trigger of a workflow. -/
structure ScheduleTrigger where
  cronExpression : String
  timezone : String
  startAt : String
  endAt : String
  catchupPolicy : String

/-- The parsers, letter case, overflows, selection steps, and what a column keeps. -/
structure Env (Location : Type) where
  parseCron : String → Option (Location → ℤ → ℤ)
  utc : Location
  loadLocation : String → Option Location
  parseTime : String → Option ℤ
  cm : CaseMap
  ovf : ℤ → ℤ
  fuel : ℕ
  column : ℤ → ℤ

variable {Location W M : Type} [DecidableEq M]

section Select

variable (env : Env Location)

variable (schedule : ScheduleTrigger)

/-- The location of a schedule; one that cannot be loaded is ignored. -/
def location : Location :=
  if trimSpace schedule.timezone = "" then env.utc
  else (env.loadLocation (trimSpace schedule.timezone)).getD env.utc

/-- When a workflow last fired: if never, when it starts, and otherwise an hour ago. -/
def baseline (state : Option ScheduleState) (now : ℤ) : ℤ :=
  let lastFired := (state.map (·.lastFiredAt)).getD 0
  if lastFired ≠ 0 then lastFired
  else
    let start := if schedule.startAt ≠ "" then (env.parseTime schedule.startAt).getD 0 else 0
    if start = 0 then now - 3600 * second else start

/-- The tick that a pass is to fire, if there is one. -/
def dueTick (state : Option ScheduleState) (now : ℤ) : Option Tick :=
  match env.parseCron schedule.cronExpression with
  | none => none
  | some cron =>
    match selectWorkflowScheduleTick env.cm env.ovf env.fuel (some cron)
        (some (location env schedule)) (baseline env schedule state now) now
        schedule.catchupPolicy with
    | some (.ok tick, _) =>
      -- a schedule that has ended does not fire
      let ended := schedule.endAt ≠ "" ∧ ∃ endAt ∈ env.parseTime schedule.endAt, endAt < now
      if tick.due ∧ ¬ ended then some tick else none
    | _ => none

end Select

/-! ## Passes -/

/-- The rows, the worker that has written each, and the ticks that were fired and dispatched. -/
structure Shared (W M : Type) where
  rows : M → Option ScheduleState
  lock : M → Option W
  fired : List (W × M × ℤ)
  dispatched : List (W × M × ℤ)

/-- Nobody may fire a tick, the owner of a protected schedule, or the scheduler itself. -/
inductive Admission
  | refused
  | owner
  | legacy (brokerLive : Bool)

/-- Where a worker is in its pass over a workflow. -/
inductive Phase (M : Type)
  | idle
  | selected (manifestID : M) (tick : Tick)
  | admitted (manifestID : M) (tick : Tick) (prepared : Bool)
  | won (manifestID : M) (tick : Tick) (prepared : Bool)
  | fired (manifestID : M) (tick : Tick)

/-- The acts of a pass, with what its environment answers. -/
inductive Act (M : Type)
  | read (manifestID : M) (schedule : ScheduleTrigger) (now : ℤ) (locked fails : Bool)
  | admission (answer : Admission)
  | upsert (fails : Bool)
  | commit (enqueueFails fails : Bool)
  | dispatch (brokerLive fails : Bool)
  | crash

section Pass

variable (env : Env Location)

/-- Whether the statement that records a tick writes the row. -/
def wins (state : Option ScheduleState) (tick : Tick) : Bool :=
  match state with
  | none => true
  | some row => row.lastFiredAt < env.column tick.fire

/-- The row that a tick leaves. -/
def recorded (tick : Tick) : ScheduleState :=
  { lastFiredAt := env.column tick.fire, nextFireAt := env.column tick.next }

/-- The transaction of a worker ends without effect. -/
def rollback (s : Shared W M) (phase : Phase M) : Shared W M :=
  match phase with
  | .won manifestID _ _ => { s with lock := update s.lock manifestID none }
  | _ => s

/-- One act of a pass over a workflow. -/
def processScheduledWorkflow (i : W) (call : Act M) (s : Shared W M) (phase : Phase M) :
    Option (Shared W M × Phase M) :=
  match call, phase with
  | .read manifestID schedule now locked fails, .idle =>
    if locked ∨ fails then some (s, .idle)
    else
      match dueTick env schedule (s.rows manifestID) now with
      | none => some (s, .idle)
      | some tick => some (s, .selected manifestID tick)
  | .admission answer, .selected manifestID tick =>
    match answer with
    | .refused => some (s, .idle)
    | .owner => some (s, .admitted manifestID tick true)
    | .legacy brokerLive => some (s, if brokerLive then .admitted manifestID tick false else .idle)
  | .upsert fails, .admitted manifestID tick prepared =>
    match s.lock manifestID with
    | some _ => none
    | none =>
      if fails then some (s, .idle)
      else if wins env (s.rows manifestID) tick then
        some ({ s with lock := update s.lock manifestID (some i) },
          .won manifestID tick prepared)
      else some (s, .idle)
  | .commit enqueueFails fails, .won manifestID tick prepared =>
    if (prepared ∧ enqueueFails) ∨ fails then some (rollback s phase, .idle)
    else
      some ({ s with
          rows := update s.rows manifestID (some (recorded env tick))
          lock := update s.lock manifestID none
          fired := (i, manifestID, tick.fire) :: s.fired },
        if prepared then .idle else .fired manifestID tick)
  | .dispatch brokerLive fails, .fired manifestID tick =>
    if ¬ brokerLive ∨ fails then some (s, .idle)
    else some ({ s with dispatched := (i, manifestID, tick.fire) :: s.dispatched }, .idle)
  | .crash, phase => some (rollback s phase, .idle)
  | _, _ => none

end Pass

/-! ## What an act does -/

/-- An act keeps the shared state, takes or gives back a lock, fires or dispatches a tick. -/
inductive Fires (env : Env Location) (i : W) (s : Shared W M) :
    Phase M → Shared W M → Phase M → Prop
  | keep (phase phase' : Phase M) (hbefore : ∀ m tick prepared, phase ≠ .won m tick prepared)
      (hafter : ∀ m tick prepared, phase' ≠ .won m tick prepared)
      (hfired : ∀ m tick, phase' ≠ .fired m tick) : Fires env i s phase s phase'
  | take (m : M) (tick : Tick) (prepared : Bool) (hlock : s.lock m = none)
      (hwins : wins env (s.rows m) tick = true) :
      Fires env i s (.admitted m tick prepared)
        { s with lock := update s.lock m (some i) } (.won m tick prepared)
  | release (m : M) (tick : Tick) (prepared : Bool) : Fires env i s (.won m tick prepared)
      { s with lock := update s.lock m none } .idle
  | fire (m : M) (tick : Tick) (prepared : Bool) (phase' : Phase M)
      (hphase : phase' = .idle ∨ phase' = .fired m tick) :
      Fires env i s (.won m tick prepared)
        { s with
          rows := update s.rows m (some (recorded env tick))
          lock := update s.lock m none
          fired := (i, m, tick.fire) :: s.fired } phase'
  | dispatch (m : M) (tick : Tick) : Fires env i s (.fired m tick)
      { s with dispatched := (i, m, tick.fire) :: s.dispatched } .idle

section Acts

variable {env : Env Location} {i : W} {call : Act M} {s s' : Shared W M} {phase phase' : Phase M}

theorem fires (h : processScheduledWorkflow env i call s phase = some (s', phase')) :
    Fires env i s phase s' phase' := by
  unfold processScheduledWorkflow at h
  split at h
  next manifestID schedule now locked fails =>
    split at h
    · cases h
      exact .keep _ _ nofun nofun nofun
    · split at h <;>
      · cases h
        exact .keep _ _ nofun nofun nofun
  next answer manifestID tick =>
    split at h
    · cases h
      exact .keep _ _ nofun nofun nofun
    · cases h
      exact .keep _ _ nofun nofun nofun
    next brokerLive =>
      cases h
      cases brokerLive <;> exact .keep _ _ nofun nofun nofun
  next fails manifestID tick prepared =>
    split at h
    · cases h
    next hlock =>
      split at h
      · cases h
        exact .keep _ _ nofun nofun nofun
      split at h
      next hwins =>
        cases h
        exact .take manifestID tick prepared hlock hwins
      · cases h
        exact .keep _ _ nofun nofun nofun
  next enqueueFails fails manifestID tick prepared =>
    split at h
    · cases h
      exact .release manifestID tick prepared
    · cases h
      refine .fire manifestID tick prepared _ ?_
      cases prepared
      · exact .inr rfl
      · exact .inl rfl
  next brokerLive fails manifestID tick =>
    split at h
    · cases h
      exact .keep _ _ nofun nofun nofun
    · cases h
      exact .dispatch manifestID tick
  next =>
    cases h
    cases phase with
    | won manifestID tick prepared => exact .release manifestID tick prepared
    | idle => exact .keep _ _ nofun nofun nofun
    | selected => exact .keep _ _ nofun nofun nofun
    | admitted => exact .keep _ _ nofun nofun nofun
    | fired => exact .keep _ _ nofun nofun nofun
  next => cases h

end Acts

/-! ## One act -/

section Knows

variable (env : Env Location)

/-- Each tick is fired and dispatched once, and the row has it or a later one. -/
structure FiredOnce (s : Shared W M) : Prop where
  fired : (s.fired.map Prod.snd).Nodup
  dispatched : (s.dispatched.map Prod.snd).Nodup
  kept : ∀ a ∈ s.fired, ∃ row, s.rows a.2.1 = some row ∧ env.column a.2.2 ≤ row.lastFiredAt
  sub : ∀ a ∈ s.dispatched, a ∈ s.fired

/-- A worker writes a row alone, and is about to dispatch what it has fired. -/
def Knows (i : W) (s : Shared W M) : Phase M → Prop
  | .won m tick _ => s.lock m = some i ∧ wins env (s.rows m) tick = true
  | .fired m tick => (i, m, tick.fire) ∈ s.fired ∧ (i, m, tick.fire) ∉ s.dispatched
  | _ => True

variable {env} {i j : W} {s s' : Shared W M} {phase phase' other : Phase M} {m : M} {tick : Tick}

omit [DecidableEq M] in
/-- A tick that wins was not fired. -/
theorem FiredOnce.notMem_of_wins (h : FiredOnce env s) (hwins : wins env (s.rows m) tick = true) :
    (m, tick.fire) ∉ s.fired.map Prod.snd := by
  intro hmem
  obtain ⟨⟨k, m, t⟩, hk, heq⟩ := List.mem_map.1 hmem
  cases heq
  obtain ⟨row, hrow, hle⟩ := h.kept _ hk
  rw [hrow] at hwins
  exact absurd (of_decide_eq_true hwins) (not_lt.2 hle)

theorem Fires.firedOnce (h : Fires env i s phase s' phase') (hs : FiredOnce env s)
    (hphase : Knows env i s phase) : FiredOnce env s' := by
  cases h with
  | keep => exact hs
  | take => exact ⟨hs.fired, hs.dispatched, hs.kept, hs.sub⟩
  | release => exact ⟨hs.fired, hs.dispatched, hs.kept, hs.sub⟩
  | fire m tick =>
    refine ⟨?_, hs.dispatched, ?_, fun a ha => List.mem_cons_of_mem _ (hs.sub a ha)⟩
    · exact List.nodup_cons.2 ⟨hs.notMem_of_wins hphase.2, hs.fired⟩
    · intro a ha
      by_cases hm : a.2.1 = m
      · refine ⟨recorded env tick, by rw [hm]; exact update_self .., ?_⟩
        rcases List.mem_cons.1 ha with rfl | ha
        · exact le_rfl
        · obtain ⟨row, hrow, hle⟩ := hs.kept a ha
          have hwins := hphase.2
          rw [← hm, hrow] at hwins
          exact hle.trans (of_decide_eq_true hwins).le
      · rcases List.mem_cons.1 ha with rfl | ha
        · exact absurd rfl hm
        · obtain ⟨row, hrow, hle⟩ := hs.kept a ha
          exact ⟨row, (update_of_ne hm ..).trans hrow, hle⟩
  | dispatch m tick =>
    refine ⟨hs.fired, List.nodup_cons.2 ⟨?_, hs.dispatched⟩, hs.kept, ?_⟩
    · intro hmem
      obtain ⟨a, ha, heq⟩ := List.mem_map.1 hmem
      -- the tick was dispatched by a worker that fired it, which is this one
      have hsame := List.inj_on_of_nodup_map hs.fired (hs.sub a ha) hphase.1 heq
      exact hphase.2 (hsame ▸ ha)
    · intro a ha
      rcases List.mem_cons.1 ha with rfl | ha
      · exact hphase.1
      · exact hs.sub a ha

/-- A worker knows after its act what its pass then says. -/
theorem Fires.knows (h : Fires env i s phase s' phase') (hs : FiredOnce env s)
    (hphase : Knows env i s phase) : Knows env i s' phase' := by
  cases h with
  | keep _ _ _ hafter hfired =>
    cases phase' with
    | won m tick prepared => exact absurd rfl (hafter m tick prepared)
    | fired m tick => exact absurd rfl (hfired m tick)
    | _ => trivial
  | take m tick prepared hlock hwins => exact ⟨update_self .., hwins⟩
  | release => trivial
  | fire m tick prepared _ hafter =>
    rcases hafter with rfl | rfl
    · trivial
    · refine ⟨List.mem_cons_self, fun hmem => hs.notMem_of_wins hphase.2 ?_⟩
      exact List.mem_map_of_mem (f := Prod.snd) (hs.sub _ hmem)
  | dispatch => trivial

/-- What a worker knows, the acts of the others keep. -/
theorem Fires.others (h : Fires env i s phase s' phase') (hphase : Knows env i s phase)
    (hij : j ≠ i) (hother : Knows env j s other) : Knows env j s' other := by
  -- two workers do not hold the lock of one row
  have hlocked {m m'} (hi : s.lock m = some i) (hj : s.lock m' = some j) : m' ≠ m := by
    rintro rfl
    exact hij (Option.some.inj (hj.symm.trans hi))
  cases other with
  | idle => trivial
  | selected => trivial
  | admitted => trivial
  | won m' tick' _ =>
    obtain ⟨hlock', hwins'⟩ := hother
    cases h with
    | keep => exact ⟨hlock', hwins'⟩
    | take m _ _ hlock =>
      have hne : m' ≠ m := by
        rintro rfl
        cases hlock.symm.trans hlock'
      exact ⟨(update_of_ne hne ..).trans hlock', hwins'⟩
    | release =>
      exact ⟨(update_of_ne (hlocked hphase.1 hlock') ..).trans hlock', hwins'⟩
    | fire m tick =>
      have hne := hlocked hphase.1 hlock'
      have hrow := update_of_ne hne (some (recorded env tick)) s.rows
      exact ⟨(update_of_ne hne ..).trans hlock', (congrArg (wins env · _) hrow).trans hwins'⟩
    | dispatch => exact ⟨hlock', hwins'⟩
  | fired m' tick' =>
    obtain ⟨hmem', hnot'⟩ := hother
    cases h with
    | keep => exact ⟨hmem', hnot'⟩
    | take => exact ⟨hmem', hnot'⟩
    | release => exact ⟨hmem', hnot'⟩
    | fire => exact ⟨List.mem_cons_of_mem _ hmem', hnot'⟩
    | dispatch =>
      refine ⟨hmem', fun hmem => ?_⟩
      rcases List.mem_cons.1 hmem with heq | hmem
      · exact hij (congrArg Prod.fst heq)
      · exact hnot' hmem

end Knows

/-! ## Runs -/

section Runs

variable [DecidableEq W] (env : Env Location) (calls : ℕ → W × Act M)

/-- Before the first pass: nothing was fired, and no worker has begun. -/
def initially (rows : M → Option ScheduleState) : World W (Shared W M) (Phase M) where
  shared := { rows, lock := fun _ => none, fired := [], dispatched := [] }
  own _ := .idle

/-- The worlds that a sequence of acts of the workers leads through. -/
def passes (rows : M → Option ScheduleState) : ℕ → World W (Shared W M) (Phase M) :=
  World.after (processScheduledWorkflow env) calls (initially rows)

/-- The ticks are fired once along every interleaving. -/
theorem sound_passes (rows : M → Option ScheduleState) (n : ℕ) :
    (passes env calls rows n).Sound (FiredOnce env) (Knows env) := by
  refine World.sound_after ?_ (fun n hn => hn.step fun s phase hact => ?_) n
  · exact ⟨⟨List.nodup_nil, List.nodup_nil, nofun, nofun⟩, fun _ => trivial⟩
  · have hfires := fires hact
    exact ⟨hfires.firedOnce hn.1 (hn.2 _), hfires.knows hn.1 (hn.2 _),
      fun j hj => hfires.others (hn.2 _) hj (hn.2 j)⟩

/-- The row of a workflow changes only when the step fires a tick of it, which is then later. -/
theorem rows_succ (rows : M → Option ScheduleState) (n : ℕ) :
    ((passes env calls rows (n + 1)).shared.rows = (passes env calls rows n).shared.rows
      ∧ (passes env calls rows (n + 1)).shared.fired = (passes env calls rows n).shared.fired)
    ∨ ∃ m tick, wins env ((passes env calls rows n).shared.rows m) tick = true
      ∧ (passes env calls rows (n + 1)).shared.rows
        = update (passes env calls rows n).shared.rows m (some (recorded env tick))
      ∧ (passes env calls rows (n + 1)).shared.fired
        = ((calls n).1, m, tick.fire) :: (passes env calls rows n).shared.fired := by
  have hknows := (sound_passes env calls rows n).2 (calls n).1
  rw [show passes env calls rows (n + 1)
    = World.step (processScheduledWorkflow env) (calls n) (passes env calls rows n) from rfl]
  generalize passes env calls rows n = w at hknows ⊢
  obtain heq | ⟨s, phase', hact, heq⟩ := World.step_cases (processScheduledWorkflow env) w (calls n)
  · rw [heq]
    exact .inl ⟨rfl, rfl⟩
  · rw [heq]
    have hfires := fires hact
    generalize w.own (calls n).1 = phase at hknows hfires
    cases hfires with
    | keep => exact .inl ⟨rfl, rfl⟩
    | take => exact .inl ⟨rfl, rfl⟩
    | release => exact .inl ⟨rfl, rfl⟩
    | fire m tick => exact .inr ⟨m, tick, hknows.2, rfl, rfl⟩
    | dispatch => exact .inl ⟨rfl, rfl⟩

/-- A step that fires a tick of a workflow. -/
def FiresAt (env : Env Location) (calls : ℕ → W × Act M) (rows : M → Option ScheduleState) (n : ℕ)
    (m : M) (t : ℤ) : Prop :=
  (passes env calls rows (n + 1)).shared.fired
    = ((calls n).1, m, t) :: (passes env calls rows n).shared.fired

/-- Along every interleaving each tick of a workflow is fired, and dispatched, at most once; its
    last fire never goes back, is the tick that was fired after a fire, and is unchanged by other
    steps. A workflow is one version of its manifest (`workflow_manifest_id`). -/
theorem fires_once (env : Env Location) (calls : ℕ → W × Act M)
    (rows : M → Option ScheduleState) (n : ℕ) :
    ((passes env calls rows n).shared.fired.map Prod.snd).Nodup
    ∧ ((passes env calls rows n).shared.dispatched.map Prod.snd).Nodup
    ∧ (∀ m row, (passes env calls rows n).shared.rows m = some row →
        ∃ row', (passes env calls rows (n + 1)).shared.rows m = some row'
          ∧ row.lastFiredAt ≤ row'.lastFiredAt)
    ∧ (∀ m t, FiresAt env calls rows n m t →
        (∃ row', (passes env calls rows (n + 1)).shared.rows m = some row'
          ∧ row'.lastFiredAt = env.column t)
        ∧ ∀ row, (passes env calls rows n).shared.rows m = some row →
          row.lastFiredAt < env.column t)
    ∧ ((∀ m t, ¬ FiresAt env calls rows n m t) →
        (passes env calls rows (n + 1)).shared.rows = (passes env calls rows n).shared.rows) := by
  have hsound := (sound_passes env calls rows n).1
  refine ⟨hsound.fired, hsound.dispatched, ?_⟩
  obtain ⟨hrows, hfired⟩ | ⟨m, tick, hwins, hrows, hfired⟩ :=
    rows_succ env calls rows n
  · have hnone (m t) : ¬ FiresAt env calls rows n m t := by
      intro hfires
      rw [FiresAt, hfired] at hfires
      exact List.cons_ne_self _ _ hfires.symm
    refine ⟨fun m row hrow => ⟨row, by rw [hrows, hrow], le_rfl⟩, ?_, fun _ => hrows⟩
    exact fun m t hfires => absurd hfires (hnone m t)
  · have hlater (row) (hrow : (passes env calls rows n).shared.rows m = some row) :
        row.lastFiredAt < env.column tick.fire := by
      rw [hrow] at hwins
      exact of_decide_eq_true hwins
    refine ⟨?_, ?_, fun hnone => absurd hfired (hnone m tick.fire)⟩
    · intro m' row hrow
      rw [hrows]
      by_cases hm : m' = m
      · subst hm
        exact ⟨_, update_self .., (hlater row hrow).le⟩
      · exact ⟨row, (update_of_ne hm ..).trans hrow, le_rfl⟩
    · intro m' t hfires
      rw [FiresAt, hfired] at hfires
      cases hfires
      rw [hrows]
      exact ⟨⟨_, update_self .., rfl⟩, hlater⟩

end Runs

section Sample

/-- A schedule that fires at every full hour. -/
def hourly : Env Unit where
  parseCron _ := some fun _ t => (t / (3600 * second) + 1) * (3600 * second)
  utc := ()
  loadLocation _ := none
  parseTime _ := none
  cm := ascii
  ovf := id
  fuel := 10
  column := id

/-- The acts that fire and dispatch a workflow, a second after the second hour. -/
def firing (manifestID : Bool) : List (Unit × Act Bool) :=
  [((), .read manifestID ⟨"@hourly", "", "", "", ""⟩ (7201 * second) false false),
    ((), .admission (.legacy true)), ((), .upsert false), ((), .commit false false),
    ((), .dispatch true false)]

/-- A new version of the manifest has no row yet, and fires the last tick of the old one again. -/
theorem fired_by_new_version :
    ((passes hourly (fun n => (firing true ++ firing false).getD n ((), .crash))
      (fun _ => none) 10).shared.dispatched) =
      [((), false, 7200 * second), ((), true, 7200 * second)] := by
  decide +kernel

end Sample

end Yggdrasil.Schedule
