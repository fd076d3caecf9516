import Yggdrasil.Triggers.Recorded

/-!
# A match is dispatched once

A pass looks for the record of a match, writes it, and dispatches a run. What excludes another pass
is the lock alone, whose session may be lost.
-/

namespace Yggdrasil.Triggers

open Events

/-- The lock of a pass is not lost, and the records of matches do not expire. -/
def Act.Exclusive : Act → Prop
  | .loseLock => False
  | .expire expired => ∀ e, e.type = matchedType → expired e = false
  | _ => True

variable {W : Type}

/-- A run is dispatched once, for a pair that is recorded. -/
structure DispatchedOnce (s : Shared W) : Prop where
  nodup : s.dispatched.Nodup
  recorded : ∀ pair ∈ s.dispatched, hasWorkflowEventMatched s.log pair = true

/-- What the pass of a worker says about the match that it is at. -/
def AtMatch (s : Shared W) : Pass → Prop
  | .unmatched _ current _ => current.pair ∉ s.dispatched
  | .recorded _ current _ =>
    hasWorkflowEventMatched s.log current.pair = true ∧ current.pair ∉ s.dispatched
  | _ => True

/-- A worker in its pass has the lock, and knows about its match. -/
def Leads (i : W) (s : Shared W) (pass : Pass) : Prop :=
  (pass ≠ .idle → s.lock = some i) ∧ AtMatch s pass

/-- Records that do not expire stay. -/
theorem hasWorkflowEventMatched_filter {log : List Event} {pair : Pair} {expired : Event → Bool}
    (hkeep : ∀ e, e.type = matchedType → expired e = false)
    (h : hasWorkflowEventMatched log pair = true) :
    hasWorkflowEventMatched (log.filter fun e => !expired e) pair = true := by
  rw [hasWorkflowEventMatched, List.any_eq_true] at h ⊢
  obtain ⟨e, he, hmatch⟩ := h
  have htype : e.type = matchedType := by
    simp only [Bool.and_eq_true, decide_eq_true_eq] at hmatch
    exact hmatch.1.1
  exact ⟨e, List.mem_filter.2 ⟨he, by rw [hkeep e htype]; rfl⟩, hmatch⟩

variable {i j : W} {call : Act} {s s' : Shared W} {pass pass' other : Pass}

/-- A worker that is not in its pass is not affected by the acts of others. -/
theorem leads_idle : Leads j s .idle := ⟨fun h => absurd rfl h, trivial⟩

/-- When the lock is free or another's, a worker is not in its pass. -/
theorem Leads.eq_idle (h : Leads j s other) (hlock : s.lock ≠ some j) : other = .idle := by
  by_contra hne
  exact hlock (h.1 hne)

/-- What a worker knows is kept with the lock, the dispatched pairs and the records. -/
theorem Leads.of_eq (h : Leads j s other) (hlock : s'.lock = s.lock)
    (hdispatched : s'.dispatched = s.dispatched)
    (hmatched : ∀ pair, hasWorkflowEventMatched s.log pair = true →
      hasWorkflowEventMatched s'.log pair = true) : Leads j s' other := by
  refine ⟨fun hne => hlock.trans (h.1 hne), ?_⟩
  have hat := h.2
  cases other with
  | unmatched => exact fun hmem => hat (hdispatched ▸ hmem)
  | recorded => exact ⟨hmatched _ hat.1, fun hmem => hat.2 (hdispatched ▸ hmem)⟩
  | _ => trivial

variable [DecidableEq W]

theorem Passes.matched (h : Passes i call s pass s' pass') (hcall : call.Exclusive) {pair : Pair}
    (hpair : hasWorkflowEventMatched s.log pair = true) :
    hasWorkflowEventMatched s'.log pair = true := by
  cases h with
  | record => exact hasWorkflowEventMatched_mono (List.subset_cons_self _ _) hpair
  | append => exact hasWorkflowEventMatched_mono (List.subset_cons_self _ _) hpair
  | expire _ expired heq =>
    subst heq
    exact hasWorkflowEventMatched_filter hcall hpair
  | _ => exact hpair

/-- An act dispatches a pair that was not dispatched, or none. -/
theorem Passes.dispatchedOnce (h : Passes i call s pass s' pass') (hcall : call.Exclusive)
    (hs : DispatchedOnce s) (hpass : Leads i s pass) : DispatchedOnce s' := by
  have hrecorded (pair) (hpair : pair ∈ s.dispatched) :
      hasWorkflowEventMatched s'.log pair = true := h.matched hcall (hs.recorded pair hpair)
  cases h with
  | dispatch batch current todo =>
    obtain ⟨-, hmatched, hnew⟩ := hpass
    refine ⟨List.nodup_cons.2 ⟨hnew, hs.nodup⟩, fun pair hpair => ?_⟩
    rcases List.mem_cons.1 hpair with rfl | hpair
    · exact hmatched
    · exact hrecorded pair hpair
  | _ => exact ⟨hs.nodup, hrecorded⟩

/-- The acts of a worker leave the others where they are. -/
theorem Passes.leads (h : Passes i call s pass s' pass') (hcall : call.Exclusive)
    (hpass : Leads i s pass) (hij : j ≠ i) (hother : Leads j s other) : Leads j s' other := by
  -- while a worker is in its pass, the others are not
  have hexcluded (hne : pass ≠ .idle) : other = .idle := by
    refine hother.eq_idle fun hlock => hij ?_
    exact Option.some.inj (hlock.symm.trans (hpass.1 hne))
  have hmatched (pair) (hpair : hasWorkflowEventMatched s.log pair = true) :
      hasWorkflowEventMatched s'.log pair = true := h.matched hcall hpair
  cases h with
  | acquire hlock =>
    rw [hother.eq_idle (by rw [hlock]; exact nofun)]
    exact leads_idle
  | dispatch =>
    rw [hexcluded nofun]
    exact leads_idle
  | unlock =>
    by_cases hlock : s.lock = some i
    · rw [hother.eq_idle fun hj => hij (Option.some.inj (hj.symm.trans hlock))]
      exact leads_idle
    · exact hother.of_eq (if_neg hlock) rfl fun _ => id
  | record => exact hother.of_eq rfl rfl hmatched
  | append => exact hother.of_eq rfl rfl hmatched
  | expire => exact hother.of_eq rfl rfl hmatched
  | _ => exact hother.of_eq rfl rfl fun _ => id

/-- An act keeps what its worker knows. -/
theorem Passes.leads_self (h : Passes i call s pass s' pass') (hcall : call.Exclusive)
    (hs : DispatchedOnce s) (hpass : Leads i s pass) : Leads i s' pass' := by
  have hmatched (pair) (hpair : hasWorkflowEventMatched s.log pair = true) :
      hasWorkflowEventMatched s'.log pair = true := h.matched hcall hpair
  cases h with
  | acquire => exact ⟨fun _ => rfl, trivial⟩
  | quiet _ _ hquiet hidle =>
    refine ⟨fun hne => hpass.1 (hidle hne), ?_⟩
    cases pass' with
    | unmatched | recorded => cases hquiet
    | _ => trivial
  | find _ hidle => exact ⟨fun _ => hpass.1 hidle, trivial⟩
  | refuse => exact ⟨fun _ => hpass.1 nofun, trivial⟩
  | admitted => exact ⟨fun _ => hpass.1 nofun, trivial⟩
  | known => exact ⟨fun _ => hpass.1 nofun, trivial⟩
  | unknown batch current todo h =>
    refine ⟨fun _ => hpass.1 nofun, fun hmem => ?_⟩
    exact Bool.false_ne_true (h.symm.trans (hs.recorded _ hmem))
  | record draft batch current todo _ hpass' =>
    have hlock := hpass.1 nofun
    rcases hpass' with rfl | rfl
    · exact ⟨fun _ => hlock, trivial⟩
    · exact ⟨fun _ => hlock, hasWorkflowEventMatched_matchedEvent draft current s.log, hpass.2⟩
  | drop _ _ _ hidle => exact ⟨fun _ => hpass.1 hidle, trivial⟩
  | undispatched => exact ⟨fun _ => hpass.1 nofun, trivial⟩
  | dispatch => exact ⟨fun _ => hpass.1 nofun, trivial⟩
  | save => exact ⟨fun _ => hpass.1 nofun, trivial⟩
  | unlock _ _ hpass' =>
    rcases hpass' with rfl | ⟨rfl, -⟩
    · exact leads_idle
    · exact hcall.elim
  | append => exact hpass.of_eq rfl rfl hmatched
  | expire => exact hpass.of_eq rfl rfl hmatched

/-- When no pass loses its lock and no record expires, at most one run is dispatched for a workflow
    and an event. -/
theorem dispatched_once (texts : Texts) (calls : ℕ → W × Act)
    (hcalls : ∀ n, (calls n).2.Exclusive) (n : ℕ) :
    (triggerPasses texts calls n).shared.dispatched.Nodup := by
  have hsound : (triggerPasses texts calls n).Sound DispatchedOnce Leads := by
    refine World.sound_after ?_ (fun n hn => hn.step fun s pass hact => ?_) n
    · exact ⟨⟨List.nodup_nil, nofun⟩, fun _ => leads_idle⟩
    · have hpasses := passes hact
      exact ⟨hpasses.dispatchedOnce (hcalls n) hn.1 (hn.2 _),
        hpasses.leads_self (hcalls n) hn.1 (hn.2 _),
        fun j hj => hpasses.leads (hcalls n) (hn.2 _) hj (hn.2 j)⟩
  exact hsound.1.nodup

section Sample

theorem onePass_dispatched_once :
    (∀ n, (onePass .done n).2.Exclusive)
    ∧ (triggerPasses plainTexts (onePass .done) 11).shared.dispatched = [("w", "e1")]
    ∧ (triggerPasses plainTexts (onePass .done) 11).shared.dispatched.Nodup := by
  have hexclusive (n) : (onePass .done n).2.Exclusive := by
    unfold onePass
    split <;> trivial
  exact ⟨hexclusive, by decide +kernel, dispatched_once plainTexts (onePass .done) hexclusive 11⟩

/-- A pass of a worker up to its look for the record. -/
def untilCheck (i : Bool) : List (Bool × Act) :=
  [(i, .acquire false), (i, .load (some [onCreated])), (i, .position false), (i, .pull false),
    (i, .gate .open_), (i, .check false)]

/-- The rest of the pass. -/
def fromEmit (i : Bool) : List (Bool × Act) :=
  [(i, .emit (manifestCreated "e2" 2) .done), (i, .dispatch true false)]

/-- The first worker loses its lock between its look for the record and the record. -/
def lockLost : List (Bool × Act) :=
  (true, .append (manifestCreated "e1" 1)) :: untilCheck true ++ [(true, .loseLock)]
    ++ untilCheck false ++ fromEmit false ++ fromEmit true

end Sample

/-- At most one run is dispatched for a workflow and an event. -/
def DispatchesOnce : Prop :=
  ∀ (texts : Texts) (calls : ℕ → Bool × Act) (n : ℕ),
    (triggerPasses texts calls n).shared.dispatched.Nodup

theorem not_dispatchesOnce : ¬ DispatchesOnce := by
  intro h
  have htwice : (triggerPasses plainTexts (fun n => lockLost.getD n (true, .release))
      18).shared.dispatched = [("w", "e1"), ("w", "e1")] := by
    decide +kernel
  have hnodup := h plainTexts (fun n => lockLost.getD n (true, .release)) 18
  rw [htwice] at hnodup
  exact absurd hnodup (by decide)

end Yggdrasil.Triggers
