import Yggdrasil.Lib.Go
import Yggdrasil.Lib.Value

/-!
# The tick of a schedule that is due

A schedule is known by its function `Next`, which gives the least occurrence after an instant. The
latest occurrence that was missed is found by bisection.
-/

namespace Yggdrasil.Schedule

open Machine Instant Text

/-! ## Seconds -/

/-- The seconds from the zero instant to the Unix epoch. -/
def unixToInternal : ℤ := 62135596800

/-- The Unix second that an instant lies in. -/
def toUnix (t : ℤ) : ℤ := t / second - unixToInternal

/-- The instant at which a Unix second starts. -/
def fromUnix (s : ℤ) : ℤ := (s + unixToInternal) * second

/-- `Time.Unix`, whose result is a 64-bit number. -/
def unix (ovf : ℤ → ℤ) (t : ℤ) : ℤ := result ovf (toUnix t)

/-- `time.Unix(s, 0)`, where the seconds from the zero instant are a 64-bit number. -/
def ofUnix (ovf : ℤ → ℤ) (s : ℤ) : ℤ := result ovf (s + unixToInternal) * second

/-- A Unix second that is a 64-bit number, counted from the epoch and from the zero instant. -/
def InRange (s : ℤ) : Prop := Fits s ∧ Fits (s + unixToInternal)

instance : DecidablePred InRange := fun _ => inferInstanceAs (Decidable (_ ∧ _))

/-- The unsigned difference of two signed numbers. -/
def distance (low high : ℤ) : ℤ := (high % 2 ^ 64 - low % 2 ^ 64) % 2 ^ 64

/-! ## The selection -/

/-- The error of a selection. -/
def selectionInvalid : Fault := .errorf "workflow schedule tick selection invalid" []

/-- What is selected: an occurrence, the one after it, and whether it is due. -/
structure Tick where
  fire : ℤ
  next : ℤ
  due : Bool

/-- The next occurrence, when it is one: it is not the zero instant and it is later. -/
def nextAfter (next : ℤ → ℤ) (after : ℤ) : Option ℤ :=
  if next after ≠ 0 ∧ after < next after then some (next after) else none

section

variable (ovf : ℤ → ℤ) (next : ℤ → ℤ) (now : ℤ)

/-- The loop of the bisection, with the number of probes. -/
def bisect : ℕ → ℤ → ℤ → ℤ → Option (Except Fault ℤ × ℕ)
  | 0, low, high, selected =>
    if 1 < distance low high then none else some (.ok selected, 0)
  | fuel + 1, low, high, selected =>
    if 1 < distance low high then
      let middle := result ovf (low + result ovf (distance low high / 2))
      match nextAfter next (ofUnix ovf middle) with
      | none => some (.error selectionInvalid, 1)
      | some candidate =>
        let rest := if now < candidate then bisect fuel low middle selected
          else bisect fuel middle high candidate
        rest.map fun (outcome, probes) => (outcome, probes + 1)
    else some (.ok selected, 0)

/-- The part of the selection that looks for the latest occurrence. -/
def selectLatest (fuel : ℕ) (first following : ℤ) : Option (Except Fault Tick × ℕ) :=
  let low := unix ovf first
  let high := unix ovf now
  if high ≤ low then some (.error selectionInvalid, 0)
  else (bisect ovf next now fuel low high following).map fun (outcome, probes) =>
    match outcome with
    | .error e => (.error e, probes)
    | .ok selected =>
      match nextAfter next selected with
      | none => (.error selectionInvalid, probes + 1)
      | some after =>
        if selected < first ∨ now < selected ∨ after ≤ now then
          (.error selectionInvalid, probes + 1)
        else (.ok { fire := selected, next := after, due := true }, probes + 1)

end

/-- The selection and the number of calls of `Next`, once the bisection has ended. -/
def selectWorkflowScheduleTick {Location : Type} (cm : CaseMap) (ovf : ℤ → ℤ) (fuel : ℕ)
    (schedule : Option (Location → ℤ → ℤ)) (loc : Option Location) (lastFired now : ℤ)
    (catchupPolicy : String) : Option (Except Fault Tick × ℕ) :=
  match schedule, loc with
  | some schedule, some loc =>
    let policy := toLower cm (trimSpace catchupPolicy)
    if lastFired = 0 ∨ now = 0 ∨ policy ∉ ["", "skip", "catch_up"] then
      some (.error selectionInvalid, 0)
    else
      match nextAfter (schedule loc) lastFired with
      | none => some (.error selectionInvalid, 1)
      | some first =>
        if now < first then some (.ok { fire := first, next := 0, due := false }, 1)
        else
          match nextAfter (schedule loc) first with
          | none => some (.error selectionInvalid, 2)
          | some following =>
            if policy = "catch_up" ∨ now < following then
              some (.ok { fire := first, next := following, due := true }, 2)
            else
              (selectLatest ovf (schedule loc) now fuel first following).map
                fun (outcome, probes) => (outcome, probes + 2)
  | _, _ => some (.error selectionInvalid, 0)

/-! ## Occurrences -/

/-- The occurrences are at whole seconds, and `next` gives the least after an instant. -/
structure IsSchedule (occurrences : Set ℤ) (next : ℤ → ℤ) : Prop where
  whole : ∀ o ∈ occurrences, second ∣ o
  least : ∀ t, IsLeast {o | o ∈ occurrences ∧ t < o} (next t)

/-- The occurrences that were missed. -/
def missed (occurrences : Set ℤ) (lastFired now : ℤ) : Set ℤ :=
  {o | o ∈ occurrences ∧ lastFired < o ∧ o ≤ now}

/-! ## Seconds and instants -/

section

variable {ovf : ℤ → ℤ} {low high s t : ℤ}

theorem InRange.of_le_of_le (hlow : InRange low) (hhigh : InRange high) (hls : low ≤ s)
    (hsh : s ≤ high) : InRange s :=
  ⟨hlow.1.of_le_of_le hhigh.1 hls hsh, hlow.2.of_le_of_le hhigh.2 (by omega) (by omega)⟩

theorem InRange.unix_eq (h : InRange (toUnix t)) : unix ovf t = toUnix t := result_of_fits h.1

theorem InRange.ofUnix_eq (h : InRange s) : ofUnix ovf s = fromUnix s := by
  rw [ofUnix, result_of_fits h.2, fromUnix]

/-- The unsigned difference is exact, also when the signed one is not a 64-bit number. -/
theorem distance_eq (hlow : Fits low) (hhigh : Fits high) (h : low ≤ high) :
    distance low high = high - low := by
  obtain ⟨hlow₀, hlow₁⟩ := hlow
  obtain ⟨hhigh₀, hhigh₁⟩ := hhigh
  rw [distance, ← Int.sub_emod]
  omega

theorem fromUnix_le_iff : fromUnix s ≤ t ↔ s ≤ toUnix t := by
  simp only [fromUnix, toUnix, second, unixToInternal]
  omega

theorem fromUnix_lt_fromUnix {s s' : ℤ} : fromUnix s < fromUnix s' ↔ s < s' := by
  simp only [fromUnix, second, unixToInternal]
  omega

/-- A whole second is where its Unix second starts. -/
theorem fromUnix_toUnix (h : second ∣ t) : fromUnix (toUnix t) = t := by
  obtain ⟨n, rfl⟩ := h
  simp only [fromUnix, toUnix, second, unixToInternal]
  omega

end

section

variable {occurrences : Set ℤ} {next : ℤ → ℤ} (ovf : ℤ → ℤ) {now t : ℤ}

namespace IsSchedule

variable (h : IsSchedule occurrences next)

include h

theorem mem (t : ℤ) : next t ∈ occurrences := (h.least t).1.1

theorem lt_next (t : ℤ) : t < next t := (h.least t).1.2

theorem next_le {o : ℤ} (ho : o ∈ occurrences) (hto : t < o) : next t ≤ o :=
  (h.least t).2 ⟨ho, hto⟩

theorem nextAfter_eq (hzero : 0 ∉ occurrences) (t : ℤ) : nextAfter next t = some (next t) := by
  have hne : next t ≠ 0 := fun heq => hzero (heq ▸ h.mem t)
  exact if_pos ⟨hne, h.lt_next t⟩

/-- The next occurrence after the start of a second is not before the second after it. -/
theorem fromUnix_succ_le (s : ℤ) : fromUnix (s + 1) ≤ next (fromUnix s) := by
  have hlt := h.lt_next (fromUnix s)
  rw [← fromUnix_toUnix (h.whole _ (h.mem _))] at hlt
  exact fromUnix_le_iff.2 (fromUnix_lt_fromUnix.1 hlt)

/-- From the second of now on, nothing is due. -/
theorem now_lt_next : now < next (fromUnix (toUnix now)) := by
  by_contra hdue
  have hsucc := (h.fromUnix_succ_le (toUnix now)).trans (not_lt.1 hdue)
  have := fromUnix_le_iff.1 hsucc
  omega

/-- An occurrence due from a second, but not from the one after it, is the last that is due. -/
theorem next_eq_of_last {s : ℤ} (hdue : next (fromUnix s) ≤ now)
    (hlast : now < next (fromUnix (s + 1))) : next (fromUnix s) = fromUnix (s + 1) := by
  apply le_antisymm
  · by_contra hlt
    exact absurd (h.next_le (h.mem _) (not_le.1 hlt)) (by omega)
  · exact h.fromUnix_succ_le s

/-! ## The bisection -/

/-- The bisection keeps a second that is due and one that is not, and halves their distance. -/
theorem bisect_spec (hzero : 0 ∉ occurrences) :
    ∀ (fuel bits : ℕ) (low high : ℤ), bits ≤ fuel → low < high → high - low ≤ 2 ^ bits →
      InRange low → InRange high → next (fromUnix low) ≤ now → now < next (fromUnix high) →
      ∃ (last : ℤ) (probes : ℕ),
        bisect ovf next now fuel low high (next (fromUnix low))
          = some (.ok (next (fromUnix last)), probes)
        ∧ probes ≤ bits ∧ low ≤ last ∧ next (fromUnix last) ≤ now
        ∧ now < next (fromUnix (last + 1)) := by
  intro fuel
  induction fuel with
  | zero =>
    intro bits low high hbits hlt hwidth hlow hhigh hdue hfuture
    obtain rfl : bits = 0 := by omega
    obtain rfl : high = low + 1 := by omega
    have hdistance := distance_eq hlow.1 hhigh.1 hlt.le
    exact ⟨low, 0, if_neg (by omega), le_rfl, le_rfl, hdue, hfuture⟩
  | succ fuel ih =>
    intro bits low high hbits hlt hwidth hlow hhigh hdue hfuture
    have hdistance := distance_eq hlow.1 hhigh.1 hlt.le
    rw [bisect, hdistance]
    by_cases hwide : 1 < high - low
    · rw [if_pos hwide]
      obtain ⟨bits, rfl⟩ : ∃ n, bits = n + 1 := by
        refine Nat.exists_eq_succ_of_ne_zero fun hbits => ?_
        subst hbits
        omega
      obtain ⟨half, hhalf⟩ : ∃ half, half = (high - low) / 2 := ⟨_, rfl⟩
      have hfits : Fits half := by
        obtain ⟨⟨_, _⟩, _⟩ := hlow
        obtain ⟨⟨_, _⟩, _⟩ := hhigh
        constructor <;> omega
      have hmiddle : InRange (low + half) := hlow.of_le_of_le hhigh (by omega) (by omega)
      have hpow : (2 : ℤ) ^ (bits + 1) = 2 * 2 ^ bits := by ring
      rw [← hhalf, result_of_fits hfits, result_of_fits hmiddle.1]
      dsimp only
      rw [hmiddle.ofUnix_eq, h.nextAfter_eq hzero]
      dsimp only
      split
      next hafter =>
        obtain ⟨last, probes, hrun, hprobes, hle, hlast⟩ :=
          ih bits low (low + half) (by omega) (by omega) (by omega) hlow hmiddle hdue hafter
        exact ⟨last, probes + 1, by rw [hrun]; rfl, by omega, hle, hlast⟩
      next hbefore =>
        obtain ⟨last, probes, hrun, hprobes, hle, hlast⟩ :=
          ih bits (low + half) high (by omega) (by omega) (by omega) hmiddle hhigh
            (not_lt.1 hbefore) hfuture
        exact ⟨last, probes + 1, by rw [hrun]; rfl, by omega, by omega, hlast⟩
    · obtain rfl : high = low + 1 := by omega
      exact ⟨low, 0, if_neg hwide, Nat.zero_le _, le_rfl, hdue, hfuture⟩

/-- The latest occurrence that is due is found, with the one after it. -/
theorem selectLatest_spec (hzero : 0 ∉ occurrences) {fuel : ℕ} (hfuel : 64 ≤ fuel) {first : ℤ}
    (hfirst : first ∈ occurrences) (hlow : InRange (toUnix first)) (hhigh : InRange (toUnix now))
    (hdue : next first ≤ now) :
    ∃ (fire : ℤ) (probes : ℕ),
      selectLatest ovf next now fuel first (next first)
        = some (.ok { fire := fire, next := next fire, due := true }, probes)
      ∧ probes ≤ 65 ∧ fire ∈ occurrences ∧ first ≤ fire ∧ fire ≤ now ∧ now < next fire := by
  have hstart := fromUnix_toUnix (h.whole first hfirst)
  have hlt : toUnix first < toUnix now := by
    have hsucc := h.fromUnix_succ_le (toUnix first)
    rw [hstart] at hsucc
    have := fromUnix_le_iff.1 (hsucc.trans hdue)
    omega
  have hwidth : toUnix now - toUnix first ≤ 2 ^ 64 := by
    obtain ⟨⟨hlow₀, _⟩, _⟩ := hlow
    obtain ⟨⟨_, hhigh₁⟩, _⟩ := hhigh
    omega
  obtain ⟨last, probes, hrun, hprobes, hle, hlast, hfuture⟩ :=
    h.bisect_spec ovf hzero fuel 64 _ _ hfuel hlt hwidth hlow hhigh (by rwa [hstart])
      h.now_lt_next
  have hfire := h.next_eq_of_last hlast hfuture
  have hafter : first ≤ fromUnix (last + 1) := by
    rw [← hstart]
    exact (fromUnix_lt_fromUnix.2 (by omega)).le
  rw [hfire] at hrun hlast
  rw [hstart] at hrun
  refine ⟨fromUnix (last + 1), probes + 1, ?_, by omega, hfire ▸ h.mem _, hafter, hlast, hfuture⟩
  have hvalid : ¬ (fromUnix (last + 1) < first ∨ now < fromUnix (last + 1)
      ∨ next (fromUnix (last + 1)) ≤ now) := by
    omega
  simp only [selectLatest, hlow.unix_eq, hhigh.unix_eq, if_neg (not_le.2 hlt), hrun,
    Option.map_some, h.nextAfter_eq hzero, if_neg hvalid]

end IsSchedule

end

/-! ## The selection is right -/

/-- When an occurrence was missed, the earliest to catch up, and otherwise the latest. -/
structure Selects (occurrences : Set ℤ) (next : ℤ → ℤ) (lastFired now : ℤ) (catchUp : Prop)
    (tick : Tick) : Prop where
  due_iff : tick.due = true ↔ ∃ o, o ∈ missed occurrences lastFired now
  next_eq : tick.due = true → tick.next = next tick.fire
  earliest : tick.due = true → catchUp → IsLeast (missed occurrences lastFired now) tick.fire
  latest : tick.due = true → ¬ catchUp → IsGreatest (missed occurrences lastFired now) tick.fire

namespace IsSchedule

variable {occurrences : Set ℤ} {next : ℤ → ℤ} {lastFired now : ℤ} {catchUp : Prop}

variable (h : IsSchedule occurrences next)

include h

/-- Nothing was missed when the next occurrence is in the future. -/
theorem selects_future (hfuture : now < next lastFired) :
    Selects occurrences next lastFired now catchUp
      { fire := next lastFired, next := 0, due := false } where
  due_iff := by
    refine ⟨fun hdue => (Bool.false_ne_true hdue).elim, ?_⟩
    rintro ⟨o, ho, hlast, hnow⟩
    have := h.next_le ho hlast
    omega
  next_eq hdue := (Bool.false_ne_true hdue).elim
  earliest hdue := (Bool.false_ne_true hdue).elim
  latest hdue := (Bool.false_ne_true hdue).elim

/-- The occurrence to fire is the earliest to catch up, or the latest otherwise. -/
theorem selects_due {fire : ℤ} (hmem : fire ∈ missed occurrences lastFired now)
    (hearliest : catchUp → fire = next lastFired) (hlatest : ¬ catchUp → now < next fire) :
    Selects occurrences next lastFired now catchUp
      { fire := fire, next := next fire, due := true } where
  due_iff := ⟨fun _ => ⟨fire, hmem⟩, fun _ => rfl⟩
  next_eq _ := rfl
  earliest _ hpolicy := by
    refine ⟨hmem, fun o ho => ?_⟩
    rw [hearliest hpolicy]
    exact h.next_le ho.1 ho.2.1
  latest _ hpolicy := by
    refine ⟨hmem, fun o ho => ?_⟩
    by_contra hlt
    have hnext : next fire ≤ o := h.next_le ho.1 (not_le.1 hlt)
    have hfuture := hlatest hpolicy
    have hnow := ho.2.2
    omega

end IsSchedule

/-- The schedule policies that the selection allows. -/
def Allowed (cm : CaseMap) (catchupPolicy : String) : Prop :=
  toLower cm (trimSpace catchupPolicy) ∈ ["", "skip", "catch_up"]

instance (cm : CaseMap) : DecidablePred (Allowed cm) := fun _ => inferInstanceAs (Decidable (_ ∈ _))

/-- The selection ends after at most 67 calls of `Next`, without an error, and is right. -/
theorem selectWorkflowScheduleTick_spec {Location : Type} {occurrences : Set ℤ}
    {schedule : Location → ℤ → ℤ} {loc : Location} (cm : CaseMap) (ovf : ℤ → ℤ)
    (h : IsSchedule occurrences (schedule loc)) (hzero : 0 ∉ occurrences) {fuel : ℕ}
    (hfuel : 64 ≤ fuel) {lastFired now : ℤ} (hlast : lastFired ≠ 0) (hnow : now ≠ 0)
    (hlow : InRange (toUnix lastFired)) (hhigh : InRange (toUnix now)) {catchupPolicy : String}
    (hpolicy : Allowed cm catchupPolicy) :
    ∃ (tick : Tick) (calls : ℕ),
      selectWorkflowScheduleTick cm ovf fuel (some schedule) (some loc) lastFired now catchupPolicy
        = some (.ok tick, calls)
      ∧ calls ≤ 67
      ∧ Selects occurrences (schedule loc) lastFired now
          (toLower cm (trimSpace catchupPolicy) = "catch_up") tick := by
  have hvalid : ¬ (lastFired = 0 ∨ now = 0
      ∨ toLower cm (trimSpace catchupPolicy) ∉ ["", "skip", "catch_up"]) := by
    rintro (h0 | h0 | h0)
    exacts [hlast h0, hnow h0, h0 hpolicy]
  simp only [selectWorkflowScheduleTick, if_neg hvalid, h.nextAfter_eq hzero]
  have hlt := h.lt_next lastFired
  have hmem := h.mem lastFired
  split
  next hfuture => exact ⟨_, 1, rfl, by omega, h.selects_future hfuture⟩
  next hdue =>
    split
    next hearly =>
      refine ⟨_, 2, rfl, by omega, h.selects_due ⟨hmem, hlt, not_lt.1 hdue⟩ (fun _ => rfl) ?_⟩
      exact fun hskip => hearly.resolve_left hskip
    next hlate =>
      obtain ⟨hskip, hfollowing⟩ := not_or.1 hlate
      have hfirst : InRange (toUnix (schedule loc lastFired)) := by
        refine hlow.of_le_of_le hhigh ?_ ?_
        · exact fromUnix_le_iff.1 ((fromUnix_le_iff.2 le_rfl).trans hlt.le)
        · exact fromUnix_le_iff.1 ((fromUnix_le_iff.2 le_rfl).trans (not_lt.1 hdue))
      obtain ⟨fire, probes, hrun, hprobes, hoccurs, hafter, hfire, hfuture⟩ :=
        h.selectLatest_spec ovf hzero hfuel hmem hfirst hhigh (not_lt.1 hfollowing)
      refine ⟨_, probes + 2, by rw [hrun]; rfl, by omega,
        h.selects_due ⟨hoccurs, by omega, hfire⟩ (fun hcatchUp => (hskip hcatchUp).elim) ?_⟩
      exact fun _ => hfuture

/-! ## A schedule of every second -/

section Sample

/-- The whole seconds after an instant. -/
def seconds (start : ℤ) : Set ℤ := {o | second ∣ o ∧ start < o}

/-- The first full second after both. -/
def nextSecond (start t : ℤ) : ℤ := (max start t / second + 1) * second

theorem isSchedule_seconds (start : ℤ) : IsSchedule (seconds start) (nextSecond start) where
  whole _ ho := ho.1
  least t := by
    constructor
    · refine ⟨⟨dvd_mul_left _ _, ?_⟩, ?_⟩
      · simp only [nextSecond, second]
        omega
      · simp only [nextSecond, second]
        omega
    · rintro o ⟨⟨⟨n, rfl⟩, hstart⟩, ht⟩
      simp only [nextSecond, second] at *
      omega

/-- Across the Unix epoch, with fractions of a second. -/
theorem seconds_selectWorkflowScheduleTick_spec :
    IsSchedule (seconds 0) (nextSecond 0) ∧ (0 : ℤ) ∉ seconds 0
    ∧ ∃ (tick : Tick) (calls : ℕ),
      selectWorkflowScheduleTick ascii wrap 64 (some fun _ : Unit => nextSecond 0) (some ())
        (fromUnix (-5) + 7) (fromUnix 100 + 3) " Skip " = some (.ok tick, calls)
      ∧ calls ≤ 67
      ∧ Selects (seconds 0) (nextSecond 0) (fromUnix (-5) + 7) (fromUnix 100 + 3)
          (toLower ascii (trimSpace " Skip ") = "catch_up") tick := by
  have hzero : (0 : ℤ) ∉ seconds 0 := fun h => lt_irrefl _ h.2
  refine ⟨isSchedule_seconds 0, hzero, ?_⟩
  exact selectWorkflowScheduleTick_spec ascii wrap (isSchedule_seconds 0) hzero le_rfl (by decide)
    (by decide) (by decide) (by decide) (by decide)

end Sample

/-- The selection is right for every schedule, also one with the zero instant. -/
def TickSelected : Prop :=
  ∀ (cm : CaseMap) (ovf : ℤ → ℤ) (occurrences : Set ℤ) (next : ℤ → ℤ) (fuel : ℕ)
    (lastFired now : ℤ) (catchupPolicy : String), IsSchedule occurrences next → 64 ≤ fuel →
    lastFired ≠ 0 → now ≠ 0 → InRange (toUnix lastFired) → InRange (toUnix now) →
    Allowed cm catchupPolicy →
    ∃ (tick : Tick) (calls : ℕ),
      selectWorkflowScheduleTick cm ovf fuel (some fun _ : Unit => next) (some ()) lastFired now
        catchupPolicy = some (.ok tick, calls)
      ∧ calls ≤ 67
      ∧ Selects occurrences next lastFired now
          (toLower cm (trimSpace catchupPolicy) = "catch_up") tick

/-- After a last fire just before the zero instant, the next occurrence is taken for none. -/
theorem not_tickSelected : ¬ TickSelected := by
  intro h
  obtain ⟨tick, calls, hselect, -⟩ := h ascii wrap (seconds (-second)) (nextSecond (-second)) 64
    (-1) second "" (isSchedule_seconds _) le_rfl (by decide) (by decide) (by decide) (by decide)
    (by decide)
  have herror : selectWorkflowScheduleTick ascii wrap 64
      (some fun _ : Unit => nextSecond (-second)) (some ()) (-1) second ""
      = some (.error selectionInvalid, 1) := rfl
  cases herror.symm.trans hselect

end Yggdrasil.Schedule
