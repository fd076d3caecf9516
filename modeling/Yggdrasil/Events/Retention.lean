import Yggdrasil.Events.Log

/-!
# The retention of events

A retention policy says for how many days events of a type are kept. The clean-up goes through the
policies one by one, and deletes what matches and is older, whatever the others say.
-/

namespace Yggdrasil.Events

open Text Instant

/-- How long events of some types are kept. -/
structure RetentionPolicy where
  typePattern : String
  ttlDays : ℕ
  deriving DecidableEq

/-- Which statements fail, when each runs, and the instant some days before another. -/
structure CleanupEnv where
  loadFails : Bool
  fails : ℕ → Bool
  now : ℕ → ℤ
  ago : ℤ → ℕ → ℤ
  ago_strictAnti : ∀ t, StrictAnti (ago t)

/-- The outcome of a clean-up: what is left, what was deleted and when, and an error. -/
structure Cleanup where
  log : List Event
  deleted : List (Event × ℤ)
  error : Option Fault

variable (env : CleanupEnv)

/-- What the statement of a policy deletes. -/
def RetentionPolicy.expires (now : ℤ) (policy : RetentionPolicy) (e : Event) : Bool :=
  like e.type (wildcardToLike policy.typePattern) && e.emittedAt < env.ago now policy.ttlDays

/-- The error of a deletion. -/
def deleteFault (pattern : String) : Fault :=
  .errorf "delete events for pattern %q: %w" [.quoted pattern]

/-- The error of reading the policies. -/
def loadFault : Fault := .errorf "load retention policies: %w" []

/-- The statements of the policies, from the `i`th on. -/
def deletePolicies (env : CleanupEnv) : ℕ → List RetentionPolicy → List Event → Cleanup
  | _, [], log => { log, deleted := [], error := none }
  | i, policy :: policies, log =>
    if env.fails i then { log, deleted := [], error := some (deleteFault policy.typePattern) }
    else
      let rest := deletePolicies env (i + 1) policies
        (log.filter fun e => !policy.expires env (env.now i) e)
      { rest with
        deleted := (log.filter (policy.expires env (env.now i))).map (·, env.now i)
          ++ rest.deleted }

/-- The clean-up of the log, by the policies in the order in which they are read. -/
def cleanupExpiredEvents (policies : List RetentionPolicy) (log : List Event) : Cleanup :=
  if env.loadFails then { log, deleted := [], error := some loadFault }
  else deletePolicies env 0 (policies.filter (0 < ·.ttlDays)) log

/-! ## The most specific policy -/

variable (policies : List RetentionPolicy)

/-- A policy that matches a type with the longest literal text. -/
def MostSpecific (type : String) (p : RetentionPolicy) : Prop :=
  p ∈ policies ∧ starMatch p.typePattern type = true ∧
    ∀ q ∈ policies, starMatch q.typePattern type = true →
      Wild.literalLength q.typePattern ≤ Wild.literalLength p.typePattern

instance (policies : List RetentionPolicy) (type : String) (p : RetentionPolicy) :
    Decidable (MostSpecific policies type p) :=
  inferInstanceAs (Decidable (_ ∧ _ ∧ ∀ q ∈ policies, _ → _))

/-- The most specific policy of an event keeps it: it has no end, or not come to it. -/
def Protected (policies : List RetentionPolicy) (now : ℤ) (e : Event) : Prop :=
  ∃ p, MostSpecific policies e.type p ∧ (p.ttlDays = 0 ∨ env.ago now p.ttlDays ≤ e.emittedAt)

/-- The clean-up deletes nothing that is protected at that time. -/
def KeepsProtected : Prop :=
  ∀ (env : CleanupEnv) (log : List Event) (e : Event) (t : ℤ),
    (e, t) ∈ (cleanupExpiredEvents env policies log).deleted → ¬ Protected env policies t e

/-- No policy whose statement covers a type is shorter than the most specific one for it. -/
def Ordered : Prop :=
  ∀ (type : String) (p q : RetentionPolicy), MostSpecific policies type p → q ∈ policies →
    0 < q.ttlDays → like type (wildcardToLike q.typePattern) = true →
    0 < p.ttlDays ∧ p.ttlDays ≤ q.ttlDays

/-! ## What is deleted -/

variable {env : CleanupEnv} {policies : List RetentionPolicy} {log : List Event} {e : Event} {t : ℤ}

/-- What is deleted has expired for some policy. -/
theorem expires_of_mem_deleted {i : ℕ} (h : (e, t) ∈ (deletePolicies env i policies log).deleted) :
    ∃ q ∈ policies, q.expires env t e = true := by
  induction policies generalizing i log with
  | nil => cases h
  | cons policy policies ih =>
    rw [deletePolicies] at h
    split at h
    · cases h
    · rcases List.mem_append.1 h with h | h
      · obtain ⟨e', he', heq⟩ := List.mem_map.1 h
        cases heq
        exact ⟨policy, List.mem_cons_self, (List.mem_filter.1 he').2⟩
      · obtain ⟨q, hq, hexpires⟩ := ih h
        exact ⟨q, List.mem_cons_of_mem _ hq, hexpires⟩

/-- When no statement fails and all run at one time, what has expired is deleted. -/
theorem mem_deleted_of_expires {i : ℕ} (hfails : ∀ i, env.fails i = false)
    (hnow : ∀ i, env.now i = t) (he : e ∈ log) {q : RetentionPolicy} (hq : q ∈ policies)
    (hexpires : q.expires env t e = true) :
    (e, t) ∈ (deletePolicies env i policies log).deleted := by
  induction policies generalizing i log with
  | nil => cases hq
  | cons policy policies ih =>
    rw [deletePolicies, if_neg (by rw [hfails i]; exact Bool.false_ne_true), hnow]
    refine List.mem_append.2 ?_
    by_cases hfirst : policy.expires env t e = true
    · exact .inl (List.mem_map.2 ⟨e, List.mem_filter.2 ⟨he, hfirst⟩, rfl⟩)
    · rcases List.mem_cons.1 hq with rfl | hq
      · exact absurd hexpires hfirst
      · exact .inr (ih (List.mem_filter.2 ⟨he, by simp [hfirst]⟩) hq)

/-- A day after another, at one time and without failures. -/
def atOnce : CleanupEnv where
  loadFails := false
  fails _ := false
  now _ := 0
  ago t days := t - days * (86400 * second)
  ago_strictAnti t n m h := by
    simp only [second]
    omega

/-- An event of a type and a time. -/
def emitted (type : String) (emittedAt : ℤ) : Event :=
  { eventID := "", sequence := 1, type, schemaVersion := "v1", aggregateType := "manifest",
    aggregateID := "m", emittedAt, payload := .nil }

/-- What the most specific policy protects is kept exactly when no other one is shorter. -/
theorem keeps_protected_iff_ordered (policies : List RetentionPolicy) :
    KeepsProtected policies ↔ Ordered policies := by
  constructor
  · intro h type p q hp hq hpos hlike
    by_contra hshorter
    -- an event that is old enough for the one policy, and not for the other
    obtain ⟨at', hold, hyoung⟩ : ∃ at', at' < atOnce.ago 0 q.ttlDays
        ∧ (p.ttlDays = 0 ∨ atOnce.ago 0 p.ttlDays ≤ at') := by
      by_cases hzero : p.ttlDays = 0
      · exact ⟨atOnce.ago 0 q.ttlDays - 1, by omega, .inl hzero⟩
      · have hlt : q.ttlDays < p.ttlDays := by omega
        exact ⟨atOnce.ago 0 p.ttlDays, atOnce.ago_strictAnti 0 hlt, .inr le_rfl⟩
    have hexpires : q.expires atOnce 0 (emitted type at') = true := by
      rw [RetentionPolicy.expires, Bool.and_eq_true, decide_eq_true_iff]
      exact ⟨hlike, hold⟩
    refine h atOnce [emitted type at'] (emitted type at') 0 ?_ ⟨p, hp, hyoung⟩
    exact mem_deleted_of_expires (fun _ => rfl) (fun _ => rfl) List.mem_cons_self
      (List.mem_filter.2 ⟨hq, decide_eq_true hpos⟩) hexpires
  · rintro h env log e t hdeleted ⟨p, hp, hyoung⟩
    rw [cleanupExpiredEvents] at hdeleted
    split at hdeleted
    · cases hdeleted
    obtain ⟨q, hq, hexpires⟩ := expires_of_mem_deleted hdeleted
    obtain ⟨hmem, hpos⟩ := List.mem_filter.1 hq
    rw [RetentionPolicy.expires, Bool.and_eq_true, decide_eq_true_iff] at hexpires
    obtain ⟨hlike, hold⟩ := hexpires
    obtain ⟨hp0, hle⟩ := h e.type p q hp hmem (of_decide_eq_true hpos) hlike
    have hago := (env.ago_strictAnti t).antitone hle
    rcases hyoung with hzero | hyoung
    · omega
    · exact absurd (hyoung.trans_lt (hold.trans_le hago)) (lt_irrefl _)

/-- The clean-up keeps what is protected, for all policies. -/
def RetentionTypeSpecific : Prop := ∀ policies, KeepsProtected policies

/-- The policies that the table starts with: events of manifests are kept for ever. -/
def seeded : List RetentionPolicy :=
  [⟨"*", 90⟩, ⟨"authorization.*", 2555⟩, ⟨"manifest.*", 0⟩, ⟨"buildproject.*", 365⟩,
    ⟨"workflow.step.*", 30⟩, ⟨"workflow.run.*", 180⟩]

/-- An event of a manifest is deleted after ninety days. -/
theorem not_retentionTypeSpecific : ¬ RetentionTypeSpecific := by
  intro h
  have hall : RetentionPolicy.expires atOnce 0 ⟨"*", 90⟩
      (emitted "manifest.created" (-91 * (86400 * second))) = true := by
    decide +kernel
  have hspecific : MostSpecific seeded "manifest.created" ⟨"manifest.*", 0⟩ := by
    decide +kernel
  refine h seeded atOnce [emitted "manifest.created" (-91 * (86400 * second))]
    (emitted "manifest.created" (-91 * (86400 * second))) 0 ?_
    ⟨⟨"manifest.*", 0⟩, hspecific, .inl rfl⟩
  exact mem_deleted_of_expires (fun _ => rfl) (fun _ => rfl) List.mem_cons_self
    (List.mem_filter.2 ⟨List.mem_cons_self, rfl⟩) hall

/-! ## Patterns -/

/-- The patterns of pulls and policies have `*` as the only wildcard exactly when no other character
    means something to `LIKE`. -/
theorem globs_iff (pattern : String) :
    ((∀ e : Event, PullEventsFilters.accepts { types := [pattern] } e =
        (trimSpace pattern = "" || starMatch (trimSpace pattern) e.type)) ↔
      ∀ c ∈ (trimSpace pattern).toList, ¬ Wild.special c) ∧
    ((∀ (env : CleanupEnv) (now : ℤ) (days : ℕ) (e : Event),
        RetentionPolicy.expires env now ⟨pattern, days⟩ e =
          (starMatch pattern e.type && e.emittedAt < env.ago now days)) ↔
      ∀ c ∈ pattern.toList, ¬ Wild.special c) := by
  refine ⟨?_, ?_⟩
  · by_cases hblank : trimSpace pattern = ""
    · simp [PullEventsFilters.accepts, hblank]
    · rw [← like_replaceAll_iff]
      simp only [PullEventsFilters.accepts, wildcardToLike]
      constructor
      · intro h type
        simpa [hblank, emitted] using h (emitted type 0)
      · intro h e
        simpa [hblank] using h e.type
  · rw [← like_replaceAll_iff]
    simp only [RetentionPolicy.expires, wildcardToLike]
    constructor
    · intro h type
      simpa [emitted, atOnce] using h atOnce 0 0 (emitted type (-1))
    · intro h env now days e
      rw [h]

/-- The underscore of a pattern is taken for any character. -/
theorem not_glob :
    ¬ ∀ pattern type, like type (wildcardToLike pattern) = starMatch pattern type := by
  intro h
  have hlike : like "teamXgrant.added" (wildcardToLike "team_grant.*") = true := by
    decide +kernel
  rw [h] at hlike
  exact absurd hlike (by decide +kernel)

end Yggdrasil.Events
