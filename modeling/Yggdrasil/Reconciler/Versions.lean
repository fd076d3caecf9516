import Yggdrasil.Reconciler.Writes

/-!
# The versions that Kubernetes Secrets carry

A Secret is written if its version annotation is another one than that of the managed secret, be
that newer or older: a change that was delayed takes it back (`not_never_backwards`).
-/

namespace Yggdrasil.Reconciler

/-! ## What a Secret carries -/

section Carries

variable (kube : Kube) (cluster : String) (loc : Location) (source : Source) (version : ℕ)

/-- The Secret has the data of a version. -/
def CarriesData : Prop :=
  ∃ obj, kube.objects cluster loc = some obj ∧ obj.dataOf = some (source, version)

/-- The Secret has the annotation of a version. -/
def CarriesVersion : Prop :=
  ∃ obj, kube.objects cluster loc = some obj ∧ obj.versionOf = some (source, version)

/-- The target has the data of a version, or says so. -/
def Carries : Prop :=
  CarriesData kube cluster loc source version ∨ CarriesVersion kube cluster loc source version

end Carries

section Sent

variable {kube kube' : Kube} {cluster : String} {loc : Location} {source : Source} {v w : ℕ}
  {s : Snapshot} {work : Work} {now : String} {revision : ℕ}

theorem carries_congr (h : kube'.objects cluster loc = kube.objects cluster loc) :
    (CarriesData kube' cluster loc source v ↔ CarriesData kube cluster loc source v) ∧
    (CarriesVersion kube' cluster loc source v ↔ CarriesVersion kube cluster loc source v) := by
  rw [CarriesData, CarriesData, CarriesVersion, CarriesVersion, h]
  exact ⟨Iff.rfl, Iff.rfl⟩

theorem CarriesData.unique (hv : CarriesData kube cluster loc source v)
    (hw : CarriesData kube cluster loc source w) : v = w := by
  obtain ⟨obj, hobj, hv⟩ := hv
  obtain ⟨obj', hobj', hw⟩ := hw
  rw [hobj] at hobj'
  cases hobj'
  rw [hv] at hw
  cases hw
  rfl

/-- The annotation that is sent is that of the secret. -/
theorem carriesVersion_of_sent
    (h : kube'.objects cluster loc = some ((work.object s now).at revision))
    (hv : CarriesVersion kube' cluster loc source v) :
    source = s.source ∧ v = s.secret.version := by
  obtain ⟨obj, hobj, hv⟩ := hv
  rw [h] at hobj
  cases hobj
  cases work <;>
  · cases hv
    exact ⟨rfl, rfl⟩

/-- The data that are sent are those of the secret, or, by a mark, those that were there. -/
theorem carriesData_of_sent (hread : kube.objects cluster loc = work.existing)
    (h : kube'.objects cluster loc = some ((work.object s now).at revision))
    (hv : CarriesData kube' cluster loc source v) :
    (source = s.source ∧ v = s.secret.version) ∨ CarriesData kube cluster loc source v := by
  obtain ⟨obj, hobj, hv⟩ := hv
  rw [h] at hobj
  cases hobj
  cases work with
  | mark existing => exact .inr ⟨existing, hread, hv⟩
  | _ =>
    cases hv
    exact .inl ⟨rfl, rfl⟩

end Sent

/-! ## What a worker has in hand -/

variable {W : Type} [DecidableEq W] (calls : ℕ → W × Call) (kube : Kube)

/-- The Secret has carried a version so far. -/
def Past (n : ℕ) (cluster : String) (loc : Location) (source : Source) (v : ℕ) : Prop :=
  ∃ m ≤ n, Carries (run calls kube m).shared cluster loc source v

/-- A worker that reads a Secret has no older version than the Secret has carried. -/
def Current (n : ℕ) : Prop :=
  ∀ cluster mode s queue, (calls n).2 = .get →
    phaseAt calls kube n = .next cluster mode (s :: queue) →
      ∀ v, Past calls kube n cluster (resolveTargetLocation s) s.source v → v ≤ s.secret.version

/-- What a worker is about to write is no older than what the Secret it has read carried. -/
def Ahead (n : ℕ) : Phase → Prop
  | .ready cluster _ s work _ =>
    (run calls kube n).shared.versionAt cluster (resolveTargetLocation s) =
        work.existing.map (·.resourceVersion) →
      ∀ v, Past calls kube n cluster (resolveTargetLocation s) s.source v → v ≤ s.secret.version
  | _ => True

variable {calls kube} {n : ℕ} {cluster : String} {loc : Location} {source : Source} {v w : ℕ}

theorem past_of_unchanged (h : (run calls kube (n + 1)).shared.objects cluster loc =
      (run calls kube n).shared.objects cluster loc)
    (hpast : Past calls kube (n + 1) cluster loc source v) :
    Past calls kube n cluster loc source v := by
  obtain ⟨m, hm, hcarries⟩ := hpast
  rcases Nat.le_succ_iff.1 hm with hm | rfl
  · exact ⟨m, hm, hcarries⟩
  · exact ⟨n, le_rfl, hcarries.imp (carries_congr h).1.1 (carries_congr h).2.1⟩

/-- What a worker is about to write stays ahead: a write in between has a new resource version. -/
theorem ahead_succ {p : Phase} (hcall : (calls n).2.reconciles = true)
    (hfresh : Fresh (run calls kube n).shared p) (h : Ahead calls kube n p) :
    Ahead calls kube (n + 1) p := by
  cases p with
  | ready cluster mode s work queue =>
    intro hversion v hpast
    obtain heq | ⟨_, _, _, _, _, _, _, _, _, _, hafter⟩ :=
      unchanged_or_sent kube hcall cluster (resolveTargetLocation s)
    · rw [Kube.versionAt, heq] at hversion
      exact h hversion v (past_of_unchanged heq hpast)
    · rw [Kube.versionAt, hafter, Option.map_some, eq_comm, Option.map_eq_some_iff] at hversion
      obtain ⟨existing, hexisting, heq⟩ := hversion
      have hle := (hfresh.1 existing hexisting).2
      have hnew : existing.resourceVersion = (run calls kube n).shared.revision + 1 := heq
      omega
  | _ => trivial

variable (hcalls : ∀ n, (calls n).2.reconciles = true) (hcurrent : ∀ n, Current calls kube n)

include hcalls hcurrent in
theorem ahead_after (n : ℕ) (i : W) : Ahead calls kube n ((run calls kube n).own i) := by
  induction n with
  | zero => trivial
  | succ n ih =>
    have hkept := ahead_succ (hcalls n) (fresh_after calls kube n i) ih
    obtain heq | ⟨kube', p', hacts, heq⟩ := run_cases calls kube n
    · rwa [show (run calls kube (n + 1)).own i = (run calls kube n).own i by rw [heq]]
    · have hown : (run calls kube (n + 1)).own i =
          Function.update (run calls kube n).own (calls n).1 p' i := by rw [heq]
      rw [hown]
      by_cases hi : i = (calls n).1
      · subst hi
        rw [Function.update_self]
        generalize hphase : phaseAt calls kube n = p at hacts
        generalize hcall : (calls n).2 = call at hacts
        cases hacts with
        | read cluster mode s work queue =>
          intro _ v hpast
          exact hcurrent n cluster mode s queue hcall hphase v
            (past_of_unchanged (by rw [heq]) hpast)
        | thirdParty => exact hphase ▸ hkept
        | _ => trivial
      · rwa [Function.update_of_ne hi]

/-! ## Never backwards -/

/-- No Secret carries a version of a managed secret yet. -/
def Unwritten (kube : Kube) : Prop :=
  ∀ cluster loc obj, kube.objects cluster loc = some obj →
    obj.dataOf = none ∧ obj.versionOf = none

variable (calls kube) in
/-- A Secret that has carried a version, in its data or annotation, has no older one there. -/
def Onward (m n : ℕ) : Prop :=
  ∀ cluster loc source v w,
    (CarriesData (run calls kube m).shared cluster loc source v →
      Carries (run calls kube n).shared cluster loc source w → v ≤ w) ∧
    (CarriesVersion (run calls kube m).shared cluster loc source v →
      CarriesVersion (run calls kube n).shared cluster loc source w → v ≤ w)

theorem onward_zero (hstart : Unwritten kube) : Onward calls kube 0 0 := by
  intro cluster loc source v w
  constructor
  · rintro ⟨obj, hobj, hv⟩
    rw [(hstart cluster loc obj hobj).1] at hv
    cases hv
  · rintro ⟨obj, hobj, hv⟩
    rw [(hstart cluster loc obj hobj).2] at hv
    cases hv

include hcalls hcurrent in
/-- A call keeps what was carried before onward. -/
theorem onward_succ {m : ℕ} (hm : m ≤ n) (h : Onward calls kube m n) :
    Onward calls kube m (n + 1) := by
  intro cluster loc source v w
  obtain heq | ⟨mode, s, work, queue, now, -, hphase, rfl, hread, -, hafter⟩ :=
    unchanged_or_sent kube (hcalls n) cluster loc
  · rw [Carries, (carries_congr heq).1, (carries_congr heq).2]
    exact h cluster loc source v w
  · have hahead := ahead_after hcalls hcurrent n (calls n).1
    change Ahead calls kube n (phaseAt calls kube n) at hahead
    rw [hphase] at hahead
    -- What is replaced is what the worker has read, so nothing newer has come in between.
    have hsent : ∀ v, Past calls kube n cluster (resolveTargetLocation s) s.source v →
        v ≤ s.secret.version := hahead (by rw [Kube.versionAt, hread])
    refine ⟨fun hv hw => ?_, fun hv hw => ?_⟩
    · rcases hw with hw | hw
      · rcases carriesData_of_sent hread hafter hw with ⟨rfl, rfl⟩ | hw
        · exact hsent v ⟨m, hm, .inl hv⟩
        · exact (h _ _ _ v w).1 hv (.inl hw)
      · obtain ⟨rfl, rfl⟩ := carriesVersion_of_sent hafter hw
        exact hsent v ⟨m, hm, .inl hv⟩
    · obtain ⟨rfl, rfl⟩ := carriesVersion_of_sent hafter hw
      exact hsent v ⟨m, hm, .inr hv⟩

include hcalls hcurrent in
/-- What a Secret carries at one time is of one version, but for a newer annotation. -/
theorem onward_self (hstart : Unwritten kube) (n : ℕ) : Onward calls kube n n := by
  induction n with
  | zero => exact onward_zero hstart
  | succ n ih =>
    intro cluster loc source v w
    obtain heq | ⟨mode, s, work, queue, now, -, hphase, rfl, hread, -, hafter⟩ :=
      unchanged_or_sent kube (hcalls n) cluster loc
    · rw [Carries, (carries_congr heq).1, (carries_congr heq).2, (carries_congr heq).1,
        (carries_congr heq).2]
      exact ih cluster loc source v w
    · refine ⟨fun hv hw => ?_, fun hv hw => ?_⟩
      · rcases hw with hw | hw
        · exact (hv.unique hw).le
        · -- The data are those of the new annotation, or were there before it.
          rcases carriesData_of_sent hread hafter hv with ⟨_, rfl⟩ | hv
          · exact (carriesVersion_of_sent hafter hw).2.ge
          · exact (onward_succ hcalls hcurrent le_rfl ih _ _ _ v w).1 hv (.inr hw)
      · rw [(carriesVersion_of_sent hafter hv).2, (carriesVersion_of_sent hafter hw).2]

/-- A Secret never goes back, if no worker reads it for an older version than it has carried. -/
theorem never_backwards (hcalls : ∀ n, (calls n).2.reconciles = true) (hstart : Unwritten kube)
    (hcurrent : ∀ n, Current calls kube n) {m : ℕ} (hmn : m ≤ n) : Onward calls kube m n := by
  induction n, hmn using Nat.le_induction with
  | base => exact onward_self hcalls hcurrent hstart m
  | succ n hm ih => exact onward_succ hcalls hcurrent hm ih

namespace Sample

/-- The second version of a secret is written, and then a change to the first one arrives. -/
def delayed (n : ℕ) : Unit × Call :=
  ((), [.event (secret "local" 2), .get, .write "", .finish, .event (secret "local" 1), .get,
    .write ""].getD n .finish)

/-- The versions of a secret are written one after the other. -/
def inOrder (n : ℕ) : Unit × Call :=
  ((), [.event (secret "local" 1), .get, .write "", .finish, .event (secret "local" 2), .get,
    .write ""].getD n .finish)

theorem unwritten_empty : Unwritten empty := nofun

theorem version_of_past_inOrder {n v : ℕ} (hn : n ≤ 5)
    (h : Past inOrder empty n "local" ⟨"shop", "db"⟩ ⟨"shop", "db"⟩ v) : v = 1 := by
  obtain ⟨m, hm, hcarries⟩ := h
  -- Until the second version is written, the Secret is the one of the first version.
  have hobjects : ∀ m ≤ 5, (run inOrder empty m).shared.objects "local" ⟨"shop", "db"⟩ = none ∨
      (run inOrder empty m).shared.objects "local" ⟨"shop", "db"⟩ =
        some (((secret "local" 1).created "").at 1) := by decide +kernel
  rcases hobjects m (hm.trans hn) with hnone | hsome
  · rcases hcarries with ⟨obj, hobj, -⟩ | ⟨obj, hobj, -⟩ <;>
    · rw [hnone] at hobj
      cases hobj
  · rcases hcarries with ⟨obj, hobj, hv⟩ | ⟨obj, hobj, hv⟩ <;>
    · rw [hsome] at hobj
      cases hobj
      cases hv
      rfl

theorem current_inOrder : ∀ n, Current inOrder empty n
  | 1 => fun _ _ _ _ _ hphase v hpast => by
    cases hphase
    exact (version_of_past_inOrder (by decide) hpast).le
  | 5 => fun _ _ _ _ _ hphase v hpast => by
    cases hphase
    exact (version_of_past_inOrder (by decide) hpast).le.trans (by decide)
  | 0 | 2 | 3 | 4 | 6 | _ + 7 => nofun

end Sample

theorem never_backwards_inOrder :
    CarriesData (run Sample.inOrder Sample.empty 3).shared "local" ⟨"shop", "db"⟩ ⟨"shop", "db"⟩ 1 ∧
    CarriesData (run Sample.inOrder Sample.empty 7).shared "local" ⟨"shop", "db"⟩ ⟨"shop", "db"⟩ 2 ∧
    Onward Sample.inOrder Sample.empty 3 7 := by
  have hcalls : ∀ n, (Sample.inOrder n).2.reconciles = true
    | 0 | 1 | 2 | 3 | 4 | 5 | 6 | _ + 7 => rfl
  exact ⟨⟨_, rfl, rfl⟩, ⟨_, rfl, rfl⟩,
    never_backwards hcalls Sample.unwritten_empty Sample.current_inOrder (by decide)⟩

/-- A change that was delayed takes a Secret back. -/
theorem not_never_backwards : ¬ ∀ (calls : ℕ → Unit × Call) (kube : Kube),
    (∀ n, (calls n).2.reconciles = true) → Unwritten kube →
      ∀ m n, m ≤ n → Onward calls kube m n := by
  intro h
  have hcalls : ∀ n, (Sample.delayed n).2.reconciles = true
    | 0 | 1 | 2 | 3 | 4 | 5 | 6 | _ + 7 => rfl
  have honward := h Sample.delayed Sample.empty hcalls Sample.unwritten_empty 3 7 (by decide)
  have hle : 2 ≤ 1 := (honward "local" ⟨"shop", "db"⟩ ⟨"shop", "db"⟩ 2 1).1 ⟨_, rfl, rfl⟩
    (.inl ⟨_, rfl, rfl⟩)
  exact absurd hle (by decide)

end Yggdrasil.Reconciler
