import Yggdrasil.Secrets.Calls

/-!
# The reconciler of secrets

Managed secrets are written to Kubernetes Secrets, for each change to the cluster that the secret
declares, and in full passes to the local one. The API applies an update only if the object has the
resource version that was read, and creates no object that exists.
-/

namespace Yggdrasil.Reconciler

open Function Secrets

/-! ## Secrets -/

/-- The name of a managed secret. -/
structure Source where
  namespace_ : String
  name : String
  deriving DecidableEq

/-- A managed secret as it was when it was read. -/
structure Snapshot where
  source : Source
  secret : ManagedSecret

/-- Where a Kubernetes Secret is in its cluster. -/
structure Location where
  namespace_ : String
  name : String
  deriving DecidableEq

/-- A Kubernetes Secret; whose version its data and annotation are is history. -/
structure KubeSecret where
  labels : List (String × String)
  annotations : List (String × String)
  data : Data
  resourceVersion : ℕ
  dataOf : Option (Source × ℕ) := none
  versionOf : Option (Source × ℕ) := none
  deriving DecidableEq

/-- The label of what is written. -/
def labelManagedBy : String := "yggdrasil.io/managed-by"
/-- Its value. -/
def labelManagedByValue : String := "yggdrasil-core"
/-- The version that was written. -/
def annotationVersion : String := "yggdrasil.io/secret-version"
/-- The namespace of the secret. -/
def annotationSourceNS : String := "yggdrasil.io/source-namespace"
/-- The name of the secret. -/
def annotationSourceName : String := "yggdrasil.io/source-name"
/-- When it was written. -/
def annotationLastSynced : String := "yggdrasil.io/last-synced"
/-- The status, unless it is active. -/
def annotationStatus : String := "yggdrasil.io/status"
/-- When it was revoked. -/
def annotationRevokedAt : String := "yggdrasil.io/revoked-at"

/-- The Secret has the label of the reconciler. -/
def KubeSecret.managed (obj : KubeSecret) : Bool :=
  obj.labels.lookup labelManagedBy = some labelManagedByValue

variable (s : Snapshot)

/-- The field of the `materialize` object of a secret's metadata, if it is a text. -/
def Snapshot.materialize? (field : String) : Option String :=
  match s.secret.metadata.lookup "materialize" with
  | some (.map fields) =>
    match fields.lookup field with
    | some (.str v) => if v ≠ "" then some v else none
    | _ => none
  | _ => none

/-- The cluster of the server itself. -/
def localTarget : String := "local"

/-- The cluster that a secret is for. -/
def resolveTargetName : String := (s.materialize? "target").getD localTarget

/-- Where a secret goes. -/
def resolveTargetLocation : Location where
  namespace_ := (s.materialize? "namespace").getD s.source.namespace_
  name := (s.materialize? "name").getD s.source.name

/-! ## Kubernetes -/

/-- The Secrets of the clusters. -/
abbrev Objects := String → Location → Option KubeSecret

/-- The Secrets, with another object, or none, in one place. -/
def Objects.set (objects : Objects) (cluster : String) (loc : Location)
    (obj : Option KubeSecret) : Objects :=
  update objects cluster (update (objects cluster) loc obj)

section Objects

variable {objects : Objects} {cluster cluster' : String} {loc loc' : Location}
  {obj : Option KubeSecret}

theorem Objects.set_self : objects.set cluster loc obj cluster loc = obj := by
  rw [set, update_self, update_self]

theorem Objects.set_of_ne (h : ¬ (cluster' = cluster ∧ loc' = loc)) :
    objects.set cluster loc obj cluster' loc' = objects cluster' loc' := by
  rw [set]
  by_cases hcluster : cluster' = cluster
  · subst hcluster
    rw [update_self, update_of_ne fun hloc => h ⟨rfl, hloc⟩]
  · rw [update_of_ne hcluster]

end Objects

/-- The clusters. Every resource version was given out, up to the last revision. -/
structure Kube where
  objects : Objects
  revision : ℕ
  bounded : ∀ cluster loc obj, objects cluster loc = some obj → obj.resourceVersion ≤ revision

/-- The object with its resource version. -/
def KubeSecret.at (obj : KubeSecret) (revision : ℕ) : KubeSecret :=
  { obj with resourceVersion := revision }

namespace Kube

variable (kube : Kube) (cluster : String) (loc : Location)

/-- An object is written, under a new resource version, or deleted. -/
def put (obj : Option KubeSecret) : Kube where
  objects := kube.objects.set cluster loc (obj.map (·.at (kube.revision + 1)))
  revision := kube.revision + 1
  bounded cluster' loc' stored hstored := by
    by_cases hplace : cluster' = cluster ∧ loc' = loc
    · obtain ⟨rfl, rfl⟩ := hplace
      rw [Objects.set_self, Option.map_eq_some_iff] at hstored
      obtain ⟨_, _, rfl⟩ := hstored
      exact le_rfl
    · rw [Objects.set_of_ne hplace] at hstored
      exact (kube.bounded _ _ _ hstored).trans (Nat.le_succ _)

/-- The resource version of what is in a place. -/
def versionAt : Option ℕ := (kube.objects cluster loc).map (·.resourceVersion)

/-- A request to create an object. -/
def create (obj : KubeSecret) : Option Kube :=
  if kube.versionAt cluster loc = none then some (kube.put cluster loc obj) else none

/-- A request to update an object that was read. -/
def update (obj : KubeSecret) : Option Kube :=
  if kube.versionAt cluster loc = some obj.resourceVersion then some (kube.put cluster loc obj)
  else none

variable {kube cluster loc} {obj : Option KubeSecret} {cluster' : String} {loc' : Location}

theorem put_self : (kube.put cluster loc obj).objects cluster loc =
    obj.map (·.at (kube.revision + 1)) := Objects.set_self

theorem put_of_ne (h : ¬ (cluster' = cluster ∧ loc' = loc)) :
    (kube.put cluster loc obj).objects cluster' loc' = kube.objects cluster' loc' :=
  Objects.set_of_ne h

end Kube

/-! ## The objects of a secret -/

/-- The annotations of an object, with new ones. -/
def setAnnotations (new old : List (String × String)) : List (String × String) :=
  new ++ old.filter fun a => new.all (·.1 ≠ a.1)

variable (now : String)

/-- The annotations of a secret. -/
def buildAnnotations : List (String × String) :=
  [(annotationVersion, toString s.secret.version), (annotationSourceNS, s.source.namespace_),
    (annotationSourceName, s.source.name), (annotationLastSynced, now)]

/-- The object that `createSecret` sends. -/
def Snapshot.created : KubeSecret where
  labels := [(labelManagedBy, labelManagedByValue)]
  annotations := buildAnnotations s now
  data := s.secret.data
  resourceVersion := 0
  dataOf := some (s.source, s.secret.version)
  versionOf := some (s.source, s.secret.version)

/-- The object that `updateSecret` sends. -/
def Snapshot.updated (existing : KubeSecret) : KubeSecret :=
  { existing with
    data := s.secret.data
    annotations := setAnnotations (buildAnnotations s now) existing.annotations
    dataOf := some (s.source, s.secret.version)
    versionOf := some (s.source, s.secret.version) }

/-- The texts of the statuses. -/
def statusText : Status → String
  | .active => "active"
  | .disabled => "disabled"
  | .revoked => "revoked"

/-- The object that `markSecret` sends. -/
def Snapshot.marked (existing : KubeSecret) : KubeSecret :=
  { existing with
    annotations := setAnnotations
      ([(annotationStatus, statusText s.secret.status),
        (annotationVersion, toString s.secret.version)] ++
        if s.secret.status = .revoked then [(annotationRevokedAt, now)] else [])
      existing.annotations
    versionOf := some (s.source, s.secret.version) }

/-! ## Calls -/

/-- A change of a secret, or the full pass. -/
inductive Mode
  | event
  | pass
  deriving DecidableEq

/-- What a worker does about a secret that it has read the object of. -/
inductive Work
  | create
  | update (existing : KubeSecret)
  | mark (existing : KubeSecret)

/-- Where a worker is: the cluster, and the secrets that are left. -/
inductive Phase
  | idle
  | next (cluster : String) (mode : Mode) (queue : List Snapshot)
  | ready (cluster : String) (mode : Mode) (s : Snapshot) (work : Work) (queue : List Snapshot)

/-- An event or a pass begins, and goes on. -/
inductive Call
  | event (s : Snapshot)
  | pass (secrets : List Snapshot)
  | get
  | write (now : String)
  | finish
  | fail
  | thirdParty (cluster : String) (loc : Location) (obj : Option KubeSecret)

/-- What is to be done about a secret: nothing, if its object is not managed or up to date. -/
def decideWork (mode : Mode) (s : Snapshot) (found : Option KubeSecret) : Option Work :=
  if mode = .event ∧ s.secret.status ≠ .active then
    -- `markSecret`: a Secret that was never written has nothing to be marked
    match found with
    | none => none
    | some existing => if existing.managed then some (.mark existing) else none
  else
    match found with
    | none => some .create
    | some existing =>
      if !existing.managed then none
      -- any other version is written over, be it older or newer
      else if existing.annotations.lookup annotationVersion = some (toString s.secret.version) then
        none
      else some (.update existing)

/-- The request of a worker, if the API accepts it. -/
def Work.send (kube : Kube) (cluster : String) (s : Snapshot) (now : String) : Work → Option Kube
  | .create => kube.create cluster (resolveTargetLocation s) (s.created now)
  | .update existing => kube.update cluster (resolveTargetLocation s) (s.updated now existing)
  | .mark existing => kube.update cluster (resolveTargetLocation s) (s.marked now existing)

/-- What was read. -/
def Work.existing : Work → Option KubeSecret
  | .create => none
  | .update existing => some existing
  | .mark existing => some existing

/-- What is sent. -/
def Work.object : Work → KubeSecret
  | .create => s.created now
  | .update existing => s.updated now existing
  | .mark existing => s.marked now existing

/-- What a call does, if it is possible. -/
def act {W : Type} (_ : W) (call : Call) (kube : Kube) (p : Phase) : Option (Kube × Phase) :=
  match call, p with
  | .event s, .idle => some (kube, .next (resolveTargetName s) .event [s])
  | .pass secrets, .idle =>
    -- `runFullReconcile` takes all of them to the local target
    some (kube, .next localTarget .pass (secrets.filter (·.secret.status = .active)))
  | .get, .next cluster mode (s :: queue) =>
    match decideWork mode s (kube.objects cluster (resolveTargetLocation s)) with
    | none => some (kube, .next cluster mode queue)
    | some work => some (kube, .ready cluster mode s work queue)
  | .write now, .ready cluster mode s work queue =>
    -- a request that is refused is counted as an error, and the next secret follows
    some ((work.send kube cluster s now).getD kube, .next cluster mode queue)
  | .finish, .next _ _ [] => some (kube, .idle)
  | .fail, .next cluster mode (_ :: queue) => some (kube, .next cluster mode queue)
  | .fail, .ready cluster mode _ _ queue => some (kube, .next cluster mode queue)
  | .thirdParty cluster loc obj, p => some (kube.put cluster loc obj, p)
  | _, _ => none

/-- The call is one of the reconciler. -/
def Call.reconciles : Call → Bool
  | .thirdParty .. => false
  | _ => true

/-! ## What a call does -/

section Acts

variable {W : Type} {i : W} {call : Call} {kube kube' : Kube} {p p' : Phase} {cluster : String}
  {mode : Mode} {s : Snapshot} {now : String} {work : Work} {found : Option KubeSecret}

/-- What is to be done is about the object that was found, and a managed one. -/
theorem existing_of_decideWork (h : decideWork mode s found = some work) :
    work.existing = found ∧ ∀ obj, found = some obj → obj.managed = true := by
  unfold decideWork at h
  split at h
  · cases found with
    | none => cases h
    | some existing =>
      simp only [Option.ite_none_right_eq_some, Option.some.injEq] at h
      obtain ⟨hmanaged, rfl⟩ := h
      exact ⟨rfl, fun obj hobj => Option.some.inj hobj ▸ hmanaged⟩
  · cases found with
    | none =>
      cases h
      exact ⟨rfl, nofun⟩
    | some existing =>
      cases hmanaged : existing.managed with
      | false => simp [hmanaged] at h
      | true =>
        simp only [hmanaged, Bool.not_true, Bool.false_eq_true, if_false,
          Option.ite_none_left_eq_some, Option.some.injEq] at h
        obtain ⟨_, rfl⟩ := h
        exact ⟨rfl, fun obj hobj => Option.some.inj hobj ▸ hmanaged⟩

/-- A request that is accepted finds the resource version that was read, and writes its object. -/
theorem of_send (h : work.send kube cluster s now = some kube') :
    kube.versionAt cluster (resolveTargetLocation s) =
      work.existing.map (·.resourceVersion) ∧
    kube' = kube.put cluster (resolveTargetLocation s) (work.object s now) := by
  cases work <;>
    simp only [Work.send, Kube.create, Kube.update, Option.ite_none_right_eq_some,
      Option.some.injEq] at h <;>
    exact ⟨h.1, h.2.symm⟩

/-- What a call does. -/
inductive Acts (kube : Kube) : Kube → Call → Phase → Phase → Prop
  | event (s : Snapshot) :
    Acts kube kube (.event s) .idle (.next (resolveTargetName s) .event [s])
  | pass (secrets : List Snapshot) : Acts kube kube (.pass secrets) .idle
      (.next localTarget .pass (secrets.filter (·.secret.status = .active)))
  | read (cluster : String) (mode : Mode) (s : Snapshot) (work : Work) (queue : List Snapshot)
      (hwork : decideWork mode s (kube.objects cluster (resolveTargetLocation s)) = some work) :
    Acts kube kube .get (.next cluster mode (s :: queue)) (.ready cluster mode s work queue)
  | skip (call : Call) (cluster : String) (mode : Mode) (s : Snapshot) (queue : List Snapshot) :
    Acts kube kube call (.next cluster mode (s :: queue)) (.next cluster mode queue)
  | sent (cluster : String) (mode : Mode) (s : Snapshot) (work : Work) (queue : List Snapshot)
      (now : String) (hversion : kube.versionAt cluster (resolveTargetLocation s) =
        work.existing.map (·.resourceVersion)) :
    Acts kube (kube.put cluster (resolveTargetLocation s) (work.object s now)) (.write now)
      (.ready cluster mode s work queue) (.next cluster mode queue)
  | refused (call : Call) (cluster : String) (mode : Mode) (s : Snapshot) (work : Work)
      (queue : List Snapshot) :
    Acts kube kube call (.ready cluster mode s work queue) (.next cluster mode queue)
  | finish (cluster : String) (mode : Mode) : Acts kube kube .finish (.next cluster mode []) .idle
  | thirdParty (cluster : String) (loc : Location) (obj : Option KubeSecret) (p : Phase) :
    Acts kube (kube.put cluster loc obj) (.thirdParty cluster loc obj) p p

theorem acts (h : act i call kube p = some (kube', p')) : Acts kube kube' call p p' := by
  unfold act at h
  split at h
  · cases h
    exact .event _
  · cases h
    exact .pass _
  · split at h
    · cases h
      exact .skip ..
    next hwork =>
      cases h
      exact .read _ _ _ _ _ hwork
  · next now cluster mode s work queue =>
    cases hsend : work.send kube cluster s now with
    | none =>
      rw [hsend] at h
      cases h
      exact .refused ..
    | some sent =>
      rw [hsend] at h
      cases h
      obtain ⟨hversion, rfl⟩ := of_send hsend
      exact .sent _ _ _ _ _ _ hversion
  · cases h
    exact .finish ..
  · cases h
    exact .skip ..
  · cases h
    exact .refused ..
  · cases h
    exact .thirdParty ..
  · cases h

end Acts

/-! ## What a worker has read -/

/-- What a worker has read is what is there, if the resource version is the same, and is managed. -/
def Fresh (kube : Kube) : Phase → Prop
  | .ready cluster _ s work _ =>
    (∀ obj, work.existing = some obj →
      obj.managed = true ∧ obj.resourceVersion ≤ kube.revision) ∧
    (kube.versionAt cluster (resolveTargetLocation s) =
        work.existing.map (·.resourceVersion) →
      kube.objects cluster (resolveTargetLocation s) = work.existing)
  | _ => True

section Fresh

variable {W : Type} {call : Call} {kube kube' : Kube} {p p' : Phase} {cluster : String}
  {loc : Location} {obj : Option KubeSecret}

/-- A write keeps what another worker knows: its resource version is new. -/
theorem Fresh.put (h : Fresh kube p) : Fresh (kube.put cluster loc obj) p := by
  cases p with
  | ready cluster' mode s work queue =>
    obtain ⟨hexisting, hsame⟩ := h
    refine ⟨fun obj hobj => ?_, fun hversion => ?_⟩
    · exact ⟨(hexisting obj hobj).1, (hexisting obj hobj).2.trans (Nat.le_succ _)⟩
    · by_cases hplace : cluster' = cluster ∧ resolveTargetLocation s = loc
      · obtain ⟨rfl, rfl⟩ := hplace
        -- What is there now is gone, or has a resource version that nobody has read.
        rw [Kube.versionAt, Kube.put_self] at hversion
        rw [Kube.put_self]
        cases hread : work.existing with
        | none =>
          rw [hread, Option.map_none, Option.map_eq_none_iff] at hversion
          exact hversion
        | some existing =>
          rw [hread] at hversion
          cases obj with
          | none => cases hversion
          | some obj =>
            have hle := (hexisting existing hread).2
            have heq : kube.revision + 1 = existing.resourceVersion := Option.some.inj hversion
            omega
      · rw [Kube.versionAt, Kube.put_of_ne hplace] at hversion
        rw [Kube.put_of_ne hplace]
        exact hsame hversion
  | _ => trivial

/-- What a worker reads is what is there. -/
theorem fresh_of_acts (hfresh : Fresh kube p) (h : Acts kube kube' call p p') :
    Fresh kube' p' := by
  cases h with
  | read cluster mode s work queue hwork =>
    obtain ⟨hfound, hmanaged⟩ := existing_of_decideWork hwork
    refine ⟨fun obj hobj => ?_, fun _ => hfound.symm⟩
    rw [hfound] at hobj
    exact ⟨hmanaged obj hobj, kube.bounded _ _ _ hobj⟩
  | thirdParty => exact hfresh.put
  | _ => trivial

/-- A call writes one place at most. -/
theorem eq_or_put_of_acts (h : Acts kube kube' call p p') :
    kube' = kube ∨ ∃ cluster loc obj, kube' = kube.put cluster loc obj := by
  cases h with
  | sent => exact .inr ⟨_, _, _, rfl⟩
  | thirdParty => exact .inr ⟨_, _, _, rfl⟩
  | _ => exact .inl rfl

end Fresh

/-! ## Runs -/

section Runs

variable {W : Type} [DecidableEq W] (calls : ℕ → W × Call) (kube : Kube)

/-- A run of the calls, of workers that are idle at first. -/
def run (n : ℕ) : World W Kube Phase := World.after act calls ⟨kube, fun _ => .idle⟩ n

/-- Where the worker of a call is before it. -/
def phaseAt (n : ℕ) : Phase := (run calls kube n).own (calls n).1

theorem run_cases (n : ℕ) :
    run calls kube (n + 1) = run calls kube n ∨
    ∃ kube' p', Acts (run calls kube n).shared kube' (calls n).2 (phaseAt calls kube n) p' ∧
      run calls kube (n + 1) =
        ⟨kube', update (run calls kube n).own (calls n).1 p'⟩ := by
  obtain heq | ⟨kube', p', hact, heq⟩ := World.step_cases act (run calls kube n) (calls n)
  · exact .inl heq
  · exact .inr ⟨kube', p', acts hact, heq⟩

theorem fresh_after (n : ℕ) (i : W) :
    Fresh (run calls kube n).shared ((run calls kube n).own i) := by
  have hsound : (run calls kube n).Sound (fun _ => True) fun _ kube p => Fresh kube p := by
    refine World.sound_after ⟨trivial, fun _ => trivial⟩
      (fun n ih => ih.step fun kube' p' hact => ?_) n
    have hacts := acts hact
    refine ⟨trivial, fresh_of_acts (ih.2 _) hacts, fun j _ => ?_⟩
    obtain rfl | ⟨cluster, loc, obj, rfl⟩ := eq_or_put_of_acts hacts
    · exact ih.2 j
    · exact (ih.2 j).put
  exact hsound.2 i

end Runs

end Yggdrasil.Reconciler
