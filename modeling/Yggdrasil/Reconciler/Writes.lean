import Yggdrasil.Reconciler.Secrets

/-!
# What the reconciler writes
-/

namespace Yggdrasil.Reconciler

variable {W : Type} [DecidableEq W] {calls : ℕ → W × Call} {kube : Kube} {n : ℕ}
  {cluster : String} {loc : Location} {obj : KubeSecret} {s : Snapshot}

/-! ## What is replaced -/

variable (kube) in
/-- A call of the reconciler leaves what is in a place, or replaces what its worker has read. -/
theorem unchanged_or_sent (hcall : (calls n).2.reconciles = true) (cluster : String)
    (loc : Location) :
    (run calls kube (n + 1)).shared.objects cluster loc =
      (run calls kube n).shared.objects cluster loc ∨
    ∃ mode s work queue now, (calls n).2 = .write now ∧
      phaseAt calls kube n = .ready cluster mode s work queue ∧ resolveTargetLocation s = loc ∧
      (run calls kube n).shared.objects cluster loc = work.existing ∧
      (∀ obj, work.existing = some obj → obj.managed = true) ∧
      (run calls kube (n + 1)).shared.objects cluster loc =
        some ((work.object s now).at ((run calls kube n).shared.revision + 1)) := by
  obtain heq | ⟨kube', p', hacts, heq⟩ := run_cases calls kube n
  · exact .inl (by rw [heq])
  · rw [heq]
    have hfresh := fresh_after calls kube n (calls n).1
    change Fresh _ (phaseAt calls kube n) at hfresh
    generalize hphase : phaseAt calls kube n = p at hacts hfresh ⊢
    generalize hlabel : (calls n).2 = call at hacts hcall ⊢
    cases hacts with
    | sent cluster' mode s work queue now hversion =>
      -- An accepted request finds the resource version that was read, so the object as well.
      by_cases hplace : cluster = cluster' ∧ loc = resolveTargetLocation s
      · obtain ⟨rfl, rfl⟩ := hplace
        exact .inr ⟨mode, s, work, queue, now, rfl, rfl, rfl, hfresh.2 hversion,
          fun obj hobj => (hfresh.1 obj hobj).1, Kube.put_self⟩
      · exact .inl (Kube.put_of_ne hplace)
    | thirdParty => cases hcall
    | _ => exact .inl rfl

/-- The reconciler changes no Secret without its label, and creates none over another. -/
theorem unmanaged_untouched (hcall : (calls n).2.reconciles = true)
    (hobj : (run calls kube n).shared.objects cluster loc = some obj) :
    (obj.managed = false → (run calls kube (n + 1)).shared.objects cluster loc = some obj) ∧
    ∀ cluster' mode s queue, phaseAt calls kube n = .ready cluster' mode s .create queue →
      (run calls kube (n + 1)).shared.objects cluster loc = some obj := by
  obtain heq | ⟨mode, s, work, queue, now, -, hphase, -, hread, hmanaged, -⟩ :=
    unchanged_or_sent kube hcall cluster loc
  · rw [heq]
    exact ⟨fun _ => hobj, fun _ _ _ _ _ => hobj⟩
  · rw [hobj] at hread
    constructor
    · intro hnot
      rw [hmanaged obj hread.symm] at hnot
      cases hnot
    · intro cluster' mode' s' queue' hcreate
      rw [hphase] at hcreate
      cases hcreate
      cases hread

namespace Sample

/-- A secret that declares a cluster. -/
def secret (cluster : String) (version : ℕ) : Snapshot where
  source := ⟨"shop", "db"⟩
  secret :=
    { status := .active, version, data := [("password", "p")],
      metadata := [("materialize", .map [("target", .str cluster)])] }

/-- Clusters without Secrets. -/
def empty : Kube := ⟨fun _ _ => none, 0, nofun⟩

/-- A Secret of a third party. -/
def foreign : KubeSecret := { labels := [], annotations := [], data := [], resourceVersion := 0 }

/-- A third party takes the Secret over between the requests of an update. -/
def takeover (n : ℕ) : Unit × Call :=
  ((), [.event (secret "local" 1), .get, .write "", .finish, .event (secret "local" 2), .get,
    .thirdParty "local" ⟨"shop", "db"⟩ foreign, .write ""].getD n .fail)

/-- A full pass over a secret of another cluster. -/
def remotePass (n : ℕ) : Unit × Call :=
  ((), [.pass [secret "remote" 1], .get, .write ""].getD n .fail)

/-- A change of a secret of another cluster, and a full pass over one of the local cluster. -/
def declared (n : ℕ) : Unit × Call :=
  ((), [.event (secret "remote" 1), .get, .write "", .finish, .pass [secret "local" 1], .get,
    .write ""].getD n .fail)

end Sample

theorem unmanaged_untouched_takeover :
    (run Sample.takeover Sample.empty 8).shared.objects "local" ⟨"shop", "db"⟩ =
      some (Sample.foreign.at 2) :=
  (unmanaged_untouched (by decide) (by decide +kernel)).1 (by decide)

/-! ## Where data land -/

/-- The secret whose data a call writes, and the cluster that it writes them to. -/
def landed (kube : Kube) (call : Call) (p : Phase) : Option (Snapshot × String) :=
  match call, p with
  | .write _, .ready _ _ _ (.mark _) _ => none
  | .write now, .ready cluster _ s work _ =>
    (work.send kube cluster s now).map fun _ => (s, cluster)
  | _, _ => none

/-- A request is accepted if what was read is there. -/
theorem send_isSome {work : Work} (now : String)
    (h : kube.objects cluster (resolveTargetLocation s) = work.existing) :
    (work.send kube cluster s now).isSome = true := by
  cases work <;>
    simp [Work.send, Kube.create, Kube.update, Kube.versionAt, h, Work.existing, Snapshot.updated,
      Snapshot.marked]

/-- The data of a Secret change only if a secret lands there. -/
theorem landed_of_data_ne (hcall : (calls n).2.reconciles = true)
    (hne : ((run calls kube (n + 1)).shared.objects cluster loc).map (·.data) ≠
      ((run calls kube n).shared.objects cluster loc).map (·.data)) :
    ∃ s, landed (run calls kube n).shared (calls n).2 (phaseAt calls kube n) = some (s, cluster) ∧
      resolveTargetLocation s = loc := by
  obtain heq | ⟨mode, s, work, queue, now, hlabel, hphase, rfl, hread, -, hafter⟩ :=
    unchanged_or_sent kube hcall cluster loc
  · exact absurd (by rw [heq]) hne
  · refine ⟨s, ?_, rfl⟩
    obtain ⟨sent, hsent⟩ := Option.isSome_iff_exists.1 (send_isSome now hread)
    rw [hlabel, hphase]
    cases work with
    | mark existing =>
      -- A mark sends the data that it has read.
      rw [hafter, hread] at hne
      exact absurd rfl hne
    | _ => simp only [landed, hsent, Option.map_some]

theorem landed_of_data_ne_event :
    ∃ s, landed (run Sample.declared Sample.empty 2).shared (Sample.declared 2).2
        (phaseAt Sample.declared Sample.empty 2) = some (s, "remote") ∧
      resolveTargetLocation s = ⟨"shop", "db"⟩ :=
  landed_of_data_ne rfl (by decide)

/-- The secrets that a worker has are of the cluster where it takes them. -/
def Phase.Declared : Phase → Prop
  | .idle => True
  | .next cluster _ queue => ∀ s ∈ queue, resolveTargetName s = cluster
  | .ready cluster _ s _ queue => resolveTargetName s = cluster ∧
      ∀ s ∈ queue, resolveTargetName s = cluster

/-- The active secrets that a full pass lists are of the local cluster. -/
def Call.Local : Call → Prop
  | .pass secrets => ∀ s ∈ secrets, s.secret.status = .active → resolveTargetName s = localTarget
  | _ => True

theorem declared_of_acts {kube' : Kube} {call : Call} {p p' : Phase} (hlocal : call.Local)
    (hp : p.Declared) (h : Acts kube kube' call p p') : p'.Declared := by
  cases h with
  | event s =>
    intro s' hs'
    rw [List.mem_singleton.1 hs']
  | pass secrets =>
    intro s hs
    rw [List.mem_filter, decide_eq_true_iff] at hs
    exact hlocal s hs.1 hs.2
  | read cluster mode s work queue _ => exact List.forall_mem_cons.1 hp
  | skip => exact (List.forall_mem_cons.1 hp).2
  | sent => exact hp.2
  | refused => exact hp.2
  | finish => trivial
  | thirdParty => exact hp

variable (kube) in
theorem declared_after (hlocal : ∀ n, (calls n).2.Local) (n : ℕ) (i : W) :
    ((run calls kube n).own i).Declared := by
  have hsound : (run calls kube n).Sound (fun _ => True) fun _ _ p => p.Declared :=
    World.sound_after ⟨trivial, fun _ => trivial⟩
      (fun n ih => ih.step fun _ _ hact =>
        ⟨trivial, declared_of_acts (hlocal n) (ih.2 _) (acts hact), fun j _ => ih.2 j⟩) n
  exact hsound.2 i

/-- A secret lands in the cluster it declares, if full passes list only local secrets. -/
theorem landed_declared (hlocal : ∀ n, (calls n).2.Local)
    (hlanded : landed (run calls kube n).shared (calls n).2 (phaseAt calls kube n) =
      some (s, cluster)) : resolveTargetName s = cluster := by
  have hdeclared := declared_after kube hlocal n (calls n).1
  change (phaseAt calls kube n).Declared at hdeclared
  generalize phaseAt calls kube n = p at hlanded hdeclared
  unfold landed at hlanded
  split at hlanded
  · cases hlanded
  · rw [Option.map_eq_some_iff] at hlanded
    obtain ⟨_, _, heq⟩ := hlanded
    cases heq
    exact hdeclared.1
  · cases hlanded

theorem landed_declared_event :
    landed (run Sample.declared Sample.empty 2).shared (Sample.declared 2).2
      (phaseAt Sample.declared Sample.empty 2) = some (Sample.secret "remote" 1, "remote") ∧
    resolveTargetName (Sample.secret "remote" 1) = "remote" := by
  have hlocal : ∀ n, (Sample.declared n).2.Local
    | 4 => fun s hs _ => by
      rw [List.mem_singleton.1 hs]
      decide
    | 0 | 1 | 2 | 3 | 5 | 6 | _ + 7 => trivial
  have hlanded : landed (run Sample.declared Sample.empty 2).shared (Sample.declared 2).2
      (phaseAt Sample.declared Sample.empty 2) = some (Sample.secret "remote" 1, "remote") := rfl
  exact ⟨hlanded, landed_declared hlocal hlanded⟩

/-- A full pass takes the data of a secret to a cluster that it does not declare. -/
theorem not_landed_declared : ¬ ∀ (calls : ℕ → Unit × Call) (kube : Kube) (n : ℕ) (s : Snapshot)
    (cluster : String), landed (run calls kube n).shared (calls n).2 (phaseAt calls kube n) =
      some (s, cluster) → resolveTargetName s = cluster := by
  intro h
  have hremote := h Sample.remotePass Sample.empty 2 (Sample.secret "remote" 1) localTarget rfl
  exact absurd hremote (by decide)

end Yggdrasil.Reconciler
