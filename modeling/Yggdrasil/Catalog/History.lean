import Yggdrasil.Catalog.Store
import Yggdrasil.Lib.Run

/-!
# The history of the catalog

A new version gets the number after the highest one that is still stored. When that one has been
deleted, its number is given out again.
-/

namespace Yggdrasil.Catalog.History

/-- The operations on the catalog. -/
inductive Op
  | tick (d : ℕ)
  | createManifestVersion (doc : ManifestDocument) (checksum id : String)
  | markManifestInactive (id : String)
  | hardDeleteManifest (id : String)
  | purgeInactiveManifests (cutoff : ℤ)

/-- The catalog and the time. -/
structure State where
  manifests : Manifests := .empty
  clock : ℤ := 0

variable (t : Manifests)

/-- The row is a version of the manifest that another row is a version of. -/
def siblings (id : String) (r : Manifest) : Bool :=
  (t.get? id).any (·.identity = r.identity)

/-- The rows that an operation deletes. -/
def removes : Op → Manifest → Bool
  | .hardDeleteManifest id, r => siblings t id r
  | .purgeInactiveManifests cutoff, r => !r.active && r.updatedAt < cutoff
  | _, _ => false

/-- A version of a manifest is stored, and the others are made inactive. -/
def createManifestVersion (doc : ManifestDocument) (checksum id : String) (now : ℤ) : Option
    Manifests :=
  (t.deactivate now fun r => r.identity = doc.identity && r.active).insert?
    (doc.row checksum (t.nextVersion doc.identity) id now)

/-- What an operation does. -/
def step (op : Op) (s : State) : State :=
  match op with
  | .tick d => { s with clock := s.clock + d }
  | .createManifestVersion doc checksum id =>
    { s with
      manifests := (createManifestVersion s.manifests doc checksum id s.clock).getD s.manifests }
  | .markManifestInactive id =>
    { s with
      manifests := s.manifests.deactivate s.clock fun r =>
        siblings s.manifests id r && r.active }
  | .hardDeleteManifest _ | .purgeInactiveManifests _ =>
    { s with manifests := s.manifests.filter fun r => !removes s.manifests op r }

/-- The catalog before each operation of a history. -/
def states (ops : ℕ → Op) : ℕ → State := unfold step ops {}

/-- The number that an operation gives to a new version. -/
def assigns (s : State) : Op → Option (Identity × ℕ)
  | .createManifestVersion doc checksum id =>
    (createManifestVersion s.manifests doc checksum id s.clock).map fun _ =>
      (doc.identity, s.manifests.nextVersion doc.identity)
  | _ => none

/-! ## What an operation does -/

/-- What of a version is the document that it denotes. -/
def document (r : Manifest) : String × String × List (String × String) × String × String :=
  (r.apiVersion, r.description, r.labels, r.spec, r.checksum)

/-- An operation deletes a version only below one of the same manifest that it keeps. -/
def Spares (op : Op) : Prop :=
  ∀ r ∈ t, removes t op r = true →
    ∃ s ∈ t, removes t op s = false ∧ s.identity = r.identity ∧ r.version ≤ s.version

variable {s : State} {op : Op} {X : Identity} {v : ℕ} {r : Manifest}

theorem exists_of_assigns (h : assigns s op = some (X, v)) :
    ∃ doc checksum id t, op = .createManifestVersion doc checksum id ∧ doc.identity = X ∧
      s.manifests.nextVersion X = v ∧
      createManifestVersion s.manifests doc checksum id s.clock = some t := by
  cases op with
  | createManifestVersion doc checksum id =>
    obtain ⟨t, ht, heq⟩ := Option.map_eq_some_iff.1 h
    cases heq
    exact ⟨doc, checksum, id, t, rfl, rfl, rfl, ht⟩
  | tick | markManifestInactive | hardDeleteManifest | purgeInactiveManifests => cases h

theorem mem_step_of_assigns (h : assigns s op = some (X, v)) :
    ∃ r ∈ (step op s).manifests, r.identity = X ∧ r.version = v := by
  obtain ⟨doc, checksum, id, t, rfl, rfl, rfl, ht⟩ := exists_of_assigns h
  refine ⟨doc.row checksum (s.manifests.nextVersion doc.identity) id s.clock, ?_, rfl, rfl⟩
  rw [step, ht, Option.getD_some]
  exact (Table.mem_of_insert? ht).2 (.inl rfl)

/-- An operation that spares the highest versions keeps one that is at least as high as any. -/
theorem exists_step_of_spares (h : Spares s.manifests op) (hr : r ∈ s.manifests) :
    ∃ r' ∈ (step op s).manifests, r'.identity = r.identity ∧ r.version ≤ r'.version := by
  have hdelete : ∃ r' ∈ s.manifests.filter fun r => !removes s.manifests op r,
      r'.identity = r.identity ∧ r.version ≤ r'.version := by
    cases hremoves : removes s.manifests op r with
    | false => exact ⟨r, Table.mem_filter.2 ⟨hr, by rw [hremoves]; rfl⟩, rfl, le_rfl⟩
    | true =>
      obtain ⟨r', hr', hkept, hsame, hle⟩ := h r hr hremoves
      exact ⟨r', Table.mem_filter.2 ⟨hr', by rw [hkept]; rfl⟩, hsame, hle⟩
  have hupdate (p : Manifest → Bool) : ∃ r' ∈ s.manifests.deactivate s.clock p,
      r'.identity = r.identity ∧ r.version ≤ r'.version :=
    ⟨_, Manifests.mem_deactivate.2 ⟨r, hr, rfl⟩, r.deactivate_identity _ p,
      (r.deactivate_version _ p).ge⟩
  cases op with
  | tick => exact ⟨r, hr, rfl, le_rfl⟩
  | createManifestVersion doc checksum id =>
    rw [step]
    cases ht : createManifestVersion s.manifests doc checksum id s.clock with
    | none => exact ⟨r, hr, rfl, le_rfl⟩
    | some t =>
      obtain ⟨r', hr', hkept⟩ := hupdate fun r => r.identity = doc.identity && r.active
      exact ⟨r', (Table.mem_of_insert? ht).2 (.inr hr'), hkept⟩
  | markManifestInactive id => exact hupdate _
  | hardDeleteManifest | purgeInactiveManifests => exact hdelete

/-- A version is created by an operation, from a document. -/
def Creates (s : State) (op : Op) (r : Manifest) : Prop :=
  ∃ doc checksum id, op = .createManifestVersion doc checksum id ∧
    assigns s op = some (r.identity, r.version) ∧
    document r = document (doc.row checksum 0 "" 0)

/-- A version was there before an operation, or is created by it. -/
theorem old_or_creates (hr : r ∈ (step op s).manifests) :
    (∃ r₀ ∈ s.manifests, r₀.identity = r.identity ∧ r₀.version = r.version ∧
      document r₀ = document r) ∨ Creates s op r := by
  have hupdate (p : Manifest → Bool) (hr : r ∈ s.manifests.deactivate s.clock p) :
      ∃ r₀ ∈ s.manifests, r₀.identity = r.identity ∧ r₀.version = r.version ∧
        document r₀ = document r := by
    obtain ⟨r₀, hr₀, rfl⟩ := Manifests.mem_deactivate.1 hr
    refine ⟨r₀, hr₀, (r₀.deactivate_identity _ p).symm, (r₀.deactivate_version _ p).symm, ?_⟩
    unfold Manifest.deactivate
    split_ifs <;> rfl
  cases op with
  | tick => exact .inl ⟨r, hr, rfl, rfl, rfl⟩
  | createManifestVersion doc checksum id =>
    rw [step] at hr
    cases ht : createManifestVersion s.manifests doc checksum id s.clock with
    | none =>
      rw [ht] at hr
      exact .inl ⟨r, hr, rfl, rfl, rfl⟩
    | some t =>
      rw [ht, Option.getD_some] at hr
      rcases (Table.mem_of_insert? ht).1 hr with rfl | hold
      · exact .inr ⟨doc, checksum, id, rfl, by rw [assigns, ht]; rfl, rfl⟩
      · exact .inl (hupdate _ hold)
  | markManifestInactive id => exact .inl (hupdate _ hr)
  | hardDeleteManifest | purgeInactiveManifests =>
    exact .inl ⟨r, (Table.mem_filter.1 hr).1, rfl, rfl, rfl⟩

/-! ## Histories -/

variable (ops : ℕ → Op)

/-- The numbers of a manifest only grow, and a version denotes one document. -/
structure Unambiguous : Prop where
  monotonic : ∀ m n, m < n → ∀ X v w, assigns (states ops m) (ops m) = some (X, v) →
    assigns (states ops n) (ops n) = some (X, w) → v < w
  denotes : ∀ m n, ∀ r ∈ (states ops m).manifests, ∀ s ∈ (states ops n).manifests,
    r.identity = s.identity → r.version = s.version → document r = document s

variable {ops}

/-- A version at least as high as one that was given out is stored from then on. -/
theorem exists_above (hspares : ∀ n, Spares (states ops n).manifests (ops n)) {m n : ℕ}
    (hmn : m + 1 ≤ n) (h : assigns (states ops m) (ops m) = some (X, v)) :
    ∃ r ∈ (states ops n).manifests, r.identity = X ∧ v ≤ r.version := by
  induction n, hmn using Nat.le_induction with
  | base =>
    obtain ⟨r, hr, hX, hv⟩ := mem_step_of_assigns h
    exact ⟨r, hr, hX, hv.ge⟩
  | succ n _ ih =>
    obtain ⟨r, hr, hX, hle⟩ := ih
    obtain ⟨r', hr', hsame, hle'⟩ := exists_step_of_spares (hspares n) hr
    exact ⟨r', hr', hsame.trans hX, hle.trans hle'⟩

theorem exists_creates {n : ℕ} (hr : r ∈ (states ops n).manifests) :
    ∃ k, Creates (states ops k) (ops k) r := by
  induction n generalizing r with
  | zero => cases hr
  | succ n ih =>
    rcases old_or_creates hr with ⟨r₀, hr₀, hidentity, hversion, hdocument⟩ | hcreates
    · obtain ⟨k, doc, checksum, id, hop, hassigns, hdoc⟩ := ih hr₀
      exact ⟨k, doc, checksum, id, hop, hidentity ▸ hversion ▸ hassigns, hdocument ▸ hdoc⟩
    · exact ⟨n, hcreates⟩

/-- A history whose deletions spare the highest versions never gives a number out again. -/
theorem unambiguous (ops : ℕ → Op) (hspares : ∀ n, Spares (states ops n).manifests (ops n)) :
    Unambiguous ops := by
  have hmono : ∀ m n, m < n → ∀ X v w, assigns (states ops m) (ops m) = some (X, v) →
      assigns (states ops n) (ops n) = some (X, w) → v < w := by
    intro m n hmn X v w hv hw
    obtain ⟨r, hr, hX, hle⟩ := exists_above hspares hmn hv
    obtain ⟨-, -, -, -, -, -, rfl, -⟩ := exists_of_assigns hw
    exact hle.trans_lt (Manifests.lt_nextVersion hr hX)
  refine ⟨hmono, ?_⟩
  intro m n r hr s hs hidentity hversion
  obtain ⟨k, doc, checksum, id, hop, hassigns, hdoc⟩ := exists_creates hr
  obtain ⟨k', doc', checksum', id', hop', hassigns', hdoc'⟩ := exists_creates hs
  rw [hidentity, hversion] at hassigns
  -- the same number is given out only once
  obtain rfl : k = k' := by
    rcases lt_trichotomy k k' with hlt | heq | hgt
    · exact absurd (hmono k k' hlt _ _ _ hassigns hassigns') (lt_irrefl _)
    · exact heq
    · exact absurd (hmono k' k hgt _ _ _ hassigns' hassigns) (lt_irrefl _)
  rw [hop] at hop'
  cases hop'
  exact hdoc.trans hdoc'.symm

namespace Sample

/-- A document with a specification. -/
def document (spec : String) : ManifestDocument where
  apiVersion := "v1"
  kind := "workflow"
  metadata := { name := "backup", namespace_ := "global" }
  spec := spec

/-- Two versions, of which the first one is purged. -/
def purged (n : ℕ) : Op :=
  [.createManifestVersion (document "1") "a" "m1", .tick 1,
   .createManifestVersion (document "2") "b" "m2", .tick 5,
   .purgeInactiveManifests 3].getD n (.tick 0)

/-- A manifest is made inactive and purged, and then created again. -/
def recreated (n : ℕ) : Op :=
  [.createManifestVersion (document "1") "a" "m1", .markManifestInactive "m1", .tick 5,
   .purgeInactiveManifests 3, .createManifestVersion (document "2") "b" "m2"].getD n (.tick 0)

end Sample

theorem unambiguous_purged :
    ((states Sample.purged 5).manifests.rows.map fun r => (r.version, r.active)) = [(2, true)] ∧
      Unambiguous Sample.purged := by
  refine ⟨by decide +kernel, unambiguous Sample.purged fun n => ?_⟩
  by_cases hn : n = 4
  · subst hn
    unfold Spares
    simp only [Table.mem_def]
    decide +kernel
  · have hnone : ∀ t r, removes t (Sample.purged n) r = false := by
      intro t r
      by_cases hlt : n < 4
      · interval_cases n <;> rfl
      · rw [Sample.purged, List.getD_eq_default _ _ (by simp; omega)]
        rfl
    intro r _ hr
    rw [hnone] at hr
    cases hr

theorem not_unambiguous : ¬ ∀ ops, Unambiguous ops := by
  intro h
  have hfirst : assigns (states Sample.recreated 0) (Sample.recreated 0) =
      some (⟨"workflow", "global", "backup"⟩, 1) := by decide +kernel
  have hagain : assigns (states Sample.recreated 4) (Sample.recreated 4) =
      some (⟨"workflow", "global", "backup"⟩, 1) := by decide +kernel
  exact lt_irrefl _ ((h Sample.recreated).monotonic 0 4 (by decide) _ _ _ hfirst hagain)

end Yggdrasil.Catalog.History
