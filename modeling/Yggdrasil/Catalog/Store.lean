import Mathlib.Data.List.MinMax
import Yggdrasil.Lib.Go
import Yggdrasil.Lib.Table

/-!
# The catalog of manifests

A manifest is named by its kind, namespace and name, and every write of it is a row of its own,
with the next version number. At most one of its versions is active.
-/

namespace Yggdrasil.Catalog

open Text

/-- The metadata of a document. -/
structure ManifestMetadataInput where
  name : String
  namespace_ : String := ""
  description : String := ""
  labels : List (String × String) := []
  active : Option Bool := none

/-- A manifest as it is sent. -/
structure ManifestDocument where
  apiVersion : String
  kind : String
  metadata : ManifestMetadataInput
  spec : String

/-- The logical manifest that a document is about. -/
structure Identity where
  kind : String
  namespace_ : String
  name : String
  deriving DecidableEq

variable (doc : ManifestDocument)

/-- Which manifest the document is of. -/
def ManifestDocument.identity : Identity :=
  ⟨doc.kind, doc.metadata.namespace_, doc.metadata.name⟩

/-- A document is active unless it says otherwise. -/
def documentActive : Bool := doc.metadata.active.getD true

/-- The document without blanks around its names, in lower case. -/
def normalizeDocument (cm : CaseMap) (doc : ManifestDocument) : ManifestDocument :=
  let space := toLower cm (trimSpace doc.metadata.namespace_)
  { doc with
    apiVersion := trimSpace doc.apiVersion
    kind := toLower cm (trimSpace doc.kind)
    metadata :=
      { doc.metadata with
        name := toLower cm (trimSpace doc.metadata.name)
        namespace_ := if space = "" then "global" else space
        active := some (documentActive doc) } }

/-- A version of a manifest. -/
structure Manifest where
  id : String
  apiVersion : String
  identity : Identity
  version : ℕ
  active : Bool
  description : String
  labels : List (String × String)
  spec : String
  checksum : String
  updatedAt : ℤ
  deriving DecidableEq

/-- The table of versions. -/
abbrev Manifests := Table Manifest.id

/-- The row of a document. -/
def ManifestDocument.row (checksum : String) (version : ℕ) (id : String) (now : ℤ) : Manifest where
  id := id
  apiVersion := doc.apiVersion
  identity := doc.identity
  version := version
  active := documentActive doc
  description := trimSpace doc.metadata.description
  labels := doc.metadata.labels
  spec := if doc.spec = "" then "\x7b\x7d" else doc.spec
  checksum := checksum
  updatedAt := now

namespace Manifests

variable (t : Manifests) (X : Identity)

/-! ## Version numbers -/

/-- The numbers of a manifest. -/
def versions : List ℕ := (t.rows.filter (·.identity = X)).map (·.version)

/-- The number of the next version. -/
def nextVersion : ℕ := (t.versions X).foldr max 0 + 1

variable {t X}

theorem mem_versions {v : ℕ} : v ∈ t.versions X ↔ ∃ r ∈ t, r.identity = X ∧ r.version = v := by
  simp [versions, Table.mem_def, and_assoc]

private theorem foldr_max_mem (l : List ℕ) : l.foldr max 0 = 0 ∨ l.foldr max 0 ∈ l := by
  induction l with
  | nil => exact .inl rfl
  | cons a l ih =>
    rw [List.foldr_cons]
    rcases le_total (l.foldr max 0) a with hle | hle
    · rw [max_eq_left hle]
      exact .inr List.mem_cons_self
    · rw [max_eq_right hle]
      exact ih.imp_right (List.mem_cons_of_mem a)

theorem lt_nextVersion {r : Manifest} (hr : r ∈ t) (hX : r.identity = X) :
    r.version < t.nextVersion X :=
  Nat.lt_succ_of_le (List.le_max_of_le (mem_versions.2 ⟨r, hr, hX, rfl⟩) le_rfl)

/-- A version follows another one, unless it is the first. -/
theorem nextVersion_eq_one_or (t : Manifests) (X : Identity) :
    t.nextVersion X = 1 ∨ ∃ r ∈ t, r.identity = X ∧ r.version + 1 = t.nextVersion X := by
  rcases foldr_max_mem (t.versions X) with hzero | hmem
  · left
    rw [nextVersion, hzero]
  · obtain ⟨r, hr, hX, hv⟩ := mem_versions.1 hmem
    exact .inr ⟨r, hr, hX, by rw [nextVersion, hv]⟩

end Manifests

/-! ## Deactivation -/

/-- A row that an update makes inactive. -/
def Manifest.deactivate (now : ℤ) (p : Manifest → Bool) (r : Manifest) : Manifest :=
  if p r then { r with active := false, updatedAt := now } else r

section Deactivate

variable (now : ℤ) (p : Manifest → Bool) (r : Manifest)

@[simp]
theorem Manifest.deactivate_id : (r.deactivate now p).id = r.id := by
  rw [deactivate, apply_ite id, ite_self]

@[simp]
theorem Manifest.deactivate_identity : (r.deactivate now p).identity = r.identity := by
  rw [deactivate, apply_ite identity, ite_self]

@[simp]
theorem Manifest.deactivate_version : (r.deactivate now p).version = r.version := by
  rw [deactivate, apply_ite version, ite_self]

variable {now p r}

/-- What is active after an update was active, and is not one of its rows. -/
theorem Manifest.deactivate_of_active (h : (r.deactivate now p).active = true) :
    p r = false ∧ r.deactivate now p = r := by
  unfold deactivate at h ⊢
  by_cases hp : p r
  · rw [if_pos hp] at h
    cases h
  · exact ⟨Bool.eq_false_iff.2 hp, if_neg hp⟩

end Deactivate

namespace Manifests

/-- An update that makes rows inactive. -/
def deactivate (now : ℤ) (p : Manifest → Bool) (t : Manifests) : Manifests :=
  t.map (·.deactivate now p) (Manifest.deactivate_id now p)

variable {t : Manifests} {r : Manifest} {now : ℤ} {p : Manifest → Bool}

theorem mem_deactivate : r ∈ t.deactivate now p ↔ ∃ s ∈ t, s.deactivate now p = r := Table.mem_map

end Manifests

end Yggdrasil.Catalog
