import Yggdrasil.Catalog.Apply
import Yggdrasil.Lib.Upsert

/-!
# Documents that are applied again

The bootstrap skips a document whose checksum the active version has. The other paths do not look,
and store a version every time.
-/

namespace Yggdrasil.Catalog.Engine

open Text Upsert

variable (e : Engine)

/-- A document is applied, and no statement fails. -/
def apply (p : Path) (now : ℤ) (doc : ManifestDocument) (c : Ledger) : Ledger :=
  e.write (.path p) ((Writer.path p).statements.length + 1) now doc c

/-- The bootstrap ends with a document that it refuses. -/
def stops (p : Path) : Plan → Bool
  | .refuse _ => p = .bootstrap
  | .skip | .create _ _ => false

/-- Documents are applied one after the other. -/
def applyAll (p : Path) (now : ℤ) : List ManifestDocument → Ledger → Ledger
  | [], c => c
  | doc :: docs, c =>
    if stops p (e.plan c doc (.path p)) then c else applyAll p now docs (e.apply p now doc c)

/-- The checksum of a document that is valid. -/
def sum? (doc : ManifestDocument) : Option String :=
  match e.planCreate (normalizeDocument e.cm doc) with
  | .create _ sum => some sum
  | .refuse _ | .skip => none

/-- The manifest that a document is applied to. -/
def target (doc : ManifestDocument) : Identity := (normalizeDocument e.cm doc).identity

/-- The active version has the checksum of the normalised document. -/
def Matches (c : Ledger) (doc : ManifestDocument) : Prop :=
  ∃ r sum, c.manifests.activeVersion (e.target doc) = some r ∧ e.checksum doc = .ok sum ∧
    r.checksum = sum

/-- The checksum of the active version of a manifest. -/
def shelf (c : Ledger) (X : Identity) : Option String :=
  (c.manifests.activeVersion X).map fun r => trimSpace r.checksum

/-! ## Normalised documents -/

variable {e} {p : Path} {doc : ManifestDocument} {docs : List ManifestDocument} {c : Ledger}
  {now : ℤ} {sum : String} {doc' : ManifestDocument} {limit : ℕ}

theorem lower_trim_lower_trim (s : String) :
    toLower e.cm (trimSpace (toLower e.cm (trimSpace s))) = toLower e.cm (trimSpace s) := by
  rw [trimSpace_toLower_trimSpace, toLower, toLower, String.toList_ofList, List.map_map]
  congr 2
  funext ch
  exact e.lower_lower ch

theorem lower_trim_global : toLower e.cm (trimSpace "global") = "global" := by
  have htrim : trimSpace "global" = "global" := by simp [trimSpace, isSpace]
  have hlower : "global".toList.map e.cm.lower = "global".toList := by
    have hall : ∀ ch ∈ "global".toList, isLower ch = true := by simp [isLower]
    exact (List.map_congr_left fun ch hch => e.lower_isLower ch (hall ch hch)).trans (List.map_id _)
  rw [htrim, toLower, hlower, String.ofList_toList]

/-- A name of a namespace, or the default one. -/
theorem lower_trim_space {s : String} (h : toLower e.cm (trimSpace s) = s) :
    toLower e.cm (trimSpace (if s = "" then "global" else s)) = if s = "" then "global" else s := by
  split
  · exact lower_trim_global
  · exact h

theorem normalizeDocument_normalizeDocument (doc : ManifestDocument) :
    normalizeDocument e.cm (normalizeDocument e.cm doc) = normalizeDocument e.cm doc := by
  have hspace := lower_trim_space (lower_trim_lower_trim (e := e) doc.metadata.namespace_)
  have hne : (if toLower e.cm (trimSpace doc.metadata.namespace_) = "" then "global"
      else toLower e.cm (trimSpace doc.metadata.namespace_)) ≠ "" := by
    split
    · decide
    · assumption
  simp only [normalizeDocument, trimSpace_trimSpace, lower_trim_lower_trim, documentActive,
    Option.getD_some, hspace, if_neg hne]

/-- The lookup of the bootstrap finds the active version. -/
theorem resolveManifest_target (t : Manifests) (doc : ManifestDocument) :
    e.resolveManifest t (e.target doc) = t.activeVersion (e.target doc) := by
  have hspace := lower_trim_space (lower_trim_lower_trim (e := e) doc.metadata.namespace_)
  simp only [resolveManifest, target, ManifestDocument.identity, normalizeDocument,
    lower_trim_lower_trim, hspace]

/-! ## What a path makes of a document -/

theorem planCreate_normalizeDocument (h : e.sum? doc = some sum) :
    e.planCreate (normalizeDocument e.cm doc) = .create (normalizeDocument e.cm doc) sum ∧
      e.checksum doc = .ok sum := by
  unfold sum? planCreate at h
  unfold planCreate
  rw [checksum, normalizeDocument_normalizeDocument, ← checksum] at h ⊢
  cases hvalid : e.validateDocument (normalizeDocument e.cm doc) with
  | error err =>
    rw [hvalid] at h
    cases h
  | ok =>
    rw [hvalid] at h
    cases hsum : e.checksum doc with
    | error err =>
      rw [hsum] at h
      cases h
    | ok sum' =>
      rw [hsum] at h
      cases h
      exact ⟨rfl, rfl⟩

theorem planCreate_of_none (h : e.sum? doc = none) :
    ∃ err, e.planCreate (normalizeDocument e.cm doc) = .refuse err := by
  unfold sum? planCreate at h
  unfold planCreate
  cases hvalid : e.validateDocument (normalizeDocument e.cm doc) with
  | error err => exact ⟨err, rfl⟩
  | ok =>
    rw [hvalid] at h
    cases hsum : e.checksum (normalizeDocument e.cm doc) with
    | error err => exact ⟨err, rfl⟩
    | ok sum =>
      rw [hsum] at h
      cases h

theorem trim_sum (h : e.sum? doc = some sum) : trimSpace sum = sum :=
  e.trimmed _ sum (planCreate_normalizeDocument h).2

theorem manifests_write_create {w : Writer} (h : e.plan c doc w = .create doc' sum) :
    (e.write w (w.statements.length + 1) now doc c).manifests =
      (e.stored doc' sum now c).manifests := by
  rw [write, h]
  dsimp only
  rw [commit_statements w (Nat.lt_succ_self _)]
  split_ifs <;> rfl

/-- The bootstrap skips a document whose checksum is on the shelf, and stores another one. -/
theorem plan_bootstrap (h : e.sum? doc = some sum) :
    e.plan c doc (.path .bootstrap) =
      if shelf c (e.target doc) = some sum then .skip
      else .create (normalizeDocument e.cm doc) sum := by
  rw [plan, planUpsert, (planCreate_normalizeDocument h).1]
  dsimp only
  rw [show (normalizeDocument e.cm doc).identity = e.target doc from rfl, resolveManifest_target,
    shelf]
  cases c.manifests.activeVersion (e.target doc) with
  | none => rfl
  | some r => simp only [Option.map_some, Option.some.injEq]

/-! ## The active versions -/

/-- A new version of an active document is the active one, and other manifests stay. -/
theorem activeVersion_stored (X : Identity) :
    (e.stored doc sum now c).manifests.activeVersion X =
      if X = doc.identity then
        if documentActive doc then some (e.newRow doc sum now c) else none
      else c.manifests.activeVersion X := by
  rw [Manifests.activeVersion, rows_stored]
  by_cases hX : X = doc.identity
  · subst hX
    -- the update has left no active version of the manifest
    have hnone : (deactivated doc now c).manifests.rows.filter
        (fun r => r.identity = doc.identity && r.active) = [] := by
      rw [List.filter_eq_nil_iff]
      intro r' hr'
      obtain ⟨r, hr, rfl⟩ := List.mem_map.1 hr'
      intro hactive
      simp only [Bool.and_eq_true, decide_eq_true_eq] at hactive
      obtain ⟨hnot, hsame⟩ := Manifest.deactivate_of_active hactive.2
      rw [hsame] at hactive
      simp [hactive] at hnot
    rw [if_pos rfl, List.filter_cons, hnone]
    have hidentity : (e.newRow doc sum now c).identity = doc.identity := rfl
    have hactive : (e.newRow doc sum now c).active = documentActive doc := rfl
    cases hdoc : documentActive doc <;> simp [hidentity, hactive, hdoc]
  · rw [if_neg hX, List.filter_cons_of_neg (by simpa using fun h => absurd h.symm hX)]
    -- the rows of other manifests are not updated
    have hother (r : Manifest) (hr : r.identity = X) :
        r.deactivate now (fun r => r.identity = doc.identity && r.active) = r := by
      rw [Manifest.deactivate, hr]
      simp [hX]
    have hkept : (deactivated doc now c).manifests.rows.filter (fun r => r.identity = X && r.active)
        = c.manifests.rows.filter (fun r => r.identity = X && r.active) := by
      refine List.filter_map.trans ?_
      rw [List.filter_congr (q := fun r => r.identity = X && r.active)]
      · refine (List.map_congr_left fun r hr => ?_).trans (List.map_id _)
        have hmem := (List.mem_filter.1 hr).2
        simp only [Bool.and_eq_true, decide_eq_true_eq] at hmem
        exact hother r hmem.1
      · intro r _
        by_cases hr : r.identity = X
        · rw [Function.comp_apply, hother r hr]
        · simp [hr]
    rw [hkept, Manifests.activeVersion]

theorem shelf_stored (h : e.sum? doc = some sum) (X : Identity) :
    shelf (e.stored (normalizeDocument e.cm doc) sum now c) X =
      if X = e.target doc then if documentActive doc then some sum else none else shelf c X := by
  have hactive : documentActive (normalizeDocument e.cm doc) = documentActive doc := by
    rw [documentActive, normalizeDocument, Option.getD_some]
  unfold shelf
  rw [activeVersion_stored, target, hactive]
  by_cases hX : X = (normalizeDocument e.cm doc).identity
  · rw [if_pos hX, if_pos hX]
    cases documentActive doc with
    | false => rfl
    | true =>
      rw [if_pos rfl, if_pos rfl, Option.map_some, newRow, ManifestDocument.row, trim_sum h]
  · rw [if_neg hX, if_neg hX]

/-! ## Lists of documents -/

/-- The documents before the first one that is not valid, as entries of the shelf. -/
def valids (e : Engine) : List ManifestDocument → List (Entry Identity String)
  | [] => []
  | doc :: docs =>
    match e.sum? doc with
    | some sum => ⟨e.target doc, sum, documentActive doc⟩ :: e.valids docs
    | none => []

theorem shelf_apply_bootstrap (h : e.sum? doc = some sum) :
    shelf (e.apply .bootstrap now doc c) =
      put (shelf c) ⟨e.target doc, sum, documentActive doc⟩ := by
  unfold put
  dsimp only
  have hplan := plan_bootstrap (c := c) h
  by_cases hthere : shelf c (e.target doc) = some sum
  · rw [if_pos hthere] at hplan ⊢
    rw [apply, write, hplan]
  · rw [if_neg hthere] at hplan ⊢
    funext X
    rw [shelf, apply, manifests_write_create hplan, ← shelf, shelf_stored h]
    by_cases hX : X = e.target doc
    · rw [if_pos hX, hX, Function.update_self]
    · rw [if_neg hX, Function.update_of_ne hX]

theorem applyAll_bootstrap_of_some (h : e.sum? doc = some sum) :
    e.applyAll .bootstrap now (doc :: docs) c =
      e.applyAll .bootstrap now docs (e.apply .bootstrap now doc c) := by
  rw [applyAll, plan_bootstrap h, if_neg]
  split_ifs <;> exact Bool.false_ne_true

theorem applyAll_bootstrap_of_none (h : e.sum? doc = none) :
    e.applyAll .bootstrap now (doc :: docs) c = c := by
  obtain ⟨err, hplan⟩ := planCreate_of_none h
  rw [applyAll, plan, planUpsert, hplan, if_pos]
  exact decide_eq_true (rfl : Path.bootstrap = .bootstrap)

theorem applyAll_of_ne (hp : p ≠ .bootstrap) :
    e.applyAll p now (doc :: docs) c = e.applyAll p now docs (e.apply p now doc c) := by
  rw [applyAll, if_neg]
  cases e.plan c doc (.path p) with
  | refuse err => exact fun h => hp (of_decide_eq_true h)
  | skip | create => exact Bool.false_ne_true

/-- The bootstrap changes the shelf as the valid documents of its list do. -/
theorem shelf_applyAll :
    shelf (e.applyAll .bootstrap now docs c) = putAll (shelf c) (e.valids docs) := by
  induction docs generalizing c with
  | nil => rfl
  | cons doc docs ih =>
    unfold valids
    cases h : e.sum? doc with
    | none =>
      rw [applyAll_bootstrap_of_none h]
      rfl
    | some sum =>
      rw [applyAll_bootstrap_of_some h, ih, shelf_apply_bootstrap h]
      rfl

/-! ## The number of versions -/

theorem length_stored : (e.stored doc sum now c).manifests.rows.length =
    c.manifests.rows.length + 1 := by
  rw [rows_stored, List.length_cons, deactivated, Manifests.deactivate, Table.map, List.length_map]

/-- A write that stores a version is seen in the catalog. -/
theorem length_write {w : Writer} (h : e.Stores w limit doc c) :
    (e.write w limit now doc c).manifests.rows.length = c.manifests.rows.length + 1 := by
  obtain ⟨hlimit, doc', sum, hplan⟩ := h
  rw [write, hplan]
  dsimp only
  rw [commit_statements w hlimit]
  split_ifs <;> exact length_stored

theorem le_length_apply :
    c.manifests.rows.length ≤ (e.apply p now doc c).manifests.rows.length := by
  by_cases h : e.Stores (.path p) ((Writer.path p).statements.length + 1) doc c
  · rw [apply, length_write h]
    exact Nat.le_succ _
  · rw [apply, write_of_not_stores h]

theorem le_length_applyAll :
    c.manifests.rows.length ≤ (e.applyAll p now docs c).manifests.rows.length := by
  induction docs generalizing c with
  | nil => exact le_rfl
  | cons doc docs ih =>
    rw [applyAll]
    split
    · exact le_rfl
    · exact le_length_apply.trans ih

/-- A list that changes nothing stores no version of its first document. -/
theorem not_stores_of_applyAll (h : e.applyAll p now docs (e.apply p now doc c) = c) :
    ¬ e.Stores (.path p) ((Writer.path p).statements.length + 1) doc c := by
  intro hstores
  have hle : (e.apply p now doc c).manifests.rows.length ≤
      (e.applyAll p now docs (e.apply p now doc c)).manifests.rows.length := le_length_applyAll
  rw [h, apply, length_write hstores] at hle
  exact Nat.not_succ_le_self _ hle

/-! ## Applying again -/

theorem stores_of_plan (h : e.plan c doc (.path p) = .create doc' sum) :
    e.Stores (.path p) ((Writer.path p).statements.length + 1) doc c :=
  ⟨Nat.lt_succ_self _, doc', sum, h⟩

theorem applyAll_bootstrap_eq_self_iff :
    e.applyAll .bootstrap now docs c = c ↔ ∀ x ∈ e.valids docs, shelf c x.key = some x.value := by
  induction docs with
  | nil => exact iff_of_true rfl fun x hx => absurd hx List.not_mem_nil
  | cons doc docs ih =>
    unfold valids
    cases hsum : e.sum? doc with
    | none => simp [applyAll_bootstrap_of_none hsum]
    | some sum =>
      rw [applyAll_bootstrap_of_some hsum]
      have hplan := plan_bootstrap (c := c) hsum
      by_cases hthere : shelf c (e.target doc) = some sum
      · rw [if_pos hthere] at hplan
        have hskip : e.apply .bootstrap now doc c = c := by rw [apply, write, hplan]
        rw [hskip, ih]
        simp [hthere]
      · rw [if_neg hthere] at hplan
        refine ⟨fun h => absurd (stores_of_plan hplan) (not_stores_of_applyAll h), fun h => ?_⟩
        exact absurd (h _ List.mem_cons_self) hthere

theorem applyAll_eq_self_iff (hp : p ≠ .bootstrap) :
    e.applyAll p now docs c = c ↔ ∀ doc ∈ docs, e.sum? doc = none := by
  have hplan (doc : ManifestDocument) : e.plan c doc (.path p) =
      e.planCreate (normalizeDocument e.cm doc) := by
    cases p with
    | http | message => rfl
    | bootstrap => exact absurd rfl hp
  induction docs with
  | nil => simp [applyAll]
  | cons doc docs ih =>
    rw [applyAll_of_ne hp]
    cases hsum : e.sum? doc with
    | none =>
      obtain ⟨err, hrefuse⟩ := planCreate_of_none hsum
      have hsame : e.apply p now doc c = c := by rw [apply, write, hplan, hrefuse]
      rw [hsame]
      refine ih.trans ?_
      simp [hsum]
    | some sum =>
      have hstores := stores_of_plan ((hplan doc).trans (planCreate_normalizeDocument hsum).1)
      refine ⟨fun h => absurd hstores (not_stores_of_applyAll h), fun h => ?_⟩
      have hnone := h doc List.mem_cons_self
      rw [hsum] at hnone
      cases hnone

/-- What a second application of a list needs to change nothing. For the bootstrap, among the
    documents before the first invalid one: those of a manifest have one checksum, and each is on
    the shelf or comes with one that is active. For the other paths, no document is valid. -/
def Repeatable (e : Engine) (docs : List ManifestDocument) (c : Ledger) : Path → Prop
  | .bootstrap =>
    (∀ x ∈ e.valids docs, ∀ y ∈ e.valids docs, y.key = x.key → y.value = x.value) ∧
      ∀ x ∈ e.valids docs, shelf c x.key = some x.value ∨
        ∃ y ∈ e.valids docs, y.key = x.key ∧ y.live = true
  | .http | .message => ∀ doc ∈ docs, e.sum? doc = none

theorem applyAll_applyAll_iff (e : Engine) (p : Path) (now now' : ℤ)
    (docs : List ManifestDocument) (c : Ledger) :
    e.applyAll p now' docs (e.applyAll p now docs c) = e.applyAll p now docs c ↔
      e.Repeatable docs c p := by
  cases p with
  | http => exact applyAll_eq_self_iff nofun
  | message => exact applyAll_eq_self_iff nofun
  | bootstrap =>
    rw [applyAll_bootstrap_eq_self_iff, shelf_applyAll]
    exact settled_putAll_iff

theorem not_stores_of_matches (h : e.Matches c doc) :
    ¬ e.Stores (.path .bootstrap) limit doc c := by
  rintro ⟨-, doc', sum', hplan⟩
  cases hsum : e.sum? doc with
  | none =>
    obtain ⟨err, hrefuse⟩ := planCreate_of_none hsum
    rw [plan, planUpsert, hrefuse] at hplan
    cases hplan
  | some sum =>
    obtain ⟨r, s, hactive, hchecksum, rfl⟩ := h
    obtain rfl : sum = r.checksum :=
      Except.ok.inj ((planCreate_normalizeDocument hsum).2.symm.trans hchecksum)
    rw [plan_bootstrap hsum, shelf, hactive, Option.map_some, trim_sum hsum, if_pos rfl] at hplan
    cases hplan

/-- A document that the catalog has is applied without effect, and a list twice as once. -/
def Idempotent (e : Engine) (p : Path) (limit : ℕ) (now now' : ℤ) (doc : ManifestDocument)
    (docs : List ManifestDocument) (c : Ledger) : Prop :=
  (e.Matches c doc → e.write (.path p) limit now doc c = c) ∧
    e.applyAll p now' docs (e.applyAll p now docs c) = e.applyAll p now docs c

/-- Idempotent exactly for the bootstrap, or where nothing is stored, and repeatable lists. -/
theorem idempotent_iff (e : Engine) (p : Path) (limit : ℕ) (now now' : ℤ) (doc : ManifestDocument)
    (docs : List ManifestDocument) (c : Ledger) :
    e.Idempotent p limit now now' doc docs c ↔
      (p = .bootstrap ∨ ¬ e.Matches c doc ∨ ¬ e.Stores (.path p) limit doc c) ∧
        e.Repeatable docs c p := by
  refine and_congr ?_ (applyAll_applyAll_iff e p now now' docs c)
  constructor
  · intro h
    by_cases hmatches : e.Matches c doc
    · refine .inr (.inr fun hstores => ?_)
      have hlength : (e.write (.path p) limit now doc c).manifests.rows.length =
          c.manifests.rows.length + 1 := length_write hstores
      rw [h hmatches] at hlength
      exact Nat.succ_ne_self _ hlength.symm
    · exact .inr (.inl hmatches)
  · rintro (rfl | hnot | hnot) hmatches
    · exact write_of_not_stores (not_stores_of_matches hmatches)
    · exact absurd hmatches hnot
    · exact write_of_not_stores hnot

namespace Sample

/-- The catalog with the sample document. -/
def once : Ledger := Catalog.Sample.engine.apply .http 0 Catalog.Sample.tenant {}

theorem matches_once : Catalog.Sample.engine.Matches once Catalog.Sample.tenant := by
  have hsums : (once.manifests.activeVersion (Catalog.Sample.engine.target
        Catalog.Sample.tenant)).map (·.checksum) = some Catalog.Sample.tenant.spec ∧
      Catalog.Sample.engine.checksum Catalog.Sample.tenant = .ok Catalog.Sample.tenant.spec := by
    decide +kernel
  obtain ⟨r, hactive, hr⟩ := Option.map_eq_some_iff.1 hsums.1
  exact ⟨r, _, hactive, hsums.2, hr⟩

end Sample

/-- A document that the catalog has is stored again when it comes over HTTP. -/
theorem not_idempotent :
    ¬ ∀ (e : Engine) (p : Path) (limit : ℕ) (now now' : ℤ) (doc : ManifestDocument)
      (docs : List ManifestDocument) (c : Ledger), e.Idempotent p limit now now' doc docs c := by
  intro h
  have hsame := (h Catalog.Sample.engine .http 4 0 0 Catalog.Sample.tenant [] Sample.once).1
    Sample.matches_once
  have hlengths : (Catalog.Sample.engine.write (.path .http) 4 0 Catalog.Sample.tenant
        Sample.once).manifests.rows.length = 2 ∧ Sample.once.manifests.rows.length = 1 := by
    decide +kernel
  rw [hsame] at hlengths
  omega

end Yggdrasil.Catalog.Engine
