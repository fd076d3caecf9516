import Mathlib.Algebra.Order.BigOperators.Group.List
import Yggdrasil.Catalog.Store

/-!
# Writes of manifests

Every writer of manifests prepares a document in its own way, and stores a version in a transaction.
A crash, or a statement that fails, cuts the transaction off, and nothing of it is committed.
-/

namespace Yggdrasil.Catalog

open Text

/-! ## The catalog and its events -/

/-- The event `manifest.created`. -/
structure ManifestCreated where
  manifestID : String
  identity : Identity
  version : ℕ
  checksum : String
  labels : List (String × String)

/-- The event of a version. -/
def Manifest.created (r : Manifest) : ManifestCreated :=
  ⟨r.id, r.identity, r.version, r.checksum, r.labels⟩

/-- The stored versions, and the events about them. -/
structure Ledger where
  manifests : Manifests := .empty
  events : List ManifestCreated := []

/-- What the checksum of a document is taken of. -/
structure Payload where
  apiVersion : String
  identity : Identity
  description : String
  labels : List (String × String)
  active : Bool
  spec : String

/-- How texts are folded, specifications checked and compared, checksums computed and ids made. -/
structure Engine where
  cm : CaseMap
  lower_lower : ∀ c, cm.lower (cm.lower c) = cm.lower c
  lower_isLower : ∀ c, isLower c = true → cm.lower c = c
  validateSpec : String → String → Except String Unit
  compareSpecs : String → String → Option Bool
  sum : Payload → Except String String
  trimmed : ∀ p s, sum p = .ok s → trimSpace s = s
  newID : Ledger → String
  fresh : ∀ c, ∀ r ∈ c.manifests, r.id ≠ newID c
  unannounced : ∀ c, ∀ ev ∈ c.events, ev.manifestID ≠ newID c

namespace Engine

variable (e : Engine)

/-- The error of a document. -/
def validateDocument (doc : ManifestDocument) : Except String Unit :=
  let doc := normalizeDocument e.cm doc
  if doc.apiVersion = "" then throw "apiVersion is required"
  else if doc.kind = "" then throw "kind is required"
  else if doc.metadata.name = "" then throw "metadata.name is required"
  else if doc.spec = "" then throw "spec is required"
  else e.validateSpec doc.kind doc.spec

/-- The checksum of a document in its normal form. -/
def checksum (doc : ManifestDocument) : Except String String :=
  let doc := normalizeDocument e.cm doc
  e.sum ⟨doc.apiVersion, doc.identity, trimSpace doc.metadata.description, doc.metadata.labels,
    documentActive doc, doc.spec⟩

end Engine

/-- The active version of a manifest. -/
def Manifests.activeVersion (t : Manifests) (X : Identity) : Option Manifest :=
  (t.rows.filter fun r => r.identity = X && r.active).argmax (·.version)

/-- `ResolveManifest`, of the active version. -/
def Engine.resolveManifest (e : Engine) (t : Manifests) (X : Identity) : Option Manifest :=
  t.activeVersion ⟨toLower e.cm (trimSpace X.kind), toLower e.cm (trimSpace X.namespace_),
    toLower e.cm (trimSpace X.name)⟩

/-! ## Writers -/

/-- The ways on which documents are applied. -/
inductive Path
  | http
  | message
  | bootstrap
  deriving DecidableEq

/-- Who stores versions. -/
inductive Writer
  | path (path : Path)
  | template
  | sync (expected : Manifest) (checksum : String)
  deriving DecidableEq

/-- What a writer makes of a document. -/
inductive Plan
  | refuse (error : String)
  | skip
  | create (doc : ManifestDocument) (checksum : String)

namespace Engine

variable (e : Engine)

/-- A document that has been validated is stored with its checksum. -/
def planCreate (doc : ManifestDocument) : Plan :=
  match e.validateDocument doc with
  | .error err => .refuse err
  | .ok () =>
    match e.checksum doc with
    | .error err => .refuse err
    | .ok sum => .create doc sum

/-- `upsertManifestVersion`: a document whose checksum the active version has is skipped. -/
def planUpsert (c : Ledger) (doc : ManifestDocument) : Plan :=
  match e.planCreate doc with
  | .create doc sum =>
    match e.resolveManifest c.manifests doc.identity with
    | some existing => if trimSpace existing.checksum = sum then .skip else .create doc sum
    | none => .create doc sum
  | plan => plan

/-- The only kind that is synced. -/
def integrationType : String := "integration_type"

/-- The UUID of zeros. -/
def nilID : String := "00000000-0000-0000-0000-000000000000"

/-- `ApplyIntegrationTypeSyncVersion`: a version replaces the one that was expected. -/
def planSync (c : Ledger) (expected : Manifest) (checksum : String) (doc : ManifestDocument) :
    Plan :=
  if expected.id = nilID ∨ expected.identity.kind ≠ integrationType ∨
      doc.identity ≠ expected.identity ∨ documentActive doc = false then
    .refuse "matching active integration type required"
  else if e.checksum doc ≠ .ok checksum then .refuse "integration type sync checksum refused"
  else
    match c.manifests.activeVersion doc.identity with
    | none => .refuse "manifest not found"
    | some current =>
      match e.compareSpecs current.spec doc.spec with
      | none => .refuse "integration type sync spec invalid"
      | some same =>
        if current.checksum = checksum ∧ current.apiVersion = doc.apiVersion ∧
            trimSpace current.description = trimSpace doc.metadata.description ∧
            current.labels = doc.metadata.labels ∧ same then .skip
        else if current.id ≠ expected.id ∨ current.checksum ≠ expected.checksum then
          .refuse "integration type changed during describe; sync held"
        else .create doc checksum

/-- What a writer makes of a document. -/
def plan (c : Ledger) (doc : ManifestDocument) : Writer → Plan
  | .path .http | .path .message => e.planCreate (normalizeDocument e.cm doc)
  | .path .bootstrap => e.planUpsert c (normalizeDocument e.cm doc)
  | .template => e.planCreate doc
  | .sync expected checksum => e.planSync c expected checksum doc

end Engine

/-! ## Transactions -/

/-- The statements of a write. -/
inductive Statement
  | number
  | deactivate
  | insert
  | emit

/-- What a transaction has written, the number it has read and the row it has inserted. -/
structure Tx where
  catalog : Ledger
  next : ℕ := 0
  record : Option Manifest := none

/-- `CreateManifestVersionTx`. -/
def createStatements : List Statement := [.number, .deactivate, .insert]

/-- The statements of a writer. -/
def Writer.statements : Writer → List Statement
  | .path .message => createStatements ++ [.emit]
  | .path .http | .path .bootstrap | .template | .sync _ _ => createStatements

section Exec

variable (e : Engine) (doc : ManifestDocument) (checksum : String) (now : ℤ)

/-- What a statement does. -/
def Statement.exec (tx : Tx) : Statement → Option Tx
  | .number => some { tx with next := tx.catalog.manifests.nextVersion doc.identity }
  | .deactivate =>
    some { tx with
      catalog := { tx.catalog with
        manifests := tx.catalog.manifests.deactivate now fun r =>
          r.identity = doc.identity && r.active } }
  | .insert =>
    let row := doc.row checksum tx.next (e.newID tx.catalog) now
    (tx.catalog.manifests.insert? row).map fun t =>
      { tx with catalog := { tx.catalog with manifests := t }, record := row }
  | .emit =>
    tx.record.map fun row =>
      { tx with catalog := { tx.catalog with events := row.created :: tx.catalog.events } }

/-- The catalog after a transaction of which at most a number of statements succeed. -/
def commit (statements : List Statement) (limit : ℕ) (c : Ledger) : Ledger :=
  if limit ≤ statements.length then c
  else
    match statements.foldlM (fun tx statement => statement.exec e doc checksum now tx)
      ({ catalog := c } : Tx) with
    | some tx => tx.catalog
    | none => c

end Exec

/-- A write that is cut off after a number of statements. -/
def Engine.write (e : Engine) (w : Writer) (limit : ℕ) (now : ℤ) (doc : ManifestDocument)
    (c : Ledger) : Ledger :=
  match e.plan c doc w with
  | .refuse _ | .skip => c
  | .create doc checksum => commit e doc checksum now w.statements limit c

/-! ## What a transaction commits -/

namespace Engine

variable (e : Engine) (doc : ManifestDocument) (sum : String) (now : ℤ) (c : Ledger)

/-- The rows without an active version of the manifest. -/
def deactivated : Ledger :=
  { c with manifests := c.manifests.deactivate now fun r => r.identity = doc.identity && r.active }

/-- The row of a document. -/
def newRow : Manifest :=
  doc.row sum (c.manifests.nextVersion doc.identity) (e.newID (deactivated doc now c)) now

variable {e doc sum now c} {r : Manifest}

theorem id_ne_newRow (hr : r ∈ c.manifests) : r.id ≠ (e.newRow doc sum now c).id := by
  have hmem : r.deactivate now (fun r => r.identity = doc.identity && r.active) ∈
      (deactivated doc now c).manifests := Manifests.mem_deactivate.2 ⟨r, hr, rfl⟩
  rw [← Manifest.deactivate_id now (fun r => r.identity = doc.identity && r.active) r]
  exact e.fresh _ _ hmem

theorem exists_insert? (e : Engine) (doc : ManifestDocument) (sum : String) (now : ℤ) (c : Ledger) :
    ∃ t, (deactivated doc now c).manifests.insert? (e.newRow doc sum now c) = some t := by
  cases h : (deactivated doc now c).manifests.insert? (e.newRow doc sum now c) with
  | some t => exact ⟨t, rfl⟩
  | none =>
    obtain ⟨r, hr, hid⟩ := Table.insert?_eq_none.1 h
    exact absurd hid (e.fresh _ r hr)

variable (e doc sum now c) in
/-- The catalog with the new version. -/
def stored : Ledger :=
  { c with
    manifests := ((deactivated doc now c).manifests.insert? (e.newRow doc sum now c)).getD
      c.manifests }

theorem rows_stored : (e.stored doc sum now c).manifests.rows =
    e.newRow doc sum now c :: (deactivated doc now c).manifests.rows := by
  obtain ⟨t, ht⟩ := e.exists_insert? doc sum now c
  rw [stored, ht, Option.getD_some, (Table.insert?_eq_some ht).2]

theorem mem_stored : r ∈ (e.stored doc sum now c).manifests ↔
    r = e.newRow doc sum now c ∨ r ∈ (deactivated doc now c).manifests := by
  rw [Table.mem_def, rows_stored, List.mem_cons, Table.mem_def]

theorem newRow_mem_stored : e.newRow doc sum now c ∈ (e.stored doc sum now c).manifests :=
  mem_stored.2 (.inl rfl)

theorem exec_createStatements :
    createStatements.foldlM (fun tx statement => statement.exec e doc sum now tx)
        ({ catalog := c } : Tx)
      = some ⟨e.stored doc sum now c, c.manifests.nextVersion doc.identity,
          some (e.newRow doc sum now c)⟩ := by
  obtain ⟨t, ht⟩ := e.exists_insert? doc sum now c
  have hinsert : Statement.exec e doc sum now
      ⟨deactivated doc now c, c.manifests.nextVersion doc.identity, none⟩ .insert =
      some ⟨e.stored doc sum now c, c.manifests.nextVersion doc.identity,
        some (e.newRow doc sum now c)⟩ := by
    rw [stored, ht, Option.getD_some]
    exact Option.map_eq_some_iff.2 ⟨t, ht, rfl⟩
  change (Statement.exec e doc sum now
    ⟨deactivated doc now c, c.manifests.nextVersion doc.identity, none⟩ .insert).bind some = _
  rw [hinsert, Option.bind_some]

/-- What is committed of a version: with its event for a message, and alone for other writers. -/
theorem commit_statements (w : Writer) {limit : ℕ} (hlimit : w.statements.length < limit) :
    commit e doc sum now w.statements limit c =
      if w = .path .message then
        { e.stored doc sum now c with events := (e.newRow doc sum now c).created :: c.events }
      else e.stored doc sum now c := by
  rw [commit, if_neg hlimit.not_ge]
  by_cases hw : w = .path .message
  · subst hw
    rw [if_pos rfl, Writer.statements, List.foldlM_append, exec_createStatements]
    rfl
  · have hstatements : w.statements = createStatements := by
      match w with
      | .path .message => exact absurd rfl hw
      | .path .http | .path .bootstrap | .template | .sync _ _ => rfl
    rw [if_neg hw, hstatements, exec_createStatements]

/-! ## Versions and their events -/

variable (e)

/-- The document is neither refused nor skipped, and the transaction not cut off. -/
def Stores (w : Writer) (limit : ℕ) (doc : ManifestDocument) (c : Ledger) : Prop :=
  w.statements.length < limit ∧ ∃ doc' sum, e.plan c doc w = .create doc' sum

/-- The new versions and the new events of a write are about each other. -/
def Together (c c' : Ledger) : Prop :=
  ∀ ev, (∃ r ∈ c'.manifests, (∀ s ∈ c.manifests, s.id ≠ r.id) ∧ r.created = ev) ↔
    ev ∈ c'.events ∧ ev ∉ c.events

variable {e} {w : Writer} {limit : ℕ}

theorem together_refl (c : Ledger) : Together c c := by
  intro ev
  constructor
  · rintro ⟨r, hr, hnew, -⟩
    exact absurd rfl (hnew r hr)
  · rintro ⟨hmem, hnot⟩
    exact absurd hmem hnot

theorem write_of_not_stores (h : ¬ e.Stores w limit doc c) : e.write w limit now doc c = c := by
  rw [write]
  split
  · rfl
  · rfl
  next doc' sum hplan =>
    rw [commit, if_pos]
    exact not_lt.1 fun hlt => h ⟨hlt, doc', sum, hplan⟩

theorem isNew_stored (hr : r ∈ (e.stored doc sum now c).manifests) :
    (∀ s ∈ c.manifests, s.id ≠ r.id) ↔ r = e.newRow doc sum now c := by
  constructor
  · intro hnew
    refine (mem_stored.1 hr).resolve_right fun hold => ?_
    obtain ⟨s, hs, rfl⟩ := Manifests.mem_deactivate.1 hold
    exact hnew s hs (Manifest.deactivate_id _ _ s).symm
  · rintro rfl s hs
    exact id_ne_newRow hs

theorem together_stored : Together c
    { e.stored doc sum now c with events := (e.newRow doc sum now c).created :: c.events } := by
  intro ev
  constructor
  · rintro ⟨r, hr, hnew, rfl⟩
    obtain rfl := (isNew_stored hr).1 hnew
    exact ⟨List.mem_cons_self, fun hold => e.unannounced (deactivated doc now c) _ hold rfl⟩
  · rintro ⟨hmem, hnot⟩
    refine ⟨_, newRow_mem_stored, (isNew_stored newRow_mem_stored).2 rfl, ?_⟩
    exact ((List.mem_cons.1 hmem).resolve_right hnot).symm

/-- Without an event, a version is alone. -/
theorem not_together_stored : ¬ Together c (e.stored doc sum now c) := by
  intro h
  have hevent := (h (e.newRow doc sum now c).created).1
    ⟨_, newRow_mem_stored, (isNew_stored newRow_mem_stored).2 rfl, rfl⟩
  exact hevent.2 hevent.1

/-- A version and its event are committed together exactly for messages, or not at all. -/
theorem together_iff (e : Engine) (w : Writer) (limit : ℕ) (now : ℤ) (doc : ManifestDocument)
    (c : Ledger) :
    Together c (e.write w limit now doc c) ↔ w = .path .message ∨ ¬ e.Stores w limit doc c := by
  by_cases hstores : e.Stores w limit doc c
  · obtain ⟨hlimit, doc', sum, hplan⟩ := hstores
    have hwrite : e.write w limit now doc c =
        commit e doc' sum now w.statements limit c := by rw [write, hplan]
    rw [hwrite, commit_statements w hlimit]
    by_cases hw : w = .path .message
    · rw [if_pos hw]
      exact ⟨fun _ => .inl hw, fun _ => together_stored⟩
    · rw [if_neg hw]
      refine ⟨fun h => absurd h not_together_stored, ?_⟩
      rintro (hmessage | hnot)
      · exact absurd hmessage hw
      · exact absurd ⟨hlimit, doc', sum, hplan⟩ hnot
  · rw [write_of_not_stores hstores]
    exact ⟨fun _ => .inr hstores, fun _ => together_refl c⟩

end Engine

/-! ## The sample of a tenant -/

namespace Sample

theorem asciiLower_asciiLower (c : Char) : asciiLower (asciiLower c) = asciiLower c := by
  unfold asciiLower
  split_ifs with hupper hagain
  · have hlower : (Char.ofNat (c.toNat + 0x20)).toNat = c.toNat + 0x20 := by
      rw [Char.toNat_ofNat, if_pos]
      exact .inl (by omega)
    omega
  · rfl
  · rfl

theorem asciiLower_isLower (c : Char) (h : isLower c = true) : asciiLower c = c := by
  simp only [isLower, Bool.and_eq_true, decide_eq_true_eq] at h
  exact if_neg (by omega)

/-- The ids of the rows and the events. -/
def ids (c : Ledger) : List String :=
  c.manifests.rows.map Manifest.id ++ c.events.map ManifestCreated.manifestID

/-- An id that is longer than the ones that are in use. -/
def newID (c : Ledger) : String :=
  .ofList (List.replicate ((ids c).map String.length).sum.succ 'x')

theorem ne_newID {c : Ledger} {id : String} (h : id ∈ ids c) : id ≠ newID c := by
  intro heq
  have hle : id.length ≤ ((ids c).map String.length).sum :=
    List.single_le_sum (fun _ _ => Nat.zero_le _) _ (List.mem_map_of_mem h)
  rw [heq, newID, String.length_ofList, List.length_replicate] at hle
  exact Nat.not_succ_le_self _ hle

/-- Texts in ASCII, specifications that are all accepted, and the specification as checksum. -/
def engine : Engine where
  cm := ascii
  lower_lower := asciiLower_asciiLower
  lower_isLower := asciiLower_isLower
  validateSpec _ _ := .ok ()
  compareSpecs s s' := some (s = s')
  sum p := .ok (trimSpace p.spec)
  trimmed p s h := by
    cases h
    exact trimSpace_trimSpace p.spec
  newID := newID
  fresh c r hr := ne_newID (List.mem_append_left _ (List.mem_map_of_mem hr))
  unannounced c ev hev := ne_newID (List.mem_append_right _ (List.mem_map_of_mem hev))

/-- A document. -/
def tenant : ManifestDocument where
  apiVersion := "v1"
  kind := "tenant"
  metadata := { name := "acme" }
  spec := "\x7b\"slug\":\"acme\"\x7d"

end Sample

/-- A document that comes over HTTP is stored without an event. -/
theorem not_together :
    ¬ ∀ (e : Engine) (w : Writer) (limit : ℕ) (now : ℤ) (doc : ManifestDocument) (c : Ledger),
      Engine.Together c (e.write w limit now doc c) := by
  intro h
  have hrow : (Sample.engine.write (.path .http) 4 0 Sample.tenant {}).manifests.rows.length = 1 ∧
      (Sample.engine.write (.path .http) 4 0 Sample.tenant {}).events = [] := by
    decide +kernel
  obtain ⟨r, hr⟩ := List.exists_mem_of_length_pos (hrow.1 ▸ Nat.one_pos)
  have hevent := (h Sample.engine (.path .http) 4 0 Sample.tenant {} r.created).1
    ⟨r, hr, nofun, rfl⟩
  rw [hrow.2] at hevent
  cases hevent.1

end Yggdrasil.Catalog
