import Yggdrasil.Catalog.Store
import Yggdrasil.Lib.Locks
import Yggdrasil.Lib.Workers

/-!
# Writers of the catalog

Writers create versions of manifests and deactivate manifests, each in a read committed transaction.
An update waits for the rows that it has found and passes over those that are not active any more;
an insertion waits for a writer of the same key, and fails if the key is taken.
-/

namespace Yggdrasil.Catalog

/-- What statements lock: a row, a version of a manifest, and its active version. -/
inductive Key
  | row (id : String)
  | version (X : Identity) (version : ℕ)
  | active (X : Identity)
  deriving DecidableEq

/-- The committed rows, the locks of the open transactions, and the clock. -/
structure Db (W : Type) where
  manifests : Manifests := .empty
  locks : Locks W Key := fun _ => none
  clock : ℤ := 0

/-- A document to be stored, with its checksum and the number that was read for it. -/
structure Draft where
  doc : ManifestDocument
  checksum : String
  next : ℕ

/-- Where a writer is, and what its transaction has written. -/
inductive Phase
  | idle
  | numbered (draft : Draft) (now : ℤ)
  | marked (X : Identity) (now : ℤ)
  | updating (draft : Option Draft) (targets writes : List String) (now : ℤ)
  | inserted (row : Manifest) (writes : List String) (now : ℤ)

/-- The statements of writers. -/
inductive Call
  | tick (d : ℕ)
  | createManifestVersion (doc : ManifestDocument) (checksum : String)
  | markManifestInactive (id : String)
  | update
  | touch (id : String)
  | insert (id : String)
  | commit
  | fail

variable {W : Type} [DecidableEq W]

namespace Db

variable (i : W) (db : Db W)

/-- The rows that the update of a manifest finds. -/
def targets (X : Identity) : List String :=
  (db.manifests.rows.filter fun r => r.identity = X && r.active).map (·.id)

/-- A row is still active once it is locked. -/
def stillActive (id : String) : Bool := (db.manifests.get? id).any (·.active)

/-- The unique indexes let a row in, beside the rows that the transaction has made inactive. -/
def Admits (row : Manifest) (writes : List String) : Prop :=
  db.locks.Free i (.row row.id) ∧ db.locks.Free i (.version row.identity row.version) ∧
    (∀ r ∈ db.manifests.rows, r.id ≠ row.id ∧
      ¬ (r.identity = row.identity ∧ r.version = row.version)) ∧
    (row.active → db.locks.Free i (.active row.identity) ∧
      ∀ r ∈ db.manifests.rows, r.identity = row.identity → r.active → r.id ∈ writes)

instance (row : Manifest) (writes : List String) : Decidable (db.Admits i row writes) :=
  inferInstanceAs (Decidable (_ ∧ _ ∧ _ ∧ (_ → _)))

/-- The locks of an insertion. -/
def lockRow (row : Manifest) : Db W :=
  let locks := (db.locks.take i (.row row.id)).take i (.version row.identity row.version)
  { db with locks := if row.active then locks.take i (.active row.identity) else locks }

/-- The locks of a transaction are released. -/
def release : Db W := { db with locks := db.locks.release i }

/-- The rows that a transaction has made inactive become so for all. -/
def close (writes : List String) (now : ℤ) : Db W :=
  { db with manifests := db.manifests.deactivate now fun r => r.id ∈ writes }

/-- A row is inserted. -/
def addRow (row : Manifest) : Db W :=
  { db with manifests := (db.manifests.insert? row).getD db.manifests }

end Db

/-- What a call of a writer does, if it is possible. -/
def act (i : W) (call : Call) (db : Db W) (p : Phase) : Option (Db W × Phase) :=
  match call, p with
  | .tick d, p => some ({ db with clock := db.clock + d }, p)
  | .createManifestVersion doc checksum, .idle =>
    some (db, .numbered ⟨doc, checksum, db.manifests.nextVersion doc.identity⟩ db.clock)
  | .markManifestInactive id, .idle =>
    (db.manifests.get? id).map fun r => (db, .marked r.identity db.clock)
  | .update, .numbered draft now =>
    some (db, .updating draft (db.targets draft.doc.identity) [] now)
  | .update, .marked X now => some (db, .updating none (db.targets X) [] now)
  | .touch id, .updating draft targets writes now =>
    if ¬ (id ∈ targets ∧ db.locks.Free i (.row id)) then none
    else if db.stillActive id then
      some ({ db with locks := db.locks.take i (.row id) },
        .updating draft (targets.filter (· ≠ id)) (id :: writes) now)
    else some (db, .updating draft (targets.filter (· ≠ id)) writes now)
  | .insert id, .updating (some draft) [] writes now =>
    let row := draft.doc.row draft.checksum draft.next id now
    if db.Admits i row writes then some (db.lockRow i row, .inserted row writes now) else none
  | .commit, .updating none [] writes now => some ((db.close writes now).release i, .idle)
  | .commit, .inserted row writes now =>
    some (((db.close writes now).addRow row).release i, .idle)
  | .fail, _ => some (db.release i, .idle)
  | _, _ => none

/-! ## What a call does -/

/-- A call, and what it makes of the rows and of its writer. -/
inductive Acts (i : W) (db : Db W) : Call → Phase → Db W → Phase → Prop
  | tick (d p) : Acts i db (.tick d) p { db with clock := db.clock + d } p
  | number (doc checksum) :
      Acts i db (.createManifestVersion doc checksum) .idle db
        (.numbered ⟨doc, checksum, db.manifests.nextVersion doc.identity⟩ db.clock)
  | mark (id X) : Acts i db (.markManifestInactive id) .idle db (.marked X db.clock)
  | beginCreate (draft now) :
      Acts i db .update (.numbered draft now) db
        (.updating (some draft) (db.targets draft.doc.identity) [] now)
  | beginMark (X now) : Acts i db .update (.marked X now) db (.updating none (db.targets X) [] now)
  | touch (id draft targets writes now) (hfree : db.locks.Free i (.row id)) :
      Acts i db (.touch id) (.updating draft targets writes now)
        { db with locks := db.locks.take i (.row id) }
        (.updating draft (targets.filter (· ≠ id)) (id :: writes) now)
  | pass (id draft targets writes now) (hinactive : db.stillActive id = false) :
      Acts i db (.touch id) (.updating draft targets writes now) db
        (.updating draft (targets.filter (· ≠ id)) writes now)
  | insert (id draft writes now)
      (hadmits : db.Admits i (draft.doc.row draft.checksum draft.next id now) writes) :
      Acts i db (.insert id) (.updating (some draft) [] writes now)
        (db.lockRow i (draft.doc.row draft.checksum draft.next id now))
        (.inserted (draft.doc.row draft.checksum draft.next id now) writes now)
  | commitMark (writes now) :
      Acts i db .commit (.updating none [] writes now) ((db.close writes now).release i) .idle
  | commitCreate (row writes now) :
      Acts i db .commit (.inserted row writes now)
        (((db.close writes now).addRow row).release i) .idle
  | fail (p) : Acts i db .fail p (db.release i) .idle

variable {i j : W} {db db' : Db W} {call : Call} {p p' : Phase} {row : Manifest}

theorem acts (h : act i call db p = some (db', p')) : Acts i db call p db' p' := by
  unfold act at h
  split at h
  next =>
    cases h
    exact .tick _ _
  next doc checksum =>
    cases h
    exact .number doc checksum
  next id =>
    obtain ⟨r, -, hr⟩ := Option.map_eq_some_iff.1 h
    cases hr
    exact .mark id r.identity
  next draft now =>
    cases h
    exact .beginCreate draft now
  next X now =>
    cases h
    exact .beginMark X now
  next id draft targets writes now =>
    split_ifs at h with hwait hactive
    · cases h
      exact .touch id draft targets writes now hwait.2
    · cases h
      exact .pass id draft targets writes now (Bool.eq_false_iff.2 hactive)
  next id draft writes now =>
    dsimp only at h
    split_ifs at h with hadmits
    cases h
    exact .insert id draft writes now hadmits
  next writes now =>
    cases h
    exact .commitMark writes now
  next row writes now =>
    cases h
    exact .commitCreate row writes now
  next =>
    cases h
    exact .fail _
  · cases h

theorem Acts.locks_of_held (h : Acts i db call p db' p') (hj : j ≠ i) {k : Key}
    (hheld : db.locks k = some j) : db'.locks k = some j := by
  cases h with
  | tick | number | mark | beginCreate | beginMark | pass => exact hheld
  | touch id draft targets writes now hfree => exact Locks.take_of_held hfree hheld hj
  | insert id draft writes now hadmits =>
    obtain ⟨hrow, hversion, -, hactive⟩ := hadmits
    have hlocked := Locks.take_of_held (Locks.free_take hversion)
      (Locks.take_of_held hrow hheld hj) hj
    unfold Db.lockRow
    dsimp only
    split_ifs with hact
    · exact Locks.take_of_held (Locks.free_take (Locks.free_take (hactive hact).1)) hlocked hj
    · exact hlocked
  | commitMark | commitCreate | fail => exact Locks.release_of_held hheld hj

/-! ## Version numbers -/

namespace Manifests

variable {t t' : Manifests} {X : Identity} {v w : ℕ} {ids : List String} {new : Option Manifest}

/-- At most one version of a manifest is active, and it is the highest. -/
def SingleActive (t : Manifests) : Prop :=
  ∀ r ∈ t, r.active = true → ∀ s ∈ t, s.identity = r.identity →
    s.version ≤ r.version ∧ (s.active = true → s = r)

/-- The number is above those of all versions. -/
def Above (t : Manifests) (X : Identity) (v : ℕ) : Prop :=
  ∀ r ∈ t, r.identity = X → r.version < v

/-- A manifest has a version of the number. -/
def Taken (t : Manifests) (X : Identity) (v : ℕ) : Prop :=
  ∃ r ∈ t, r.identity = X ∧ r.version = v

/-- The number is the first one, or follows that of a version. -/
def Follows (t : Manifests) (X : Identity) (v : ℕ) : Prop :=
  v = 1 ∨ ∃ r ∈ t, r.identity = X ∧ r.version + 1 = v

/-- The active versions are among the given rows. -/
def Covered (t : Manifests) (X : Identity) (ids : List String) : Prop :=
  ∀ r ∈ t, r.identity = X → r.active = true → r.id ∈ ids

/-- No number follows a version beyond one that is above all of them. -/
theorem Follows.le (hv : t.Follows X v) (hw : t.Follows X w) (habove : t.Above X w) : v ≤ w := by
  rcases hv with rfl | ⟨r, hr, hX, rfl⟩
  · rcases hw with rfl | ⟨s, -, -, rfl⟩
    · exact le_rfl
    · exact Nat.succ_le_succ s.version.zero_le
  · exact habove r hr hX

/-- From `t` to `t'` all versions stay, none becomes active, and at most one is new. -/
structure Extends (t t' : Manifests) (new : Option Manifest) : Prop where
  keeps : ∀ r ∈ t, ∃ r' ∈ t', r'.identity = r.identity ∧ r'.version = r.version
  new_mem : ∀ row ∈ new, row ∈ t'
  old_or_new : ∀ r' ∈ t', some r' = new ∨ ∃ r ∈ t, r.id = r'.id ∧ r.identity = r'.identity ∧
    r.version = r'.version ∧ (r'.active = true → r = r')

theorem Extends.refl (t : Manifests) : t.Extends t none where
  keeps r hr := ⟨r, hr, rfl, rfl⟩
  new_mem := nofun
  old_or_new r hr := .inr ⟨r, hr, rfl, rfl, rfl, fun _ => rfl⟩

theorem extends_deactivate (t : Manifests) (now : ℤ) (p : Manifest → Bool) :
    t.Extends (t.deactivate now p) none where
  keeps r hr := ⟨_, mem_deactivate.2 ⟨r, hr, rfl⟩, r.deactivate_identity now p,
    r.deactivate_version now p⟩
  new_mem := nofun
  old_or_new r' hr' := by
    obtain ⟨r, hr, rfl⟩ := mem_deactivate.1 hr'
    exact .inr ⟨r, hr, (r.deactivate_id now p).symm, (r.deactivate_identity now p).symm,
      (r.deactivate_version now p).symm,
      fun hactive => (Manifest.deactivate_of_active hactive).2.symm⟩

theorem Extends.insert? (h : t.Extends t' none) {t'' : Manifests}
    (hinsert : t'.insert? row = some t'') : t.Extends t'' (some row) where
  keeps r hr := by
    obtain ⟨r', hr', hkeep⟩ := h.keeps r hr
    exact ⟨r', (Table.mem_of_insert? hinsert).2 (.inr hr'), hkeep⟩
  new_mem row hrow := (Table.mem_of_insert? hinsert).2 (.inl (Option.some.inj hrow).symm)
  old_or_new r' hr' := by
    rcases (Table.mem_of_insert? hinsert).1 hr' with rfl | hold
    · exact .inl rfl
    · exact .inr ((h.old_or_new r' hold).resolve_left nofun)

section Extends

variable (h : t.Extends t' new)
include h

theorem Extends.follows (hv : t.Follows X v) : t'.Follows X v := by
  refine hv.imp_right ?_
  rintro ⟨r, hr, hX, hv⟩
  obtain ⟨r', hr', hidentity, hversion⟩ := h.keeps r hr
  exact ⟨r', hr', hidentity.trans hX, hversion ▸ hv⟩

theorem Extends.taken (hv : t.Taken X v) : t'.Taken X v := by
  obtain ⟨r, hr, hX, hv⟩ := hv
  obtain ⟨r', hr', hidentity, hversion⟩ := h.keeps r hr
  exact ⟨r', hr', hidentity.trans hX, hversion.trans hv⟩

theorem Extends.above_of (hv : t'.Above X v) : t.Above X v := by
  intro r hr hX
  obtain ⟨r', hr', hidentity, hversion⟩ := h.keeps r hr
  exact hversion ▸ hv r' hr' (hidentity.trans hX)

variable (hnew : ∀ row ∈ new, row.identity ≠ X)
include hnew

/-- A row of a manifest that nothing new belongs to was there. -/
theorem Extends.exists_old {r' : Manifest} (hr' : r' ∈ t') (hX : r'.identity = X) :
    ∃ r ∈ t, r.identity = X ∧ r.version = r'.version ∧ (r'.active = true → r = r') := by
  rcases h.old_or_new r' hr' with heq | ⟨r, hr, -, hidentity, hrest⟩
  · exact absurd hX (hnew r' heq.symm)
  · exact ⟨r, hr, hidentity.trans hX, hrest⟩

theorem Extends.above (hv : t.Above X v) : t'.Above X v := by
  intro r' hr' hX
  obtain ⟨r, hr, hidentity, hversion, -⟩ := h.exists_old hnew hr' hX
  exact hversion ▸ hv r hr hidentity

theorem Extends.covered (hids : t.Covered X ids) : t'.Covered X ids := by
  intro r' hr' hX hactive
  obtain ⟨r, hr, hidentity, -, heq⟩ := h.exists_old hnew hr' hX
  obtain rfl := heq hactive
  exact hids r hr hidentity hactive

end Extends

/-- Kept by a step whose new version is the highest and the only active one. -/
theorem SingleActive.of_extends (hsingle : t.SingleActive) (h : t.Extends t' new)
    (hnew : ∀ row ∈ new, t.Above row.identity row.version ∧
      ∀ r ∈ t', r.identity = row.identity → r.active = true → r = row) :
    t'.SingleActive := by
  intro r' hr' hactive s' hs' hsame
  rcases h.old_or_new r' hr' with heq | ⟨r, hr, -, -, -, hr_eq⟩
  · obtain ⟨habove, honly⟩ := hnew r' heq.symm
    refine ⟨?_, honly s' hs' hsame⟩
    rcases h.old_or_new s' hs' with hs_new | ⟨s, hs, -, hs_identity, hs_version, -⟩
    · rw [Option.some.inj (hs_new.trans heq.symm)]
    · exact hs_version ▸ (habove s hs (hs_identity.trans hsame)).le
  · obtain rfl := hr_eq hactive
    rcases h.old_or_new s' hs' with hs_new | ⟨s, hs, -, hs_identity, hs_version, hs_eq⟩
    · -- a new version of the manifest would be the only active one
      obtain rfl := (hnew s' hs_new.symm).2 r hr' hsame.symm hactive
      exact ⟨le_rfl, fun _ => rfl⟩
    · obtain ⟨hle, honly⟩ := hsingle r hr hactive s hs (hs_identity.trans hsame)
      refine ⟨hs_version ▸ hle, fun hs_active => ?_⟩
      obtain rfl := hs_eq hs_active
      exact honly hs_active

end Manifests

/-! ## What writers know -/

/-- What holds of the number that a writer has read: it is above all versions, or it is taken. -/
structure Claims (t : Manifests) (X : Identity) (v : ℕ) : Prop where
  follows : t.Follows X v
  above_or_taken : t.Above X v ∨ t.Taken X v

/-- What holds of a writer. -/
def Holds (i : W) (db : Db W) : Phase → Prop
  | .idle | .marked _ _ | .updating none _ _ _ => True
  | .numbered draft _ => Claims db.manifests draft.doc.identity draft.next
  | .updating (some draft) targets writes _ =>
    Claims db.manifests draft.doc.identity draft.next ∧
      (db.manifests.Above draft.doc.identity draft.next →
        db.manifests.Covered draft.doc.identity (targets ++ writes))
  | .inserted row writes _ =>
    db.manifests.Follows row.identity row.version ∧ db.manifests.Above row.identity row.version ∧
      db.manifests.Covered row.identity writes ∧ (∀ r ∈ db.manifests, r.id ≠ row.id) ∧
      db.locks (.row row.id) = some i ∧ db.locks (.version row.identity row.version) = some i

/-- The row that a commit adds. -/
def newRow : Call → Phase → Option Manifest
  | .commit, .inserted row _ _ => some row
  | _, _ => none

omit [DecidableEq W] in
theorem Holds.insert? {writes : List String} {now : ℤ} (h : Holds i db (.inserted row writes now)) :
    ∃ t, (db.close writes now).manifests.insert? row = some t := by
  cases hinsert : (db.close writes now).manifests.insert? row with
  | some t => exact ⟨t, rfl⟩
  | none =>
    obtain ⟨r', hr', hid⟩ := Table.insert?_eq_none.1 hinsert
    obtain ⟨r, hr, rfl⟩ := Manifests.mem_deactivate.1 hr'
    exact absurd ((Manifest.deactivate_id _ _ r).symm.trans hid) (h.2.2.2.1 r hr)

theorem Acts.extends (h : Acts i db call p db' p') (hp : Holds i db p) :
    db.manifests.Extends db'.manifests (newRow call p) := by
  cases h with
  | tick | number | mark | beginCreate | beginMark | touch | pass | fail => exact .refl _
  | insert => exact .refl _
  | commitMark writes now => exact Manifests.extends_deactivate _ now _
  | commitCreate row writes now =>
    obtain ⟨t, hinsert⟩ := hp.insert?
    have hrows : (((db.close writes now).addRow row).release i).manifests = t := by
      rw [Db.release, Db.addRow, hinsert, Option.getD_some]
    rw [hrows]
    exact (Manifests.extends_deactivate _ now _).insert? hinsert

omit [DecidableEq W] in
/-- Who adds a row has claimed its number. -/
theorem Holds.newRow (hp : Holds i db p) (hrow : row ∈ newRow call p) :
    db.manifests.Follows row.identity row.version ∧ db.manifests.Above row.identity row.version ∧
      db.locks (.row row.id) = some i ∧ db.locks (.version row.identity row.version) = some i := by
  unfold Catalog.newRow at hrow
  split at hrow
  next row' writes now =>
    obtain rfl := Option.some.inj hrow
    exact ⟨hp.1, hp.2.1, hp.2.2.2.2⟩
  · cases hrow

/-- A claim survives what others commit, unless it is the version that is claimed. -/
theorem Claims.of_extends {t t' : Manifests} {X : Identity} {v : ℕ} {new : Option Manifest}
    (hc : Claims t X v) (h : t.Extends t' new)
    (hnew : ∀ row ∈ new, t.Follows row.identity row.version ∧ t.Above row.identity row.version) :
    Claims t' X v ∧ (t'.Above X v → ∀ row ∈ new, row.identity ≠ X) := by
  have hle : ∀ row ∈ new, row.identity = X → v ≤ row.version := by
    rintro row hrow rfl
    exact hc.follows.le (hnew row hrow).1 (hnew row hrow).2
  refine ⟨⟨h.follows hc.follows, ?_⟩, ?_⟩
  · rcases hc.above_or_taken with habove | htaken
    · by_cases hother : ∀ row ∈ new, row.identity ≠ X
      · exact .inl (h.above hother habove)
      · push Not at hother
        obtain ⟨row, hrow, rfl⟩ := hother
        have heq : row.version = v :=
          le_antisymm ((hnew row hrow).1.le hc.follows habove) (hle row hrow rfl)
        exact .inr ⟨row, h.new_mem row hrow, rfl, heq⟩
    · exact .inr (h.taken htaken)
  · intro habove row hrow hX
    exact (habove row (h.new_mem row hrow) hX).not_ge (hle row hrow hX)

theorem Acts.holds_other (h : Acts i db call p db' p') (hp : Holds i db p) (hj : j ≠ i) {q : Phase}
    (hq : Holds j db q) : Holds j db' q := by
  have hext := h.extends hp
  have hnew : ∀ row ∈ newRow call p, db.manifests.Follows row.identity row.version ∧
      db.manifests.Above row.identity row.version := fun row hrow =>
    ⟨(hp.newRow hrow).1, (hp.newRow hrow).2.1⟩
  match q with
  | .idle | .marked _ _ | .updating none _ _ _ => exact trivial
  | .numbered draft now => exact (Claims.of_extends hq hext hnew).1
  | .updating (some draft) targets writes now =>
    obtain ⟨hclaims, hother⟩ := hq.1.of_extends hext hnew
    exact ⟨hclaims, fun habove => hext.covered (hother habove) (hq.2 (hext.above_of habove))⟩
  | .inserted own writes now =>
    obtain ⟨hfollows, habove, hcovered, hfresh, hrow, hversion⟩ := hq
    -- the entry of the index is held, so that no one else commits a version of the manifest
    have hother : ∀ row ∈ newRow call p, row.identity ≠ own.identity := by
      intro row hmem hX
      obtain ⟨hnew_follows, hnew_above, -, hlock⟩ := hp.newRow hmem
      rw [hX] at hnew_follows hnew_above
      have heq : row.version = own.version :=
        le_antisymm (hnew_follows.le hfollows habove) (hfollows.le hnew_follows hnew_above)
      rw [hX, heq, hversion] at hlock
      exact hj (Option.some.inj hlock)
    refine ⟨hext.follows hfollows, hext.above hother habove, hext.covered hother hcovered, ?_,
      h.locks_of_held hj hrow, h.locks_of_held hj hversion⟩
    intro r' hr' hid
    rcases hext.old_or_new r' hr' with heq | ⟨r, hr, hrid, -⟩
    · have hlock := (hp.newRow heq.symm).2.2.1
      rw [hid, hrow] at hlock
      exact hj (Option.some.inj hlock)
    · exact hfresh r hr (hrid.trans hid)

omit [DecidableEq W] in
theorem lockRow_row (row : Manifest) : (db.lockRow i row).locks (.row row.id) = some i := by
  have htaken : ((db.locks.take i (.row row.id)).take i (.version row.identity row.version))
      (.row row.id) = some i := Locks.take_of_own Locks.take_self
  unfold Db.lockRow
  dsimp only
  split_ifs
  · exact Locks.take_of_own htaken
  · exact htaken

omit [DecidableEq W] in
theorem lockRow_version (row : Manifest) :
    (db.lockRow i row).locks (.version row.identity row.version) = some i := by
  unfold Db.lockRow
  dsimp only
  split_ifs
  · exact Locks.take_of_own Locks.take_self
  · exact Locks.take_self

theorem Acts.holds_self (h : Acts i db call p db' p') (hp : Holds i db p) : Holds i db' p' := by
  cases h with
  | tick => cases p <;> exact hp
  | number doc checksum =>
    exact ⟨db.manifests.nextVersion_eq_one_or _, .inl fun _ => Manifests.lt_nextVersion⟩
  | mark | beginMark | commitMark | commitCreate | fail => exact trivial
  | beginCreate draft now =>
    refine ⟨hp, fun _ r hr hX hactive => ?_⟩
    rw [List.append_nil]
    exact List.mem_map_of_mem (List.mem_filter.2 ⟨hr, by simp [hX, hactive]⟩)
  | touch id draft targets writes now =>
    cases draft with
    | none => exact trivial
    | some draft =>
      refine ⟨hp.1, fun habove r hr hX hactive => ?_⟩
      have hmem := hp.2 habove r hr hX hactive
      by_cases hid : r.id = id
      · simp [hid]
      · simpa [hid] using hmem
  | pass id draft targets writes now hinactive =>
    cases draft with
    | none => exact trivial
    | some draft =>
      refine ⟨hp.1, fun habove r hr hX hactive => ?_⟩
      have hid : r.id ≠ id := by
        rintro rfl
        rw [Db.stillActive, Table.get?_eq_some.2 ⟨hr, rfl⟩, Option.any_some, hactive] at hinactive
        cases hinactive
      simpa [hid] using hp.2 habove r hr hX hactive
  | insert id draft writes now hadmits =>
    obtain ⟨hclaims, hcovered⟩ := hp
    have hunique := hadmits.2.2.1
    -- the index has let the number in, so that it is above all versions
    have habove : db.manifests.Above draft.doc.identity draft.next := by
      refine hclaims.above_or_taken.resolve_right ?_
      rintro ⟨r, hr, hX, hv⟩
      exact (hunique r hr).2 ⟨hX, hv⟩
    exact ⟨hclaims.follows, habove, hcovered habove, fun r hr => (hunique r hr).1, lockRow_row _,
      lockRow_version _⟩

theorem Acts.singleActive (h : Acts i db call p db' p') (hp : Holds i db p)
    (hsingle : db.manifests.SingleActive) : db'.manifests.SingleActive := by
  refine hsingle.of_extends (h.extends hp) ?_
  intro row hrow
  refine ⟨(hp.newRow hrow).2.1, ?_⟩
  cases h with
  | commitCreate new writes now =>
    obtain rfl : new = row := Option.some.inj hrow
    obtain ⟨t, hinsert⟩ := hp.insert?
    intro r' hr' hX hactive
    have hmem : r' ∈ t := by
      rwa [Db.release, Db.addRow, hinsert, Option.getD_some] at hr'
    rcases (Table.mem_of_insert? hinsert).1 hmem with rfl | hold
    · rfl
    · -- what was active of the manifest is among the rows that the transaction has updated
      obtain ⟨r, hr, rfl⟩ := Manifests.mem_deactivate.1 hold
      obtain ⟨hnot, hsame⟩ := Manifest.deactivate_of_active hactive
      rw [hsame] at hX hactive
      exact absurd (hp.2.2.1 r hr hX hactive) (by simpa using hnot)
  | _ => cases hrow

/-- In every run of writers, one version of a manifest is active, and none is higher. -/
theorem singleActive_after (calls : ℕ → W × Call) (db : Db W) (h : db.manifests.SingleActive)
    (n : ℕ) : (World.after act calls ⟨db, fun _ => .idle⟩ n).shared.manifests.SingleActive := by
  have hsound : (World.after act calls ⟨db, fun _ => .idle⟩ n).Sound
      (fun db : Db W => db.manifests.SingleActive) Holds := by
    refine World.sound_after ⟨h, fun _ => trivial⟩ (fun n hsound => ?_) n
    refine hsound.step fun db' p' hact => ?_
    have hacts := acts hact
    have hself := hsound.2 (calls n).1
    exact ⟨hacts.singleActive hself hsound.1, hacts.holds_self hself,
      fun j hj => hacts.holds_other hself hj (hsound.2 j)⟩
  exact hsound.1

/-- The numbers of a manifest begin at one and have no gaps. -/
def Manifests.Gapless (t : Manifests) : Prop :=
  ∀ r ∈ t, ∀ v, 0 < v → v ≤ r.version → t.Taken r.identity v

theorem Manifests.Gapless.of_extends {t t' : Manifests} {new : Option Manifest} (ht : t.Gapless)
    (h : t.Extends t' new) (hnew : ∀ row ∈ new, t.Follows row.identity row.version) :
    t'.Gapless := by
  intro r' hr' v hv hle
  rcases h.old_or_new r' hr' with heq | ⟨r, hr, -, hidentity, hversion, -⟩
  · rcases hle.eq_or_lt with rfl | hlt
    · exact ⟨r', hr', rfl, rfl⟩
    · rcases hnew r' heq.symm with hone | ⟨r, hr, hidentity, hversion⟩
      · omega
      · exact h.taken (hidentity ▸ ht r hr v hv (by omega))
  · exact h.taken (hidentity ▸ ht r hr v hv (hversion ▸ hle))

/-- However the writers interleave, numbers without gaps stay without gaps. -/
theorem gapless_monotone (calls : ℕ → W × Call) (db : Db W) :
    Monotone fun n => (World.after act calls ⟨db, fun _ => .idle⟩ n).shared.manifests.Gapless := by
  have hholds (n : ℕ) : (World.after act calls ⟨db, fun _ => .idle⟩ n).Sound (fun _ => True)
      Holds :=
    World.sound_after ⟨trivial, fun _ => trivial⟩ (fun n ih => ih.step fun _ _ hact =>
      ⟨trivial, (acts hact).holds_self (ih.2 _),
        fun j hj => (acts hact).holds_other (ih.2 _) hj (ih.2 j)⟩) n
  refine monotone_nat_of_le_succ fun n ht => ?_
  rw [World.after_succ]
  obtain heq | ⟨s, p, hact, heq⟩ := World.step_cases act (World.after act calls _ n) (calls n)
  · rwa [heq]
  · rw [heq]
    have hp := (hholds n).2 (calls n).1
    exact ht.of_extends ((acts hact).extends hp) fun row hrow => (hp.newRow hrow).1

namespace Sample

/-- A document of a manifest, active or not. -/
def document (active : Bool) : ManifestDocument where
  apiVersion := "v1"
  kind := "workflow"
  metadata := { name := "backup", namespace_ := "global", active := some active }
  spec := "\x7b\x7d"

/-- Two writers read the same number; the one with a tombstone commits, the other fails. -/
def writers : List (Bool × Call) :=
  [(true, .createManifestVersion (document true) "a"), (true, .update), (true, .insert "m1"),
   (true, .commit),
   (true, .createManifestVersion (document true) "b"),
   (false, .createManifestVersion (document false) "c"),
   (false, .update), (false, .touch "m1"), (true, .update), (true, .touch "m1"),
   (false, .insert "m2"), (false, .commit),
   (true, .touch "m1"), (true, .insert "m3"), (true, .fail)]

/-- The statements of the writers, after which time stands still. -/
def calls (n : ℕ) : Bool × Call := writers.getD n (true, .tick 0)

end Sample

/-- The versions of the sample, with their activity, after the commits and at the end. -/
theorem singleActive_writers :
    (World.after act Sample.calls ⟨{}, fun _ => .idle⟩ 4).shared.manifests.rows.map
        (fun r => (r.version, r.active)) = [(1, true)] ∧
      (∀ n ∈ [12, 15],
        (World.after act Sample.calls ⟨{}, fun _ => .idle⟩ n).shared.manifests.rows.map
          (fun r => (r.version, r.active)) = [(2, false), (1, false)]) ∧
      ∀ n, (World.after act Sample.calls ⟨{}, fun _ => .idle⟩ n).shared.manifests.SingleActive :=
  ⟨by decide +kernel, by decide +kernel, singleActive_after Sample.calls {} nofun⟩

end Yggdrasil.Catalog
