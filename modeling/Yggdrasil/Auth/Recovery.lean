import Yggdrasil.Lib.Go
import Yggdrasil.Lib.Locks
import Yggdrasil.Lib.Value
import Yggdrasil.Lib.Workers

/-!
# Recovery codes

A call verifies a recovery code in a transaction: it locks and reads the stored digests, and writes
them without the digest of the code. A call that finds the row locked waits, and then reads what is
committed.
-/

namespace Yggdrasil.Auth.Recovery

open Function Text

/-! ## Codes -/

/-- The upper case of a character, and the digest of a text. -/
structure Codec where
  upper : Char → Char
  sha256 : String → String

section Codes

variable (codec : Codec)

/-- The code without hyphens, in upper case. -/
def normalizeRecoveryCode (code : String) : String :=
  .ofList (((trimSpace code).toList.filter (· ≠ '-')).map codec.upper)

/-- The hash of a code in this form. -/
def hashRecoveryCode (code : String) : String := codec.sha256 (normalizeRecoveryCode codec code)

/-- The index of the first digest that is the one of the code. -/
def verifyRecoveryCode (code : String) (storedHashes : List String) : Option ℕ :=
  storedHashes.idxOf? (hashRecoveryCode codec code)

variable {codec} {code : String} {hashes : List String}

/-- The digests without the one that was found are all the others. -/
theorem eraseIdx_of_verifyRecoveryCode {index : ℕ} (hnodup : hashes.Nodup)
    (h : verifyRecoveryCode codec code hashes = some index) :
    hashRecoveryCode codec code ∈ hashes ∧
      hashes.eraseIdx index = hashes.filter (· ≠ hashRecoveryCode codec code) := by
  have hmem : hashRecoveryCode codec code ∈ hashes :=
    List.isSome_idxOf?.1 (Option.isSome_of_eq_some h)
  obtain ⟨-, rfl⟩ := List.findIdx?_eq_some_iff_findIdx_eq.1 h
  refine ⟨hmem, ?_⟩
  have herase := List.eraseIdx_idxOf_eq_erase (hashRecoveryCode codec code) hashes
  rw [hnodup.erase_eq_filter] at herase
  refine Eq.trans herase (List.filter_congr fun h _ => ?_)
  exact (decide_not).symm

end Codes

/-! ## Calls -/

/-- The digests of each collaborator, who has locked them, and the codes that were accepted. -/
structure Db (W : Type) where
  hashes : String → Option (List String)
  locks : Locks W String := fun _ => none
  accepted : List (String × String) := []

/-- Where a call is: before its transaction, in it, with the digests read, or with them written. -/
inductive Phase
  | idle
  | called (collaboratorID code : String)
  | begun (collaboratorID code : String)
  | read (collaboratorID code : String) (hashes : List String)
  | updated (collaboratorID code : String) (remaining : List String)
  | ended (outcome : Except Fault Unit)

namespace Phase

/-- The call is not between its lock and its end. -/
def Quiet : Phase → Prop
  | read _ _ _ | updated _ _ _ => False
  | _ => True

/-- The worker can be called. -/
def Free : Phase → Prop
  | idle | ended _ => True
  | _ => False

/-- The request ends with an error. -/
def refused (e : String) : Phase := ended (.error (.errorf e []))

end Phase

/-- A call begins, executes its next statement, or fails at it. -/
inductive Call
  | verifyAndInvalidateRecoveryCode (collaboratorID code : String)
  | next
  | fail (e : Fault)

section Statements

variable {W : Type} [DecidableEq W] (codec : Codec) (db : Db W) (i : W)

/-- The row is locked once no other transaction has it, and then read. -/
def selectForUpdate (collaboratorID code : String) : Option (Db W × Phase) :=
  match db.hashes collaboratorID with
  | none => some (db, .refused "auth identity not found")
  | some hashes =>
    if db.locks.Free i collaboratorID then
      some ({ db with locks := db.locks.take i collaboratorID }, .read collaboratorID code hashes)
    else none

/-- The next statement of `VerifyAndInvalidateRecoveryCode`. -/
def next : Phase → Option (Db W × Phase)
  | .called collaboratorID code => some (db, .begun collaboratorID code)
  | .begun collaboratorID code => selectForUpdate db i collaboratorID code
  | .read collaboratorID code hashes =>
    match verifyRecoveryCode codec code hashes with
    | none => some ({ db with locks := db.locks.release i }, .refused "invalid recovery code")
    | some index =>
      if (db.hashes collaboratorID).isNone then
        some ({ db with locks := db.locks.release i }, .refused "auth identity not found")
      else some (db, .updated collaboratorID code (hashes.eraseIdx index))
  | .updated collaboratorID code remaining =>
    some ({ hashes := update db.hashes collaboratorID (some remaining)
            locks := db.locks.release i
            accepted := (collaboratorID, code) :: db.accepted }, .ended (.ok ()))
  | .idle | .ended _ => none

/-- The error of a call that fails at its next statement. -/
def failure (e : Fault) : Phase → Option Fault
  | .called _ _ => some (.wrap "begin recovery-code verification: %w" [] e)
  | .begun _ _ => some (.wrap "read recovery codes: %w" [] e)
  | .read _ _ _ => some (.wrap "invalidate recovery code: %w" [] e)
  | .updated _ _ _ => some (.wrap "commit recovery-code verification: %w" [] e)
  | .idle | .ended _ => none

/-- What a call does. -/
def act (call : Call) (db : Db W) (phase : Phase) : Option (Db W × Phase) :=
  match call, phase with
  | .verifyAndInvalidateRecoveryCode collaboratorID code, .idle
  | .verifyAndInvalidateRecoveryCode collaboratorID code, .ended _ =>
    some (db, if trimSpace code = "" then .refused "invalid recovery code"
      else .called collaboratorID (trimSpace code))
  | .verifyAndInvalidateRecoveryCode _ _, _ => none
  | .next, phase => next codec db i phase
  | .fail e, phase =>
    (failure e phase).map fun e => ({ db with locks := db.locks.release i }, .ended (.error e))

end Statements

variable {W : Type} [DecidableEq W] {codec : Codec}

/-- What an act does. -/
inductive Acts (codec : Codec) (i : W) (db : Db W) : Phase → Db W → Phase → Prop
  | turns {phase phase' : Phase} (h : phase'.Quiet) : Acts codec i db phase db phase'
  | releases {phase phase' : Phase} (h : phase'.Quiet) :
      Acts codec i db phase { db with locks := db.locks.release i } phase'
  | reads {c code : String} {hashes : List String} (hrow : db.hashes c = some hashes)
      (hfree : db.locks.Free i c) :
      Acts codec i db (.begun c code) { db with locks := db.locks.take i c } (.read c code hashes)
  | updates {c code : String} {hashes : List String} {index : ℕ}
      (hindex : verifyRecoveryCode codec code hashes = some index) :
      Acts codec i db (.read c code hashes) db (.updated c code (hashes.eraseIdx index))
  | commits (c code : String) (remaining : List String) :
      Acts codec i db (.updated c code remaining)
        { hashes := update db.hashes c (some remaining)
          locks := db.locks.release i
          accepted := (c, code) :: db.accepted } (.ended (.ok ()))

section Acts

variable {i : W} {call : Call} {db db' : Db W} {phase phase' : Phase}

theorem acts_next (h : next codec db i phase = some (db', phase')) :
    Acts codec i db phase db' phase' := by
  cases phase with
  | idle => cases h
  | ended outcome => cases h
  | called c code =>
    cases h
    exact .turns trivial
  | begun c code =>
    rw [next, selectForUpdate] at h
    cases hrow : db.hashes c with
    | none =>
      rw [hrow] at h
      cases h
      exact .turns trivial
    | some hashes =>
      rw [hrow] at h
      dsimp only at h
      split_ifs at h with hfree
      cases h
      exact .reads hrow hfree
  | read c code hashes =>
    rw [next] at h
    cases hindex : verifyRecoveryCode codec code hashes with
    | none =>
      rw [hindex] at h
      cases h
      exact .releases trivial
    | some index =>
      rw [hindex] at h
      dsimp only at h
      split_ifs at h
      · cases h
        exact .releases trivial
      · cases h
        exact .updates hindex
  | updated c code remaining =>
    cases h
    exact .commits c code remaining

theorem acts (h : act codec i call db phase = some (db', phase')) :
    Acts codec i db phase db' phase' := by
  cases call with
  | verifyAndInvalidateRecoveryCode c code =>
    have hquiet : (if trimSpace code = "" then Phase.refused "invalid recovery code"
        else .called c (trimSpace code)).Quiet := by split_ifs <;> trivial
    cases phase with
    | idle =>
      cases h
      exact .turns hquiet
    | ended outcome =>
      cases h
      exact .turns hquiet
    | _ => cases h
  | next => exact acts_next h
  | fail e =>
    obtain ⟨e', -, heq⟩ := Option.map_eq_some_iff.1 (show (failure e phase).map _ = _ from h)
    cases heq
    exact .releases trivial

end Acts

/-! ## What is stored -/

namespace Db

variable (codec) in
/-- The digests of the codes of a collaborator that were accepted. -/
def spent (db : Db W) (c : String) : List String :=
  (db.accepted.filter (·.1 = c)).map (hashRecoveryCode codec ·.2)

omit [DecidableEq W] in
theorem spent_of_accepted {db db' : Db W} {c code : String}
    (h : db'.accepted = (c, code) :: db.accepted) (c' : String) :
    db'.spent codec c' =
      if c = c' then hashRecoveryCode codec code :: db.spent codec c' else db.spent codec c' := by
  rw [spent, h]
  split_ifs with hc <;> simp [hc, spent]

omit [DecidableEq W] in
theorem count_spent (db : Db W) (c h : String) : (db.spent codec c).count h =
    db.accepted.countP fun p => p.1 = c ∧ hashRecoveryCode codec p.2 = h := by
  rw [spent, List.count, List.countP_map, List.countP_filter]
  refine List.countP_congr fun p _ => ?_
  simp [and_comm]

omit [DecidableEq W] in
theorem mem_spent (db : Db W) (c h : String) : h ∈ db.spent codec c ↔
    ∃ p ∈ db.accepted, p.1 = c ∧ hashRecoveryCode codec p.2 = h := by
  simp [spent, and_assoc]

end Db

/-- What is stored of the issued digests is what was not spent, and each was spent once. -/
structure Spent (codec : Codec) (issued : List String) (c : String) (db : Db W) : Prop where
  stored : db.hashes c = some (issued.filter fun h => h ∉ db.spent codec c)
  nodup : (db.spent codec c).Nodup
  issued : ∀ h ∈ db.spent codec c, h ∈ issued

/-- A call between its lock and its end has the lock, and has seen what is stored. -/
def Holds (codec : Codec) (i : W) (db : Db W) : Phase → Prop
  | .read c _ hashes => db.locks c = some i ∧ db.hashes c = some hashes
  | .updated c code remaining => db.locks c = some i ∧ ∃ hashes index,
      db.hashes c = some hashes ∧ verifyRecoveryCode codec code hashes = some index ∧
        remaining = hashes.eraseIdx index
  | _ => True

section Step

variable {issued : List String} {c : String} {db : Db W} {i j : W} {phase : Phase}

omit [DecidableEq W] in
/-- A code that is found in what is stored was not spent, and is then. -/
theorem Spent.accept (h : Spent codec issued c db) (hissued : issued.Nodup) {code : String}
    {hashes : List String} {index : ℕ} (hrow : db.hashes c = some hashes)
    (hindex : verifyRecoveryCode codec code hashes = some index) (locks : Locks W String) :
    Spent codec issued c
      { hashes := update db.hashes c (some (hashes.eraseIdx index))
        locks
        accepted := (c, code) :: db.accepted } := by
  obtain rfl : hashes = issued.filter fun h => h ∉ db.spent codec c :=
    Option.some.inj (hrow.symm.trans h.stored)
  obtain ⟨hmem, herase⟩ := eraseIdx_of_verifyRecoveryCode (hissued.filter _) hindex
  obtain ⟨hin, hnot⟩ := List.mem_filter.1 hmem
  generalize hdb' : (Db.mk _ locks ((c, code) :: db.accepted) : Db W) = db'
  have hspent : db'.spent codec c = hashRecoveryCode codec code :: db.spent codec c := by
    rw [Db.spent_of_accepted (by rw [← hdb']), if_pos rfl]
  refine ⟨?_, ?_, ?_⟩
  · rw [hspent, ← hdb', herase, List.filter_filter]
    refine (update_self _ _ _).trans (congrArg some (List.filter_congr fun h _ => ?_))
    simp
  · rw [hspent]
    exact List.nodup_cons.2 ⟨of_decide_eq_true hnot, h.nodup⟩
  · rw [hspent]
    exact List.forall_mem_cons.2 ⟨hin, h.issued⟩

omit [DecidableEq W] in
theorem Spent.of_ne (h : Spent codec issued c db) {c' : String} (hne : c ≠ c') (code : String)
    (remaining : Option (List String)) (locks : Locks W String) :
    Spent codec issued c
      { hashes := update db.hashes c' remaining
        locks
        accepted := (c', code) :: db.accepted } := by
  generalize hdb' : (Db.mk _ locks ((c', code) :: db.accepted) : Db W) = db'
  have hspent : db'.spent codec c = db.spent codec c := by
    rw [Db.spent_of_accepted (by rw [← hdb']), if_neg hne.symm]
  refine ⟨?_, hspent ▸ h.nodup, hspent ▸ h.issued⟩
  rw [hspent, ← hdb']
  exact (update_of_ne hne _ _).trans h.stored

omit [DecidableEq W] in
/-- What a call has locked and seen stays so when the lock is kept, and the row. -/
theorem Holds.mono {db' : Db W} (h : Holds codec j db phase)
    (hkeeps : ∀ c, db.locks c = some j → db'.locks c = some j ∧ db'.hashes c = db.hashes c) :
    Holds codec j db' phase := by
  cases phase with
  | read c code hashes =>
    obtain ⟨hlock, hrow⟩ := h
    obtain ⟨hlock', hrow'⟩ := hkeeps c hlock
    exact ⟨hlock', hrow'.trans hrow⟩
  | updated c code remaining =>
    obtain ⟨hlock, hashes, index, hrow, hindex⟩ := h
    obtain ⟨hlock', hrow'⟩ := hkeeps c hlock
    exact ⟨hlock', hashes, index, hrow'.trans hrow, hindex⟩
  | _ => trivial

omit [DecidableEq W] in
theorem holds_of_quiet (h : phase.Quiet) : Holds codec i db phase := by
  cases phase <;> trivial

/-- An act keeps what is stored in order, and what its worker and the others hold. -/
theorem sound_step (hissued : issued.Nodup) {w : World W (Db W) Phase} {call : W × Call}
    (h : w.Sound (Spent codec issued c) (Holds codec)) :
    (World.step (act codec) call w).Sound (Spent codec issued c) (Holds codec) := by
  refine h.step fun db phase hact => ?_
  have hacts := acts hact
  have hself := h.2 call.1
  generalize w.own call.1 = before at hacts hself
  cases hacts with
  | turns hquiet => exact ⟨h.1, holds_of_quiet hquiet, fun j _ => h.2 j⟩
  | releases hquiet =>
    refine ⟨⟨h.1.stored, h.1.nodup, h.1.issued⟩, holds_of_quiet hquiet, fun j hj => ?_⟩
    exact (h.2 j).mono fun c hlock => ⟨Locks.release_of_held hlock hj, rfl⟩
  | reads hrow hfree =>
    refine ⟨⟨h.1.stored, h.1.nodup, h.1.issued⟩, ⟨Locks.take_self, hrow⟩, fun j hj => ?_⟩
    exact (h.2 j).mono fun c hlock => ⟨Locks.take_of_held hfree hlock hj, rfl⟩
  -- The digests that were read are still those that are stored, as the row is locked.
  | updates hindex =>
    exact ⟨h.1, ⟨hself.1, _, _, hself.2, hindex, rfl⟩, fun j _ => h.2 j⟩
  | commits c' code remaining =>
    obtain ⟨hlock, hashes, index, hrow, hindex, rfl⟩ := hself
    refine ⟨?_, trivial, fun j hj => ?_⟩
    · by_cases hc : c = c'
      · subst hc
        exact h.1.accept hissued hrow hindex _
      · exact h.1.of_ne hc code _ _
    · -- The others have locked other rows.
      refine (h.2 j).mono fun c hheld => ⟨Locks.release_of_held hheld hj, ?_⟩
      refine update_of_ne (fun heq => ?_) _ _
      rw [heq, hlock] at hheld
      exact hj (Option.some.inj hheld).symm

end Step

/-! ## Use -/

/-- A call that is made and goes on to its end, while the others wait. -/
def alone (i : W) (c code : String) (n : ℕ) : W × Call :=
  (i, if n = 0 then .verifyAndInvalidateRecoveryCode c code else .next)

/-- Every spelling of the code is accepted, once the row is not locked. -/
def Usable (codec : Codec) (w : World W (Db W) Phase) (c k : String) : Prop :=
  ∀ i code, trimSpace code ≠ "" → hashRecoveryCode codec code = hashRecoveryCode codec k →
    (w.own i).Free → w.shared.locks.Free i c →
    (World.after (act codec) (alone i c code) w 5).own i = .ended (.ok ())

theorem usable_of_mem {w : World W (Db W) Phase} {c k : String} {hashes : List String}
    (hrow : w.shared.hashes c = some hashes) (hk : hashRecoveryCode codec k ∈ hashes) :
    Usable codec w c k := by
  intro i code hcode hhash hworker hlock
  obtain ⟨index, hindex⟩ : ∃ index,
      verifyRecoveryCode codec (trimSpace code) hashes = some index := by
    rw [hashRecoveryCode, normalizeRecoveryCode] at hhash
    rw [verifyRecoveryCode, hashRecoveryCode, normalizeRecoveryCode, trimSpace_trimSpace, hhash]
    exact Option.isSome_iff_exists.1 (List.isSome_idxOf?.2 hk)
  have hcalled : World.after (act codec) (alone i c code) w 1 =
      ⟨w.shared, update w.own i (.called c (trimSpace code))⟩ := by
    -- The code is trimmed before its digest is looked for, which trims it again.
    have hact : act codec i (.verifyAndInvalidateRecoveryCode c code) w.shared (w.own i) =
        some (w.shared, .called c (trimSpace code)) := by
      cases hown : w.own i <;> simp [hown, Phase.Free, act, hcode] at hworker ⊢
    rw [World.after_succ, World.step]
    simp only [alone, if_true]
    rw [show World.after (act codec) (alone i c code) w 0 = w from rfl, hact]
  have hbegun : World.after (act codec) (alone i c code) w 2 =
      ⟨w.shared, update w.own i (.begun c (trimSpace code))⟩ := by
    rw [World.after_succ, hcalled, World.step]
    simp [alone, act, next]
  have hread : World.after (act codec) (alone i c code) w 3 =
      ⟨{ w.shared with locks := w.shared.locks.take i c },
        update w.own i (.read c (trimSpace code) hashes)⟩ := by
    rw [World.after_succ, hbegun, World.step]
    simp [alone, act, next, selectForUpdate, hrow, hlock]
  have hupdated : World.after (act codec) (alone i c code) w 4 =
      ⟨{ w.shared with locks := w.shared.locks.take i c },
        update w.own i (.updated c (trimSpace code) (hashes.eraseIdx index))⟩ := by
    rw [World.after_succ, hread, World.step]
    simp [alone, act, next, hindex, hrow]
  rw [World.after_succ, hupdated, World.step]
  simp [alone, act, next]

/-! ## Runs -/

/-- The states that calls lead through, from one in which there are none. -/
def verifications (codec : Codec) (hashes : String → Option (List String)) (calls : ℕ → W × Call) :
    ℕ → World W (Db W) Phase :=
  World.after (act codec) calls ⟨{ hashes }, fun _ => .idle⟩

theorem sound_verifications {issued : List String} (hissued : issued.Nodup) {c : String}
    {hashes : String → Option (List String)} (hhashes : hashes c = some issued)
    (calls : ℕ → W × Call) (n : ℕ) :
    (verifications codec hashes calls n).Sound (Spent codec issued c) (Holds codec) := by
  refine World.sound_after ⟨⟨?_, List.nodup_nil, fun h hh => absurd hh List.not_mem_nil⟩,
    fun _ => trivial⟩ (fun n h => sound_step hissued h) n
  refine hhashes.trans (congrArg some (List.filter_eq_self.2 fun h _ => ?_).symm)
  exact decide_eq_true List.not_mem_nil

/-- What is stored changes only when a call succeeds. -/
theorem ended_of_hashes_ne {hashes : String → Option (List String)} {calls : ℕ → W × Call} {n : ℕ}
    (h : (verifications codec hashes calls (n + 1)).shared.hashes ≠
      (verifications codec hashes calls n).shared.hashes) :
    (verifications codec hashes calls (n + 1)).own (calls n).1 = .ended (.ok ()) := by
  rw [verifications, World.after_succ] at h ⊢
  generalize World.after (act codec) calls ⟨{ hashes }, fun _ => .idle⟩ n = w at h ⊢
  obtain heq | ⟨db, phase, hact, heq⟩ := World.step_cases (act codec) w (calls n)
  · exact absurd (by rw [heq]) h
  rw [heq] at h ⊢
  have hacts := acts hact
  generalize w.own (calls n).1 = before at hacts
  cases hacts with
  | turns | releases | reads | updates => exact absurd rfl h
  | commits => exact update_self _ _ _

/-- Each code is accepted at most once, nothing else is accepted, only a call that succeeds changes
    what is stored, and a code that has not been accepted can be used. -/
theorem recovery_codes_single_use {codes : List String}
    (hcodes : (codes.map (normalizeRecoveryCode codec)).Nodup)
    (hsha : Set.InjOn codec.sha256 {s | s ∈ codes.map (normalizeRecoveryCode codec)})
    {hashes : String → Option (List String)} {c : String}
    (hhashes : hashes c = some (codes.map (hashRecoveryCode codec))) (calls : ℕ → W × Call) :
    let ρ := verifications codec hashes calls
    (∀ n, ∀ k ∈ codes, (ρ n).shared.accepted.countP (fun p =>
      p.1 = c ∧ hashRecoveryCode codec p.2 = hashRecoveryCode codec k) ≤ 1) ∧
    (∀ n, ∀ p ∈ (ρ n).shared.accepted, p.1 = c →
      ∃ k ∈ codes, hashRecoveryCode codec p.2 = hashRecoveryCode codec k) ∧
    (∀ n, (ρ (n + 1)).shared.hashes ≠ (ρ n).shared.hashes →
      (ρ (n + 1)).own (calls n).1 = .ended (.ok ())) ∧
    ∀ n, ∀ k ∈ codes, (∀ p ∈ (ρ n).shared.accepted, p.1 = c →
      hashRecoveryCode codec p.2 ≠ hashRecoveryCode codec k) → Usable codec (ρ n) c k := by
  intro ρ
  have hissued : (codes.map (hashRecoveryCode codec)).Nodup := by
    have hmap : codes.map (hashRecoveryCode codec) =
        (codes.map (normalizeRecoveryCode codec)).map codec.sha256 := by
      rw [List.map_map]
      rfl
    rw [hmap]
    exact List.Nodup.map_on (fun a ha b hb heq => hsha ha hb heq) hcodes
  have hspent (n : ℕ) : Spent codec (codes.map (hashRecoveryCode codec)) c (ρ n).shared :=
    (sound_verifications hissued hhashes calls n).1
  refine ⟨fun n k _ => ?_, fun n p hp hc => ?_, fun n => ended_of_hashes_ne, fun n k hk hnot => ?_⟩
  · rw [← Db.count_spent]
    exact List.nodup_iff_count_le_one.1 (hspent n).nodup _
  · have hin := (hspent n).issued _ ((Db.mem_spent _ _ _).2 ⟨p, hp, hc, rfl⟩)
    obtain ⟨k, hk, heq⟩ := List.mem_map.1 hin
    exact ⟨k, hk, heq.symm⟩
  · refine usable_of_mem (hspent n).stored (List.mem_filter.2 ⟨List.mem_map_of_mem hk, ?_⟩)
    refine decide_eq_true fun hin => ?_
    obtain ⟨p, hp, hc, heq⟩ := (Db.mem_spent _ _ _).1 hin
    exact hnot p hp hc heq

namespace Sample

/-- The digest of a text is the text. -/
def plain : Codec := ⟨fun c => if c.isLower then c.toUpper else c, id⟩

/-- Two codes. -/
def codes : List String := ["ABCD-EFGH", "IJKL-MNOP"]

/-- The hashes that one collaborator has. -/
def stored (c : String) : Option (List String) :=
  if c = "ada" then some (codes.map (hashRecoveryCode plain)) else none

/-- Two calls with one code at once. -/
def atOnce (n : ℕ) : Bool × Call :=
  (n % 2 = 1, if n < 2 then .verifyAndInvalidateRecoveryCode "ada" " abcdEFGH" else .next)

end Sample

theorem recovery_codes_single_use_atOnce :
    (verifications Sample.plain Sample.stored Sample.atOnce 14).shared.accepted =
      [("ada", "abcdEFGH")] ∧
    Usable Sample.plain (verifications Sample.plain Sample.stored Sample.atOnce 14) "ada"
      "IJKL-MNOP" := by
  have haccepted : (verifications Sample.plain Sample.stored Sample.atOnce 14).shared.accepted =
      [("ada", "abcdEFGH")] := by decide +kernel
  have hcodes : (Sample.codes.map (normalizeRecoveryCode Sample.plain)).Nodup := by decide +kernel
  have hsha : Set.InjOn Sample.plain.sha256
      {s | s ∈ Sample.codes.map (normalizeRecoveryCode Sample.plain)} := fun _ _ _ _ h => h
  have hstored : Sample.stored "ada" =
      some (Sample.codes.map (hashRecoveryCode Sample.plain)) := rfl
  obtain ⟨-, -, -, husable⟩ := recovery_codes_single_use hcodes hsha hstored Sample.atOnce
  refine ⟨haccepted, husable 14 _ (by decide) fun p hp _ => ?_⟩
  rw [haccepted, List.mem_singleton] at hp
  subst hp
  decide +kernel

end Yggdrasil.Auth.Recovery
