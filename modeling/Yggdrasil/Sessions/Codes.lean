import Yggdrasil.Sessions.Requests

/-!
# Authorization codes are single use

An exchange looks its code up, consumes it, and only then issues tokens. The transaction that
consumes a code has seen it open, and holds its row until it commits.
-/

namespace Yggdrasil.Sessions

variable {W : Type} [DecidableEq W] {calls : ℕ → W × Call} {i j : W} {code : String}
  {ar : AuthRequest} {n m : ℕ}

theorem closed_succ {k : Key} (h : (World.after act calls start n).shared.Closed k) :
    (World.after act calls start (n + 1)).shared.Closed k := by
  rcases after_cases calls n with heq | ⟨hacts, -⟩
  · rwa [heq]
  · exact hacts.closed ((holds_after calls n).2 _) h

theorem closed_of_le {k : Key} (h : (World.after act calls start n).shared.Closed k)
    (hnm : n ≤ m) : (World.after act calls start m).shared.Closed k := by
  induction m, hnm using Nat.le_induction with
  | base => exact h
  | succ m _ ih => exact closed_succ ih

/-! ## Grants -/

/-- The commit of a consumption grants a code, found open and left closed. -/
theorem Acts.granted {call : Call} {db db' : Db W} {p : Phase}
    (h : Acts i db call p db' (.granted code ar)) (hp : Holds i db p) :
    p = .granted code ar ∨
      db.stamp (.code code) = some none ∧ db'.Closed (.code code) := by
  cases h with
  | tick d => exact .inl rfl
  | commitCode ar code now =>
    obtain ⟨-, hopen⟩ := hp.writes (.code code) List.mem_cons_self
    exact .inr ⟨hopen, Db.closed_close List.mem_cons_self hopen⟩

/-- A code that is granted is consumed. -/
theorem closed_of_granted (n : ℕ) (h : (World.after act calls start n).own i = .granted code ar) :
    (World.after act calls start n).shared.Closed (.code code) := by
  induction n with
  | zero => cases h
  | succ n ih =>
    rcases after_cases calls n with heq | ⟨hacts, hothers⟩
    · rw [heq] at h ⊢
      exact ih h
    · have hp := (holds_after calls n).2 (calls n).1
      by_cases hi : i = (calls n).1
      · subst hi
        rw [h] at hacts
        rcases hacts.granted hp with hbefore | ⟨-, hclosed⟩
        · exact hacts.closed hp (ih hbefore)
        · exact hclosed
      · rw [hothers i hi] at h
        exact hacts.closed hp (ih h)

/-- Who is granted a code had been, or made the call while it was not consumed. -/
theorem granted_succ (h : (World.after act calls start (n + 1)).own i = .granted code ar) :
    (World.after act calls start n).own i = .granted code ar ∨
      i = (calls n).1 ∧ ¬ (World.after act calls start n).shared.Closed (.code code) := by
  rcases after_cases calls n with heq | ⟨hacts, hothers⟩
  · exact .inl (heq ▸ h)
  · by_cases hi : i = (calls n).1
    · subst hi
      rw [h] at hacts
      rcases hacts.granted ((holds_after calls n).2 _) with hbefore | ⟨hopen, -⟩
      · exact .inl hbefore
      · exact .inr ⟨rfl, Db.not_closed_of_open hopen⟩
    · exact .inl ((hothers i hi).symm.trans h)

theorem granted_of_consumed (hclosed : (World.after act calls start n).shared.Closed (.code code))
    (hnm : n ≤ m) (h : (World.after act calls start m).own i = .granted code ar) :
    (World.after act calls start n).own i = .granted code ar := by
  induction m, hnm using Nat.le_induction with
  | base => exact h
  | succ m hnm ih =>
    rcases granted_succ h with hbefore | ⟨-, hopen⟩
    · exact ih hbefore
    · exact absurd (closed_of_le hclosed hnm) hopen

/-- A code is granted to one exchange. -/
theorem granted_unique {ar' : AuthRequest} (n : ℕ)
    (hi : (World.after act calls start n).own i = .granted code ar)
    (hj : (World.after act calls start n).own j = .granted code ar') : i = j := by
  induction n with
  | zero => cases hi
  | succ n ih =>
    rcases granted_succ hi with hi | ⟨hi, hopen⟩ <;> rcases granted_succ hj with hj | ⟨hj, hopen'⟩
    · exact ih hi hj
    · exact absurd (closed_of_granted n hi) hopen'
    · exact absurd (closed_of_granted n hj) hopen
    · exact hi.trans hj.symm

/-! ## Exchanges -/

/-- The tokens of a code are issued by a call of an exchange. -/
def Issues (calls : ℕ → W × Call) (n : ℕ) (i : W) (code : String) : Prop :=
  (∃ token, calls n = (i, .createTokens token)) ∧
    (∃ ar, (World.after act calls start n).own i = .granted code ar) ∧
    (World.after act calls start (n + 1)).own i = .idle

/-- The codes of a run are single use. -/
structure SingleUse (calls : ℕ → W × Call) : Prop where
  once : ∀ n m i j code, Issues calls n i code → Issues calls m j code → n = m
  consumed : ∀ n m i code, (World.after act calls start n).shared.Closed (.code code) → n ≤ m →
    Issues calls m i code →
    ∃ ar, ∀ l, n ≤ l → l ≤ m → (World.after act calls start l).own i = .granted code ar

theorem not_issues_of_lt (h : Issues calls n i code) (hnm : n < m) : ¬ Issues calls m j code := by
  rintro ⟨-, ⟨ar', hgranted'⟩, -⟩
  obtain ⟨-, ⟨ar, hgranted⟩, hidle⟩ := h
  have hclosed := closed_of_granted n hgranted
  have hj := granted_of_consumed hclosed hnm.le hgranted'
  have hj' := granted_of_consumed (closed_succ hclosed) hnm hgranted'
  rw [← granted_unique n hgranted hj, hidle] at hj'
  cases hj'

/-- Authorization codes are single use, in every run. -/
theorem singleUse (calls : ℕ → W × Call) : SingleUse calls where
  once n m i j code hn hm := by
    rcases lt_trichotomy n m with hlt | heq | hlt
    · exact absurd hm (not_issues_of_lt hn hlt)
    · exact heq
    · exact absurd hn (not_issues_of_lt hm hlt)
  consumed n m i code hclosed hnm hissues := by
    obtain ⟨-, ⟨ar, hgranted⟩, -⟩ := hissues
    refine ⟨ar, fun l hnl hlm => ?_⟩
    exact granted_of_consumed (closed_of_le hclosed hnl) hlm hgranted

end Yggdrasil.Sessions
