import Yggdrasil.Lib.Go

/-!
# Replacing a word

Every occurrence of a word is replaced by another, from left to right (`replaceFrom`). The old word
can come back exactly when it overlaps the new one in one of three ways (`Rejoins`), which a new
word set in marks of its own excludes (`not_rejoins_of_marks`).
-/

namespace Yggdrasil

variable {α : Type*}

/-- An occurrence of a word in two texts is in one of them, or goes across. -/
theorem infix_append {w l r : List α} (h : w <:+: l ++ r) :
    w <:+: l ∨ w <:+: r ∨ ∃ x z, w = x ++ z ∧ x ≠ [] ∧ z ≠ [] ∧ x <:+ l ∧ z <+: r := by
  obtain ⟨a, b, hab⟩ := h
  rw [List.append_assoc] at hab
  rcases List.append_eq_append_iff.1 hab with ⟨l', rfl, hl'⟩ | ⟨a', rfl, ha'⟩
  · rcases List.append_eq_append_iff.1 hl' with ⟨l'', rfl, -⟩ | ⟨z, rfl, hz⟩
    · exact .inl ⟨a, l'', by rw [List.append_assoc]⟩
    · by_cases hl : l' = []
      · exact .inr (.inl ⟨[], b, by simp [hl, hz]⟩)
      · by_cases hz' : z = []
        · exact .inl ⟨a, [], by simp [hz']⟩
        · exact .inr (.inr ⟨l', z, rfl, hl, hz', ⟨a, rfl⟩, ⟨b, hz.symm⟩⟩)
  · exact .inr (.inl ⟨a', b, by rw [ha', List.append_assoc]⟩)

theorem mem_of_prefix_cons {z r : List α} {a : α} (hz : z ≠ []) (h : z <+: a :: r) : a ∈ z := by
  obtain ⟨z', rfl, -⟩ := (List.prefix_cons_iff.1 h).resolve_left hz
  exact List.mem_cons_self

/-- An occurrence of a word lies on one side of a mark that is not in it. -/
theorem infix_append_cons {w l r : List α} {a : α} (ha : a ∉ w) (h : w <:+: l ++ a :: r) :
    w <:+: l ∨ w <:+: r := by
  rcases infix_append h with h | h | ⟨x, z, rfl, -, hz, -, hprefix⟩
  · exact .inl h
  · rcases List.infix_cons_iff.1 h with h | h
    · by_cases hw : w = []
      · exact .inl (hw ▸ List.nil_infix)
      · exact absurd (mem_of_prefix_cons hw h) ha
    · exact .inr h
  · exact absurd (List.mem_append_right x (mem_of_prefix_cons hz hprefix)) ha

/-- A word that is not in a marked one and does not have the marks is before or after it. -/
theorem infix_append_marked {w l mid r : List α} {a b : α} (ha : a ∉ w) (hb : b ∉ w)
    (hmid : ¬ w <:+: mid) (h : w <:+: l ++ ((a :: mid ++ [b]) ++ r)) : w <:+: l ∨ w <:+: r := by
  rw [List.cons_append, List.cons_append, List.append_assoc, List.singleton_append] at h
  rcases infix_append_cons ha h with h | h
  · exact .inl h
  · exact .inr ((infix_append_cons hb h).resolve_left hmid)

/-- A word set in a mark is before another mark, or after it. -/
theorem infix_append_mark {m l r : List α} {a : α} (ha : a ∉ m)
    (h : a :: (m ++ [a]) <:+: l ++ a :: r) :
    a :: (m ++ [a]) <:+: l ++ [a] ∨ a :: (m ++ [a]) <:+: a :: r := by
  rcases infix_append h with h | h | ⟨x, z, heq, hx, hz, hsuffix, hprefix⟩
  · exact .inl (h.trans (List.prefix_append l [a]).isInfix)
  · exact .inr h
  · obtain ⟨z, rfl, -⟩ := (List.prefix_cons_iff.1 hprefix).resolve_left hz
    obtain ⟨c, x, rfl⟩ := List.exists_cons_of_ne_nil hx
    rw [List.cons_append, List.cons.injEq] at heq
    obtain ⟨rfl, heq⟩ := heq
    -- The second mark of the word is the other one.
    obtain rfl : m = x := by
      rcases List.append_eq_append_iff.1 heq with ⟨y, rfl, hy⟩ | ⟨y, rfl, hy⟩ <;>
        cases y <;> simp_all
    exact .inl (List.suffix_concat_iff.2 (.inr ⟨_, rfl, hsuffix⟩)).isInfix

variable [DecidableEq α]

/-- The text with `old` replaced by `new`, after the first characters are skipped. -/
def replaceFrom (old new : List α) : ℕ → List α → List α
  | _, [] => []
  | skip + 1, _ :: rest => replaceFrom old new skip rest
  | 0, c :: rest =>
    if old <+: c :: rest then new ++ replaceFrom old new (old.length - 1) rest
    else c :: replaceFrom old new 0 rest

theorem replaceFrom_singleton (a b : α) (l : List α) :
    replaceFrom [a] [b] 0 l = l.map fun c => if c = a then b else c := by
  induction l with
  | nil => rfl
  | cons c l ih =>
    simp only [replaceFrom, List.cons_prefix_cons, List.nil_prefix, and_true, List.length_singleton,
      Nat.sub_self, ih, List.map_cons, List.singleton_append, eq_comm]
    split <;> rfl

/-! ## What comes back -/

/-- A word can come back: it is inside the one that takes its place; a beginning of it ends it; or
    an end of it begins it, or begins with it, and what is before does not begin an occurrence. -/
def Rejoins (old new : List α) : Prop :=
  old <:+: new ∨ ∃ i < old.length, 0 < i ∧
    (old.take i <:+ new ∨ (old.drop i <+: new ∨ new <+: old.drop i) ∧
      ∀ r ∈ (old.take i).tails, r ≠ [] → ¬ old <+: r ++ old)

instance (old new : List α) : Decidable (Rejoins old new) :=
  inferInstanceAs (Decidable (_ ∨ ∃ i < _, _))

section Rejoins

variable {old new text : List α}

/-- What no occurrence starts in is passed. -/
theorem replaceFrom_passed {x : List α} (h : ∀ r, r <:+ x → r ≠ [] → ¬ old <+: r ++ text) :
    replaceFrom old new 0 (x ++ text) = x ++ replaceFrom old new 0 text := by
  induction x with
  | nil => rfl
  | cons c x ih =>
    have hnot : ¬ old <+: c :: (x ++ text) := h (c :: x) (List.suffix_refl _) (List.cons_ne_nil _ _)
    rw [List.cons_append, replaceFrom, if_neg hnot, List.cons_append,
      ih fun r hr => h r (hr.trans (List.suffix_cons c x))]

/-- What is too short for an occurrence is passed. -/
theorem replaceFrom_short (h : text.length < old.length) : replaceFrom old new 0 text = text := by
  have hpassed : replaceFrom old new 0 (text ++ []) = text ++ replaceFrom old new 0 [] :=
    replaceFrom_passed fun r hr _ hprefix => by
      have hle := hprefix.length_le
      have hlength := hr.length_le
      rw [List.append_nil] at hle
      omega
  simpa [replaceFrom] using hpassed

theorem replaceFrom_old (hold : old ≠ []) (new rest : List α) :
    replaceFrom old new 0 (old ++ rest) = new ++ replaceFrom old new 0 rest := by
  have hskip (l : List α) :
      replaceFrom old new l.length (l ++ rest) = replaceFrom old new 0 rest := by
    induction l with
    | nil => rfl
    | cons c l ih => exact ih
  obtain ⟨c, l, rfl⟩ := List.exists_cons_of_ne_nil hold
  have hprefix : c :: l <+: c :: (l ++ rest) := List.prefix_append (c :: l) rest
  rw [List.cons_append, replaceFrom, if_pos hprefix]
  exact congrArg (new ++ ·) (hskip l)

theorem exists_infix_of_rejoins (hold : old ≠ []) (h : Rejoins old new) :
    ∃ text, old <:+: replaceFrom old new 0 text := by
  rcases h with h | ⟨i, hi, hpos, h⟩
  · refine ⟨old, ?_⟩
    have hself := replaceFrom_old hold new []
    rw [List.append_nil] at hself
    rw [hself]
    exact h.trans (List.prefix_append _ _).isInfix
  have hsplit := List.take_append_drop i old
  rcases h with ⟨a, ha⟩ | ⟨hoverlap, hfirst⟩
  · -- The word is followed by the rest of it.
    refine ⟨old ++ old.drop i, a, [], ?_⟩
    rw [replaceFrom_old hold, replaceFrom_short (by simp; omega), ← ha, List.append_nil,
      List.append_assoc a (old.take i), hsplit]
  · -- The word is preceded by its beginning, and followed by what the new one does not give.
    have htext (rest : List α) (hrest : rest.length < old.length) :
        replaceFrom old new 0 (old.take i ++ (old ++ rest)) = old.take i ++ (new ++ rest) := by
      rw [replaceFrom_passed, replaceFrom_old hold, replaceFrom_short hrest]
      intro r hr hne hprefix
      refine hfirst r ((List.mem_tails _ _).2 hr) hne ?_
      refine List.prefix_of_prefix_length_le hprefix ?_ (by simp)
      rw [← List.append_assoc]
      exact List.prefix_append _ _
    rcases hoverlap with ⟨b, hb⟩ | ⟨rest, hrest⟩
    · refine ⟨old.take i ++ (old ++ []), [], b, ?_⟩
      rw [htext [] (List.length_pos_iff.2 hold), ← hb, List.append_nil, ← List.append_assoc, hsplit,
        List.nil_append]
    · have hlength := congrArg List.length hrest
      rw [List.length_append, List.length_drop] at hlength
      refine ⟨old.take i ++ (old ++ rest), [], [], ?_⟩
      rw [htext rest (by omega), hrest, hsplit, List.nil_append, List.append_nil]

omit [DecidableEq α] in
theorem not_infix_of_passed (hold : old ≠ []) {passed : List α}
    (h : ∀ r, r <:+ passed → r ≠ [] → ¬ old <+: r ++ text) : ¬ old <:+: passed := by
  rintro ⟨x, y, rfl⟩
  refine h (old ++ y) ⟨x, (List.append_assoc _ _ _).symm⟩ (by simp [hold]) ?_
  exact ⟨y ++ text, (List.append_assoc _ _ _).symm⟩

omit [DecidableEq α] in
/-- Where a word that cannot come back overlaps the new one, it begins earlier. -/
theorem not_rejoins_append {x z : List α} (h : ¬ Rejoins (x ++ z) new) (hx : x ≠ []) (hz : z ≠ []) :
    ¬ x <:+ new ∧
      (z <+: new ∨ new <+: z → ∃ r, r <:+ x ∧ r ≠ [] ∧ x ++ z <+: r ++ (x ++ z)) := by
  have hlt : x.length < (x ++ z).length := by simpa using List.length_pos_iff.2 hz
  rw [Rejoins, not_or] at h
  refine ⟨fun hsuffix => h.2 ⟨x.length, hlt, List.length_pos_iff.2 hx, .inl ?_⟩, fun hz => ?_⟩
  · rwa [List.take_left]
  · by_contra hnone
    refine h.2 ⟨x.length, hlt, List.length_pos_iff.2 hx, .inr ⟨?_, fun r hr hne hr' => ?_⟩⟩
    · rwa [List.drop_left]
    · rw [List.take_left, List.mem_tails] at hr
      exact hnone ⟨r, hr, hne, hr'⟩

/-- Nothing is left of a word that cannot come back. -/
theorem not_infix_replaceFrom (hold : old ≠ []) (hrejoins : ¬ Rejoins old new) (skip : ℕ)
    (text : List α) : ¬ old <:+: replaceFrom old new skip text := by
  -- No occurrence starts in what has been passed since the last replacement.
  suffices (∀ passed, (∀ r, r <:+ passed → r ≠ [] → ¬ old <+: r ++ text) →
      ¬ old <:+: passed ++ replaceFrom old new 0 text) ∧
      ∀ skip, ¬ old <:+: replaceFrom old new skip text from this.2 skip
  induction text with
  | nil =>
    refine ⟨fun passed h => by simpa [replaceFrom] using not_infix_of_passed hold h,
      fun skip h => hold ?_⟩
    simpa [replaceFrom] using h
  | cons c rest ih =>
    have hzero (passed : List α) (h : ∀ r, r <:+ passed → r ≠ [] → ¬ old <+: r ++ c :: rest) :
        ¬ old <:+: passed ++ replaceFrom old new 0 (c :: rest) := by
      rw [replaceFrom]
      split
      next hprefix =>
        intro hin
        rcases infix_append hin with hin | hin | ⟨x, z, rfl, hx, hz, hsuffix, hbegin⟩
        · exact not_infix_of_passed hold h hin
        · rcases infix_append hin with hin | hin | ⟨x, z, rfl, hx, hz, hsuffix, -⟩
          · exact hrejoins (.inl hin)
          · exact ih.2 _ hin
          · exact (not_rejoins_append hrejoins hx hz).1 hsuffix
        · -- The occurrence begins in what was passed, where another one would begin before it.
          obtain ⟨r, hr, hne, hold⟩ := (not_rejoins_append hrejoins hx hz).2
            (List.prefix_or_prefix_of_prefix hbegin (List.prefix_append new _))
          refine h r (hr.trans hsuffix) hne (hold.trans ?_)
          exact List.prefix_append_right_inj r |>.2 hprefix
      next hnot =>
        have hnext : ∀ r, r <:+ passed ++ [c] → r ≠ [] → ¬ old <+: r ++ rest := by
          intro r hr hne
          rcases List.suffix_concat_iff.1 hr with rfl | ⟨r, rfl, hpassed⟩
          · exact absurd rfl hne
          · rw [List.append_assoc, List.singleton_append]
            by_cases hnil : r = []
            · rw [hnil]
              exact hnot
            · exact h r hpassed hnil
        simpa using ih.1 (passed ++ [c]) hnext
    refine ⟨hzero, fun skip => ?_⟩
    cases skip with
    | zero => simpa using hzero [] fun r hr hne => absurd (List.suffix_nil.1 hr) hne
    | succ skip => exact ih.2 skip

/-- A word is left somewhere exactly when it overlaps the new one so that it can come back. -/
theorem exists_infix_replaceFrom_iff (hold : old ≠ []) :
    (∃ text, old <:+: replaceFrom old new 0 text) ↔ Rejoins old new := by
  refine ⟨fun ⟨text, h⟩ => ?_, exists_infix_of_rejoins hold⟩
  by_contra hrejoins
  exact not_infix_replaceFrom hold hrejoins 0 text h

end Rejoins

section Marks

variable {a b : α} {mid old w : List α}

omit [DecidableEq α] in
/-- A word without the marks that is not between them cannot come back. -/
theorem not_rejoins_of_marks (ha : a ∉ old) (hb : b ∉ old) (hmid : ¬ old <:+: mid) :
    ¬ Rejoins old (a :: mid ++ [b]) := by
  have hold : old ≠ [] := by
    rintro rfl
    exact hmid List.nil_infix
  rintro (h | ⟨i, hi, hpos, ⟨x, hx⟩ | ⟨h, -⟩⟩)
  · rw [← List.nil_append (a :: mid ++ [b]), ← List.append_nil (a :: mid ++ [b])] at h
    exact hold (List.infix_nil.1 ((infix_append_marked ha hb hmid h).elim id id))
  · -- The beginning of the word ends with the second mark.
    obtain ⟨y, c, hy⟩ := List.eq_nil_or_concat (old.take i) |>.resolve_left
      (by simp [hold]; omega)
    rw [hy, List.concat_eq_append, ← List.append_assoc] at hx
    have hc : b = c := by simpa using (List.append_inj' hx rfl).2.symm
    have hmem : b ∈ old.take i := by simp [hy, hc]
    exact hb (List.mem_of_mem_take hmem)
  · have hdrop : old.drop i ≠ [] := by simpa using hi
    refine ha (List.mem_of_mem_drop (i := i) ?_)
    rcases h with h | h
    · exact mem_of_prefix_cons hdrop h
    · exact h.subset List.mem_cons_self

/-- A word without the marks that occurs afterwards has occurred before. -/
theorem infix_of_replaceFrom (ha : a ∉ w) (hb : b ∉ w) (hmid : ¬ w <:+: mid) {skip : ℕ}
    {text : List α} (h : w <:+: replaceFrom old (a :: mid ++ [b]) skip text) : w <:+: text := by
  -- What has been passed since the last replacement is kept in front.
  suffices (∀ passed, w <:+: passed ++ replaceFrom old (a :: mid ++ [b]) 0 text →
      w <:+: passed ++ text) ∧
      ∀ skip, w <:+: replaceFrom old (a :: mid ++ [b]) skip text → w <:+: text from
    this.2 skip h
  clear h
  induction text with
  | nil => exact ⟨fun _ h => h, fun _ h => by simpa [replaceFrom] using h⟩
  | cons c rest ih =>
    have hpassed (passed : List α) (h : w <:+: passed ++
        replaceFrom old (a :: mid ++ [b]) 0 (c :: rest)) : w <:+: passed ++ c :: rest := by
      rw [replaceFrom] at h
      split at h
      · rcases infix_append_marked ha hb hmid h with h | h
        · exact h.trans (List.prefix_append _ _).isInfix
        · have hrest : rest <:+ passed ++ c :: rest :=
            (List.suffix_cons c rest).trans (List.suffix_append _ _)
          exact (ih.2 _ h).trans hrest.isInfix
      · have := ih.1 (passed ++ [c]) (by simpa using h)
        simpa using this
    refine ⟨hpassed, fun skip h => ?_⟩
    cases skip with
    | zero => simpa using hpassed [] (by simpa using h)
    | succ skip => exact (ih.2 skip h).trans (List.suffix_cons c rest).isInfix

end Marks

namespace Text

/-- `s` with every `old` replaced by `new`; an empty `old` is before and after each character. -/
def replaceAll (s old new : String) : String :=
  .ofList (if old = "" then new.toList ++ s.toList.flatMap (· :: new.toList)
    else replaceFrom old.toList new.toList 0 s.toList)

/-- `new` is set in marks that are not in `w`, and `w` is not between them. -/
def SetApart (new w : String) : Prop :=
  ∃ a mid b, new.toList = a :: mid ++ [b] ∧ a ∉ w.toList ∧ b ∉ w.toList ∧ ¬ w.toList <:+: mid

variable {s w old new : String}

theorem SetApart.contains (h : SetApart new w) : contains new w = false := by
  obtain ⟨a, mid, b, hnew, ha, hb, hmid⟩ := h
  rw [Text.contains, decide_eq_false_iff_not, hnew]
  exact fun hin => not_rejoins_of_marks ha hb hmid (.inl hin)

theorem contains_replaceAll_self (h : SetApart new old) :
    contains (replaceAll s old new) old = false := by
  obtain ⟨a, mid, b, hnew, ha, hb, hmid⟩ := h
  have hold : old ≠ "" := by
    rintro rfl
    exact hmid List.nil_infix
  rw [contains, replaceAll, if_neg hold, String.toList_ofList, hnew]
  exact decide_eq_false (not_infix_replaceFrom (by simpa using hold)
    (not_rejoins_of_marks ha hb hmid) 0 _)

theorem contains_replaceAll (h : SetApart new w) (hold : old ≠ "")
    (hs : contains s w = false) : contains (replaceAll s old new) w = false := by
  obtain ⟨a, mid, b, hnew, ha, hb, hmid⟩ := h
  rw [contains, decide_eq_false_iff_not] at hs
  rw [contains, replaceAll, if_neg hold, String.toList_ofList, hnew, decide_eq_false_iff_not]
  exact fun hin => hs (infix_of_replaceFrom ha hb hmid hin)

end Text

end Yggdrasil
