import Yggdrasil.Lib.Go

/-!
# White space around a text

What trimming does to a text that is put together from others: the white space between two texts
that are not blank stays, and that around them goes.
-/

namespace Yggdrasil.Text

variable {l s t : List Char}

/-- The text has only white space. -/
def IsBlank (l : List Char) : Prop := ∀ c ∈ l, isSpace c = true

instance : DecidablePred IsBlank := fun _ => inferInstanceAs (Decidable (∀ _ ∈ _, _))

theorem isBlank_blank : IsBlank [' '] := by
  intro c hc
  rw [List.mem_singleton.1 hc]
  rfl

theorem trim_eq_self_iff :
    trim l = l ↔ l.dropWhile isSpace = l ∧ l.rdropWhile isSpace = l := by
  constructor
  · intro h
    have hdrop : l.dropWhile isSpace = l := by
      refine (List.dropWhile_sublist _).eq_of_length_le ?_
      conv_lhs => rw [← h]
      exact (List.rdropWhile_prefix _ _).length_le
    refine ⟨hdrop, ?_⟩
    conv_rhs => rw [← h]
    rw [trim, hdrop]
  · rintro ⟨hdrop, hrdrop⟩
    rw [trim, hdrop, hrdrop]

/-- The beginning of a text without white space before it has none before it. -/
theorem dropWhile_of_prefix (h : s <+: l) (hl : l.dropWhile isSpace = l) :
    s.dropWhile isSpace = s := by
  rw [List.dropWhile_eq_self_iff] at hl ⊢
  intro hlength
  rw [h.getElem hlength]
  exact hl (hlength.trans_le h.length_le)

theorem exists_append_trim (l : List Char) :
    ∃ s t, IsBlank s ∧ IsBlank t ∧ l = s ++ (trim l ++ t) := by
  refine ⟨l.takeWhile isSpace, (l.dropWhile isSpace).rtakeWhile isSpace, ?_, ?_, ?_⟩
  · exact fun c hc => List.mem_takeWhile_imp hc
  · exact fun c hc => List.mem_rtakeWhile_imp hc
  · rw [trim, List.rdropWhile_append_rtakeWhile, List.takeWhile_append_dropWhile]

theorem trim_eq_nil_iff : trim l = [] ↔ IsBlank l := by
  rw [trim, List.rdropWhile_eq_nil_iff]
  constructor
  · intro h c hc
    rw [← List.takeWhile_append_dropWhile (p := isSpace) (l := l), List.mem_append] at hc
    exact hc.elim (fun hc => List.mem_takeWhile_imp hc) (h c)
  · exact fun h c hc => h c ((List.dropWhile_sublist _).subset hc)

theorem length_trim_le (l : List Char) : (trim l).length ≤ l.length :=
  (List.rdropWhile_prefix _ _).length_le.trans (List.dropWhile_sublist _).length_le

theorem dropWhile_append_of_not_isBlank (hs : ¬ IsBlank s) (t : List Char) :
    (s ++ t).dropWhile isSpace = s.dropWhile isSpace ++ t := by
  rw [List.dropWhile_append, if_neg]
  rw [List.isEmpty_iff, List.dropWhile_eq_nil_iff]
  exact hs

theorem rdropWhile_append_of_not_isBlank (ht : ¬ IsBlank t) (s : List Char) :
    (s ++ t).rdropWhile isSpace = s ++ t.rdropWhile isSpace := by
  have hreverse : ¬ IsBlank t.reverse := fun h => ht fun c hc => h c (List.mem_reverse.2 hc)
  rw [List.rdropWhile, List.reverse_append, dropWhile_append_of_not_isBlank hreverse,
    List.reverse_append, List.reverse_reverse, List.rdropWhile]

/-- What is between two texts that are not blank stays. -/
theorem trim_append_append (hs : ¬ IsBlank s) (ht : ¬ IsBlank t) (l : List Char) :
    trim (s ++ (l ++ t)) = s.dropWhile isSpace ++ (l ++ t.rdropWhile isSpace) := by
  rw [trim, dropWhile_append_of_not_isBlank hs, ← List.append_assoc,
    rdropWhile_append_of_not_isBlank ht, List.append_assoc]

theorem trim_dropWhile (l : List Char) : trim (l.dropWhile isSpace) = trim l := by
  rw [trim, List.dropWhile_idempotent, trim]

theorem trim_append_of_isBlank (ht : IsBlank t) (s : List Char) : trim (s ++ t) = trim s := by
  by_cases hs : IsBlank s
  · rw [trim_eq_nil_iff.2 hs, trim_eq_nil_iff]
    exact List.forall_mem_append.2 ⟨hs, ht⟩
  · have hreverse : ∀ c ∈ t.reverse, isSpace c = true := fun c hc => ht c (List.mem_reverse.1 hc)
    rw [trim, dropWhile_append_of_not_isBlank hs, List.rdropWhile, List.reverse_append,
      List.dropWhile_append_of_pos hreverse, trim, List.rdropWhile]

theorem trim_rdropWhile (l : List Char) : trim (l.rdropWhile isSpace) = trim l := by
  conv_rhs => rw [← List.rdropWhile_append_rtakeWhile (p := isSpace) (l := l)]
  exact (trim_append_of_isBlank (fun c hc => List.mem_rtakeWhile_imp hc) _).symm

theorem mem_of_mem_trim {c : Char} (h : c ∈ trim l) : c ∈ l :=
  (List.dropWhile_sublist _).subset ((List.rdropWhile_prefix _ _).subset h)

/-- A text that goes on with more than white space is not trimmed to the same. -/
theorem trim_append_ne (ht : ¬ IsBlank t) (s : List Char) : trim (s ++ t) ≠ trim s := by
  have hcount (l : List Char) : (trim l).countP (!isSpace ·) = l.countP (!isSpace ·) := by
    obtain ⟨s, t, hs, ht, hl⟩ := exists_append_trim l
    have hblank (l : List Char) (hl : IsBlank l) : l.countP (!isSpace ·) = 0 :=
      List.countP_eq_zero.2 fun c hc => by simp [hl c hc]
    conv_rhs => rw [hl]
    rw [List.countP_append, List.countP_append, hblank s hs, hblank t ht, zero_add, add_zero]
  intro heq
  have h := hcount (s ++ t)
  rw [heq, hcount, List.countP_append] at h
  have hzero : t.countP (!isSpace ·) = 0 := by omega
  exact ht fun c hc => by simpa using List.countP_eq_zero.1 hzero c hc

end Yggdrasil.Text
