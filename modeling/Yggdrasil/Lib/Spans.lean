import Yggdrasil.Lib.Trim

/-!
# Texts outside of braces

A text is scanned for a place outside of every span between double braces.
-/

namespace Yggdrasil.Text

variable {l x y : List Char} {c : Char} {d : ℕ} {p : List Char → Bool} {b : Char}
  {q : List Char → Bool} {r : List Char}

/-- The character and the next one are a pair of braces. -/
def IsPair (c : Char) (l : List Char) : Prop := (c = '{' ∨ c = '}') ∧ l.head? = some c

/-- Induction along a scan. -/
theorem pair_induction {motive : List Char → Prop} (nil : motive [])
    (opening : ∀ l, motive l → motive ('{' :: '{' :: l))
    (closing : ∀ l, motive l → motive ('}' :: '}' :: l))
    (char : ∀ c l, ¬ IsPair c l → motive l → motive (c :: l)) (l : List Char) : motive l := by
  induction hn : l.length using Nat.strong_induction_on generalizing l with
  | _ n ih =>
    subst hn
    cases l with
    | nil => exact nil
    | cons c l =>
      by_cases hpair : IsPair c l
      · obtain ⟨hc, hhead⟩ := hpair
        obtain ⟨l, rfl⟩ := List.head?_eq_some_iff.1 hhead
        have hl := ih l.length (by simp) l rfl
        rcases hc with rfl | rfl
        · exact opening l hl
        · exact closing l hl
      · exact char c l hpair (ih l.length (by simp) l rfl)

/-- The level at the end of a text from the level `d`; closing braces too many are passed over. -/
def depthAfter : ℕ → List Char → ℕ
  | d, [] => d
  | d, '{' :: '{' :: l => depthAfter (d + 1) l
  | d, '}' :: '}' :: l => depthAfter (d - 1) l
  | d, _ :: l => depthAfter d l

/-- The text put before the first part. -/
def prepend (s : List Char) (broken : List Char × List Char) : List Char × List Char :=
  (s ++ broken.1, broken.2)

/-- The text, from the level `d`, broken before the first place at the top level with `p`. -/
def breakTop (p : List Char → Bool) : ℕ → List Char → Option (List Char × List Char)
  | _, [] => none
  | d, '{' :: '{' :: l => (breakTop p (d + 1) l).map (prepend ['{', '{'])
  | d, '}' :: '}' :: l => (breakTop p (d - 1) l).map (prepend ['}', '}'])
  | d, c :: l =>
    if d = 0 ∧ p (c :: l) = true then some ([], c :: l) else (breakTop p d l).map (prepend [c])

/-- The text broken before the first place where `p` is true of the rest. -/
def breakOn (p : List Char → Bool) : List Char → Option (List Char × List Char)
  | [] => none
  | c :: l => if p (c :: l) = true then some ([], c :: l) else (breakOn p l).map (prepend [c])

theorem depthAfter_char (h : ¬ IsPair c l) : depthAfter d (c :: l) = depthAfter d l := by
  rw [depthAfter.eq_4]
  · rintro l rfl rfl
    exact h ⟨.inl rfl, rfl⟩
  · rintro l rfl rfl
    exact h ⟨.inr rfl, rfl⟩

theorem breakTop_char (h : ¬ IsPair c l) : breakTop p d (c :: l) =
    if d = 0 ∧ p (c :: l) = true then some ([], c :: l)
    else (breakTop p d l).map (prepend [c]) := by
  rw [breakTop.eq_4]
  · rintro l rfl rfl
    exact h ⟨.inl rfl, rfl⟩
  · rintro l rfl rfl
    exact h ⟨.inr rfl, rfl⟩

theorem not_isPair_of_isSpace (h : isSpace c = true) : ¬ IsPair c l := by
  rintro ⟨rfl | rfl, -⟩
  · exact absurd h (by decide)
  · exact absurd h (by decide)

/-- White space after a text is no brace of a pair. -/
theorem isPair_append_iff (hb : isSpace b = true) : IsPair c (x ++ b :: y) ↔ IsPair c x := by
  cases x with
  | nil =>
    refine iff_of_false ?_ (fun h => by cases h.2)
    rintro ⟨hc, hhead⟩
    cases hhead
    exact not_isPair_of_isSpace (l := [c]) hb ⟨hc, rfl⟩
  | cons c' x => rfl

theorem depthAfter_append (hb : isSpace b = true) :
    depthAfter d (x ++ b :: y) = depthAfter (depthAfter d x) y := by
  induction x using pair_induction generalizing d with
  | nil => exact depthAfter_char (not_isPair_of_isSpace hb)
  | opening x ih => exact ih
  | closing x ih => exact ih
  | char c x hpair ih =>
    rw [List.cons_append, depthAfter_char ((isPair_append_iff hb).not.2 hpair),
      depthAfter_char hpair, ih]

theorem depthAfter_of_blank_append (hx : IsBlank x) : depthAfter d (x ++ y) = depthAfter d y := by
  induction x with
  | nil => rfl
  | cons c x ih =>
    rw [IsBlank, List.forall_mem_cons] at hx
    rw [List.cons_append, depthAfter_char (not_isPair_of_isSpace hx.1), ih hx.2]

/-- What is looked for begins with a blank, and only its last character can be another. -/
structure IsDelimiter (p : List Char → Bool) : Prop where
  single : p [' '] = false
  head {x : List Char} : p x = true → x.head? = some ' '
  mono {x y : List Char} : p x = true → p (x ++ y) = true
  ends {x y : List Char} : x ≠ [] → p (x ++ ' ' :: y) = true → p (x ++ [' ']) = true

theorem isDelimiter_operator {a : Char} (ha : a ≠ ' ') (hb : b ≠ ' ') :
    IsDelimiter ([' ', a, b, ' '].isPrefixOf ·) where
  single := by simp
  head {x} h := by
    obtain ⟨t, rfl⟩ := List.isPrefixOf_iff_prefix.1 h
    rfl
  mono {x y} h := by
    rw [List.isPrefixOf_iff_prefix] at h ⊢
    exact h.trans (List.prefix_append x y)
  ends {x y} hx h := by
    rw [List.isPrefixOf_iff_prefix] at h ⊢
    match x with
    | [c] => simp [ha] at h
    | [c, e] => simp [hb] at h
    | [c, e, f] => simpa using h
    | c :: e :: f :: g :: x => simpa using h

theorem IsDelimiter.or (hp : IsDelimiter p) (hq : IsDelimiter q) :
    IsDelimiter fun x => p x || q x where
  single := by rw [hp.single, hq.single, Bool.or_false]
  head {x} h := (Bool.or_eq_true_iff.1 h).elim hp.head hq.head
  mono {x y} h := Bool.or_eq_true_iff.2 ((Bool.or_eq_true_iff.1 h).imp hp.mono hq.mono)
  ends {x y} hx h :=
    Bool.or_eq_true_iff.2 ((Bool.or_eq_true_iff.1 h).imp (hp.ends hx) (hq.ends hx))

theorem breakTop_char_eq_none_iff (h : ¬ IsPair c l) :
    breakTop p d (c :: l) = none ↔ ¬ (d = 0 ∧ p (c :: l) = true) ∧ breakTop p d l = none := by
  rw [breakTop_char h]
  split_ifs with hfound
  · simp [hfound]
  · simp [hfound]

theorem breakTop_of_blank_append (hx : IsBlank x) (h : breakTop p d (x ++ y) = none) :
    breakTop p d y = none := by
  induction x with
  | nil => exact h
  | cons c x ih =>
    rw [IsBlank, List.forall_mem_cons] at hx
    rw [List.cons_append, breakTop_char_eq_none_iff (not_isPair_of_isSpace hx.1)] at h
    exact ih hx.2 h.2

theorem breakTop_or_eq_none_iff :
    breakTop (fun r => p r || q r) d l = none ↔ breakTop p d l = none ∧ breakTop q d l = none := by
  induction l using pair_induction generalizing d with
  | nil => simp [breakTop]
  | opening l ih => simpa only [breakTop, Option.map_eq_none_iff] using ih
  | closing l ih => simpa only [breakTop, Option.map_eq_none_iff] using ih
  | char c l hpair ih =>
    rw [breakTop_char_eq_none_iff hpair, breakTop_char_eq_none_iff hpair,
      breakTop_char_eq_none_iff hpair, ih, Bool.or_eq_true]
    tauto

theorem breakOn_cons_eq_none_iff :
    breakOn p (c :: l) = none ↔ p (c :: l) = false ∧ breakOn p l = none := by
  rw [breakOn]
  split_ifs with hfound
  · simp [hfound]
  · simp [hfound]

theorem breakTop_of_breakOn (h : breakOn p l = none) : breakTop p d l = none := by
  induction l using pair_induction generalizing d with
  | nil => rfl
  | opening l ih =>
    rw [breakOn_cons_eq_none_iff, breakOn_cons_eq_none_iff] at h
    exact Option.map_eq_none_iff.2 (ih h.2.2)
  | closing l ih =>
    rw [breakOn_cons_eq_none_iff, breakOn_cons_eq_none_iff] at h
    exact Option.map_eq_none_iff.2 (ih h.2.2)
  | char c l hpair ih =>
    rw [breakOn_cons_eq_none_iff] at h
    rw [breakTop_char_eq_none_iff hpair, h.1]
    exact ⟨by simp, ih h.2⟩

/-- What is nowhere in a text does not begin any part of it. -/
theorem eq_false_of_breakOn (h : breakOn p (x ++ y) = none) (hy : y ≠ []) : p y = false := by
  induction x with
  | nil =>
    obtain ⟨c, y, rfl⟩ := List.exists_cons_of_ne_nil hy
    exact (breakOn_cons_eq_none_iff.1 h).1
  | cons c x ih => exact ih (breakOn_cons_eq_none_iff.1 h).2

variable (hp : IsDelimiter p)

include hp

theorem breakTop_append (h : breakTop p d (x ++ [' ']) = none) :
    breakTop p d (x ++ ' ' :: y) = (breakTop p (depthAfter d x) (' ' :: y)).map (prepend x) := by
  have hblank : isSpace ' ' = true := by decide
  induction x using pair_induction generalizing d with
  | nil =>
    change _ = Option.map id _
    rw [Option.map_id_fun, id, depthAfter, List.nil_append]
  | opening x ih =>
    have h : breakTop p (d + 1) (x ++ [' ']) = none := Option.map_eq_none_iff.1 h
    change (breakTop p (d + 1) (x ++ ' ' :: y)).map _ = _
    rw [ih h, Option.map_map]
    rfl
  | closing x ih =>
    have h : breakTop p (d - 1) (x ++ [' ']) = none := Option.map_eq_none_iff.1 h
    change (breakTop p (d - 1) (x ++ ' ' :: y)).map _ = _
    rw [ih h, Option.map_map]
    rfl
  | char c x hpair ih =>
    rw [List.cons_append, breakTop_char_eq_none_iff ((isPair_append_iff hblank).not.2 hpair)] at h
    have hfound : ¬ (d = 0 ∧ p (c :: (x ++ ' ' :: y)) = true) := fun hfound =>
      h.1 (hfound.imp_right (hp.ends (x := c :: x) (List.cons_ne_nil _ _)))
    rw [List.cons_append, breakTop_char ((isPair_append_iff hblank).not.2 hpair), if_neg hfound,
      ih h.2, Option.map_map, depthAfter_char hpair]
    rfl

theorem breakTop_of_append_blank (hy : IsBlank y) (h : breakTop p d (x ++ y) = none) :
    breakTop p d x = none := by
  cases y with
  | nil => rwa [List.append_nil] at h
  | cons b y =>
    have hb : isSpace b = true := hy b List.mem_cons_self
    induction x using pair_induction generalizing d with
    | nil => rfl
    | opening x ih => exact Option.map_eq_none_iff.2 (ih (Option.map_eq_none_iff.1 h))
    | closing x ih => exact Option.map_eq_none_iff.2 (ih (Option.map_eq_none_iff.1 h))
    | char c x hpair ih =>
      rw [List.cons_append, breakTop_char_eq_none_iff ((isPair_append_iff hb).not.2 hpair)] at h
      rw [breakTop_char_eq_none_iff hpair]
      exact ⟨fun hfound => h.1 (hfound.imp_right hp.mono), ih h.2⟩

theorem breakTop_trim (h : breakTop p d l = none) : breakTop p d (trim l) = none := by
  obtain ⟨s, t, hs, ht, hl⟩ := exists_append_trim l
  rw [hl] at h
  exact breakTop_of_append_blank hp ht (breakTop_of_blank_append hs h)

/-- What is found is at the top level, and nothing is found before it. -/
theorem eq_append_of_breakTop (h : breakTop p d l = some (x, r)) :
    l = x ++ r ∧ p r = true ∧ depthAfter d x = 0 ∧ breakTop p d (x ++ [' ']) = none := by
  have hblank : isSpace ' ' = true := by decide
  induction l using pair_induction generalizing d x with
  | nil => cases h
  | opening l ih =>
    obtain ⟨⟨x, r⟩, hl, heq⟩ := Option.map_eq_some_iff.1 h
    cases heq
    obtain ⟨rfl, hr, hdepth, hbefore⟩ := ih hl
    exact ⟨rfl, hr, hdepth, Option.map_eq_none_iff.2 hbefore⟩
  | closing l ih =>
    obtain ⟨⟨x, r⟩, hl, heq⟩ := Option.map_eq_some_iff.1 h
    cases heq
    obtain ⟨rfl, hr, hdepth, hbefore⟩ := ih hl
    exact ⟨rfl, hr, hdepth, Option.map_eq_none_iff.2 hbefore⟩
  | char c l hpair ih =>
    rw [breakTop_char hpair] at h
    split_ifs at h with hfound
    · cases h
      refine ⟨rfl, hfound.2, hfound.1, ?_⟩
      rw [List.nil_append, breakTop_char (not_isPair_of_isSpace hblank), hp.single]
      simp [breakTop]
    · obtain ⟨⟨x, r⟩, hl, heq⟩ := Option.map_eq_some_iff.1 h
      cases heq
      obtain ⟨rfl, hr, hdepth, hbefore⟩ := ih hl
      obtain ⟨y, rfl⟩ := List.head?_eq_some_iff.1 (hp.head hr)
      have hpair : ¬ IsPair c x := (isPair_append_iff hblank).not.1 hpair
      refine ⟨rfl, hr, (depthAfter_char hpair).trans hdepth, ?_⟩
      change breakTop p d (c :: (x ++ [' '])) = none
      rw [breakTop_char_eq_none_iff ((isPair_append_iff hblank).not.2 hpair)]
      refine ⟨fun hbegins => hfound (hbegins.imp_right fun hbegins => ?_), hbefore⟩
      have hmono := hp.mono (y := y) hbegins
      rwa [List.cons_append, List.append_assoc] at hmono

theorem breakTop_eq_some_iff :
    breakTop p d l = some (x, r) ↔
      l = x ++ r ∧ p r = true ∧ depthAfter d x = 0 ∧ breakTop p d (x ++ [' ']) = none := by
  refine ⟨eq_append_of_breakTop hp, ?_⟩
  rintro ⟨rfl, hr, hdepth, hbefore⟩
  obtain ⟨y, rfl⟩ := List.head?_eq_some_iff.1 (hp.head hr)
  rw [breakTop_append hp hbefore, hdepth, breakTop_char (not_isPair_of_isSpace rfl),
    if_pos ⟨rfl, hr⟩]
  simp [prepend]

/-! ## Anywhere -/

theorem breakOn_of_append (h : breakOn p (x ++ y) = none) : breakOn p x = none := by
  induction x with
  | nil => rfl
  | cons c x ih =>
    rw [List.cons_append, breakOn_cons_eq_none_iff] at h
    rw [breakOn_cons_eq_none_iff]
    refine ⟨Bool.eq_false_iff.2 fun hfound => ?_, ih h.2⟩
    have hmono := hp.mono (y := y) hfound
    rw [List.cons_append, h.1] at hmono
    cases hmono

/-- What is found is there, and it is not there before. -/
theorem eq_append_of_breakOn (h : breakOn p l = some (x, r)) :
    l = x ++ r ∧ p r = true ∧ breakOn p (x ++ [' ']) = none := by
  induction l generalizing x with
  | nil => cases h
  | cons c l ih =>
    rw [breakOn] at h
    split_ifs at h with hfound
    · cases h
      refine ⟨rfl, hfound, ?_⟩
      rw [List.nil_append, breakOn_cons_eq_none_iff, hp.single]
      exact ⟨rfl, rfl⟩
    · obtain ⟨⟨x, r⟩, hl, heq⟩ := Option.map_eq_some_iff.1 h
      cases heq
      obtain ⟨rfl, hr, hbefore⟩ := ih hl
      obtain ⟨y, rfl⟩ := List.head?_eq_some_iff.1 (hp.head hr)
      refine ⟨rfl, hr, ?_⟩
      change breakOn p (c :: (x ++ [' '])) = none
      rw [breakOn_cons_eq_none_iff]
      refine ⟨Bool.eq_false_iff.2 fun hbegins => hfound ?_, hbefore⟩
      have hmono := hp.mono (y := y) hbegins
      rwa [List.cons_append, List.append_assoc] at hmono

/-- What is found is the first one. -/
theorem prefix_of_breakOn {x' r' : List Char} (h : breakOn p l = some (x, r)) (hl : l = x' ++ r')
    (hr' : p r' = true) : x <+: x' := by
  obtain ⟨rfl, hr, hbefore⟩ := eq_append_of_breakOn hp h
  obtain ⟨y, rfl⟩ := List.head?_eq_some_iff.1 (hp.head hr)
  rcases List.append_eq_append_iff.1 hl with ⟨m, rfl, -⟩ | ⟨m, rfl, rfl⟩
  · exact List.prefix_append x m
  · by_cases hm : m = []
    · rw [hm, List.append_nil]
    · rw [List.append_assoc] at hbefore
      have hends := hp.ends hm hr'
      rw [eq_false_of_breakOn hbefore (by simp)] at hends
      cases hends

end Yggdrasil.Text
