import Yggdrasil.Lib.Replace

/-!
# Patterns of text

A pattern is a list of parts (`Wild`), written as the operand of a database's `LIKE` (`likeParts`)
or with `*` as the only wildcard (`starParts`). `Text.like_replaceAll_iff` says when replacing the
stars is enough to get from the one to the other.
-/

namespace Yggdrasil

/-- A part of a pattern; `dangling` is an escape with nothing after it. -/
inductive Wild
  | lit (c : Char)
  | one
  | any
  | dangling
  deriving DecidableEq

namespace Wild

/-- Some end of a text satisfies `f`. -/
def anySuffix (f : List Char → Bool) : List Char → Bool
  | [] => f []
  | c :: t => f (c :: t) || anySuffix f t

/-- The text is one of the pattern. -/
def accepts : List Wild → List Char → Bool
  | [], t => t.isEmpty
  | .any :: p, t => anySuffix (accepts p) t
  | .lit c :: p, d :: t => c = d && accepts p t
  | .one :: p, _ :: t => accepts p t
  | _ :: _, _ => false

/-- The parts of the operand of `LIKE`. -/
def likeParts : List Char → List Wild
  | [] => []
  | '%' :: p => .any :: likeParts p
  | '_' :: p => .one :: likeParts p
  | '\\' :: c :: p => .lit c :: likeParts p
  | ['\\'] => [.dangling]
  | c :: p => .lit c :: likeParts p

/-- The parts of a pattern in which `*` is the only wildcard. -/
def starParts (p : List Char) : List Wild := p.map fun c => if c = '*' then .any else .lit c

/-- The length of the literal text of a pattern in which `*` is the only wildcard. -/
def literalLength (p : String) : ℕ := p.toList.countP (· ≠ '*')

theorem accepts_any (t : List Char) : accepts [.any] t = true := by
  rw [accepts]
  induction t with
  | nil => rfl
  | cons c t ih => rw [anySuffix, ih, Bool.or_true]

/-- Characters that stand for themselves, and then any text. -/
theorem accepts_lit_append_any (p t : List Char) :
    accepts (p.map .lit ++ [.any]) t = p.isPrefixOf t := by
  induction p generalizing t with
  | nil => exact accepts_any t
  | cons c p ih =>
    cases t with
    | nil => rfl
    | cons d t =>
      rw [List.map_cons, List.cons_append, accepts, ih, List.isPrefixOf]
      rfl

variable {p t : List Char} {parts : List Wild}

theorem anySuffix_iff {f : List Char → Bool} :
    anySuffix f t = true ↔ ∃ s, s <:+ t ∧ f s = true := by
  induction t with
  | nil => simp [anySuffix]
  | cons c t ih => simp [anySuffix, ih, List.suffix_cons_iff, or_and_right, exists_or]

/-- A text of a pattern: nothing for any text, and a letter for any one character. -/
def render : List Wild → List Char
  | [] => []
  | .lit c :: p => c :: render p
  | .one :: p => 'a' :: render p
  | .any :: p | .dangling :: p => render p

theorem accepts_render (h : .dangling ∉ parts) : accepts parts (render parts) = true := by
  induction parts with
  | nil => rfl
  | cons part parts ih =>
    rw [List.mem_cons, not_or] at h
    have hrest := ih h.2
    cases part with
    | lit c => simpa [render, accepts] using hrest
    | one => exact hrest
    | any => exact anySuffix_iff.2 ⟨_, List.suffix_rfl, hrest⟩
    | dangling => exact absurd rfl h.1

theorem dangling_notMem_of_accepts (h : accepts parts t = true) : .dangling ∉ parts := by
  induction parts generalizing t with
  | nil => exact List.not_mem_nil
  | cons part parts ih =>
    obtain ⟨s, hs⟩ : ∃ s, accepts parts s = true := by
      cases part <;> cases t <;> grind [accepts, anySuffix_iff]
    have hrest := ih hs
    cases part <;> grind [accepts]

/-- A text that matches has all the characters of the pattern but the stars. -/
theorem count_le_of_accepts {c : Char} (hc : c ≠ '*') (h : accepts (starParts p) t = true) :
    p.count c ≤ t.count c := by
  induction p generalizing t with
  | nil => exact Nat.zero_le _
  | cons d p ih =>
    rw [starParts, List.map_cons] at h
    split at h
    next hstar =>
      obtain ⟨s, hs, hp⟩ := anySuffix_iff.1 h
      rw [hstar, List.count_cons_of_ne hc.symm]
      exact (ih hp).trans (hs.sublist.count_le c)
    · cases t with
      | nil => cases h
      | cons d' t =>
        obtain ⟨hd, hp⟩ := Bool.and_eq_true_iff.1 h
        rw [of_decide_eq_true hd, List.count_cons, List.count_cons]
        exact Nat.add_le_add_right (ih hp) _

/-- Every escape leaves out a backslash. -/
theorem count_render (q : List Char) : (render (likeParts q)).count '\\' ≤ q.count '\\' ∧
    ('\\' ∈ q → (render (likeParts q)).count '\\' < q.count '\\') := by
  fun_induction likeParts q with
  | case6 c p => cases p <;> grind [render]
  | _ => grind [render]

/-- Without an escape the wildcards are left out too. -/
theorem not_mem_render {q : List Char} (h : '\\' ∉ q) :
    '%' ∉ render (likeParts q) ∧ '_' ∉ render (likeParts q) := by
  fun_induction likeParts q with grind [render]

/-- A star, as it is written for `LIKE`. -/
def starToPercent (c : Char) : Char := if c = '*' then '%' else c

/-- A character that means something to `LIKE` only. -/
def special (c : Char) : Prop := c = '%' ∨ c = '_' ∨ c = '\\'

theorem likeParts_of_not_special (h : ∀ c ∈ p, ¬ special c) :
    likeParts (p.map starToPercent) = starParts p := by
  induction p with
  | nil => rfl
  | cons c p ih =>
    rw [List.forall_mem_cons] at h
    rw [List.map_cons, starParts, List.map_cons, ← starParts, ← ih h.2, starToPercent]
    split
    · rfl
    · rw [likeParts] <;> simp_all [special]

theorem not_special_of_accepts_eq (h : ∀ t, accepts (likeParts (p.map starToPercent)) t =
    accepts (starParts p) t) : ∀ c ∈ p, ¬ special c := by
  have hliterals : accepts (starParts p) (render (starParts p)) = true :=
    accepts_render (by grind [starParts])
  have hstar := accepts_render (dangling_notMem_of_accepts ((h _).trans hliterals))
  rw [h] at hstar
  have hback : '\\' ∉ p := by
    intro hmem
    have hle := count_le_of_accepts (c := '\\') (by decide) hstar
    have hcount : (p.map starToPercent).count '\\' = p.count '\\' := by
      rw [List.count, List.countP_map]
      exact List.countP_congr fun c _ => by grind [starToPercent]
    have hlt := (count_render (p.map starToPercent)).2 (List.mem_map.2 ⟨_, hmem, rfl⟩)
    omega
  have hmem {c : Char} (hc : c ∈ p) (hne : c ≠ '*') :
      c ∈ render (likeParts (p.map starToPercent)) :=
    List.count_pos_iff.1 ((List.count_pos_iff.2 hc).trans_le (count_le_of_accepts hne hstar))
  have hnone := not_mem_render (q := p.map starToPercent) (by grind [starToPercent])
  rintro c hc (rfl | rfl | rfl)
  · exact hnone.1 (hmem hc (by decide))
  · exact hnone.2 (hmem hc (by decide))
  · exact hback hc

end Wild

/-- `s LIKE pattern`. -/
def Text.like (s pattern : String) : Bool :=
  Wild.accepts (Wild.likeParts pattern.toList) s.toList

/-- `s` is one of the texts of a pattern in which `*` is the only wildcard. -/
def Text.starMatch (pattern s : String) : Bool :=
  Wild.accepts (Wild.starParts pattern.toList) s.toList

theorem Text.like_replaceAll_iff (p : String) :
    (∀ s, like s (replaceAll p "*" "%") = starMatch p s) ↔ ∀ c ∈ p.toList, ¬ Wild.special c := by
  have hchars : (replaceAll p "*" "%").toList = p.toList.map Wild.starToPercent := by
    rw [replaceAll, if_neg (by decide), String.toList_ofList]
    exact replaceFrom_singleton '*' '%' _
  simp only [like, hchars]
  constructor
  · intro h
    exact Wild.not_special_of_accepts_eq fun t => by simpa [starMatch] using h (.ofList t)
  · intro h s
    rw [Wild.likeParts_of_not_special h, starMatch]

end Yggdrasil
