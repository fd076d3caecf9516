import Mathlib.Logic.Function.Basic
import Mathlib.Tactic.Push
import Mathlib.Tactic.SplitIfs

/-!
# Repeated writes of entries

Entries are written one after the other under their keys. Writing a list again changes nothing when
all its values are there after the first time.
-/

namespace Yggdrasil.Upsert

/-- A value for a key, which is live or not. -/
structure Entry (κ α : Type*) where
  key : κ
  value : α
  live : Bool

variable {κ α : Type*} [DecidableEq κ] [DecidableEq α]
  {values : κ → Option α} {x : Entry κ α} {l : List (Entry κ α)} {k : κ} {a : α}

/-- The values after an entry. -/
def put (values : κ → Option α) (x : Entry κ α) : κ → Option α :=
  if values x.key = some x.value then values
  else Function.update values x.key (if x.live then some x.value else none)

/-- The values after a list of entries. -/
def putAll (values : κ → Option α) (l : List (Entry κ α)) : κ → Option α := l.foldl put values

theorem put_of_ne (h : k ≠ x.key) : put values x k = values k := by
  unfold put
  split
  · rfl
  · exact Function.update_of_ne h _ _

theorem put_key : put values x x.key =
    if values x.key = some x.value ∨ x.live then some x.value else none := by
  unfold put
  by_cases hthere : values x.key = some x.value
  · rw [if_pos hthere, if_pos (.inl hthere), hthere]
  · rw [if_neg hthere, Function.update_self]
    simp only [hthere, false_or]

/-- Entries of a key that agree with its value leave it there. -/
theorem putAll_of_agree (hagree : ∀ x ∈ l, x.key = k → x.value = a) (h : values k = some a) :
    putAll values l k = some a := by
  induction l generalizing values with
  | nil => exact h
  | cons x l ih =>
    refine ih (fun y hy => hagree y (List.mem_cons_of_mem x hy)) ?_
    by_cases hk : k = x.key
    · subst hk
      obtain rfl := hagree x List.mem_cons_self rfl
      rw [put_key, if_pos (.inl h)]
    · rw [put_of_ne hk, h]

/-- A live entry puts its value there, if the others of its key agree. -/
theorem putAll_of_live (hagree : ∀ x ∈ l, x.key = k → x.value = a)
    (hlive : ∃ x ∈ l, x.key = k ∧ x.live = true) : putAll values l k = some a := by
  induction l generalizing values with
  | nil =>
    obtain ⟨x, hx, -⟩ := hlive
    cases hx
  | cons y l ih =>
    have hrest : ∀ x ∈ l, x.key = k → x.value = a := fun x hx =>
      hagree x (List.mem_cons_of_mem y hx)
    obtain ⟨x, hx, rfl, hlive⟩ := hlive
    rcases List.mem_cons.1 hx with rfl | hx
    · have hput : put values x x.key = some a := by
        rw [put_key, if_pos (.inr hlive), hagree x List.mem_cons_self rfl]
      change putAll (put values x) l x.key = some a
      exact putAll_of_agree hrest hput
    · exact ih hrest ⟨x, hx, rfl, hlive⟩

/-- Entries that are not live put no value there. -/
theorem of_putAll (hlive : ∀ x ∈ l, x.key = k → x.live = false)
    (h : putAll values l k = some a) : values k = some a := by
  induction l generalizing values with
  | nil => exact h
  | cons x l ih =>
    have hput := ih (fun y hy => hlive y (List.mem_cons_of_mem x hy)) h
    by_cases hk : k = x.key
    · subst hk
      rw [put_key, hlive x List.mem_cons_self rfl] at hput
      simp only [Bool.false_eq_true, or_false] at hput
      split_ifs at hput with hthere
      exact hthere.trans hput
    · rwa [put_of_ne hk] at hput

theorem settled_putAll_iff :
    (∀ x ∈ l, putAll values l x.key = some x.value) ↔
      (∀ x ∈ l, ∀ y ∈ l, y.key = x.key → y.value = x.value) ∧
        ∀ x ∈ l, values x.key = some x.value ∨ ∃ y ∈ l, y.key = x.key ∧ y.live = true := by
  constructor
  · intro h
    refine ⟨fun x hx y hy hkey => ?_, fun x hx => ?_⟩
    · have hx' := h x hx
      rw [← hkey, h y hy] at hx'
      exact Option.some.inj hx'
    · by_cases hlive : ∃ y ∈ l, y.key = x.key ∧ y.live = true
      · exact .inr hlive
      · push Not at hlive
        exact .inl (of_putAll (fun y hy hkey => Bool.eq_false_iff.2 (hlive y hy hkey)) (h x hx))
  · rintro ⟨hagree, hthere⟩ x hx
    rcases hthere x hx with hthere | hlive
    · exact putAll_of_agree (hagree x hx) hthere
    · exact putAll_of_live (hagree x hx) hlive

end Yggdrasil.Upsert
