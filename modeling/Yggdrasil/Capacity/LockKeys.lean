import Yggdrasil.Lib.Encode

/-!
# The keys of advisory locks

A lock is taken by a text: a JSON array of names. The server writes it with its own encoder and the
database with another, and only the first escapes the characters that matter in HTML.
-/

namespace Yggdrasil.Capacity.LockKeys

open Text

/-- The characters that only the server escapes. -/
def htmlChars : List Char := ['<', '>', '&', '\u2028', '\u2029']

/-- The characters that are written as a backslash and another one. -/
def shortEscapes : List (Char × Char) :=
  [('"', '"'), ('\\', '\\'), ('\x08', 'b'), ('\x0c', 'f'), ('\n', 'n'), ('\r', 'r'), ('\t', 't')]

/-- The escape of a character by its code. -/
def unicodeEscape (c : Char) : List Char :=
  ['\\', 'u', hexDigit (c.toNat / 4096 % 16), hexDigit (c.toNat / 256 % 16),
    hexDigit (c.toNat / 16 % 16), hexDigit (c.toNat % 16)]

/-- A character of a JSON text, as the database writes it. -/
def escapeJSON (c : Char) : List Char :=
  match shortEscapes.lookup c with
  | some short => ['\\', short]
  | none => if c.toNat < 0x20 then unicodeEscape c else [c]

/-- The same, as `json.Marshal` writes it. -/
def goEscape (c : Char) : List Char := if c ∈ htmlChars then unicodeEscape c else escapeJSON c

section

variable (escape : Char → List Char)

/-- A text between quotes. -/
def quoted (s : String) : List Char := '"' :: s.toList.flatMap escape ++ ['"']

/-- The texts of an array, with commas between them. -/
def joined (names : List String) : List Char :=
  (names.flatMap fun s => ',' :: quoted escape s).tail

/-- An array of texts between what opens and closes it. -/
def array (opening : String) (names : List String) (closing : String) : String :=
  opening ++ .ofList (joined escape names) ++ closing

end

section Keys

variable (realm environment domain dimension instanceID scopeChecksum profileName : String)
  (slot : ℤ)

/-- The key of the lock of a dimension. -/
def lockMutationScope : String := array goEscape "[" [realm, environment, domain, dimension] "]"

/-- The key of the lock of a slot. -/
def lockNativeMutationSlot : String :=
  array goEscape "[\"capacity-native-slot\"," [instanceID, scopeChecksum, profileName]
    ("," ++ toString slot ++ "]")

/-- The key of a dimension, with the escapes of the database. -/
def scopeKey : String := array escapeJSON "[" [realm, environment, domain, dimension] "]"

/-- The key of a slot, with the escapes of the database. -/
def nativeKey : String :=
  array escapeJSON "[\"capacity-native-slot\"," [instanceID, scopeChecksum, profileName]
    ("," ++ toString slot ++ "]")

end Keys

/-- No character of a text is escaped by the server only. -/
def OneEncoding (s : String) : Prop := ∀ c ∈ s.toList, c ∉ htmlChars

variable {c : Char} {s : String} {names : List String}

theorem not_mem_html_of_unicodeEscape {d : Char} (h : c ∈ unicodeEscape d) : c ∉ htmlChars := by
  have hdigit : ∀ n < 16, hexDigit n ∉ htmlChars := by decide
  simp only [unicodeEscape, List.mem_cons, List.not_mem_nil, or_false] at h
  rcases h with rfl | rfl | rfl | rfl | rfl | rfl
  · decide
  · decide
  all_goals exact hdigit _ (Nat.mod_lt _ (by decide))

/-- The server writes no character of HTML. -/
theorem not_mem_html_of_goEscape {d : Char} (h : c ∈ goEscape d) : c ∉ htmlChars := by
  rw [goEscape] at h
  split at h
  next => exact not_mem_html_of_unicodeEscape h
  next hd =>
    rw [escapeJSON] at h
    split at h
    next short hshort =>
      have hshorts : ∀ p ∈ shortEscapes, p.2 ∉ htmlChars := by decide
      obtain ⟨_, _, hmem, -⟩ := List.lookup_eq_some_iff.1 hshort
      rcases List.mem_pair.1 h with rfl | rfl
      · decide
      · exact hshorts (d, c) (hmem ▸ by simp)
    next =>
      split at h
      next => exact not_mem_html_of_unicodeEscape h
      next => exact List.mem_singleton.1 h ▸ hd

/-- The database leaves them as they are. -/
theorem escapeJSON_of_mem (h : c ∈ htmlChars) : escapeJSON c = [c] := by
  simp only [htmlChars, List.mem_cons, List.not_mem_nil, or_false] at h
  rcases h with rfl | rfl | rfl | rfl | rfl <;> simp [escapeJSON, shortEscapes, List.lookup]

theorem mem_joined {escape : Char → List Char} (hc : c ∈ htmlChars) :
    c ∈ joined escape names ↔ ∃ s ∈ names, ∃ d ∈ s.toList, c ∈ escape d := by
  have hcomma : c ≠ ',' := by rintro rfl; revert hc; decide
  have hquote : c ≠ '"' := by rintro rfl; revert hc; decide
  cases names <;> simp [joined, quoted, hquote, hcomma]

theorem joined_eq_iff :
    joined goEscape names = joined escapeJSON names ↔ ∀ s ∈ names, OneEncoding s := by
  constructor
  · intro h s hs c hc hhtml
    have hmem : c ∈ joined escapeJSON names :=
      (mem_joined hhtml).2 ⟨s, hs, c, hc, escapeJSON_of_mem hhtml ▸ List.mem_singleton_self c⟩
    rw [← h, mem_joined hhtml] at hmem
    obtain ⟨_, _, d, _, hd⟩ := hmem
    exact not_mem_html_of_goEscape hd hhtml
  · intro h
    have hitem : ∀ s ∈ names, ',' :: quoted goEscape s = ',' :: quoted escapeJSON s := by
      intro s hs
      have heq : s.toList.flatMap goEscape = s.toList.flatMap escapeJSON :=
        List.flatMap_congr fun c hc => if_neg (h s hs c hc)
      rw [quoted, quoted, heq]
    rw [joined, joined, List.flatMap_congr hitem]

theorem array_eq_iff (opening closing : String) :
    array goEscape opening names closing = array escapeJSON opening names closing ↔
      ∀ s ∈ names, OneEncoding s := by
  simp only [array, ← String.toList_inj, String.toList_append, String.toList_ofList,
    List.append_cancel_right_eq, List.append_cancel_left_eq, joined_eq_iff]

/-- The server and the database take the same locks exactly for names that both write alike. -/
theorem lock_keys_eq_iff (realm environment domain dimension instanceID scopeChecksum profileName :
    String) (slot : ℤ) :
    (lockMutationScope realm environment domain dimension =
        scopeKey realm environment domain dimension ↔
      ∀ s ∈ [realm, environment, domain, dimension], OneEncoding s) ∧
    (lockNativeMutationSlot instanceID scopeChecksum profileName slot =
        nativeKey instanceID scopeChecksum profileName slot ↔
      ∀ s ∈ [instanceID, scopeChecksum, profileName], OneEncoding s) :=
  ⟨array_eq_iff _ _, array_eq_iff _ _⟩

/-- The keys of a scope whose dimension is `a<b`. -/
theorem lock_keys_ne :
    lockMutationScope "core" "prod" "web" "a<b" ≠ scopeKey "core" "prod" "web" "a<b" := by
  decide +kernel

end Yggdrasil.Capacity.LockKeys
