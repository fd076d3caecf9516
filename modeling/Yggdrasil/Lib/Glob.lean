import Yggdrasil.Lib.Runes

/-!
# Shell patterns

Matching of slash-separated names against shell patterns. A pattern is first read (`Glob.tokenize`),
which a malformed one is not, and cut at its stars into chunks (`Glob.chunks`). A chunk after a star
is matched at the first byte where it fits, and a later one is not tried.
-/

namespace Yggdrasil.Glob

/-- What a pattern is made of. -/
inductive Token
  | star
  | any
  | lit (c : Char)
  | ranges (negated : Bool) (rs : List (Char × Char))
  deriving DecidableEq

/-- Whether a token other than a star matches what stands in the name. -/
def Token.accepts : Token → Rune → Bool
  | .star, _ => false
  | .any, r => r ≠ .char '/'
  | .lit c, r => r = .char c
  | .ranges negated rs, r => (rs.any fun b => b.1 ≤ r.toChar && r.toChar ≤ b.2) != negated

/-! ## Reading a pattern -/

/-- A character of a range, and what is left of the pattern, which must not be empty. -/
def getEsc : List Char → Option (Char × List Char)
  | [] => none
  | '-' :: _ => none
  | ']' :: _ => none
  | '\\' :: cs =>
    match cs with
    | [] => none
    | c :: rest => if rest.isEmpty then none else some (c, rest)
  | c :: rest => if rest.isEmpty then none else some (c, rest)

/-- The ranges up to the closing bracket, of which there must be one. -/
def getRanges : ℕ → Bool → List Char → Option (List (Char × Char) × List Char)
  | 0, _, _ => none
  | fuel + 1, nonempty, cs =>
    match nonempty, cs with
    | true, ']' :: rest => some ([], rest)
    | _, _ => do
      let (lo, rest) ← getEsc cs
      let (hi, rest) ← match rest with
        | '-' :: rest => getEsc rest
        | _ => some (lo, rest)
      let (rs, rest) ← getRanges fuel true rest
      some ((lo, hi) :: rs, rest)

/-- The tokens of a pattern. -/
def tokenize : ℕ → List Char → Option (List Token)
  | _, [] => some []
  | 0, _ :: _ => none
  | fuel + 1, c :: cs =>
    if c = '*' then (.star :: ·) <$> tokenize fuel cs
    else if c = '?' then (.any :: ·) <$> tokenize fuel cs
    else if c = '\\' then
      match cs with
      | [] => none
      | c' :: cs => (.lit c' :: ·) <$> tokenize fuel cs
    else if c = '[' then do
      let negated := cs.head? = some '^'
      let (rs, rest) ← getRanges cs.length false (if negated then cs.tail else cs)
      (.ranges negated rs :: ·) <$> tokenize fuel rest
    else (.lit c :: ·) <$> tokenize fuel cs

/-- The tokens cut at the stars: each chunk with whether a star is before it. -/
def chunks : List Token → List (Bool × List Token)
  | [] => []
  | .star :: ts =>
    match chunks ts with
    | (false, chunk) :: rest => (true, chunk) :: rest
    | (true, chunk) :: rest => (true, chunk) :: rest
    | [] => [(true, [])]
  | t :: ts =>
    match chunks ts with
    | (false, chunk) :: rest => (false, t :: chunk) :: rest
    | rest => (false, [t]) :: rest

/-- What is left of the name after a chunk that matches its beginning. -/
def matchChunk : List Token → Runes → Option Runes
  | [], name => some name
  | t :: ts, r :: name => if t.accepts r then matchChunk ts name else none
  | _ :: _, [] => none

/-- What is left after a chunk, which for the last one is nothing. -/
def fits (last : Bool) (chunk : List Token) (name : Runes) : Option Runes :=
  (matchChunk chunk name).filter fun rest => rest.isEmpty || !last

/-- What a star may leave of the name: it takes none of its bytes, or some of them up to a slash. -/
def afterStar : Runes → List Runes
  | [] => [[]]
  | r :: name => (r :: name) :: if r = .char '/' then [] else
      (List.range' 1 (r.size - 1)).map (Runes.dropBytes · (r :: name)) ++ afterStar name

/-- What is left after the first place where the chunk fits; without a star, the beginning. -/
def findChunk (star last : Bool) (chunk : List Token) (name : Runes) : Option Runes :=
  (if star then afterStar name else [name]).findSome? (fits last chunk)

/-- Whether the chunks match the whole name. -/
def matchChunks : List (Bool × List Token) → Runes → Bool
  | [], name => name.isEmpty
  | (star, chunk) :: rest, name =>
    if star && chunk.isEmpty then !name.contains (.char '/')
    else
      match findChunk star rest.isEmpty chunk name with
      | some name => matchChunks rest name
      | none => false

/-- Whether the pattern matches the name, unless the pattern is malformed. -/
def pathMatch (pattern name : String) : Option Bool :=
  (tokenize pattern.length pattern.toList).map fun ts =>
    matchChunks (chunks ts) (Runes.ofString name)

/-- The bytes of a character may be taken apart after a star. -/
example : pathMatch "*??" "€" = some true := by decide +kernel

example : pathMatch "workflow:*:dep[l-o]oy-?" "workflow:prod:deploy-x" = some true := by
  decide +kernel

example : pathMatch "manifest.*" "manifest.a/b" = some false := by decide +kernel

example : pathMatch "a[]b" "ab" = none := by decide +kernel

/-! ## Searching after a star -/

variable {last : Bool} {t : Token} {chunk : List Token} {r : Rune} {name rest : Runes}

/-- The search goes on after the first character, when nothing fits inside it. -/
theorem findChunk_cons (h : (∀ b, t.accepts (.stray b) = false) ∨ r.size = 1) :
    findChunk true last (t :: chunk) (r :: name) = (fits last (t :: chunk) (r :: name)).or
      (if r = .char '/' then none else findChunk true last (t :: chunk) name) := by
  have hinside : ((List.range' 1 (r.size - 1)).map (Runes.dropBytes · (r :: name))).findSome?
      (fits last (t :: chunk)) = none := by
    rw [List.findSome?_eq_none_iff]
    intro place hplace
    obtain ⟨n, hn, rfl⟩ := List.mem_map.1 hplace
    rw [List.mem_range'_1] at hn
    have hstray := h.resolve_right (by omega)
    have hdrop : r.bytes.drop n ≠ [] := by
      rw [Ne, List.drop_eq_nil_iff, not_le]
      exact (by omega : n < r.size)
    obtain ⟨b, bs, hbytes⟩ := List.exists_cons_of_ne_nil hdrop
    rw [Runes.dropBytes, if_neg (by omega), if_neg (by omega), hbytes]
    simp [fits, matchChunk, hstray]
  rw [findChunk, if_pos rfl, afterStar, List.findSome?_cons]
  cases fits last (t :: chunk) (r :: name) with
  | some rest => rfl
  | none =>
    by_cases hslash : r = .char '/'
    · simp [hslash]
    · simp only [hslash, if_false, List.findSome?_append, hinside, Option.none_or, findChunk,
        if_true]

/-! ## Slashes -/

theorem slash_mem_ofString (name : String) :
    Rune.char '/' ∈ Runes.ofString name ↔ '/' ∈ name.toList := by
  simp [Runes.ofString]

/-- A star alone matches what has no slash. -/
theorem pathMatch_star (name : String) :
    pathMatch "*" name = some (decide ('/' ∉ name.toList)) := by
  have htokens : tokenize "*".length "*".toList = some [.star] := by decide +kernel
  rw [pathMatch, htokens, Option.map_some, Option.some_inj]
  simp [chunks, matchChunks, slash_mem_ofString]

/-- Stars around a character match what has the character and no slash. -/
theorem matchChunks_star_lit_star {d : Char} (hd : d ≠ '/') (name : Runes) :
    matchChunks [(true, [.lit d]), (true, [])] name = true ↔
      .char '/' ∉ name ∧ .char d ∈ name := by
  change (match findChunk true false [.lit d] name with
    | some name => matchChunks [(true, [])] name
    | none => false) = true ↔ _
  induction name with
  | nil => simp [findChunk, afterStar, fits, matchChunk]
  | cons r name ih =>
    rw [findChunk_cons (t := .lit d) (.inl fun b => rfl)]
    by_cases hr : r = .char d
    · -- The chunk fits here, and the last star takes the rest.
      subst hr
      simp [fits, matchChunks, matchChunk, Token.accepts, Option.filter, hd.symm]
    · have hnot : fits false [.lit d] (r :: name) = none := by
        simp [fits, matchChunk, Token.accepts, hr]
      rw [hnot, Option.none_or]
      by_cases hslash : r = .char '/'
      · simp [hslash]
      · -- The first star takes it.
        simpa [hslash, Ne.symm hslash, Ne.symm hr] using ih

theorem pathMatch_star_dot_star (name : String) :
    pathMatch "*.*" name = some (decide ('/' ∉ name.toList ∧ '.' ∈ name.toList)) := by
  have htokens : tokenize "*.*".length "*.*".toList = some [.star, .lit '.', .star] := by
    decide +kernel
  rw [pathMatch, htokens, Option.map_some, Option.some_inj, Bool.eq_iff_iff, decide_eq_true_iff]
  refine (matchChunks_star_lit_star (by decide) _).trans ?_
  simp [Runes.ofString]

/-! ## Literal patterns -/

end Yggdrasil.Glob
