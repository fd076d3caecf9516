import Yggdrasil.Sessions.Codes

/-!
# Chains of refresh tokens

The tokens that descend from one form a chain whose last token is the only one that can be open, and
a rotated token that is presented again condemns it. The statement that revokes the chain does not
see a token that a rotation has inserted and not committed (`not_chained`).
-/

namespace Yggdrasil.Sessions

open Function Relation

variable {W : Type} {db db' : Db W} {a b c : String}

/-! ## Links -/

namespace Db

/-- The tokens, and what they were rotated from. -/
def links (db : Db W) : List (String × Option String) :=
  db.tokens.rows.map fun t => (t.token, t.rotatedFrom)

/-- A token was rotated from another one. -/
def Link (db : Db W) (a b : String) : Prop := (b, some a) ∈ db.links

/-- A token has been rotated. -/
def Rotated (db : Db W) (a : String) : Prop := ∃ b, db.Link a b

/-- Tokens that rotations lead to and from each other. -/
def SameChain (db : Db W) : String → String → Prop := EqvGen db.Link

theorem links_close (now : ℤ) (keys : List Key) : (db.close now keys).links = db.links := by
  have hfrom (t : RefreshToken) : (t.close now keys).rotatedFrom = t.rotatedFrom := by
    rw [RefreshToken.close, apply_ite RefreshToken.rotatedFrom, ite_self]
  simp [links, close, Table.map, comp_def, hfrom]

theorem links_addToken {t : RefreshToken} (hfresh : db.stamp (.token t.token) = none) :
    (db.addToken t).links = (t.token, t.rotatedFrom) :: db.links := by
  obtain ⟨tokens, htokens⟩ := insert?_of_stamp hfresh
  rw [links, addToken, htokens, Option.getD_some, (Table.insert?_eq_some htokens).2, List.map_cons,
    links]

variable {e : String × Option String}

theorem exists_of_mem_links (he : e ∈ db.links) :
    ∃ t ∈ db.tokens, t.token = e.1 ∧ t.rotatedFrom = e.2 := by
  obtain ⟨t, ht, rfl⟩ := List.mem_map.1 he
  exact ⟨t, ht, rfl, rfl⟩

theorem stamp_of_mem_links (he : e ∈ db.links) : db.stamp (.token e.1) ≠ none := by
  obtain ⟨t, ht, htoken, -⟩ := exists_of_mem_links he
  rw [← htoken, stamp_token ht]
  nofun

end Db

/-- A rotated token is revoked, and no two were rotated from the same one. -/
structure Linear (db : Db W) : Prop where
  closed : ∀ a b, db.Link a b → db.Closed (.token a)
  unique : ∀ a b c, db.Link a b → db.Link a c → b = c
  ranked : ∃ rank : String → ℕ, (∀ e ∈ db.links, rank e.1 < db.links.length) ∧
    ∀ a b, db.Link a b → rank a < rank b

namespace Linear

theorem empty : Linear ({} : Db W) where
  closed _ _ h := absurd h List.not_mem_nil
  unique _ _ _ h := absurd h List.not_mem_nil
  ranked :=
    ⟨fun _ => 0, fun _ h => absurd h List.not_mem_nil, fun _ _ h => absurd h List.not_mem_nil⟩

variable (h : Linear db)
include h

theorem not_link_of_open (hopen : db.stamp (.token a) = some none) (b : String) :
    ¬ db.Link a b := by
  intro hlink
  exact Db.not_closed_of_open hopen (h.closed a b hlink)

/-- A chain leads to its open token. -/
theorem reflTransGen_of_open (hopen : db.stamp (.token b) = some none) (hab : db.SameChain a b) :
    ReflTransGen db.Link a b :=
  reflTransGen_of_eqvGen h.unique (h.not_link_of_open hopen) hab

theorem eq_of_open (ha : db.stamp (.token a) = some none) (hb : db.stamp (.token b) = some none)
    (hab : db.SameChain a b) : a = b :=
  ((reflTransGen_iff_eq (h.not_link_of_open ha)).1 (h.reflTransGen_of_open hb hab)).symm

/-- The recursive query finds what descends from a token. -/
theorem mem_chain (ha : db.stamp (.token a) ≠ none) (hab : ReflTransGen db.Link a b) :
    b ∈ db.chain a := by
  obtain ⟨rank, hbound, hrank⟩ := h.ranked
  have hlength : db.links.length = db.tokens.rows.length := List.length_map _
  obtain ⟨closed, hclosed⟩ := Option.ne_none_iff_exists'.1 ha
  obtain ⟨t, ht, rfl, -⟩ := Db.exists_token_of_stamp hclosed
  have hb : rank b < db.links.length := by
    rcases reflTransGen_iff_eq_or_transGen.1 hab with rfl | hab
    · exact hbound _ (List.mem_map_of_mem ht)
    · obtain ⟨d, -, hlink⟩ := TransGen.tail'_iff.1 hab
      exact hbound _ hlink
  refine mem_levels (R := db.Link) (fun level a b ha hlink => ?_) hrank ?_ hab (by omega)
  · obtain ⟨t, ht, rfl, hfrom⟩ := Db.exists_of_mem_links hlink
    refine List.mem_map_of_mem (List.mem_filter.2 ⟨ht, ?_⟩)
    simpa [hfrom] using ha
  · exact List.mem_map_of_mem (List.mem_filter.2 ⟨ht, by simp⟩)

theorem of_links (hlinks : db'.links = db.links)
    (hclosed : ∀ a, db.Closed (.token a) → db'.Closed (.token a)) : Linear db' where
  closed a b hlink := by
    rw [Db.Link, hlinks] at hlink
    exact hclosed a (h.closed a b hlink)
  unique a b c := by
    simp only [Db.Link, hlinks]
    exact h.unique a b c
  ranked := by
    simp only [Db.Link, hlinks]
    exact h.ranked

/-- A chain is extended at its open token, or a new one begins. -/
theorem insert {token : String} {parent : Option String}
    (hfresh : db.stamp (.token token) = none)
    (hparent : ∀ a ∈ parent, db.stamp (.token a) = some none ∧ db'.Closed (.token a))
    (hlinks : db'.links = (token, parent) :: db.links)
    (hclosed : ∀ a, db.Closed (.token a) → db'.Closed (.token a)) : Linear db' where
  closed a b hlink := by
    rw [Db.Link, hlinks, List.mem_cons] at hlink
    rcases hlink with heq | hlink
    · exact (hparent a (Prod.ext_iff.1 heq).2.symm).2
    · exact hclosed a (h.closed a b hlink)
  unique a b c hb hc := by
    rw [Db.Link, hlinks, List.mem_cons] at hb hc
    rcases hb with hb | hb <;> rcases hc with hc | hc
    · exact (Prod.ext_iff.1 hb).1.trans (Prod.ext_iff.1 hc).1.symm
    · exact absurd hc (h.not_link_of_open (hparent a (Prod.ext_iff.1 hb).2.symm).1 c)
    · exact absurd hb (h.not_link_of_open (hparent a (Prod.ext_iff.1 hc).2.symm).1 b)
    · exact h.unique a b c hb hc
  ranked := by
    obtain ⟨rank, hbound, hrank⟩ := h.ranked
    have hne : ∀ a, db.stamp (.token a) ≠ none → a ≠ token := by
      rintro a ha rfl
      exact ha hfresh
    have hsome : ∀ {closed : Option ℤ}, some closed ≠ none := nofun
    refine ⟨update rank token (parent.elim 0 fun a => rank a + 1), fun e he => ?_,
      fun a b hlink => ?_⟩
    · rw [hlinks, List.length_cons]
      rw [hlinks, List.mem_cons] at he
      rcases he with rfl | he
      · rw [update_self]
        cases parent with
        | none => exact Nat.succ_pos _
        | some a =>
          obtain ⟨t, ht, rfl, -⟩ := Db.exists_token_of_stamp (hparent a rfl).1
          exact Nat.succ_lt_succ (hbound _ (List.mem_map_of_mem ht))
      · rw [update_of_ne (hne _ (Db.stamp_of_mem_links he))]
        exact Nat.lt_succ_of_lt (hbound e he)
    · rw [Db.Link, hlinks, List.mem_cons] at hlink
      rcases hlink with heq | hlink
      · obtain ⟨rfl, rfl⟩ := Prod.ext_iff.1 heq
        dsimp only at hparent ⊢
        rw [update_self, update_of_ne (hne a ((hparent a rfl).1 ▸ hsome))]
        exact Nat.lt_succ_self _
      · obtain ⟨t, ht⟩ := h.closed a b hlink
        rw [update_of_ne (hne b (Db.stamp_of_mem_links hlink)),
          update_of_ne (hne a (ht ▸ hsome))]
        exact hrank a b hlink

/-- What descends from a rotated token has a row. -/
theorem stamp_of_descends (ha : db.Rotated a) (hab : ReflTransGen db.Link a b) :
    db.stamp (.token b) ≠ none := by
  rcases reflTransGen_iff_eq_or_transGen.1 hab with rfl | hab
  · obtain ⟨c, hlink⟩ := ha
    obtain ⟨t, ht⟩ := h.closed _ c hlink
    rw [ht]
    nofun
  · obtain ⟨c, -, hlink⟩ := TransGen.tail'_iff.1 hab
    exact Db.stamp_of_mem_links hlink

end Linear

/-! ## What calls do to the chains -/

variable [DecidableEq W] {calls : ℕ → W × Call} {i j : W} {call : Call} {p p' : Phase} {n m : ℕ}

/-- A call keeps the links, or adds a token that begins a chain or replaces an open one. -/
inductive Linked (db : Db W) (p : Phase) (db' : Db W) : Prop
  | same (h : db'.links = db.links)
  | added (token : String) (parent : Option String) (hfresh : db.stamp (.token token) = none)
      (hrotates : ∀ a ∈ parent, ∃ new now, p = .renewed a new now)
      (hparent : ∀ a ∈ parent, db.stamp (.token a) = some none ∧ db'.Closed (.token a))
      (h : db'.links = (token, parent) :: db.links)
omit [DecidableEq W] in
theorem Linked.link (h : Linked db p db') (hlink : db'.Link a b) :
    db.Link a b ∨ ∃ new now, p = .renewed a new now := by
  cases h with
  | same hlinks => exact .inl ((congrArg ((b, some a) ∈ ·) hlinks).mp hlink)
  | added token parent _ hrotates _ hlinks =>
    rw [Db.Link, hlinks, List.mem_cons] at hlink
    rcases hlink with heq | hlink
    · exact .inr (hrotates a (Prod.ext_iff.1 heq).2.symm)
    · exact .inl hlink

section Step

variable (h : Acts i db call p db' p') (hp : Holds i db p)

include h hp

theorem Acts.linked : Linked db p db' := by
  cases h with
  | deleteAuthRequest | commitCode | commitSweep => exact .same (Db.links_close _ _)
  | createTokens code ar token c hc hfree hfresh =>
    exact .added token none hfresh nofun nofun (Db.links_addToken hfresh)
  | commitRotation current new now =>
    obtain ⟨-, hnone, -, hfrom⟩ := hp.new current new now rfl
    obtain ⟨-, hopen⟩ := hp.writes (.token current) List.mem_cons_self
    refine .added new.token (some current) hnone ?_ ?_ ?_
    · rintro a ⟨⟩
      exact ⟨new, now, rfl⟩
    · rintro a ⟨⟩
      exact ⟨hopen, (Acts.commitRotation current new now).closed_of_commit hp List.mem_cons_self⟩
    · refine (Db.links_addToken hp.fresh_close).trans ?_
      rw [Db.links_close, hfrom]
  | _ => exact .same rfl

theorem Acts.linear (hlinear : Linear db) : Linear db' := by
  cases h.linked hp with
  | same hlinks => exact hlinear.of_links hlinks fun _ => h.closed hp
  | added token parent hfresh _ hparent hlinks =>
    exact hlinear.insert hfresh hparent hlinks fun _ => h.closed hp
/-! ## The end of a chain -/

/-- No token that descends from one is open. -/
def Dead (db : Db W) (a : String) : Prop :=
  ∀ b, ReflTransGen db.Link a b → db.stamp (.token b) ≠ some none

theorem Acts.rotated (ha : db.Rotated a) : db'.Rotated a := by
  obtain ⟨b, hlink⟩ := ha
  refine ⟨b, ?_⟩
  cases h.linked hp with
  | same hlinks => exact (congrArg ((b, some a) ∈ ·) hlinks).mpr hlink
  | added token parent _ _ _ hlinks =>
    rw [Db.Link, hlinks]
    exact List.mem_cons_of_mem _ hlink

/-- An open descendant of a rotated token was one before the call, unless it commits a rotation. -/
theorem Acts.descends (hlinear : Linear db) (ha : db.Rotated a) (hab : ReflTransGen db'.Link a b)
    (hopen : db'.stamp (.token b) = some none) :
    ReflTransGen db.Link a b ∧ db.stamp (.token b) = some none ∨
      ∃ c new now, p = .renewed c new now ∧ ReflTransGen db.Link a c := by
  have hlink : ∀ c d, db'.Link c d → db.Link c d ∨ ∃ new now, p = .renewed c new now :=
    fun _ _ => (h.linked hp).link
  rcases reflTransGen_or hlink hab with hab | ⟨c, hac, new, now, hc⟩
  · refine .inl ⟨hab, ?_⟩
    cases h.stamped hp (.token b) with
    | same hsame => exact hsame.symm.trans hopen
    | closed _ hclosed => exact absurd hclosed (Db.not_closed_of_open hopen)
    | opened _ hnone => exact absurd hnone (hlinear.stamp_of_descends ha hab)
  · exact .inr ⟨c, new, now, hc, hac⟩

/-- A chain that has ended stays so. -/
theorem Acts.dead (hlinear : Linear db) (ha : db.Rotated a) (hdead : Dead db a) : Dead db' a := by
  intro b hab hopen
  rcases h.descends hp hlinear ha hab hopen with ⟨hab, hopen⟩ | ⟨c, new, now, rfl, hac⟩
  · exact hdead b hab hopen
  · exact hdead c hac (hp.writes (.token c) List.mem_cons_self).2

end Step

theorem linear_after (calls : ℕ → W × Call) (n : ℕ) :
    Linear (World.after act calls start n).shared := by
  induction n with
  | zero => exact .empty
  | succ n ih =>
    rcases after_cases calls n with heq | ⟨hacts, -⟩
    · rwa [heq]
    · exact hacts.linear ((holds_after calls n).2 _) ih

/-! ## Replays -/

/-- The token whose rotation a request has begun and not committed. -/
def Phase.rotates : Phase → Option String
  | .rotated _ current _ => some current
  | .renewed current _ _ => some current
  | _ => none

/-- The token that a request presents, or whose chain it revokes. -/
def Phase.presents : Phase → Option String
  | .presented _ current => some current
  | .condemned root => some root
  | .sweeping (.chain root) _ _ _ => some root
  | _ => none

/-- The call does not cut off a replay, begin to revoke a chain with a rotation in progress, or
    rotate a token that is about to be revoked. -/
structure Undisturbed (w : World W (Db W) Phase) (call : W × Call) : Prop where
  fail : call.2 = .fail → ∀ a ∈ (w.own call.1).presents, ¬ w.shared.Rotated a
  revoke : call.2 = .next → ∀ root, w.own call.1 = .condemned root →
    ∀ j, ∀ c ∈ (w.own j).rotates, c ∉ w.shared.chain root
  lock : call.2 = .lock → ∀ request seen now, w.own call.1 = .rotating request seen now →
    ∀ j root targets writes now, w.own j = .sweeping (.chain root) targets writes now →
      .token seen.token ∉ targets

/-- A request is on its way to end the chain of a token, or the chain has ended. -/
inductive Pursues (w : World W (Db W) Phase) (i : W) (a : String) : Prop
  | presented (request) (h : w.own i = .presented request a)
  | condemned (h : w.own i = .condemned a)
  | revoking (targets writes now) (h : w.own i = .sweeping (.chain a) targets writes now)
      (hall : ∀ b, ReflTransGen w.shared.Link a b → w.shared.stamp (.token b) = some none →
        .token b ∈ targets ∨ .token b ∈ writes)
      (hnone : ∀ j, ∀ c ∈ (w.own j).rotates, .token c ∉ targets)
  | dead (h : Dead w.shared a)

theorem Acts.rotates (h : Acts i db call p db' p') (hc : c ∈ p'.rotates) :
    c ∈ p.rotates ∨ call = .lock ∧ ∃ request seen now, p = .rotating request seen now ∧
      seen.token = c := by
  cases h with
  | tick | insert => exact .inl hc
  | lockToken request seen now =>
    exact .inr ⟨rfl, request, seen, now, rfl, Option.some.inj hc⟩
  | _ => cases hc

omit [DecidableEq W] in
theorem mem_openTokens {q : RefreshToken → Bool} :
    .token b ∈ db.openTokens q ↔
      ∃ t ∈ db.tokens, t.token = b ∧ q t = true ∧ t.revokedAt = none := by
  rw [Db.openTokens, List.mem_map]
  constructor
  · rintro ⟨t, ht, heq⟩
    obtain ⟨hmem, hq⟩ := List.mem_filter.1 ht
    rw [Bool.and_eq_true, Option.isNone_iff_eq_none] at hq
    exact ⟨t, hmem, Key.token.inj heq, hq⟩
  · rintro ⟨t, hmem, rfl, hq, hopen⟩
    exact ⟨t, List.mem_filter.2 ⟨hmem, by simp [hq, hopen]⟩, rfl⟩

omit [DecidableEq W] in
theorem mem_targets_chain {now : ℤ} : .token b ∈ db.targets now (.chain a) ↔
    b ∈ db.chain a ∧ db.stamp (.token b) = some none := by
  rw [Db.targets, mem_openTokens]
  constructor
  · rintro ⟨t, ht, rfl, hmem, hopen⟩
    exact ⟨of_decide_eq_true hmem, (Db.stamp_token ht).trans (congrArg some hopen)⟩
  · rintro ⟨hmem, hopen⟩
    obtain ⟨t, ht, rfl, hrevoked⟩ := Db.exists_token_of_stamp hopen
    exact ⟨t, ht, rfl, decide_eq_true hmem, hrevoked⟩

section Step

variable {w w' : World W (Db W) Phase}

/-- The request that pursues a chain goes on to do so. -/
theorem Pursues.self (h : Pursues w i a)
    (hacts : Acts i w.shared call (w.own i) w'.shared (w'.own i))
    (hothers : ∀ j, j ≠ i → w'.own j = w.own j) (hp : Holds i w.shared (w.own i))
    (hlinear : Linear w.shared) (ha : w.shared.Rotated a) (hcall : Undisturbed w (i, call)) :
    Pursues w' i a := by
  have hfail : a ∈ (w.own i).presents → call ≠ .fail := fun hpresents hfail =>
    hcall.fail hfail a hpresents ha
  cases h with
  | dead hdead => exact .dead (hacts.dead hp hlinear ha hdead)
  | presented request h =>
    have hfail := hfail (h ▸ rfl)
    rw [h] at hacts
    generalize hp' : w'.own i = p', w'.shared = db' at hacts
    cases hacts with
    | tick => exact .presented request hp'
    | beginRotate request current seen hget hopen =>
      obtain ⟨c, hlink⟩ := ha
      obtain ⟨t, ht⟩ := hlinear.closed a c hlink
      rw [Db.stamp, hget, Option.map_some, hopen] at ht
      cases ht
    | replay => exact .condemned hp'
    | fail => exact absurd rfl hfail
  | condemned h =>
    have hfail := hfail (h ▸ rfl)
    rw [h] at hacts
    generalize hp' : w'.own i = p', hdb' : w'.shared = db' at hacts
    cases hacts with
    | tick => exact .condemned hp'
    | fail => exact absurd rfl hfail
    | beginChain =>
      refine .revoking _ _ _ hp' (fun b hab hopen => ?_) fun j c hc hmem => ?_
      · rw [hdb'] at hab hopen
        refine .inl (mem_targets_chain.2 ⟨hlinear.mem_chain ?_ hab, hopen⟩)
        exact hlinear.stamp_of_descends ha .refl
      · by_cases hj : j = i
        · rw [hj, hp'] at hc
          cases hc
        · rw [hothers j hj] at hc
          exact hcall.revoke rfl a h j c hc (mem_targets_chain.1 hmem).1
  | revoking targets writes now h hall hnone =>
    have hfail := hfail (h ▸ rfl)
    have hdescends := fun b => hacts.descends hp hlinear ha (b := b)
    have hkept : ∀ {targets' : List Key} {writes' : List Key} {now' : ℤ},
        w'.own i = .sweeping (.chain a) targets' writes' now' → targets' ⊆ targets →
        ∀ j, ∀ c ∈ (w'.own j).rotates, .token c ∉ targets' := by
      intro targets' writes' now' hp' hsub j c hc hmem
      by_cases hj : j = i
      · rw [hj, hp'] at hc
        cases hc
      · rw [hothers j hj] at hc
        exact hnone j c hc (hsub hmem)
    rw [h] at hacts
    generalize hp' : w'.own i = p', hdb' : w'.shared = db' at hacts
    cases hacts with
    | tick =>
      refine .revoking targets writes now hp' ?_ (hkept hp' (List.Subset.refl _))
      rw [hdb']
      exact hall
    | fail => exact absurd rfl hfail
    | touch k _ _ _ _ hk hfree hmatch =>
      refine .revoking _ _ now hp' (fun b hab hopen => ?_) (hkept hp' (List.filter_subset_self _))
      rw [hdb'] at hab hopen
      by_cases hb : Key.token b = k
      · exact .inr (hb ▸ List.mem_cons_self)
      · refine (hall b hab hopen).imp (fun hmem => ?_) (List.mem_cons_of_mem _)
        exact List.mem_filter.2 ⟨hmem, by simpa using hb⟩
    | pass k _ _ _ _ hk hmatch =>
      refine .revoking _ _ now hp' (fun b hab hopen => ?_) (hkept hp' (List.filter_subset_self _))
      rw [hdb'] at hab hopen
      refine (hall b hab hopen).imp_left fun hmem => List.mem_filter.2 ⟨hmem, ?_⟩
      -- A row that is passed over is not open any more.
      have hb : Key.token b ≠ k := by
        rintro rfl
        rw [Db.stillMatches, decide_eq_false_iff_not] at hmatch
        exact hmatch hopen
      simpa using hb
    | commitSweep sweep writes now hlast =>
      refine .dead fun b hab hopen => ?_
      rcases hdescends b hab hopen with ⟨hab, hbefore⟩ | ⟨c, new, now, heq, -⟩
      · have hmem := (hall b hab hbefore).resolve_left List.not_mem_nil
        rw [hdb'] at hopen
        exact Db.not_closed_of_open hopen (Db.closed_close hmem hbefore)
      · rw [h] at heq
        cases heq

/-- The other requests do not keep it from doing so. -/
theorem Pursues.other (h : Pursues w i a)
    (hacts : Acts j w.shared call (w.own j) w'.shared (w'.own j))
    (hothers : ∀ k, k ≠ j → w'.own k = w.own k) (hij : i ≠ j)
    (hp : ∀ k, Holds k w.shared (w.own k)) (hlinear : Linear w.shared) (ha : w.shared.Rotated a)
    (hcall : Undisturbed w (j, call)) : Pursues w' i a := by
  have hown := hothers i hij
  cases h with
  | dead hdead => exact .dead (hacts.dead (hp j) hlinear ha hdead)
  | presented request h => exact .presented request (hown.trans h)
  | condemned h => exact .condemned (hown.trans h)
  | revoking targets writes now h hall hnone =>
    refine .revoking targets writes now (hown.trans h) (fun b hab hopen => ?_) fun k c hc => ?_
    · rcases hacts.descends (hp j) hlinear ha hab hopen with ⟨hab, hopen⟩ | ⟨c, new, now', hj, hac⟩
      · exact hall b hab hopen
      · -- A rotation of the chain would hold a token that is to be revoked.
        obtain ⟨hlock, hopen⟩ := (hp j).writes (.token c) (hj ▸ List.mem_cons_self)
        rcases hall c hac hopen with hmem | hmem
        · exact absurd hmem (hnone j c (hj ▸ rfl))
        · obtain ⟨hlock', -⟩ := (hp i).writes (.token c) (h ▸ hmem)
          exact absurd (Option.some.inj (hlock'.symm.trans hlock)) hij
    · by_cases hk : k = j
      · subst hk
        rcases hacts.rotates hc with hc | ⟨rfl, request, seen, now', hseen, rfl⟩
        · exact hnone k c hc
        · exact hcall.lock rfl request seen now' hseen i a targets writes now h
      · rw [hothers k hk] at hc
        exact hnone k c hc

end Step

/-! ## Runs -/

/-- A request presents a token, to be looked up or exchanged. -/
inductive Presents (i : W) (a : String) : W × Call → Prop
  | lookup : Presents i a (i, .tokenRequestByRefreshToken a)
  | exchange (request : TokenRequest) : Presents i a (i, .present request a)

/-- A call commits the rotation of a token. -/
def Exchanges (calls : ℕ → W × Call) (n : ℕ) (a : String) : Prop :=
  ∃ i new now, calls n = (i, .commit) ∧
    (World.after act calls start n).own i = .renewed a new now

/-- At most one token of a chain is open, a token is exchanged at most once, and a replayed token
    leaves none of its chain open, when its request and those that overlap it have ended. -/
structure Chained (calls : ℕ → W × Call) : Prop where
  one_open : ∀ n, ∀ t ∈ (World.after act calls start n).shared.tokens,
    ∀ t' ∈ (World.after act calls start n).shared.tokens,
    (World.after act calls start n).shared.SameChain t.token t'.token →
    t.revokedAt = none → t'.revokedAt = none → t = t'
  exchanged_once : ∀ n m a, Exchanges calls n a → Exchanges calls m a → n = m
  replay_ends : ∀ i a n m k, Presents i a (calls n) →
    (World.after act calls start n).own i = .idle →
    (World.after act calls start n).shared.Rotated a → n < m → m ≤ k →
    (World.after act calls start m).own i = .idle →
    (∀ j, ∃ l, m ≤ l ∧ l ≤ k ∧ (World.after act calls start l).own j = .idle) →
    ∀ t ∈ (World.after act calls start k).shared.tokens,
      (World.after act calls start k).shared.SameChain a t.token → t.revokedAt ≠ none

theorem rotated_of_le (ha : (World.after act calls start n).shared.Rotated a) (hnm : n ≤ m) :
    (World.after act calls start m).shared.Rotated a := by
  induction m, hnm using Nat.le_induction with
  | base => exact ha
  | succ m _ ih =>
    rcases after_cases calls m with heq | ⟨hacts, -⟩
    · rwa [heq]
    · exact hacts.rotated ((holds_after calls m).2 _) ih

theorem pursues_succ (ha : (World.after act calls start n).shared.Rotated a)
    (hcall : Undisturbed (World.after act calls start n) (calls n))
    (h : Pursues (World.after act calls start n) i a) :
    Pursues (World.after act calls start (n + 1)) i a := by
  have hp := (holds_after calls n).2
  have hlinear := linear_after calls n
  rcases after_cases calls n with heq | ⟨hacts, hothers⟩
  · rwa [heq]
  · by_cases hi : i = (calls n).1
    · subst hi
      exact h.self hacts hothers (hp _) hlinear ha hcall
    · exact h.other hacts hothers hi hp hlinear ha hcall

/-- A request that presents a rotated token pursues its chain. -/
theorem pursues_of_presents (hcall : Presents i a (calls n))
    (hidle : (World.after act calls start n).own i = .idle)
    (ha : (World.after act calls start n).shared.Rotated a) :
    Pursues (World.after act calls start (n + 1)) i a := by
  rw [World.after_succ]
  generalize hw : World.after act calls start n = w at *
  cases hcalls : calls n with
  | mk j call =>
    rw [hcalls] at hcall
    cases hcall with
    | exchange request =>
      refine .presented request ?_
      simp [World.step, act, hidle]
    | lookup =>
      obtain ⟨b, hlink⟩ := ha
      obtain ⟨t, ht⟩ := (hw ▸ linear_after calls n : Linear w.shared).closed a b hlink
      obtain ⟨row, hrow, hrevoked⟩ := Option.map_eq_some_iff.1 ht
      refine .condemned ?_
      simp [World.step, act, hidle, Db.tokenRequestByRefreshToken, hrow, hrevoked]

theorem pursues_of_le (hcall : ∀ n, Undisturbed (World.after act calls start n) (calls n))
    (ha : (World.after act calls start n).shared.Rotated a)
    (h : Pursues (World.after act calls start n) i a) (hnm : n ≤ m) :
    Pursues (World.after act calls start m) i a := by
  induction m, hnm using Nat.le_induction with
  | base => exact h
  | succ m hnm ih => exact pursues_succ (rotated_of_le ha hnm) (hcall m) ih

omit [DecidableEq W] in
theorem Pursues.dead_of_idle {w : World W (Db W) Phase} (h : Pursues w i a)
    (hidle : w.own i = .idle) : Dead w.shared a := by
  cases h with
  | dead hdead => exact hdead
  | presented request h | condemned h | revoking targets writes now h =>
    rw [hidle] at h
    cases h

theorem dead_of_le (ha : (World.after act calls start n).shared.Rotated a)
    (h : Dead (World.after act calls start n).shared a) (hnm : n ≤ m) :
    Dead (World.after act calls start m).shared a := by
  induction m, hnm using Nat.le_induction with
  | base => exact h
  | succ m hnm ih =>
    rcases after_cases calls m with heq | ⟨hacts, -⟩
    · rwa [heq]
    · exact hacts.dead ((holds_after calls m).2 _) (linear_after calls m) (rotated_of_le ha hnm) ih

theorem not_exchanges_of_lt (h : Exchanges calls n a) (hnm : n < m) : ¬ Exchanges calls m a := by
  rintro ⟨j, new', now', -, hown'⟩
  obtain ⟨i, new, now, hcall, hown⟩ := h
  have hclosed : (World.after act calls start (n + 1)).shared.Closed (.token a) := by
    have hp := (holds_after calls n).2 i
    rw [hown] at hp
    rw [World.after_succ, hcall]
    simp only [World.step, act, hown, Phase.commit]
    exact (Acts.commitRotation a new now).closed_of_commit hp List.mem_cons_self
  obtain ⟨-, hopen⟩ := ((holds_after calls m).2 j).writes (.token a) (hown' ▸ List.mem_cons_self)
  exact Db.not_closed_of_open hopen (closed_of_le hclosed hnm)

/-- The chains of a run that disturbs no replay are as expected. -/
theorem chained (hcall : ∀ n, Undisturbed (World.after act calls start n) (calls n)) :
    Chained calls where
  one_open n t ht t' ht' hchain hopen hopen' := by
    have hlinear := linear_after calls n
    refine Table.eq_of_key_eq ht ht' (hlinear.eq_of_open ?_ ?_ hchain)
    · rw [Db.stamp_token ht, hopen]
    · rw [Db.stamp_token ht', hopen']
  exchanged_once n m a hn hm := by
    rcases lt_trichotomy n m with hlt | heq | hlt
    · exact absurd hm (not_exchanges_of_lt hn hlt)
    · exact heq
    · exact absurd hn (not_exchanges_of_lt hm hlt)
  replay_ends i a n m k hpresents hidle ha hnm hmk hended _ t ht hchain hopen := by
    have ha' := rotated_of_le ha (Nat.le_succ n)
    have hpursues := pursues_of_le hcall ha' (pursues_of_presents hpresents hidle ha) hnm
    have hdead := dead_of_le (rotated_of_le ha hnm.le) (hpursues.dead_of_idle hended) hmk
    have hstamp : (World.after act calls start k).shared.stamp (.token t.token) = some none := by
      rw [Db.stamp_token ht, hopen]
    exact hdead t.token ((linear_after calls k).reflTransGen_of_open hstamp hchain) hstamp

/-- Also where replays are disturbed, no two open tokens are of one chain. -/
theorem open_pairwise_not_sameChain (calls : ℕ → W × Call) (n : ℕ) :
    {t | t ∈ (World.after act calls start n).shared.tokens ∧ t.revokedAt = none}.Pairwise
      fun t t' => ¬ (World.after act calls start n).shared.SameChain t.token t'.token := by
  rintro t ⟨ht, hopen⟩ t' ⟨ht', hopen'⟩ hne hchain
  refine hne (Table.eq_of_key_eq ht ht' ((linear_after calls n).eq_of_open ?_ ?_ hchain))
  · rw [Db.stamp_token ht, hopen]
  · rw [Db.stamp_token ht', hopen']

/-- A token that was revoked is not exchanged any more. -/
theorem disjoint_closed_exchanges (calls : ℕ → W × Call) (m : ℕ) :
    Disjoint {a | ∃ n ≤ m, (World.after act calls start n).shared.Closed (.token a)}
      {a | Exchanges calls m a} := by
  rw [Set.disjoint_left]
  rintro a ⟨n, hnm, hclosed⟩ ⟨i, new, now, -, hown⟩
  obtain ⟨-, hopen⟩ := ((holds_after calls m).2 i).writes (.token a) (hown ▸ List.mem_cons_self)
  exact Db.not_closed_of_open hopen (closed_of_le hclosed hnm)

namespace Sample

/-- A token is rotated and presented again, and its chain is revoked. -/
def replayed : ℕ → Unit × Call :=
  run () (exchange () ++ rotation () "t0" "t1" ++ [((), .commit),
    ((), .present ⟨"ada", "console", 2⟩ "t0"), ((), .next), ((), .next),
    ((), .touch (.token "t1")), ((), .commit)])

/-- A token is presented again while the one that replaced it is rotated. -/
def overtaken : ℕ → Bool × Call :=
  run true (exchange true ++ rotation true "t0" "t1" ++ [(true, .commit)] ++
    rotation true "t1" "t2" ++
    [(false, .present ⟨"ada", "console", 2⟩ "t0"), (false, .next), (false, .next),
     (true, .commit), (false, .touch (.token "t1")), (false, .commit)])

theorem replayed_ne_fail (n : ℕ) : (replayed n).2 ≠ .fail := by
  by_cases hn : n < 19
  · have hall : ∀ n < 19, (replayed n).2 ≠ .fail := by decide
    exact hall n hn
  · rw [replayed, run, List.getD_eq_default _ _ (not_lt.1 hn)]
    nofun

end Sample

/-- Where there is one request at a time, only a failure can disturb a replay. -/
theorem undisturbed_of_ne_fail {w : World Unit (Db Unit) Phase} {call : Unit × Call}
    (h : call.2 ≠ .fail) : Undisturbed w call where
  fail hfail := absurd hfail h
  revoke _ root hown j c hc := by
    rw [show w.own j = .condemned root from hown] at hc
    cases hc
  lock _ request seen now hown j root targets writes now' hown' := by
    rw [show w.own j = .rotating request seen now from hown] at hown'
    cases hown'

theorem replayed_chained : Chained Sample.replayed :=
  chained fun n => undisturbed_of_ne_fail (Sample.replayed_ne_fail n)

/-- A rotation in progress outlives the revocation of its chain. -/
theorem not_chained : ¬ ∀ calls : ℕ → Bool × Call, Chained calls := by
  intro h
  have hlinks : (World.after act Sample.overtaken start 24).shared.links
      = [("t2", some "t1"), ("t1", some "t0"), ("t0", none)] := by decide +kernel
  have hlinks' : (World.after act Sample.overtaken start 18).shared.links
      = [("t1", some "t0"), ("t0", none)] := by decide +kernel
  have hopen : (World.after act Sample.overtaken start 24).shared.stamp (.token "t2")
      = some none := by decide +kernel
  obtain ⟨t, ht, htoken, hrevoked⟩ := Db.exists_token_of_stamp hopen
  refine (h Sample.overtaken).replay_ends false "t0" 18 24 24 (.exchange _) ?_ ⟨"t1", ?_⟩
    (by decide) le_rfl ?_ (fun j => ⟨24, le_rfl, le_rfl, ?_⟩) t ht ?_ hrevoked
  · decide +kernel
  · rw [Db.Link, hlinks']
    exact List.mem_cons_self
  · decide +kernel
  · cases j <;> decide +kernel
  · rw [htoken]
    refine .trans _ "t1" _ (.rel _ _ ?_) (.rel _ _ ?_)
    · rw [Db.Link, hlinks]
      exact List.mem_cons_of_mem _ List.mem_cons_self
    · rw [Db.Link, hlinks]
      exact List.mem_cons_self

end Yggdrasil.Sessions
