import Yggdrasil.Lib.Reorder
import Yggdrasil.Templates.Render

/-!
# The keys of rendered maps

The keys of a map are rendered as well. Which of two entries with the same rendered key is left
depends on the order in which they are met, of which nothing is known.
-/

namespace Yggdrasil.Templates

open Text Check Value

mutual

/-- The maps of a value that are rendered, at any depth. -/
def maps : Value → List Fields
  | .map fields => fields :: mapsFields fields
  | .list items => mapsItems items
  | .nil | .bool _ | .float _ | .int _ _ | .str _ | .other _ _ => []

/-- The maps in the values of a map. -/
def mapsFields : Fields → List Fields
  | [] => []
  | (_, v) :: rest => maps v ++ mapsFields rest

/-- The maps in a list. -/
def mapsItems : List Value → List Fields
  | [] => []
  | v :: vs => maps v ++ mapsItems vs

end

section Expand

variable {sprint : Value → String} {values : String → Value}

/-- The key that an entry gets. -/
def expandKey (sprint : Value → String) (values : String → Value) (key : String) : String :=
  display sprint (expandString sprint values key)

/-- The entry that is set for an entry. -/
def expandEntry (sprint : Value → String) (values : String → Value) (entry : String × Value) :
    String × Value :=
  (expandKey sprint values entry.1, expand sprint values entry.2)

theorem expandFields_eq (fields before : Fields) :
    expandFields sprint values fields before =
      Fields.setAll (fields.map (expandEntry sprint values)) before := by
  induction fields generalizing before with
  | nil => rfl
  | cons entry fields ih => rw [expandFields, ih, List.map_cons, Fields.setAll, Fields.setAll]; rfl

theorem keys_expandEntry (fields : Fields) :
    (fields.map (expandEntry sprint values)).map Prod.fst =
      (fields.map Prod.fst).map (expandKey sprint values) := by
  rw [List.map_map, List.map_map]
  rfl

/-- With keys of their own, all the entries are there. -/
theorem expandFields_of_nodup {fields : Fields}
    (h : ((fields.map Prod.fst).map (expandKey sprint values)).Nodup) :
    expandFields sprint values fields [] = (fields.map (expandEntry sprint values)).reverse := by
  rw [expandFields_eq, Fields.setAll_eq (by rwa [keys_expandEntry]) (List.disjoint_nil_right _),
    List.append_nil]

theorem length_expandFields_eq_iff {fields : Fields} :
    (expandFields sprint values fields []).length = fields.length ↔
      ((fields.map Prod.fst).map (expandKey sprint values)).Nodup := by
  rw [expandFields_eq, ← keys_expandEntry, ← Fields.length_setAll_eq_iff, List.length_map]

mutual

/-- Without two keys that are rendered to the same, the order of the entries does not matter. -/
theorem reorder_expand (v : Value)
    (h : ∀ fields ∈ maps v, ((fields.map Prod.fst).map (expandKey sprint values)).Nodup) :
    ∀ {v' : Value}, Reorder v v' → Reorder (expand sprint values v) (expand sprint values v') := by
  intro v' hv
  cases v with
  | map fields =>
    obtain ⟨fields', rfl, paired, hpaired, hperm⟩ := hv
    rw [maps, List.forall_mem_cons] at h
    have hnodup : ((fields'.map Prod.fst).map (expandKey sprint values)).Nodup := by
      rw [← ((hperm.map _).map _).nodup_iff, hpaired.keys_eq]
      exact h.1
    rw [expand, expand, expandFields_of_nodup h.1, expandFields_of_nodup hnodup]
    refine ⟨_, rfl, (paired.map (expandEntry sprint values)).reverse, ?_, ?_⟩
    · rw [reorderFields_iff, List.forall₂_reverse_iff, ← reorderFields_iff]
      exact reorderFields_expand fields h.2 hpaired
    · exact (List.reverse_perm _).trans ((hperm.map _).trans (List.reverse_perm _).symm)
  | list items =>
    obtain ⟨items', rfl, hitems⟩ := hv
    exact ⟨_, rfl, reorderItems_expand items h hitems⟩
  | str s =>
    cases hv
    exact Reorder.refl _
  | nil | bool | float | int | other =>
    cases hv
    exact Reorder.refl _

theorem reorderFields_expand (fields : Fields)
    (h : ∀ m ∈ mapsFields fields, ((m.map Prod.fst).map (expandKey sprint values)).Nodup) :
    ∀ {fields' : Fields}, ReorderFields fields fields' →
      ReorderFields (fields.map (expandEntry sprint values))
        (fields'.map (expandEntry sprint values)) := by
  intro fields' hfields
  match fields with
  | [] =>
    cases hfields
    rfl
  | (_, v) :: rest =>
    obtain ⟨v', rest', rfl, hv, hrest⟩ := hfields
    rw [mapsFields, List.forall_mem_append] at h
    exact ⟨_, _, rfl, reorder_expand v h.1 hv, reorderFields_expand rest h.2 hrest⟩

theorem reorderItems_expand (items : List Value)
    (h : ∀ m ∈ mapsItems items, ((m.map Prod.fst).map (expandKey sprint values)).Nodup) :
    ∀ {items' : List Value}, ReorderItems items items' →
      ReorderItems (expandItems sprint values items) (expandItems sprint values items') := by
  intro items' hitems
  match items with
  | [] =>
    cases hitems
    rfl
  | v :: vs =>
    obtain ⟨v', vs', rfl, hv, hvs⟩ := hitems
    rw [mapsItems, List.forall_mem_append] at h
    exact ⟨_, _, rfl, reorder_expand v h.1 hv, reorderItems_expand vs h.2 hvs⟩

end

end Expand

/-! ## The texts of a reordered value -/

theorem renderedTextsFields_eq (fields : Fields) :
    renderedTextsFields fields = fields.flatMap fun entry => entry.1 :: renderedTexts entry.2 := by
  induction fields with
  | nil => rfl
  | cons entry fields ih => rw [renderedTextsFields, ih, List.flatMap_cons, List.cons_append]

mutual

theorem renderedTexts_perm (v : Value) : ∀ {v' : Value}, Reorder v v' →
    (renderedTexts v).Perm (renderedTexts v') := by
  intro v' hv
  cases v with
  | map fields =>
    obtain ⟨fields', rfl, paired, hpaired, hperm⟩ := hv
    refine (renderedTextsFields_perm fields hpaired).trans ?_
    rw [renderedTexts, renderedTextsFields_eq, renderedTextsFields_eq]
    exact hperm.flatMap_right _
  | list items =>
    obtain ⟨items', rfl, hitems⟩ := hv
    exact renderedTextsItems_perm items hitems
  | nil | bool | float | int | str | other =>
    cases hv
    rfl

theorem renderedTextsFields_perm (fields : Fields) : ∀ {fields' : Fields},
    ReorderFields fields fields' →
      (renderedTextsFields fields).Perm (renderedTextsFields fields') := by
  intro fields' hfields
  match fields with
  | [] =>
    cases hfields
    rfl
  | (_, v) :: rest =>
    obtain ⟨v', rest', rfl, hv, hrest⟩ := hfields
    exact ((renderedTexts_perm v hv).append (renderedTextsFields_perm rest hrest)).cons _

theorem renderedTextsItems_perm (items : List Value) : ∀ {items' : List Value},
    ReorderItems items items' → (renderedTextsItems items).Perm (renderedTextsItems items') := by
  intro items' hitems
  match items with
  | [] =>
    cases hitems
    rfl
  | v :: vs =>
    obtain ⟨v', vs', rfl, hv, hvs⟩ := hitems
    exact (renderedTexts_perm v hv).append (renderedTextsItems_perm vs hvs)

end

variable {v : Value}

theorem mem_inputPaths_of_reorder {v' : Value} (h : Reorder v v') {path : String} :
    path ∈ inputPaths v' ↔ path ∈ inputPaths v :=
  ((renderedTexts_perm v h).flatMap_right _).mem_iff.symm

mutual

/-- The maps of a map of a value are maps of the value, and its texts are texts of the value. -/
theorem maps_subset (v : Value) : ∀ {fields : Fields}, fields ∈ maps v →
    maps (.map fields) ⊆ maps v ∧ renderedTextsFields fields ⊆ renderedTexts v := by
  intro fields hfields
  cases v with
  | map fields' =>
    rw [maps, List.mem_cons] at hfields
    rcases hfields with rfl | hfields
    · exact ⟨List.Subset.refl _, List.Subset.refl _⟩
    · have h := mapsFields_subset fields' hfields
      exact ⟨List.subset_cons_of_subset _ h.1, h.2⟩
  | list items => exact mapsItems_subset items hfields
  | nil | bool | float | int | str | other => simp [maps] at hfields

theorem mapsFields_subset (rest : Fields) : ∀ {fields : Fields}, fields ∈ mapsFields rest →
    maps (.map fields) ⊆ mapsFields rest ∧
      renderedTextsFields fields ⊆ renderedTextsFields rest := by
  intro fields hfields
  match rest with
  | [] => cases hfields
  | (_, v) :: rest =>
    rw [mapsFields, List.mem_append] at hfields
    rw [mapsFields, renderedTextsFields]
    rcases hfields with hfields | hfields
    · have h := maps_subset v hfields
      exact ⟨List.subset_append_of_subset_left _ h.1,
        List.subset_cons_of_subset _ (List.subset_append_of_subset_left _ h.2)⟩
    · have h := mapsFields_subset rest hfields
      exact ⟨List.subset_append_of_subset_right _ h.1,
        List.subset_cons_of_subset _ (List.subset_append_of_subset_right _ h.2)⟩

theorem mapsItems_subset (items : List Value) : ∀ {fields : Fields}, fields ∈ mapsItems items →
    maps (.map fields) ⊆ mapsItems items ∧
      renderedTextsFields fields ⊆ renderedTextsItems items := by
  intro fields hfields
  match items with
  | [] => cases hfields
  | v :: vs =>
    rw [mapsItems, List.mem_append] at hfields
    rw [mapsItems, renderedTextsItems]
    rcases hfields with hfields | hfields
    · have h := maps_subset v hfields
      exact ⟨List.subset_append_of_subset_left _ h.1, List.subset_append_of_subset_left _ h.2⟩
    · have h := mapsItems_subset vs hfields
      exact ⟨List.subset_append_of_subset_right _ h.1, List.subset_append_of_subset_right _ h.2⟩

end

theorem inputPaths_subset {fields : Fields} (h : fields ∈ maps v) :
    inputPaths (.map fields) ⊆ inputPaths v := by
  intro path hpath
  obtain ⟨text, htext, hpath⟩ := List.mem_flatMap.1 hpath
  exact List.mem_flatMap.2 ⟨text, (maps_subset v h).2 htext, hpath⟩

/-! ## Rendering maps -/

/-- The map is rendered with all its entries, and alike when they are met in another order. -/
def KeepsEntries (sprint : Value → String) (ctx : ExecutionContext) (fields : Fields) : Prop :=
  ∃ out, ctx.render sprint (.map fields) = .ok (.map out) ∧ out.length = fields.length ∧
    ∀ fields', Reorder (.map fields) (.map fields') →
      ∃ out', ctx.render sprint (.map fields') = .ok (.map out') ∧ out'.length = fields.length ∧
        Reorder (.map out) (.map out')

/-- Two keys are rendered, and to the same key. -/
def Collide (sprint : Value → String) (ctx : ExecutionContext) (key key' : String) : Prop :=
  ∃ v v', renderWorkflowString sprint (workflowTemplateValue ctx) key = .ok v ∧
    renderWorkflowString sprint (workflowTemplateValue ctx) key' = .ok v' ∧
    display sprint v = display sprint v'

section

variable {sprint : Value → String} {ctx : ExecutionContext} {fields : Fields}

theorem render_map_eq_ok_iff {out : Fields} :
    ctx.render sprint (.map fields) = .ok (.map out) ↔
      Resolves (workflowTemplateValue ctx) (inputPaths (.map fields)) ∧
        expandFields sprint (valueRead (workflowTemplateValue ctx)) fields [] = out := by
  rw [ExecutionContext.render, render_eq_ok_iff, expand, Value.map.injEq]

theorem render_error_iff : (∃ e, ctx.render sprint v = .error e) ↔
    ¬ Resolves (workflowTemplateValue ctx) (inputPaths v) := by
  constructor
  · rintro ⟨e, he⟩ hresolves
    have hok : ctx.render sprint v = .ok _ := (render_eq_ok_iff v).2 ⟨hresolves, rfl⟩
    rw [he] at hok
    cases hok
  · intro hresolves
    cases hv : ctx.render sprint v with
    | error e => exact ⟨e, rfl⟩
    | ok out => exact absurd ((render_eq_ok_iff v).1 hv).1 hresolves

theorem collide_iff {key key' : String} :
    Collide sprint ctx key key' ↔
      Resolves (workflowTemplateValue ctx) (templatePaths key) ∧
      Resolves (workflowTemplateValue ctx) (templatePaths key') ∧
      expandKey sprint (valueRead (workflowTemplateValue ctx)) key =
        expandKey sprint (valueRead (workflowTemplateValue ctx)) key' := by
  simp only [Collide, renderWorkflowString_eq_ok_iff, expandKey]
  constructor
  · rintro ⟨v, v', ⟨hkey, rfl⟩, ⟨hkey', rfl⟩, hv⟩
    exact ⟨hkey, hkey', hv⟩
  · rintro ⟨hkey, hkey', hv⟩
    exact ⟨_, _, ⟨hkey, rfl⟩, ⟨hkey', rfl⟩, hv⟩

/-- In a map that is rendered, no two keys collide exactly when the new keys are distinct. -/
theorem pairwise_not_collide_iff
    (h : Resolves (workflowTemplateValue ctx) (inputPaths (.map fields))) :
    (fields.map Prod.fst).Pairwise (¬ Collide sprint ctx · ·) ↔
      ((fields.map Prod.fst).map
        (expandKey sprint (valueRead (workflowTemplateValue ctx)))).Nodup := by
  have hkeys : ∀ key ∈ fields.map Prod.fst,
      Resolves (workflowTemplateValue ctx) (templatePaths key) := by
    intro key hkey path hpath
    obtain ⟨entry, hentry, rfl⟩ := List.mem_map.1 hkey
    refine h path (List.mem_flatMap.2 ⟨entry.1, ?_, hpath⟩)
    rw [renderedTexts, renderedTextsFields_eq]
    exact List.mem_flatMap.2 ⟨entry, hentry, List.mem_cons_self⟩
  refine Iff.trans (List.Pairwise.iff_of_mem fun {key key'} hkey hkey' => ?_) List.pairwise_map.symm
  rw [collide_iff, ne_eq, not_iff_not]
  exact ⟨fun h => h.2.2, fun h => ⟨hkeys key hkey, hkeys key' hkey', h⟩⟩

theorem keepsEntries_of_nodup
    (hresolves : Resolves (workflowTemplateValue ctx) (inputPaths (.map fields)))
    (hnodup : ∀ m ∈ maps (.map fields), ((m.map Prod.fst).map
      (expandKey sprint (valueRead (workflowTemplateValue ctx)))).Nodup) :
    KeepsEntries sprint ctx fields := by
  have hself := hnodup fields List.mem_cons_self
  refine ⟨_, render_map_eq_ok_iff.2 ⟨hresolves, rfl⟩, length_expandFields_eq_iff.2 hself, ?_⟩
  intro fields' hreorder
  have hresolves' : Resolves (workflowTemplateValue ctx) (inputPaths (.map fields')) :=
    fun path hpath => hresolves path ((mem_inputPaths_of_reorder hreorder).1 hpath)
  obtain ⟨_, heq, paired, hpaired, hperm⟩ := id hreorder
  cases heq
  refine ⟨_, render_map_eq_ok_iff.2 ⟨hresolves', rfl⟩, ?_, reorder_expand _ hnodup hreorder⟩
  have hlength : fields'.length = fields.length := by
    rw [← hperm.length_eq, ← List.length_map Prod.fst, hpaired.keys_eq, List.length_map]
  rw [← hlength, length_expandFields_eq_iff, ← ((hperm.map _).map _).nodup_iff, hpaired.keys_eq]
  exact hself

end

/-- A map is refused, or keeps its entries, exactly when a template leads to nothing, or no two keys
    of a map are rendered alike. -/
theorem keepsEntries_iff (sprint : Value → String) (ctx : ExecutionContext) (fields : Fields) :
    ((∀ v', Reorder (.map fields) v' → ∃ e, ctx.render sprint v' = .error e) ∨
        ∀ m ∈ maps (.map fields), KeepsEntries sprint ctx m) ↔
      (∃ path ∈ inputPaths (.map fields), workflowTemplateValue ctx path = none) ∨
        ∀ m ∈ maps (.map fields), (m.map Prod.fst).Pairwise (¬ Collide sprint ctx · ·) := by
  have hsome : (∃ path ∈ inputPaths (.map fields), workflowTemplateValue ctx path = none) ↔
      ¬ Resolves (workflowTemplateValue ctx) (inputPaths (.map fields)) := by
    simp [Resolves]
  have hfails : (∀ v', Reorder (.map fields) v' → ∃ e, ctx.render sprint v' = .error e) ↔
      ¬ Resolves (workflowTemplateValue ctx) (inputPaths (.map fields)) := by
    simp only [render_error_iff, Resolves]
    constructor
    · exact fun h => h _ (Reorder.refl _)
    · intro h v' hv'
      simpa only [mem_inputPaths_of_reorder hv'] using h
  rw [hsome, hfails]
  refine or_congr_right' fun hresolves => ?_
  rw [not_not] at hresolves
  have hmaps : ∀ m ∈ maps (.map fields),
      Resolves (workflowTemplateValue ctx) (inputPaths (.map m)) :=
    fun m hm path hpath => hresolves path (inputPaths_subset hm hpath)
  constructor
  · -- The number of entries tells that none was replaced.
    intro h m hm
    obtain ⟨out, hout, hlength, -⟩ := h m hm
    obtain ⟨-, rfl⟩ := render_map_eq_ok_iff.1 hout
    exact (pairwise_not_collide_iff (hmaps m hm)).2 (length_expandFields_eq_iff.1 hlength)
  · intro h m hm
    refine keepsEntries_of_nodup (hmaps m hm) fun m' hm' => ?_
    have hm'' := (maps_subset _ hm).1 hm'
    exact (pairwise_not_collide_iff (hmaps m' hm'')).1 (h m' hm'')

namespace Sample

/-- Two keys that are templates of the same component. -/
def overrides : Fields :=
  [("\x7b\x7b inputs.first \x7d\x7d", .str "small"),
    ("\x7b\x7b inputs.second \x7d\x7d", .str "large")]

/-- The context in which they are. -/
def sameComponent : ExecutionContext where
  inputs := [("first", .str "api"), ("second", .str "api")]
  workflow := { id := "w1", name := "deploy", version := 1 }

end Sample

/-- Of two entries for the same component one is left, the one that is met last. -/
theorem not_keepsEntries_overrides :
    Sample.sameComponent.render (fun _ => "") (.map Sample.overrides) =
        .ok (.map [("api", .str "large")]) ∧
      Sample.sameComponent.render (fun _ => "") (.map Sample.overrides.reverse) =
        .ok (.map [("api", .str "small")]) ∧
      ¬ ((∀ v', Reorder (.map Sample.overrides) v' →
          ∃ e, Sample.sameComponent.render (fun _ => "") v' = .error e) ∨
        KeepsEntries (fun _ => "") Sample.sameComponent Sample.overrides) := by
  have hlarge : Sample.sameComponent.render (fun _ => "") (.map Sample.overrides) =
      .ok (.map [("api", .str "large")]) := by rfl
  refine ⟨hlarge, by rfl, ?_⟩
  rintro (herror | ⟨out, hout, hlength, -⟩)
  · obtain ⟨e, he⟩ := herror _ (Reorder.refl _)
    rw [hlarge] at he
    cases he
  · rw [hlarge, Except.ok.injEq, Value.map.injEq] at hout
    subst hout
    exact absurd hlength (by decide)

end Yggdrasil.Templates
