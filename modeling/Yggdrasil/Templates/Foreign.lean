import Yggdrasil.Templates.Render

/-!
# Templates of other renderers

A template whose path does not begin with a root of the context is left for another renderer. It is
not copied, but written again with its path trimmed between two blanks (`respelled`).
-/

namespace Yggdrasil.Templates

open Text Check

/-- A template of another renderer is written again, and the rest is left. -/
def Part.respell : Part → List Char
  | .char c => [c]
  | .template content =>
    if IsForeign (.ofList content) then (respelled (.ofList content)).toList
    else (Part.template content).source

/-- What is between the braces has exactly one blank on each side. -/
def IsSpaced (path : String) : Prop := path.toList = ' ' :: (trimSpace path).toList ++ [' ']

instance : DecidablePred IsSpaced := fun _ => inferInstanceAs (Decidable (_ = _))

variable {sprint : Value → String} {ctx : ExecutionContext} {value : String}
  {s t content : List Char}

/-- Texts without a character are told from what comes after the character. -/
theorem append_cons_inj_of_not_mem {c : Char} {u v : List Char} (hs : c ∉ s) (ht : c ∉ t) :
    s ++ c :: u = t ++ c :: v ↔ s = t ∧ u = v := by
  constructor
  · intro h
    have htake (s u : List Char) (hs : c ∉ s) : (s ++ c :: u).takeWhile (· ≠ c) = s := by
      rw [List.takeWhile_append_of_pos fun d hd => by simpa using ne_of_mem_of_not_mem hd hs]
      simp
    obtain rfl : s = t := by rw [← htake s u hs, h, htake t v ht]
    exact ⟨rfl, (List.cons.inj (List.append_cancel_left h)).2⟩
  · rintro ⟨rfl, rfl⟩
    rfl

/-- A template written again is the same exactly when it is spaced, whatever follows. -/
theorem respelled_append_eq_iff (hcontent : IsContent content) :
    (respelled (.ofList content)).toList ++ s = (Part.template content).source ++ t ↔
      IsSpaced (.ofList content) ∧ s = t := by
  have hbrace : '}' ∉ content := fun h => (hcontent.2 _ h).2 rfl
  have htrim : '}' ∉ (trimSpace (.ofList content)).toList := by
    rw [trimSpace_eq, String.toList_ofList, String.toList_ofList]
    exact fun h => hbrace (mem_of_mem_trim h)
  have hinj := append_cons_inj_of_not_mem
    (s := ' ' :: (trimSpace (.ofList content)).toList ++ [' ']) (u := '}' :: s) (v := '}' :: t)
    (by simp [htrim]) hbrace
  rw [respelled, String.toList_ofList, Part.source, Part.source, IsSpaced, String.toList_ofList]
  simp only [List.cons_append, List.append_assoc, List.cons.injEq, true_and, List.nil_append]
    at hinj ⊢
  rw [hinj]
  exact and_congr_left fun _ => eq_comm

/-- A text is left as it is exactly when the templates of other renderers in it are spaced. -/
theorem respell_eq_source_iff {ps : List Part}
    (hcontent : ∀ content, .template content ∈ ps → IsContent content) :
    ps.flatMap Part.respell = ps.flatMap Part.source ↔
      ∀ path ∈ ps.filterMap Part.path?, IsForeign path → IsSpaced path := by
  induction ps with
  | nil => simp
  | cons part ps ih =>
    have ih := ih fun content h => hcontent content (List.mem_cons_of_mem _ h)
    cases part with
    | char c => simp [Part.respell, Part.source, Part.path?, ih]
    | template content =>
      rw [List.flatMap_cons, List.flatMap_cons, Part.respell]
      split_ifs with hforeign
      · rw [respelled_append_eq_iff (hcontent content List.mem_cons_self), ih]
        simp [Part.path?, hforeign]
      · rw [List.append_cancel_left_eq, ih]
        simp [Part.path?, hforeign]

/-- What is written in place of a template of another renderer. -/
theorem expand_foreign (h : IsForeign (.ofList content)) :
    (Part.template content).expand sprint (valueRead (workflowTemplateValue ctx)) =
      (respelled (.ofList content)).toList := by
  rw [Part.expand, valueRead, workflowTemplateValue, if_pos h]
  rfl

/-- A text with templates of other renderers only is rendered to a text. -/
theorem render_foreign (h : ∀ path ∈ templatePaths value, IsForeign path) :
    ctx.render sprint (.str value) = .ok (.str (.ofList ((parts value).flatMap Part.respell))) := by
  have hparts : ∀ part ∈ parts value,
      part.expand sprint (valueRead (workflowTemplateValue ctx)) = part.respell := by
    intro part hpart
    cases part with
    | char c => rfl
    | template content =>
      have hforeign := h _ (List.mem_filterMap.2 ⟨_, hpart, rfl⟩)
      rw [expand_foreign hforeign, Part.respell, if_pos hforeign]
  rw [ExecutionContext.render, renderWorkflowInput, renderWorkflowString_eq_ok_iff]
  refine ⟨fun path hpath => by rw [workflowTemplateValue, if_pos (h path hpath)]; rfl, ?_⟩
  rw [expandString]
  split
  next _ content hvalue =>
    have hforeign := h _ (List.mem_filterMap.2 ⟨.template content, by rw [hvalue]; simp, rfl⟩)
    rw [hvalue, List.flatMap_singleton, Part.respell, if_pos hforeign, String.ofList_toList,
      valueRead, workflowTemplateValue, if_pos hforeign]
    rfl
  next => rw [List.flatMap_congr hparts]

/-- A foreign template is written again, between what is rendered around it. -/
theorem render_around_foreign {before after : List Part} {out : Value}
    (hparts : parts value = before ++ .template content :: after)
    (hforeign : IsForeign (.ofList content)) (hout : ctx.render sprint (.str value) = .ok out) :
    ∃ a b, renderParts sprint (workflowTemplateValue ctx) before = .ok a ∧
      renderParts sprint (workflowTemplateValue ctx) after = .ok b ∧
      out = .str (.ofList (a ++ (respelled (.ofList content)).toList ++ b)) := by
  rw [ExecutionContext.render, renderWorkflowInput, renderWorkflowString_eq_ok_iff, templatePaths,
    hparts, List.filterMap_append, List.filterMap_cons, Part.path?, resolves_append,
    resolves_cons] at hout
  obtain ⟨⟨hbefore, -, hafter⟩, rfl⟩ := hout
  refine ⟨_, _, renderParts_eq_ok_iff.2 ⟨hbefore, rfl⟩, renderParts_eq_ok_iff.2 ⟨hafter, rfl⟩, ?_⟩
  rw [expandString, hparts]
  split
  next _ content' hsingle =>
    -- The text is the template alone.
    obtain ⟨rfl, hcontent, rfl⟩ : before = [] ∧ Part.template content = .template content' ∧
        after = [] := by
      simpa [List.append_eq_singleton_iff] using hsingle
    cases hcontent
    rw [valueRead, workflowTemplateValue, if_pos hforeign]
    simp
  next =>
    rw [List.flatMap_append, List.flatMap_cons, expand_foreign hforeign, List.append_assoc]

/-- A text with templates of other renderers only is left as it is exactly when they are all spaced;
    in any text every such template is written again at its place. -/
theorem foreign_respelled (sprint : Value → String) (ctx : ExecutionContext) (value : String) :
    ((∀ path ∈ templatePaths value, IsForeign path) →
      ctx.render sprint (.str value) = .ok (.str (.ofList ((parts value).flatMap Part.respell))) ∧
      (ctx.render sprint (.str value) = .ok (.str value) ↔
        ∀ path ∈ templatePaths value, IsSpaced path)) ∧
    ∀ before content after out, parts value = before ++ .template content :: after →
      IsForeign (.ofList content) → ctx.render sprint (.str value) = .ok out →
      ∃ a b, renderParts sprint (workflowTemplateValue ctx) before = .ok a ∧
        renderParts sprint (workflowTemplateValue ctx) after = .ok b ∧
        out = .str (.ofList (a ++ (respelled (.ofList content)).toList ++ b)) := by
  refine ⟨fun hforeign => ⟨render_foreign hforeign, ?_⟩,
    fun before content after out => render_around_foreign⟩
  have hsource := respell_eq_source_iff fun content hmem =>
    isContent_of_mem_partsFrom (l := value.toList) hmem
  have hspaced : (∀ path ∈ templatePaths value, IsForeign path → IsSpaced path) ↔
      ∀ path ∈ templatePaths value, IsSpaced path :=
    forall₂_congr fun path hpath => forall_prop_of_true (hforeign path hpath)
  rw [render_foreign hforeign, ← hspaced, templatePaths, parts, ← hsource, source_partsFrom,
    Except.ok.injEq, Value.str.injEq, ← String.toList_inj, String.toList_ofList]

namespace Sample

/-- Two templates of another renderer, of which only the second one is spaced. -/
def legend : String := "\x7b\x7bservice\x7d\x7d:\x7b\x7b pod \x7d\x7d"

/-- A template of the context, and one of another renderer. -/
def titled : String := "\x7b\x7bworkflow.name\x7d\x7d:\x7b\x7bpod\x7d\x7d"

end Sample

/-- Both templates come back spaced, and so does the one beside a template of the context. -/
theorem foreign_respelled_legend :
    (∀ path ∈ templatePaths Sample.legend, IsForeign path) ∧
      (Sample.tempting "").render (fun _ => "") (.str Sample.legend) =
        .ok (.str "\x7b\x7b service \x7d\x7d:\x7b\x7b pod \x7d\x7d") ∧
      (Sample.tempting "").render (fun _ => "") (.str Sample.legend) ≠ .ok (.str Sample.legend) ∧
      ∃ a b, renderParts (fun _ => "") (workflowTemplateValue (Sample.tempting ""))
          [.template "workflow.name".toList, .char ':'] = .ok a ∧
        renderParts (fun _ => "") (workflowTemplateValue (Sample.tempting "")) [] = .ok b ∧
        Value.str "deploy:\x7b\x7b pod \x7d\x7d" =
          .str (.ofList (a ++ (respelled "pod").toList ++ b)) := by
  have hforeign : ∀ path ∈ templatePaths Sample.legend, IsForeign path := by decide +kernel
  obtain ⟨hrender, hkept⟩ :=
    (foreign_respelled (fun _ => "") (Sample.tempting "") Sample.legend).1 hforeign
  refine ⟨hforeign, hrender, hkept.not.2 (by decide +kernel), ?_⟩
  exact (foreign_respelled _ _ Sample.titled).2 _ "pod".toList [] _ rfl
    (by decide +kernel) rfl

/-- The template of a legend comes back with blanks in it. -/
theorem not_foreign_verbatim :
    ¬ ∀ (ctx : ExecutionContext) (value : String), (∀ path ∈ templatePaths value, IsForeign path) →
      ctx.render (fun _ => "") (.str value) = .ok (.str value) := by
  intro h
  have hforeign : ∀ path ∈ templatePaths "\x7b\x7bservice\x7d\x7d", IsForeign path := by
    decide +kernel
  have heq := h (Sample.tempting "") _ hforeign
  have hrendered : (Sample.tempting "").render (fun _ => "") (.str "\x7b\x7bservice\x7d\x7d") =
      .ok (.str "\x7b\x7b service \x7d\x7d") := by rfl
  rw [hrendered, Except.ok.injEq, Value.str.injEq] at heq
  exact absurd heq (by decide)

end Yggdrasil.Templates
