import Yggdrasil.Lib.Trim
import Yggdrasil.Runs.Lease

/-!
# Templates

A template is a path between double braces, replaced by what the path leads to in the context of the
step. A text that is one template becomes the value itself. How a value that is not a text is
printed is a parameter `sprint`, of which nothing is assumed.
-/

namespace Yggdrasil.Templates

open Text Runs Check

/-! ## The parts of a text -/

/-- A character of a text outside its templates, or a template with what is between its braces. -/
inductive Part
  | char (c : Char)
  | template (content : List Char)

/-- The text of a part. -/
def Part.source : Part → List Char
  | .char c => [c]
  | .template content => '{' :: '{' :: content ++ ['}', '}']

/-- The path that a part reads. -/
def Part.path? : Part → Option String
  | .char _ => none
  | .template content => some (.ofList content)

/-- The parts of a text, after the first characters are skipped. -/
def partsFrom : ℕ → List Char → List Part
  | _, [] => []
  | skip + 1, _ :: rest => partsFrom skip rest
  | 0, c :: rest =>
    match template? (c :: rest) with
    | some content => .template content :: partsFrom (content.length + 3) rest
    | none => .char c :: partsFrom 0 rest

/-- The parts of a text. -/
def parts (value : String) : List Part := partsFrom 0 value.toList

/-- The paths of the templates of a text. -/
def templatePaths (value : String) : List String := (parts value).filterMap Part.path?

/-- The texts that can be between the braces of a template. -/
def IsContent (content : List Char) : Prop := content ≠ [] ∧ ∀ c ∈ content, c ≠ '{' ∧ c ≠ '}'

variable {content l : List Char}

theorem template?_source (h : IsContent content) (rest : List Char) :
    template? ((Part.template content).source ++ rest) = some content := by
  have htake : (content ++ '}' :: '}' :: rest).takeWhile (fun c => c ≠ '{' && c ≠ '}') =
      content := by
    rw [List.takeWhile_append_of_pos (by simpa using h.2)]
    simp
  simp only [Part.source, List.cons_append, List.append_assoc, template?]
  change (if _ then some _ else none) = _
  simp only [List.nil_append, htake]
  rw [if_pos ⟨h.1, rest, by simp⟩]

theorem eq_source_of_template? (h : template? l = some content) :
    IsContent content ∧ ∃ rest, l = (Part.template content).source ++ rest := by
  rw [template?.eq_def] at h
  split at h
  next text =>
    simp only [Option.ite_none_right_eq_some, Option.some.injEq] at h
    obtain ⟨⟨hne, rest, hrest⟩, hcontent⟩ := h
    obtain ⟨after, hafter⟩ := List.takeWhile_prefix (l := text) (fun c => c ≠ '{' && c ≠ '}')
    rw [hcontent] at hne hrest hafter
    rw [← hafter, List.drop_left] at hrest
    refine ⟨⟨hne, fun c hc => ?_⟩, rest, by simp [Part.source, ← hafter, ← hrest]⟩
    rw [← hcontent] at hc
    simpa using List.mem_takeWhile_imp hc
  next => cases h

theorem partsFrom_skip (skip : ℕ) (l : List Char) :
    partsFrom skip l = partsFrom 0 (l.drop skip) := by
  induction skip generalizing l with
  | zero => rfl
  | succ skip ih =>
    cases l with
    | nil => rw [List.drop_nil, partsFrom, partsFrom]
    | cons c l => rw [partsFrom, ih, List.drop_succ_cons]

/-- A text is scanned from its front, a template or a character at a time. -/
theorem partsFrom_template (h : IsContent content) (rest : List Char) :
    partsFrom 0 ((Part.template content).source ++ rest) =
      .template content :: partsFrom 0 rest := by
  have htemplate := template?_source h rest
  simp only [Part.source, List.cons_append] at htemplate ⊢
  rw [partsFrom, htemplate]
  dsimp only
  rw [partsFrom_skip]
  simp

theorem partsFrom_char {c : Char} {rest : List Char} (h : template? (c :: rest) = none) :
    partsFrom 0 (c :: rest) = .char c :: partsFrom 0 rest := by
  rw [partsFrom, h]

/-- Induction along the scan of a text. -/
theorem scan_induction {motive : List Char → Prop} (nil : motive [])
    (char : ∀ c l, template? (c :: l) = none → motive l → motive (c :: l))
    (template : ∀ content l, IsContent content → motive l →
      motive ((Part.template content).source ++ l)) (l : List Char) : motive l := by
  induction hn : l.length using Nat.strong_induction_on generalizing l with
  | _ n ih =>
    subst hn
    cases l with
    | nil => exact nil
    | cons c l =>
      cases htemplate : template? (c :: l) with
      | none => exact char c l htemplate (ih l.length (by simp) l rfl)
      | some content =>
        obtain ⟨hcontent, rest, hl⟩ := eq_source_of_template? htemplate
        rw [hl]
        refine template content rest hcontent (ih rest.length ?_ rest rfl)
        rw [hl, List.length_append]
        simp [Part.source]

/-- The parts of a text, put together, are the text. -/
theorem source_partsFrom (l : List Char) : (partsFrom 0 l).flatMap Part.source = l := by
  induction l using scan_induction with
  | nil => rfl
  | char c l htemplate ih =>
    rw [partsFrom_char htemplate, List.flatMap_cons, ih]
    rfl
  | template content l hcontent ih => rw [partsFrom_template hcontent, List.flatMap_cons, ih]

theorem isContent_of_mem_partsFrom (h : .template content ∈ partsFrom 0 l) : IsContent content := by
  induction l using scan_induction with
  | nil => cases h
  | char c l htemplate ih =>
    rw [partsFrom_char htemplate, List.mem_cons] at h
    exact ih (h.resolve_left (by simp))
  | template content' l hcontent ih =>
    rw [partsFrom_template hcontent, List.mem_cons] at h
    rcases h with h | h
    · cases h
      exact hcontent
    · exact ih h

/-! ## Paths -/

/-- `WorkflowExecutionContext`: what the templates of a step can read. -/
structure ExecutionContext where
  inputs : Value.Fields := []
  metadata : Value.Fields := []
  token : String := ""
  workflow : ManifestReference
  steps : Context := []
  each : Option Value.Fields := none

/-- What the first segment of a path may be for the path to be one into the context. -/
def workflowTemplateRoots : List String :=
  ["inputs", "metadata", "auth", "workflow", "steps", "each"]

/-- The characters that end the first segment of a path. -/
def endsSegment (c : Char) : Bool := ['.', '[', '|', ' ', '\t'].contains c

/-- The first segment of a path. -/
def workflowTemplateLeadingSegment (trimmed : String) : String :=
  .ofList (trimmed.toList.takeWhile (!endsSegment ·))

/-- What templates see of the result of a step. -/
def stepResultContext (result : StepResult) : Value :=
  .map [("id", .str result.id), ("kind", .str result.kind), ("status", .str result.status),
    ("operation", .str result.operation), ("capability", .str result.capability),
    ("attempts", .int .int result.attempts), ("error", .str result.error),
    ("metadata", .map result.metadata)]

/-- The results of the steps as a value. -/
def workflowStepResultsContext (results : Context) : Value.Fields :=
  results.map fun entry => (entry.1, stepResultContext entry.2)

/-- What the parts of a path lead to, keys of maps and indices of lists. -/
def lookupParts : Value → List String → Option Value
  | current, [] => some current
  | current, part :: parts =>
    let part := trimSpace part
    if part = "" then none
    else
      match current with
      | .map fields => (fields.lookup part).bind (lookupParts · parts)
      | .list items =>
        match atoi part with
        | some idx => if idx < 0 then none else items[idx.toNat]?.bind (lookupParts · parts)
        | none => none
      | _ => none

/-- The value at a path, which must not be empty. -/
def lookupWorkflowPath (root : Value.Fields) (path : String) : Option Value :=
  if path = "" then none else lookupParts (.map root) (split path '.')

/-- The roots of the context. -/
def ExecutionContext.root (ctx : ExecutionContext) : Value.Fields :=
  [("inputs", .map ctx.inputs), ("metadata", .map ctx.metadata),
    ("auth", .map [("token", .str ctx.token)]),
    ("workflow", .map [("name", .str ctx.workflow.name),
      ("namespace", .str ctx.workflow.namespaceName),
      ("version", .int .int ctx.workflow.version)]),
    ("steps", .map (workflowStepResultsContext ctx.steps))] ++
  ctx.each.elim [] fun each => [("each", .map each)]

/-- The path belongs to another renderer. -/
def IsForeign (path : String) : Prop :=
  workflowTemplateLeadingSegment (trimSpace path) ∉ workflowTemplateRoots

instance : DecidablePred IsForeign := fun _ => inferInstanceAs (Decidable (_ ∉ _))

/-- The template that another renderer is left. -/
def respelled (path : String) : String :=
  .ofList (Part.template (' ' :: (trimSpace path).toList ++ [' '])).source

/-- What the template of a path, which is trimmed, is replaced by. -/
def workflowTemplateValue (ctx : ExecutionContext) (path : String) : Option Value :=
  if IsForeign path then some (.str (respelled path))
  else lookupWorkflowPath ctx.root (trimSpace path)

/-! ## Rendering -/

section Render

variable (sprint : Value → String)

/-- The text of a value. -/
def display : Value → String
  | .str s => s
  | v => sprint v

variable (read : String → Option Value)

/-- The error of a template that leads to nothing. -/
def unresolved (text : List Char) : Fault :=
  .errorf "workflow template %q could not be resolved" [.quoted (.ofList text)]

/-- The text with the values of its templates printed. -/
def renderParts : List Part → Except Fault (List Char)
  | [] => .ok []
  | .char c :: rest => do
    let text ← renderParts rest
    .ok (c :: text)
  | .template content :: rest =>
    match read (.ofList content) with
    | none => .error (unresolved (Part.template content).source)
    | some v => do
      let text ← renderParts rest
      .ok ((display sprint v).toList ++ text)

/-- A text that is one template becomes what the template leads to. -/
def renderWorkflowString (value : String) : Except Fault Value :=
  match parts value with
  | [.template content] =>
    match read (.ofList content) with
    | none => .error (unresolved value.toList)
    | some v => .ok v
  | parts => do
    let text ← renderParts sprint read parts
    .ok (.str (.ofList text))

mutual

/-- A value with its texts and keys rendered. -/
def renderWorkflowInput : Value → Except Fault Value
  | .map fields => do
    let rendered ← renderFields fields []
    .ok (.map rendered)
  | .list items => do
    let rendered ← renderItems items
    .ok (.list rendered)
  | .str s => renderWorkflowString sprint read s
  | .nil => .ok .nil
  | .bool b => .ok (.bool b)
  | .float q => .ok (.float q)
  | .int type z => .ok (.int type z)
  | .other type content => .ok (.other type content)

/-- The loop over the entries of a map, with what was rendered before. -/
def renderFields : Value.Fields → Value.Fields → Except Fault Value.Fields
  | [], rendered => .ok rendered
  | (key, item) :: rest, rendered => do
    let renderedKey ← (renderWorkflowString sprint read key).mapError
      (.wrap "render map key %q: %w" [.quoted key])
    let next ← renderWorkflowInput item
    renderFields rest (rendered.set (display sprint renderedKey) next)

/-- The loop over the items of a list. -/
def renderItems : List Value → Except Fault (List Value)
  | [] => .ok []
  | item :: rest => do
    let next ← renderWorkflowInput item
    let rendered ← renderItems rest
    .ok (next :: rendered)

end

/-! ## One pass -/

variable (values : String → Value)

/-- What is written in place of a part. -/
def Part.expand : Part → List Char
  | .char c => [c]
  | .template content => (display sprint (values (.ofList content))).toList

/-- The text with each template replaced by the value of its path. -/
def expandString (value : String) : Value :=
  match parts value with
  | [.template content] => values (.ofList content)
  | parts => .str (.ofList (parts.flatMap (Part.expand sprint values)))

mutual

/-- The value with each template in its texts replaced, and not what comes from the values. -/
def expand : Value → Value
  | .map fields => .map (expandFields fields [])
  | .list items => .list (expandItems items)
  | .str s => expandString sprint values s
  | .nil => .nil
  | .bool b => .bool b
  | .float q => .float q
  | .int type z => .int type z
  | .other type content => .other type content

/-- The entries with their keys and values expanded. -/
def expandFields : Value.Fields → Value.Fields → Value.Fields
  | [], expanded => expanded
  | (key, item) :: rest, expanded =>
    expandFields rest
      (expanded.set (display sprint (expandString sprint values key)) (expand item))

/-- The items of a list expanded. -/
def expandItems : List Value → List Value
  | [] => []
  | item :: rest => expand item :: expandItems rest

end

end Render

mutual

/-- The texts of a value in which templates are looked for. -/
def renderedTexts : Value → List String
  | .map fields => renderedTextsFields fields
  | .list items => renderedTextsItems items
  | .str s => [s]
  | .nil | .bool _ | .float _ | .int _ _ | .other _ _ => []

/-- The keys and texts of entries. -/
def renderedTextsFields : Value.Fields → List String
  | [] => []
  | (key, item) :: rest => key :: (renderedTexts item ++ renderedTextsFields rest)

/-- The texts of a list. -/
def renderedTextsItems : List Value → List String
  | [] => []
  | item :: rest => renderedTexts item ++ renderedTextsItems rest

end

/-- The paths of the templates of a value. -/
def inputPaths (v : Value) : List String := (renderedTexts v).flatMap templatePaths

section OnePass

variable {sprint : Value → String} {read : String → Option Value} {paths : List String}
  {out : Value} {value : String}

/-- The value that is read, for paths that lead to one. -/
def valueRead (read : String → Option Value) (path : String) : Value := (read path).getD .nil

/-- All the paths lead to something. -/
def Resolves (read : String → Option Value) (paths : List String) : Prop :=
  ∀ path ∈ paths, (read path).isSome = true

@[simp] theorem resolves_nil : Resolves read [] := by simp [Resolves]

@[simp] theorem resolves_cons {path : String} :
    Resolves read (path :: paths) ↔ (read path).isSome = true ∧ Resolves read paths := by
  simp [Resolves]

@[simp] theorem resolves_append {paths' : List String} :
    Resolves read (paths ++ paths') ↔ Resolves read paths ∧ Resolves read paths' := by
  simp [Resolves, or_imp, forall_and]

theorem renderParts_eq_ok_iff {ps : List Part} {text : List Char} :
    renderParts sprint read ps = .ok text ↔ Resolves read (ps.filterMap Part.path?) ∧
      ps.flatMap (Part.expand sprint (valueRead read)) = text := by
  induction ps generalizing text with
  | nil => simp [renderParts]
  | cons part ps ih =>
    cases part with
    | char c =>
      simp only [renderParts, bind_eq_ok, ih, Except.ok.injEq, List.filterMap_cons, Part.path?]
      simp [Part.expand]
    | template content =>
      rw [renderParts]
      cases hread : read (.ofList content) with
      | none => simp [Part.path?, hread]
      | some v =>
        simp only [bind_eq_ok, ih, Except.ok.injEq, List.filterMap_cons, Part.path?]
        simp [Part.expand, hread, valueRead]

theorem renderWorkflowString_eq_ok_iff :
    renderWorkflowString sprint read value = .ok out ↔ Resolves read (templatePaths value) ∧
      expandString sprint (valueRead read) value = out := by
  rw [renderWorkflowString, expandString, templatePaths]
  split
  next _ content hparts =>
    rw [hparts]
    cases hread : read (.ofList content) <;> simp [Part.path?, hread, valueRead]
  next =>
    simp only [bind_eq_ok, renderParts_eq_ok_iff, Except.ok.injEq]
    simp

mutual

/-- A value is rendered when all its paths lead to something, in one pass. -/
theorem render_eq_ok_iff (v : Value) : ∀ {out : Value},
    renderWorkflowInput sprint read v = .ok out ↔ Resolves read (inputPaths v) ∧
      expand sprint (valueRead read) v = out := by
  intro out
  cases v with
  | map fields =>
    simp only [renderWorkflowInput, bind_eq_ok, renderFields_eq_ok_iff fields, Except.ok.injEq]
    simp [inputPaths, renderedTexts, expand]
  | list items =>
    simp only [renderWorkflowInput, bind_eq_ok, renderItems_eq_ok_iff items, Except.ok.injEq]
    simp [inputPaths, renderedTexts, expand]
  | str s =>
    rw [renderWorkflowInput, renderWorkflowString_eq_ok_iff]
    simp [inputPaths, renderedTexts, expand]
  | nil | bool | float | int | other =>
    simp [renderWorkflowInput, inputPaths, renderedTexts, expand]

theorem renderFields_eq_ok_iff (fields : Value.Fields) : ∀ {before out : Value.Fields},
    renderFields sprint read fields before = .ok out ↔
      Resolves read ((renderedTextsFields fields).flatMap templatePaths) ∧
        expandFields sprint (valueRead read) fields before = out := by
  intro before out
  match fields with
  | [] => simp [renderFields, renderedTextsFields, expandFields]
  | (key, item) :: rest =>
    simp only [renderFields, bind_eq_ok, mapError_eq_ok, renderWorkflowString_eq_ok_iff,
      render_eq_ok_iff item, renderFields_eq_ok_iff rest]
    simp [renderedTextsFields, expandFields, inputPaths, and_assoc]

theorem renderItems_eq_ok_iff (items : List Value) : ∀ {out : List Value},
    renderItems sprint read items = .ok out ↔
      Resolves read ((renderedTextsItems items).flatMap templatePaths) ∧
        expandItems sprint (valueRead read) items = out := by
  intro out
  match items with
  | [] => simp [renderItems, renderedTextsItems, expandItems]
  | item :: rest =>
    simp only [renderItems, bind_eq_ok, render_eq_ok_iff item, renderItems_eq_ok_iff rest,
      Except.ok.injEq]
    simp [renderedTextsItems, expandItems, inputPaths, and_assoc]

end

section

variable {values values' : String → Value}

theorem expandString_congr (h : ∀ path ∈ templatePaths value, values path = values' path) :
    expandString sprint values value = expandString sprint values' value := by
  have hparts : ∀ part ∈ parts value, part.expand sprint values = part.expand sprint values' := by
    intro part hpart
    cases part with
    | char c => rfl
    | template content =>
      have hpath : String.ofList content ∈ templatePaths value :=
        List.mem_filterMap.2 ⟨_, hpart, rfl⟩
      rw [Part.expand, Part.expand, h _ hpath]
  rw [expandString, expandString]
  split
  next _ content hvalue =>
    refine h _ (List.mem_filterMap.2 ⟨.template content, ?_, rfl⟩)
    rw [hvalue]
    exact List.mem_singleton_self _
  next => rw [List.flatMap_congr hparts]

mutual

theorem expand_congr (v : Value) (h : ∀ path ∈ inputPaths v, values path = values' path) :
    expand sprint values v = expand sprint values' v := by
  cases v with
  | map fields => rw [expand, expand, expandFields_congr fields h]
  | list items => rw [expand, expand, expandItems_congr items h]
  | str s =>
    rw [expand, expand, expandString_congr]
    simpa [inputPaths, renderedTexts] using h
  | nil | bool | float | int | other => rfl

theorem expandFields_congr (fields : Value.Fields)
    (h : ∀ path ∈ (renderedTextsFields fields).flatMap templatePaths, values path = values' path) :
    ∀ {before : Value.Fields},
    expandFields sprint values fields before = expandFields sprint values' fields before := by
  intro before
  match fields with
  | [] => rfl
  | (key, item) :: rest =>
    simp only [renderedTextsFields, List.flatMap_cons, List.flatMap_append, List.mem_append,
      or_imp, forall_and] at h
    rw [expandFields, expandFields, expandString_congr h.1, expand_congr item h.2.1,
      expandFields_congr rest h.2.2]

theorem expandItems_congr (items : List Value)
    (h : ∀ path ∈ (renderedTextsItems items).flatMap templatePaths, values path = values' path) :
    expandItems sprint values items = expandItems sprint values' items := by
  match items with
  | [] => rfl
  | item :: rest =>
    simp only [renderedTextsItems, List.flatMap_append, List.mem_append, or_imp, forall_and] at h
    rw [expandItems, expandItems, expand_congr item h.1, expandItems_congr rest h.2]

end

end

/-- What is rendered depends on what is read under the paths of the value only. -/
theorem render_congr {read' : String → Option Value} {v : Value}
    (h : ∀ path ∈ inputPaths v, read' path = read path)
    (hout : renderWorkflowInput sprint read v = .ok out) :
    renderWorkflowInput sprint read' v = .ok out := by
  rw [render_eq_ok_iff] at hout ⊢
  refine ⟨fun path hpath => ?_, ?_⟩
  · rw [h path hpath]
    exact hout.1 path hpath
  · rw [← hout.2]
    exact expand_congr v fun path hpath => by rw [valueRead, valueRead, h path hpath]

end OnePass

/-! ## What a path reads of the context -/

section Roots

variable {ctx ctx' : ExecutionContext} {path : String}

/-- No root is the beginning of another one. -/
theorem eq_of_prefix_roots : ∀ a ∈ workflowTemplateRoots, ∀ b ∈ workflowTemplateRoots,
    a.toList <+: b.toList → a = b := by
  decide +kernel

theorem lookup_root_eq_none (ctx : ExecutionContext) {key : String}
    (h : key ∉ workflowTemplateRoots) : ctx.root.lookup key = none := by
  have hkeys : ∀ entry ∈ ctx.root, entry.1 ∈ workflowTemplateRoots := by
    cases heach : ctx.each <;> simp [ExecutionContext.root, workflowTemplateRoots, heach]
  rw [List.lookup_eq_none_iff]
  intro entry hentry
  refine bne_iff_ne.2 fun heq => h ?_
  rw [heq]
  exact hkeys entry hentry

/-- The first part of a path, where it is a root, is the first segment of the path. -/
theorem eq_leadingSegment {path : String} {first : List Char}
    (hfirst : first <+: (trimSpace path).toList)
    (hmem : String.ofList (trim first) ∈ workflowTemplateRoots)
    (hleading : workflowTemplateLeadingSegment (trimSpace path) ∈ workflowTemplateRoots) :
    String.ofList (trim first) = workflowTemplateLeadingSegment (trimSpace path) := by
  have htrim : first.dropWhile isSpace = first := by
    refine dropWhile_of_prefix hfirst ?_
    rw [trimSpace_eq, String.toList_ofList, (trim_eq_self_iff.1 (trim_trim _)).1]
  have hprefix : trim first <+: (trimSpace path).toList := by
    rw [trim, htrim]
    exact (List.rdropWhile_prefix _ _).trans hfirst
  have hsegment : (workflowTemplateLeadingSegment (trimSpace path)).toList <+:
      (trimSpace path).toList := by
    rw [workflowTemplateLeadingSegment, String.toList_ofList]
    exact List.takeWhile_prefix _
  rcases List.prefix_or_prefix_of_prefix hprefix hsegment with h | h
  · exact eq_of_prefix_roots _ hmem _ hleading (by rwa [String.toList_ofList])
  · exact (eq_of_prefix_roots _ hleading _ hmem (by rwa [String.toList_ofList])).symm

/-- A path reads the root that it names, and nothing else. -/
theorem workflowTemplateValue_congr
    (h : ctx'.root.lookup (workflowTemplateLeadingSegment (trimSpace path)) =
      ctx.root.lookup (workflowTemplateLeadingSegment (trimSpace path))) :
    workflowTemplateValue ctx' path = workflowTemplateValue ctx path := by
  rw [workflowTemplateValue, workflowTemplateValue]
  split_ifs with hforeign
  · rfl
  · have hleading := not_not.1 hforeign
    obtain ⟨first, rest, hsplit⟩ :=
      List.exists_cons_of_ne_nil (List.splitOn_ne_nil '.' (trimSpace path).toList)
    have hfirst : first <+: (trimSpace path).toList := by
      have hjoin : ['.'].intercalate ((trimSpace path).toList.splitOn '.') =
          (trimSpace path).toList := List.intercalate_splitOn '.'
      rw [hsplit] at hjoin
      rw [← hjoin]
      cases rest <;> simp [List.intercalate]
    have hlookup : ctx'.root.lookup (.ofList (trim first)) =
        ctx.root.lookup (.ofList (trim first)) := by
      by_cases hmem : String.ofList (trim first) ∈ workflowTemplateRoots
      · rw [eq_leadingSegment hfirst hmem hleading, h]
      · rw [lookup_root_eq_none _ hmem, lookup_root_eq_none _ hmem]
    have htrim : trimSpace (.ofList first) = .ofList (trim first) := by
      rw [trimSpace_eq, String.toList_ofList]
    simp only [lookupWorkflowPath, split, hsplit, List.map_cons, lookupParts, htrim, hlookup]

end Roots

/-- The value with its templates read in the context. -/
def ExecutionContext.render (sprint : Value → String) (ctx : ExecutionContext) (v : Value) :
    Except Fault Value :=
  renderWorkflowInput sprint (workflowTemplateValue ctx) v

/-- What is rendered is the value with the templates of its own texts replaced, all of them and
    nothing else; it is the same in contexts that agree on their paths, or under their roots. -/
theorem templates_expanded_once {sprint : Value → String} {ctx : ExecutionContext} {v out : Value}
    (h : ctx.render sprint v = .ok out) :
    out = expand sprint (valueRead (workflowTemplateValue ctx)) v ∧
      (∀ text ∈ renderedTexts v, (parts text).flatMap Part.source = text.toList) ∧
      (∀ read : String → Option Value,
        (∃ out, renderWorkflowInput sprint read v = .ok out) ↔ Resolves read (inputPaths v)) ∧
      (∀ ctx' : ExecutionContext, (∀ path ∈ inputPaths v,
        workflowTemplateValue ctx' path = workflowTemplateValue ctx path) →
          ctx'.render sprint v = .ok out) ∧
      ∀ ctx' : ExecutionContext, (∀ path ∈ inputPaths v,
        ctx'.root.lookup (workflowTemplateLeadingSegment (trimSpace path)) =
          ctx.root.lookup (workflowTemplateLeadingSegment (trimSpace path))) →
          ctx'.render sprint v = .ok out := by
  refine ⟨((render_eq_ok_iff v).1 h).2.symm, fun text _ => source_partsFrom text.toList,
    fun read => ?_, fun ctx' hpaths => render_congr hpaths h, fun ctx' hroots => ?_⟩
  · constructor
    · rintro ⟨out, hout⟩
      exact ((render_eq_ok_iff v).1 hout).1
    · intro hresolves
      exact ⟨_, (render_eq_ok_iff v).2 ⟨hresolves, rfl⟩⟩
  · exact render_congr (fun path hpath => workflowTemplateValue_congr (hroots path hpath)) h

namespace Sample

/-- A context with a secret, and an input that has a template in it. -/
def tempting (token : String) : ExecutionContext where
  inputs := [("note", .str "see \x7b\x7b auth.token \x7d\x7d")]
  token
  workflow := { id := "w1", name := "deploy", version := 1 }

/-- A step that passes the input on. -/
def passing : Value := .map [("message", .str "note: \x7b\x7b inputs.note \x7d\x7d")]

/-- What the step is given. -/
def passed : Value := .map [("message", .str "note: see \x7b\x7b auth.token \x7d\x7d")]

end Sample

/-- The template of the input is passed on as it is, whatever the secret is. -/
theorem templates_expanded_once_tempting :
    (Sample.tempting "a").render (fun _ => "") Sample.passing = .ok Sample.passed ∧
      (Sample.tempting "b").render (fun _ => "") Sample.passing = .ok Sample.passed := by
  have h : (Sample.tempting "a").render (fun _ => "") Sample.passing = .ok Sample.passed := by rfl
  refine ⟨h, (templates_expanded_once h).2.2.2.2 _ ?_⟩
  have hpaths : inputPaths Sample.passing = [" inputs.note "] := by decide +kernel
  rw [hpaths, List.forall_mem_singleton]
  rfl

end Yggdrasil.Templates
