import Yggdrasil.Runs.Attempts

/-!
# What becomes of a secret

One statement of a run at a time: what is recorded of a result that declares a secret, and what a
step does that is given one.
-/

namespace Yggdrasil.Runs

open Text Manifest

/-! ## What is recorded of a result -/

/-- The text `v` is in none of the texts. -/
def Free (v : String) (texts : List String) : Prop := ∀ t ∈ texts, contains t v = false

instance (v : String) : DecidablePred (Free v) := fun texts =>
  inferInstanceAs (Decidable (∀ t ∈ texts, contains t v = false))

/-- The words that the core itself puts into results. -/
def coreWords : List String :=
  ["", "succeeded", "failed", "skipped", errSensitiveOutputContract, errSensitiveOutputProducer,
    errSensitiveOutputSink, "output", "paths", "sensitive_output_redacted",
    "sensitive_output_redaction_scope", "sensitive_output_contract_violation",
    "integration_status", "sensitive_input_persisted", "sensitive_input_lease_version",
    sensitiveOutputLeaseVersion]

theorem empty_mem_coreWords : "" ∈ coreWords := by decide

theorem succeeded_mem_coreWords : "succeeded" ∈ coreWords := by decide

theorem failed_mem_coreWords : "failed" ∈ coreWords := by decide

/-- A secret that can be told from what replaces it. -/
structure Redactable (v : String) : Prop where
  noOpening : '[' ∉ v.toList
  noClosing : ']' ∉ v.toList
  notInside : contains "REDACTED" v = false

theorem Redactable.setApart {v : String} (h : Redactable v) :
    SetApart redactedWorkflowOutputValue v :=
  ⟨'[', "REDACTED".toList, ']', rfl, h.noOpening, h.noClosing, of_decide_eq_false h.notInside⟩

section Redaction

variable {segments paths : List String} {output redacted : Value} {t v : String}
  {metadata : Value.Fields}

/-- The part of a value that a segment names. -/
def child? (segment : String) : Value → Option Value
  | .map fields => fields.lookup segment
  | .list items => do
    let index ← atoi segment
    guard (0 ≤ index)
    items[index.toNat]?
  | _ => none

/-- The value with another part where the segment names one. -/
def setChild (segment : String) (part : Value) : Value → Value
  | .map fields => .map (Value.Fields.set fields segment part)
  | .list items => .list (items.set ((atoi segment).getD 0).toNat part)
  | v => v

variable {segment : String} {part child : Value} {scope : String} {result : StepResult}

theorem redactWorkflowOutputSegments_cons :
    redactWorkflowOutputSegments (segment :: segments) output = some redacted ↔
      ∃ child part, child? segment output = some child ∧
        redactWorkflowOutputSegments segments child = some part ∧
        redacted = setChild segment part output := by
  cases output with
  | map fields =>
    simp only [redactWorkflowOutputSegments, child?, setChild, Option.bind_eq_bind,
      Option.bind_eq_some_iff, Option.some_inj, exists_and_left, eq_comm (a := redacted)]
  | list items =>
    simp only [redactWorkflowOutputSegments, child?, setChild, Option.bind_eq_bind,
      Option.bind_eq_some_iff, Option.some_inj]
    constructor
    · rintro ⟨index, hindex, ⟨⟩, hle, child, hchild, part, hpart, rfl⟩
      exact ⟨child, part, ⟨index, hindex, (), hle, hchild⟩, hpart, by rw [hindex, Option.getD_some]⟩
    · rintro ⟨child, part, ⟨index, hindex, ⟨⟩, hle, hchild⟩, hpart, rfl⟩
      exact ⟨index, hindex, (), hle, child, hchild, part, hpart, by rw [hindex, Option.getD_some]⟩
  | _ => simp [redactWorkflowOutputSegments, child?]

theorem mem_texts_of_child (h : child? segment output = some child) (ht : t ∈ child.texts) :
    t ∈ output.texts := by
  cases output with
  | map fields => exact Value.mem_textsFields.2 ⟨_, Value.Fields.mem_of_lookup h, .inr ht⟩
  | list items =>
    simp only [child?, Option.bind_eq_bind, Option.bind_eq_some_iff] at h
    obtain ⟨_, _, _, _, h⟩ := h
    exact Value.mem_textsItems.2 ⟨child, List.mem_of_getElem? h, ht⟩
  | _ => cases h

theorem mem_texts_setChild (h : child? segment output = some child)
    (ht : t ∈ (setChild segment part output).texts) : t ∈ part.texts ∨ t ∈ output.texts := by
  cases output with
  | map fields =>
    rcases Value.Fields.mem_textsFields_set ht with rfl | ht | ht
    · exact .inr (Value.mem_textsFields.2 ⟨_, Value.Fields.mem_of_lookup h, .inl rfl⟩)
    · exact .inl ht
    · exact .inr ht
  | list items =>
    obtain ⟨item, hitem, htext⟩ := Value.mem_textsItems.1 ht
    rcases List.mem_or_eq_of_mem_set hitem with hitem | rfl
    · exact .inr (Value.mem_textsItems.2 ⟨item, hitem, htext⟩)
    · exact .inl htext
  | _ => cases h

theorem isDocument_child (h : child? segment output = some child)
    (houtput : output.isDocument = true) : child.isDocument = true := by
  cases output with
  | map fields => exact Value.isDocumentFields_iff.1 houtput _ (Value.Fields.mem_of_lookup h)
  | list items =>
    simp only [child?, Option.bind_eq_bind, Option.bind_eq_some_iff] at h
    obtain ⟨_, _, _, _, h⟩ := h
    exact Value.isDocumentItems_iff.1 houtput child (List.mem_of_getElem? h)
  | _ => cases h

theorem isDocument_setChild (houtput : output.isDocument = true) (hpart : part.isDocument = true) :
    (setChild segment part output).isDocument = true := by
  cases output with
  | map fields => exact Value.Fields.isDocumentFields_set houtput hpart
  | list items =>
    refine Value.isDocumentItems_iff.2 fun item hitem => ?_
    rcases List.mem_or_eq_of_mem_set hitem with hitem | rfl
    · exact Value.isDocumentItems_iff.1 houtput item hitem
    · exact hpart
  | _ => exact houtput

theorem mem_texts_redactWorkflowOutputSegments
    (h : redactWorkflowOutputSegments segments output = some redacted) (ht : t ∈ redacted.texts) :
    t = redactedWorkflowOutputValue ∨ t ∈ output.texts := by
  induction segments generalizing output redacted with
  | nil =>
    cases h
    exact .inl (List.mem_singleton.1 ht)
  | cons segment segments ih =>
    obtain ⟨child, part, hchild, hpart, rfl⟩ := redactWorkflowOutputSegments_cons.1 h
    rcases mem_texts_setChild hchild ht with ht | ht
    · exact (ih hpart ht).imp_right (mem_texts_of_child hchild)
    · exact .inr ht

theorem isDocument_redactWorkflowOutputSegments
    (h : redactWorkflowOutputSegments segments output = some redacted)
    (houtput : output.isDocument = true) : redacted.isDocument = true := by
  induction segments generalizing output redacted with
  | nil =>
    cases h
    rfl
  | cons segment segments ih =>
    obtain ⟨child, part, hchild, hpart, rfl⟩ := redactWorkflowOutputSegments_cons.1 h
    exact isDocument_setChild houtput (ih hpart (isDocument_child hchild houtput))

/-- What redacting at the segments of a path keeps, redacting the paths one after another does. -/
theorem redactWorkflowOutputPath_induction {motive : Value → Prop}
    (hstep : ∀ path ∈ paths, ∀ segments v v', workflowOutputPathSegments path = some segments →
      redactWorkflowOutputSegments segments v = some v' → motive v → motive v')
    (h : paths.foldlM redactWorkflowOutputPath output = some redacted) (houtput : motive output) :
    motive redacted := by
  induction paths generalizing output with
  | nil =>
    cases h
    exact houtput
  | cons path paths ih =>
    rw [List.foldlM_cons, Option.bind_eq_bind, Option.bind_eq_some_iff] at h
    obtain ⟨next, hnext, h⟩ := h
    refine ih (fun path hpath => hstep path (List.mem_cons_of_mem _ hpath)) h ?_
    rw [redactWorkflowOutputPath, Option.bind_eq_some_iff] at hnext
    obtain ⟨segments, hsegments, hnext⟩ := hnext
    cases segments with
    | nil => cases hnext
    | cons segment segments =>
      exact hstep path List.mem_cons_self _ _ _ hsegments hnext houtput

theorem mem_texts_redactWorkflowOutputPath
    (h : paths.foldlM redactWorkflowOutputPath output = some redacted) :
    ∀ t ∈ redacted.texts, t = redactedWorkflowOutputValue ∨ t ∈ output.texts := by
  refine redactWorkflowOutputPath_induction (motive := fun v => ∀ t ∈ v.texts,
    t = redactedWorkflowOutputValue ∨ t ∈ output.texts) (fun _ _ _ v v' _ hv' ih t ht => ?_) h
    fun t ht => .inr ht
  rcases mem_texts_redactWorkflowOutputSegments hv' ht with rfl | ht
  · exact .inl rfl
  · exact ih t ht

theorem redactedOutput_eq_some (h : redactedOutput metadata paths = some redacted) :
    ∃ output, metadata.lookup "output" = some output ∧
      paths.foldlM redactWorkflowOutputPath output = some redacted := by
  cases houtput : metadata.lookup "output" with
  | none => simp [redactedOutput, houtput] at h
  | some output =>
    cases paths with
    | nil => simp [redactedOutput, houtput] at h
    | cons path paths => exact ⟨output, rfl, by simpa only [redactedOutput, houtput] using h⟩

theorem mem_texts_redactedMetadata (hscope : scope ∈ coreWords)
    (ht : t ∈ Value.textsFields (redactedMetadata metadata output scope)) :
    t ∈ coreWords ∨ t ∈ output.texts ∨ t ∈ Value.textsFields metadata := by
  rcases Value.Fields.mem_textsFields_set ht with rfl | ht | ht
  · exact .inl (by decide)
  · exact .inl (List.mem_singleton.1 ht ▸ hscope)
  rcases Value.Fields.mem_textsFields_set ht with rfl | ht | ht
  · exact .inl (by decide)
  · cases ht
  rcases Value.Fields.mem_textsFields_set ht with rfl | ht | ht
  · exact .inl (by decide)
  · exact .inr (.inl ht)
  · exact .inr (.inr ht)

/-- Redacting the declared paths adds nothing but words of the core. -/
theorem mem_texts_redactSensitiveWorkflowStepResult
    (ht : t ∈ Value.textsFields (redactSensitiveWorkflowStepResult result).metadata) :
    t = redactedWorkflowOutputValue ∨ t ∈ coreWords ∨ t ∈ Value.textsFields result.metadata := by
  rw [redactSensitiveWorkflowStepResult] at ht
  split at ht
  · exact .inr (.inr ht)
  split at ht
  next output houtput =>
    obtain ⟨original, horiginal, houtput⟩ := redactedOutput_eq_some houtput
    have hscope : "paths" ∈ coreWords := by decide
    rcases mem_texts_redactedMetadata hscope ht with ht | ht | ht
    · exact .inr (.inl ht)
    · refine (mem_texts_redactWorkflowOutputPath houtput t ht).imp_right fun ht => .inr ?_
      exact Value.mem_textsFields.2 ⟨_, Value.Fields.mem_of_lookup horiginal, .inr ht⟩
    · exact .inr (.inr ht)
  next =>
    have hscope : "output" ∈ coreWords := by decide
    rcases mem_texts_redactedMetadata hscope ht with ht | ht | ht
    · exact .inr (.inl ht)
    · exact .inl (List.mem_singleton.1 ht)
    · exact .inr (.inr ht)

theorem isDocument_redactedMetadata (hmetadata : Value.isDocumentFields metadata = true)
    (houtput : output.isDocument = true) :
    Value.isDocumentFields (redactedMetadata metadata output scope) = true :=
  Value.Fields.isDocumentFields_set (Value.Fields.isDocumentFields_set
    (Value.Fields.isDocumentFields_set hmetadata houtput) rfl) rfl

theorem isDocument_redactSensitiveWorkflowStepResult
    (h : Value.isDocumentFields result.metadata = true) :
    Value.isDocumentFields (redactSensitiveWorkflowStepResult result).metadata = true := by
  rw [redactSensitiveWorkflowStepResult]
  split
  · exact h
  split
  next output houtput =>
    obtain ⟨original, horiginal, houtput⟩ := redactedOutput_eq_some houtput
    refine isDocument_redactedMetadata h (redactWorkflowOutputPath_induction
      (motive := fun v => v.isDocument = true)
      (fun _ _ _ _ _ _ => isDocument_redactWorkflowOutputSegments) houtput ?_)
    exact Value.isDocumentFields_iff.1 h _ (Value.Fields.mem_of_lookup horiginal)
  next => exact isDocument_redactedMetadata h rfl

end Redaction

/-- What securing a result comes to. -/
inductive Secures (r : StepResult) : Option Plan → StepResult × Option Lease → Prop
  | keeps (plan : Option Plan) (h : r.metadata.lookup "sensitive_output_paths" = none) :
      Secures r plan (r, none)
  | refuses (plan : Option Plan) : Secures r plan (sensitiveOutputContractFailure r, none)
  | fails (plan : Option Plan) : Secures r plan (sensitiveOutputProducerFailure r, none)
  | leases (plan : Plan) (rawPaths : Value) (value : String) (hstatus : r.status = "succeeded")
      (hraw : r.metadata.lookup "sensitive_output_paths" = some rawPaths)
      (hvalue : declaredSecret plan rawPaths r.metadata = some value) :
      Secures r (some plan)
        ({ redactSensitiveWorkflowStepResult r with
            metadata := redactWorkflowSensitiveValue value
              (redactSensitiveWorkflowStepResult r).metadata
            error := "" }, some { plan with value })

/-- Securing a result comes to one of these. -/
theorem secures (r : StepResult) (plan : Option Plan) :
    Secures r plan (secureSensitiveProducerResult r plan) := by
  cases hraw : r.metadata.lookup "sensitive_output_paths" with
  | none =>
    cases plan with
    | none => simpa only [secureSensitiveProducerResult, hraw] using Secures.keeps none hraw
    | some plan =>
      simp only [secureSensitiveProducerResult, hraw]
      split
      · exact .fails _
      · split
        · exact .refuses _
        · exact .keeps _ hraw
  | some rawPaths =>
    cases plan with
    | none => simpa only [secureSensitiveProducerResult, hraw] using Secures.refuses none
    | some plan =>
      simp only [secureSensitiveProducerResult, hraw]
      split
      · exact .fails _
      next hstatus =>
        cases hvalue : declaredSecret plan rawPaths r.metadata with
        | none => exact .refuses _
        | some value => exact .leases plan rawPaths value (not_not.1 hstatus) hraw hvalue

section Secure

variable {r : StepResult} {plan : Option Plan} {out : StepResult × Option Lease} {v : String}
  {rawPaths : Value} {value : String}

theorem redactSensitiveWorkflowStepResult_eq (r : StepResult) :
    ∃ metadata, redactSensitiveWorkflowStepResult r = { r with metadata } := by
  rw [redactSensitiveWorkflowStepResult]
  split
  · exact ⟨r.metadata, rfl⟩
  · split
    · exact ⟨_, rfl⟩
    · exact ⟨_, rfl⟩

/-- A secured result is still the result of its step. -/
theorem Secures.labels_eq (h : Secures r plan out) :
    out.1.labels = r.labels ∧ out.1.id = r.id := by
  cases h with
  | keeps => exact ⟨rfl, rfl⟩
  | refuses => exact ⟨rfl, rfl⟩
  | fails => exact ⟨rfl, rfl⟩
  | leases =>
    obtain ⟨metadata, hmetadata⟩ := redactSensitiveWorkflowStepResult_eq r
    rw [hmetadata]
    exact ⟨rfl, rfl⟩

/-- What is at a path of an output, through maps and lists. -/
def outputAt : List String → Value → Option Value
  | [], v => some v
  | segment :: segments, .map fields => (fields.lookup segment).bind (outputAt segments)
  | segment :: segments, .list items => do
    let index ← atoi segment
    guard (0 ≤ index)
    let child ← items[index.toNat]?
    outputAt segments child
  | _ :: _, _ => none

/-- The texts at the paths of its output that a result declares secret. -/
def declaredTexts (r : StepResult) : List String :=
  match workflowSensitiveOutputPaths r.metadata, r.metadata.lookup "output" with
  | some paths, some output => paths.filterMap fun path =>
    match (workflowOutputPathSegments path).bind (outputAt · output) with
    | some (.str text) => some text
    | _ => none
  | _, _ => []

/-- The result declares the text a secret. -/
def Declares (r : StepResult) (v : String) : Prop := v ∈ declaredTexts r

instance (r : StepResult) : DecidablePred (Declares r) := fun v =>
  inferInstanceAs (Decidable (v ∈ declaredTexts r))

theorem eq_map_str_of_mapM {items : List Value} {texts : List String}
    (h : items.mapM (fun | .str s => some s | _ => none) = some texts) :
    items = texts.map .str := by
  induction items generalizing texts with
  | nil =>
    cases h
    rfl
  | cons item items ih =>
    rw [List.mapM_cons, Option.bind_eq_bind, Option.bind_eq_some_iff] at h
    obtain ⟨text, htext, h⟩ := h
    rw [Option.bind_eq_bind, Option.bind_eq_some_iff] at h
    obtain ⟨rest, hrest, h⟩ := h
    cases h
    cases item with
    | str s =>
      cases htext
      rw [ih hrest, List.map_cons]
    | _ => cases htext

theorem strictSensitiveOutputPaths_eq_some {raw : Value} {paths : List String}
    (h : strictSensitiveOutputPaths raw = some paths) :
    raw = .list (paths.map .str) ∧
      ∀ path ∈ paths, path = trimSpace path ∧ sensitiveOutputPathPattern path = true := by
  cases raw with
  | list items =>
    simp only [strictSensitiveOutputPaths, Option.bind_eq_bind, Option.bind_eq_some_iff] at h
    obtain ⟨texts, htexts, ⟨⟩, hguard, h⟩ := h
    cases h
    have hall := ((Option.guard_eq_some' _).1 hguard).2.2
    refine ⟨congrArg Value.list (eq_map_str_of_mapM htexts), fun path hpath => ?_⟩
    simpa using List.all_eq_true.1 hall path hpath
  | _ => simp [strictSensitiveOutputPaths] at h

/-- A plain name is a path of one segment. -/
theorem workflowOutputPathSegments_of_pattern {path : String} (htrim : path = trimSpace path)
    (hpattern : sensitiveOutputPathPattern path = true) :
    workflowOutputPathSegments path = some [path] := by
  rw [sensitiveOutputPathPattern, Bool.and_eq_true, List.all_eq_true] at hpattern
  obtain ⟨hne, hchars⟩ := hpattern
  have hnotMem (c : Char)
      (hc : (isLower c || isUpper c || isDigit c || c = '_' || c = '-') = false) :
      c ∉ path.toList := fun hmem => by simp [hchars c hmem] at hc
  have hslash : hasPrefix path "/" = false := by
    rw [hasPrefix, Bool.eq_false_iff, ne_eq, List.isPrefixOf_iff_prefix]
    exact fun hpre => hnotMem '/' (by decide) (hpre.subset (by decide))
  have houtput : hasPrefix path "output." = false := by
    rw [hasPrefix, Bool.eq_false_iff, ne_eq, List.isPrefixOf_iff_prefix]
    exact fun hpre => hnotMem '.' (by decide) (hpre.subset (by decide))
  have hsplit : split path '.' = [path] := by
    rw [split, List.splitOn_eq_singleton (hnotMem '.' (by decide)), List.map_singleton,
      String.ofList_toList]
  have hempty : path ≠ "" := by simpa using hne
  have hsegment : [path].any (trimSpace · = "") = false := by simp [← htrim, hempty]
  simp [workflowOutputPathSegments, ← htrim, hslash, houtput, if_neg hempty, hsplit, hsegment]

/-- The declared secret is at the planned path, and nothing else is declared. -/
theorem declaredSecret_eq_some {plan : Plan}
    (h : declaredSecret plan rawPaths r.metadata = some value) :
    strictSensitiveOutputPaths rawPaths = some [plan.sourcePath] ∧ value ≠ "" ∧
      ∃ output, r.metadata.lookup "output" = some (.map output) ∧
        output.lookup plan.sourcePath = some (.str value) := by
  simp only [declaredSecret, Option.bind_eq_bind, Option.bind_eq_some_iff] at h
  obtain ⟨strict, hstrict, ⟨⟩, hpaths, output, houtput, h⟩ := h
  rw [(Option.guard_eq_some' _).1 hpaths] at hstrict
  cases output with
  | map output =>
    simp only [Option.bind_eq_some_iff] at h
    obtain ⟨found, hfound, h⟩ := h
    cases found with
    | str text =>
      simp only [Option.bind_eq_some_iff] at h
      obtain ⟨⟨⟩, hne, h⟩ := h
      cases h
      exact ⟨hstrict, (Option.guard_eq_some' _).1 hne, output, houtput, hfound⟩
    | _ => cases h
  | _ => cases h

/-- The secret of a lease is the only one that its result declares. -/
theorem Declares.eq_of_declaredSecret {plan : Plan} (h : Declares r v)
    (hraw : r.metadata.lookup "sensitive_output_paths" = some rawPaths)
    (hvalue : declaredSecret plan rawPaths r.metadata = some value) : v = value := by
  obtain ⟨hstrict, -, output, houtput, hfound⟩ := declaredSecret_eq_some hvalue
  obtain ⟨rfl, hpath⟩ := strictSensitiveOutputPaths_eq_some hstrict
  obtain ⟨htrim, hpattern⟩ := hpath _ (List.mem_singleton_self _)
  have hname : plan.sourcePath ≠ "" := by
    intro hempty
    simp [sensitiveOutputPathPattern, hempty] at hpattern
  have hdeclared : workflowSensitiveOutputPaths r.metadata = some [plan.sourcePath] := by
    simp [workflowSensitiveOutputPaths, hraw, ← htrim, hname]
  have hsegments := workflowOutputPathSegments_of_pattern htrim hpattern
  simpa [Declares, declaredTexts, hdeclared, houtput, hsegments, outputAt, hfound] using h

/-- What a text may be that is not from a reply. -/
def FromCore (r : StepResult) (t : String) : Prop :=
  t ∈ r.labels ∨ t ∈ coreWords ∨ t = redactedWorkflowOutputValue

theorem FromCore.free {t : String} (h : FromCore r t) (hv : Redactable v)
    (hwords : Free v coreWords) (hlabels : Free v r.labels) : contains t v = false := by
  rcases h with h | h | rfl
  · exact hlabels t h
  · exact hwords t h
  · exact hv.setApart.contains

/-- A failure of the core has no text of the reply. -/
theorem fromCore_failure {t error : String} {metadata : Value.Fields} (herror : error ∈ coreWords)
    (hmetadata : ∀ t ∈ Value.textsFields metadata,
      t ∈ coreWords ∨ t = redactedWorkflowOutputValue)
    (h : t ∈ ({ r with status := "failed", error, metadata } : StepResult).texts) :
    FromCore r t := by
  rcases List.mem_append.1 h with h | h
  · exact .inl h
  · rcases List.mem_cons.1 h with rfl | h
    · exact .inr (.inl failed_mem_coreWords)
    · rcases List.mem_cons.1 h with rfl | h
      · exact .inr (.inl herror)
      · exact .inr (hmetadata t h)

/-- Nothing of a secret is left in the metadata of the result that is recorded with a lease. -/
theorem free_redactWorkflowSensitiveValue {metadata : Value.Fields} (hv : Redactable v)
    (hvalue : value ≠ "") (hdocument : Value.isDocumentFields metadata = true)
    (h : v = value ∨ Free v (Value.textsFields metadata)) :
    Free v (Value.textsFields (redactWorkflowSensitiveValue value metadata)) := by
  intro t ht
  rw [redactWorkflowSensitiveValue, Value.textsFields_mapTexts _ hdocument] at ht
  obtain ⟨text, htext, rfl⟩ := List.mem_map.1 ht
  rcases h with rfl | h
  · exact contains_replaceAll_self hv.setApart
  · exact contains_replaceAll hv.setApart hvalue (h text htext)

/-- What is recorded has no declared secret, and no text that was not in the result. -/
theorem Secures.free (h : Secures r plan out) (hv : Redactable v) (hwords : Free v coreWords)
    (hlabels : Free v r.labels)
    (hdocument : plan.isSome = true → Value.isDocumentFields r.metadata = true)
    (hr : Declares r v ∨ Free v r.texts) : Free v out.1.texts := by
  cases h with
  | keeps plan hraw =>
    refine hr.resolve_left fun h => ?_
    simp [Declares, declaredTexts, workflowSensitiveOutputPaths, hraw] at h
  | refuses =>
    exact fun t ht => (fromCore_failure (by decide) (by decide) ht).free hv hwords hlabels
  | fails =>
    exact fun t ht => (fromCore_failure (by decide) (by decide) ht).free hv hwords hlabels
  | leases plan rawPaths value hstatus hraw hvalue =>
    have hdoc := isDocument_redactSensitiveWorkflowStepResult (hdocument rfl)
    have hne := (declaredSecret_eq_some hvalue).2.1
    obtain ⟨metadata, hmetadata⟩ := redactSensitiveWorkflowStepResult_eq r
    have hcases : v = value ∨
        Free v (Value.textsFields (redactSensitiveWorkflowStepResult r).metadata) := by
      refine hr.imp (fun h => h.eq_of_declaredSecret hraw hvalue) fun h t ht => ?_
      rcases mem_texts_redactSensitiveWorkflowStepResult ht with rfl | ht | ht
      · exact hv.setApart.contains
      · exact hwords t ht
      · exact h t (List.mem_append_right _ (List.mem_cons_of_mem _ (List.mem_cons_of_mem _ ht)))
    have hfree := free_redactWorkflowSensitiveValue hv hne hdoc hcases
    intro t ht
    rcases List.mem_append.1 ht with ht | ht
    · refine hlabels t ?_
      rw [hmetadata] at ht
      exact ht
    · rcases List.mem_cons.1 ht with ht | ht
      · rw [hmetadata] at ht
        rw [ht, hstatus]
        exact hwords _ succeeded_mem_coreWords
      · rcases List.mem_cons.1 ht with ht | ht
        · rw [ht]
          exact hwords "" empty_mem_coreWords
        · exact hfree t ht

end Secure

/-! ## What is executed -/

section Execute

variable {cm : CaseMap} {fmt : Fmt} {env : StepEnv} {workflow : ManifestReference}
  {step : WorkflowStepSpec} {context : Context} {security : Security} {lease : Lease} {plan : Plan}
  {r : StepResult} {operation : String}

/-- The text is empty, or the id of a result that failed. -/
def Names (results : List StepResult) (failed : String) : Prop :=
  failed = "" ∨ ∃ r ∈ results, r.status = "failed" ∧ r.id = failed

theorem names_iterate {env : RunEnv} {index : ℕ} {items : List Value}
    {out : List StepResult × String}
    (h : iterate cm fmt env workflow step context index items = some out) : Names out.1 out.2 := by
  induction items generalizing index out with
  | nil =>
    cases h
    exact .inl rfl
  | cons item items ih =>
    rw [iterate, Option.bind_eq_bind, Option.bind_eq_some_iff] at h
    obtain ⟨⟨result, requests⟩, -, h⟩ := h
    dsimp only at h
    split at h
    next hfailed =>
      cases h
      exact .inr ⟨_, List.mem_singleton_self _, hfailed, rfl⟩
    · obtain ⟨rest, hrest, h⟩ := Option.bind_eq_some_iff.1 h
      cases h
      refine (ih hrest).imp_right ?_
      exact fun ⟨r, hr, h⟩ => ⟨r, List.mem_cons_of_mem _ hr, h⟩

theorem names_runStepIterations {env : RunEnv} {out : List StepResult × String × List Request}
    (h : runStepIterations cm fmt env workflow step context security = some out) :
    Names out.1 out.2.1 := by
  have hsingle {r : StepResult} (h : r.status = "failed") : Names [r] r.id :=
    .inr ⟨r, List.mem_singleton_self r, h, rfl⟩
  rw [runStepIterations] at h
  split at h
  next haccepts =>
    -- The step is refused the lease, and so is not run at all.
    rw [executeWorkflowStep, if_pos haccepts] at h
    cases h
    exact hsingle rfl
  split at h
  · obtain ⟨⟨result, requests⟩, -, h⟩ := Option.bind_eq_some_iff.1 h
    cases h
    dsimp only
    split
    next hstatus => exact hsingle hstatus
    · exact .inl rfl
  dsimp only at h
  split at h
  · cases h
    exact hsingle rfl
  split at h
  · cases h
    exact hsingle rfl
  · obtain ⟨iterated, hiterated, h⟩ := Option.bind_eq_some_iff.1 h
    cases h
    exact names_iterate hiterated

/-- A result of the sink: what it takes from the reply is whether it succeeded. -/
structure SinkResult (cm : CaseMap) (step : WorkflowStepSpec) (r : StepResult) : Prop where
  id : r.id = normalizeWorkflowStepId cm step.id
  operation : r.operation = normalizeWorkflowStepOperation cm step
  words : r.status ∈ coreWords ∧ r.error ∈ coreWords
  metadata : ∀ t ∈ Value.textsFields r.metadata, t ∈ coreWords
  undeclared : r.metadata.lookup "sensitive_output_paths" = none

theorem sinkError_mem_coreWords : errSensitiveOutputSink ∈ coreWords := by decide

theorem SinkResult.initial (cm : CaseMap) (step : WorkflowStepSpec) :
    SinkResult cm step (initialResult cm step) := by
  refine ⟨?_, ?_, ⟨failed_mem_coreWords, empty_mem_coreWords⟩, fun t ht => ?_, ?_⟩
  · simp only [initialResult]
  · simp only [initialResult]
  · simp [initialResult, Value.textsFields] at ht
  · simp [initialResult]

theorem SinkResult.blank (cm : CaseMap) (step : WorkflowStepSpec) (resolved : Resolved) :
    SinkResult cm step (blankResult cm step resolved) := by
  have h := SinkResult.initial cm step
  exact ⟨h.id, operation_blankResult cm step resolved, h.words, h.metadata, h.undeclared⟩

theorem SinkResult.fromCore (h : SinkResult cm step r) {t : String} (ht : t ∈ r.texts) :
    FromCore r t := by
  rcases List.mem_append.1 ht with ht | ht
  · exact .inl ht
  · rcases List.mem_cons.1 ht with rfl | ht
    · exact .inr (.inl h.words.1)
    · rcases List.mem_cons.1 ht with rfl | ht
      · exact .inr (.inl h.words.2)
      · exact .inr (.inl (h.metadata t ht))

theorem SinkResult.withError (h : SinkResult cm step r)
    {integrationInstance integrationType : Option ManifestReference} {attempts : ℕ} :
    SinkResult cm step { r with
      error := errSensitiveOutputSink, integrationInstance, integrationType, attempts } :=
  ⟨h.id, h.operation, ⟨h.words.1, sinkError_mem_coreWords⟩, h.metadata, h.undeclared⟩

/-- What an attempt of a sink comes to, which is of the words of the core. -/
theorem attemptOutcome_sink (hoperation : operation ≠ workflowDispatchOperation)
    (request : Request) (attempt : ℕ) :
    let o := attemptOutcome cm fmt env { inputLease := some lease } request operation attempt
    o = .unanswered errSensitiveOutputSink ∨ o = .refused errSensitiveOutputSink [] ∨
      o = .succeeded sensitiveOutputSinkReceipt := by
  simp only [attemptOutcome, if_neg hoperation, Option.isSome_some, if_true, Security.error]
  split
  · exact .inl rfl
  · split
    · exact .inr (.inr rfl)
    · exact .inr (.inl rfl)

theorem SinkResult.change (h : SinkResult cm step r) {o : Outcome}
    (ho : o = .unanswered errSensitiveOutputSink ∨ o = .refused errSensitiveOutputSink [] ∨
      o = .succeeded sensitiveOutputSinkReceipt) : SinkResult cm step (o.change true r) := by
  rcases ho with rfl | rfl | rfl
  · exact h.withError
  · refine ⟨h.id, h.operation, ⟨failed_mem_coreWords, sinkError_mem_coreWords⟩, ?_, rfl⟩
    intro t ht
    simp [Outcome.change, Value.textsFields] at ht
  · have hundeclared : sensitiveOutputSinkReceipt.lookup "sensitive_output_paths" = none := by
      decide
    refine ⟨h.id, h.operation, ⟨succeeded_mem_coreWords, empty_mem_coreWords⟩, ?_, hundeclared⟩
    intro t ht
    simp only [Outcome.change, sensitiveOutputSinkReceipt, Value.textsFields, Value.texts,
      List.mem_cons, List.cons_append, List.nil_append, List.not_mem_nil, or_false] at ht
    rcases ht with rfl | rfl | rfl | rfl | rfl <;> decide

theorem SinkResult.lastResult (h : SinkResult cm step r) {o : ℕ → Outcome}
    {sleep : ℕ → Option String} {n k : ℕ}
    (ho : ∀ i, o i = .unanswered errSensitiveOutputSink ∨ o i = .refused errSensitiveOutputSink [] ∨
      o i = .succeeded sensitiveOutputSinkReceipt) :
    SinkResult cm step (lastResult o sleep { inputLease := some lease } true r n k) := by
  have hresult : SinkResult cm step (resultAfter o true r k) :=
    resultAfter_of h (fun r n h => ⟨h.id, h.operation, h.words, h.metadata, h.undeclared⟩)
      (fun i r h => h.change (ho i)) k
  rw [Runs.lastResult]
  cases hinterruption : interruption o sleep { inputLease := some lease } n k with
  | none => exact hresult
  | some e =>
    -- A wait that was cut short is reported by the one error that a sink has.
    rw [interruption] at hinterruption
    split at hinterruption
    · cases hinterruption
    · obtain ⟨_, -, rfl⟩ := Option.map_eq_some_iff.1 hinterruption
      exact hresult.withError

/-- The kinds of steps that the core executes itself are not that of an integration. -/
theorem kind_of_equalFold {kind : String} (h : equalFold cm kind "integration" = true) :
    toLower cm kind ≠ "yggdrasil" ∧ toLower cm kind ≠ "product" := by
  have hlength : kind.toList.length = 11 := by
    simpa using congrArg List.length (of_decide_eq_true h)
  have hlower (other : String) (hother : other.toList.length ≠ 11) : toLower cm kind ≠ other := by
    rintro rfl
    exact hother (by rw [toLower, String.toList_ofList, List.length_map, hlength])
  exact ⟨hlower _ (by decide), hlower _ (by decide)⟩

/-- The input of a sink and what its handler is asked are for the pinned integration. -/
structure ForSink (cm : CaseMap) (step : WorkflowStepSpec) (lease : Lease) (request : Request) :
    Prop where
  accepts : lease.accepts cm step = true
  stepId : request.stepId = lease.sinkStepId
  pinned : ∃ integrationInstance integrationType,
    request.integrationInstance = some integrationInstance ∧
    request.integrationType = some integrationType ∧
    lease.matchesResolvedSink cm integrationInstance integrationType = true

/-- A step with a lease records no answer, and fails unless the pinned integration is asked. -/
structure SinkRun (cm : CaseMap) (step : WorkflowStepSpec) (lease : Lease)
    (out : StepResult × List Request) : Prop where
  result : SinkResult cm step out.1
  requests : ∀ request ∈ out.2, ForSink cm step lease request
  unasked : out.2 = [] → out.1.status = "failed"

variable (cm fmt env workflow context) in
/-- A step that takes its lease does not panic. -/
theorem executeWorkflowStep_sink (haccepts : lease.accepts cm step = true) :
    ∃ out, executeWorkflowStep cm fmt env workflow step context { inputLease := some lease } =
      some out ∧ SinkRun cm step lease out := by
  have hstep := haccepts
  simp only [Lease.accepts, isSinkStep, Bool.and_eq_true, decide_eq_true_eq] at hstep
  have hinitial := SinkResult.initial cm step
  have hexecuted := executed cm fmt env workflow step context { inputLease := some lease }
  generalize executeWorkflowStep cm fmt env workflow step context { inputLease := some lease } =
    out at hexecuted
  cases hexecuted with
  | failed herror =>
    rw [herror rfl hstep.2.1.2]
    exact ⟨_, rfl, hinitial.withError, nofun, fun _ => rfl⟩
  | skipped hcondition => exact absurd hstep.2.1.2 hcondition
  | core hkind => exact absurd hkind (not_or.2 (kind_of_equalFold hstep.2.1.1.1.1))
  | @attempted input use resolved h =>
    have hoperation : (blankResult cm step resolved).operation ≠ workflowDispatchOperation := by
      rw [operation_blankResult, hstep.2.1.1.1.2]
      decide
    have hpinned := h.pinned
    simp only [Option.any_some, Bool.or_eq_false_iff, Bool.not_eq_false'] at hpinned
    obtain ⟨k, hlast, heq⟩ := attemptsFrom_one cm fmt env { inputLease := some lease }
      (stepRequest cm workflow step { inputLease := some lease } input resolved)
      (fun hnil => hoperation hnil.2) (workflowStepAttempts_pos step)
    rw [heq]
    refine ⟨_, rfl, ?_, fun request hrequest => ?_, fun hnil => ?_⟩
    · have hclears : clears { inputLease := some lease } (blankResult cm step resolved).operation =
          true := Bool.and_eq_true_iff.2 ⟨decide_eq_true hoperation, rfl⟩
      rw [hclears]
      exact (SinkResult.blank cm step resolved).lastResult (attemptOutcome_sink hoperation _)
    · rw [(List.mem_replicate.1 hrequest).2]
      exact ⟨haccepts, hstep.1, _, _, rfl, rfl, hpinned.2⟩
    · exact absurd ((List.replicate_eq_nil_iff _).1 hnil) hlast.pos.ne'

/-- What the adapter answers with is a document. -/
def StepEnv.Documents (env : StepEnv) : Prop :=
  ∀ attempt request reply, env.adapter attempt request = .ok reply →
    reply.output.isDocument = true ∧ Value.isDocumentFields reply.metadata = true

theorem executeIntegration_eq_ok {policy : Policy} {request : Request}
    {reply : Except String AdapterReply} {response : AdapterReply}
    (h : executeIntegration fmt policy request reply = .ok response) :
    ∃ answer, reply = .ok answer ∧ response.output = answer.output ∧
      response.metadata = answer.metadata := by
  rw [executeIntegration, Check.bind_eq_ok] at h
  obtain ⟨answer, hanswer, h⟩ := h
  refine ⟨answer, Check.mapError_eq_ok.1 hanswer, ?_⟩
  split at h
  · cases h
  · rw [Check.unit_bind_eq_ok, Check.unit_bind_eq_ok] at h
    obtain ⟨-, -, h⟩ := h
    dsimp only at h
    split at h
    · cases h
    · cases h
      exact ⟨rfl, rfl⟩

theorem isDocumentFields_mergeStringAnyMaps {base extra : Value.Fields}
    (hbase : Value.isDocumentFields base = true) (hextra : Value.isDocumentFields extra = true) :
    Value.isDocumentFields (mergeStringAnyMaps base extra) = true := by
  induction extra generalizing base with
  | nil => exact hbase
  | cons entry extra ih =>
    rw [Value.isDocumentFields, Bool.and_eq_true] at hextra
    exact ih (Value.Fields.isDocumentFields_set hbase hextra.1) hextra.2

theorem isDocument_attemptOutcome (henv : env.Documents)
    (hoperation : operation ≠ workflowDispatchOperation) (request : Request) (attempt : ℕ) :
    Value.isDocumentFields (attemptOutcome cm fmt env { producerPlan := some plan } request
      operation attempt).metadata = true := by
  simp only [attemptOutcome, if_neg hoperation, Option.isSome_none, Bool.false_eq_true, if_false]
  split
  · rfl
  next response hresponse =>
    obtain ⟨answer, hanswer, houtput, hmetadata⟩ := executeIntegration_eq_ok hresponse
    obtain ⟨hdocument, hfields⟩ := henv _ _ _ hanswer
    rw [← houtput] at hdocument
    rw [← hmetadata] at hfields
    have hmerged : Value.isDocumentFields (mergeStringAnyMaps response.metadata
        [("integration_status", .str response.status), ("output", response.output)]) = true :=
      isDocumentFields_mergeStringAnyMaps hfields (by
        simp [Value.isDocumentFields, Value.isDocument, hdocument])
    split
    · exact hmerged
    · exact hmerged

variable (cm fmt env workflow context plan) in
/-- A planned producer does not panic, and comes back with a document. -/
theorem executeWorkflowStep_producer (hproducer : isProducerStep cm step = true) :
    ∃ out, executeWorkflowStep cm fmt env workflow step context { producerPlan := some plan } =
      some out ∧ (env.Documents → Value.isDocumentFields out.1.metadata = true) := by
  simp only [isProducerStep, Bool.and_eq_true, decide_eq_true_eq] at hproducer
  obtain ⟨⟨⟨⟨⟨⟨hkind, -⟩, hoperation⟩, -⟩, -⟩, hcondition⟩, -⟩ := hproducer
  have hexecuted := executed cm fmt env workflow step context { producerPlan := some plan }
  generalize executeWorkflowStep cm fmt env workflow step context { producerPlan := some plan } =
    out at hexecuted
  cases hexecuted with
  | failed herror => exact ⟨_, rfl, fun _ => rfl⟩
  | skipped hblank => exact absurd hcondition hblank
  | core hcore => exact absurd hcore (not_or.2 (kind_of_equalFold hkind))
  | @attempted input use resolved h =>
    have hblank : Value.isDocumentFields (blankResult cm step resolved).metadata = true := rfl
    rw [← operation_blankResult cm step resolved] at hoperation
    generalize blankResult cm step resolved = blank at hoperation hblank ⊢
    obtain ⟨k, -, heq⟩ := attemptsFrom_one cm fmt env { producerPlan := some plan }
      (stepRequest cm workflow step { producerPlan := some plan } input resolved)
      (fun hnil => hoperation hnil.2) (workflowStepAttempts_pos step)
    refine ⟨_, heq, fun henv => ?_⟩
    exact metadata_resultAfter (P := fun m => Value.isDocumentFields m = true) hblank
      (isDocument_attemptOutcome henv hoperation _) k

end Execute

/-! ## What is planned -/

section Plan

variable {cm : CaseMap} {orderedSteps : List WorkflowStepSpec} {index : ℕ} {plan : Plan}

/-- A plan is for a step and the one after it. -/
structure Planned (cm : CaseMap) (orderedSteps : List WorkflowStepSpec) (index : ℕ)
    (plan : Plan) : Prop where
  producer : ∃ step, orderedSteps[index]? = some step ∧ isProducerStep cm step = true
  sink : ∃ step, orderedSteps[index + 1]? = some step ∧ isSinkStep cm step = true ∧
    normalizeWorkflowStepId cm step.id = plan.sinkStepId
  named : plan.sinkStepId ≠ ""

theorem planned_of_deriveSensitiveOutputPlan
    (h : deriveSensitiveOutputPlan cm orderedSteps index = some plan) :
    Planned cm orderedSteps index plan := by
  simp only [deriveSensitiveOutputPlan, Option.bind_eq_bind, Option.bind_eq_some_iff] at h
  obtain ⟨producer, hproducer, sink, hsink, ⟨⟩, hsteps, ⟨⟩, -, ⟨⟩, -, secretId, -, ⟨⟩, -,
    rawTemplate, -, sourcePath, -, ⟨⟩, -, h⟩ := h
  rw [Option.some_inj] at h
  subst h
  obtain ⟨-, hnamed, hisProducer, hisSink⟩ := (Option.guard_eq_some' _).1 hsteps
  exact ⟨⟨producer, hproducer, hisProducer⟩, ⟨sink, hsink, hisSink, rfl⟩, hnamed⟩

theorem planned_of_authorizeSensitiveOutputPlan {env : RunEnv} {context : Context}
    (h : authorizeSensitiveOutputPlan cm env orderedSteps index context = some plan) :
    Planned cm orderedSteps index plan := by
  simp only [authorizeSensitiveOutputPlan, Option.bind_eq_bind, Option.bind_eq_some_iff] at h
  obtain ⟨derived, hderived, sink, -, ⟨⟩, -, resolved, -, ⟨⟩, -, h⟩ := h
  cases h
  obtain ⟨hproducer, hsink, hnamed⟩ := planned_of_deriveSensitiveOutputPlan hderived
  exact ⟨hproducer, hsink, hnamed⟩

theorem Planned.accepts (h : Planned cm orderedSteps index plan) (value : String) :
    ∃ step, orderedSteps[index + 1]? = some step ∧
      ({ plan with value } : Lease).accepts cm step = true := by
  obtain ⟨step, hstep, hsink, hid⟩ := h.sink
  refine ⟨step, hstep, ?_⟩
  rw [Lease.accepts, Bool.and_eq_true, decide_eq_true_eq]
  exact ⟨hid, hsink⟩

end Plan

end Yggdrasil.Runs
