import Yggdrasil.Runs.Secrecy

/-!
# What redaction removes

With a lease, the secret is replaced by a marker in all keys and strings of the metadata that is
recorded. Of the results of other steps, what is at the declared paths of the output is replaced.
-/

namespace Yggdrasil.Runs

open Text

/-! ## The secret of a lease -/

/-- Replacing the secret by the marker leaves it in no text. -/
def Erasable (v : String) : Prop :=
  ∀ t, contains (replaceAll t v redactedWorkflowOutputValue) v = false

/-- Whatever it is leased from, the secret is in no text of the metadata that is recorded. -/
def Erased (v : String) : Prop :=
  ∀ (r : StepResult) (plan : Option Plan) (safe : StepResult) (lease : Lease),
    Value.isDocumentFields r.metadata = true →
    secureSensitiveProducerResult r plan = (safe, some lease) → lease.value = v →
    Free v (Value.textsFields safe.metadata)

namespace Sample

/-- The secret is under `key`. -/
def keyPlan : Plan := ⟨"issue", "store", "key", sensitiveOutputSinkInputPath, "", 0, "", 0⟩

/-- A result with the secret `v`, and the text `t` beside it. -/
def issued (v t : String) : StepResult where
  id := "issue"
  kind := "integration"
  operation := "issue_key"
  capability := "issue_key"
  status := "succeeded"
  metadata := [("output", .map [("key", .str v), ("note", .str t)]),
    ("sensitive_output_paths", .list [.str "key"])]

end Sample

variable {v : String}

theorem erased_of_erasable (h : Erasable v) : Erased v := by
  rintro r plan safe lease hdocument hsecure rfl t ht
  have hsecures := secures r plan
  rw [hsecure] at hsecures
  cases hsecures
  rw [redactWorkflowSensitiveValue,
    Value.textsFields_mapTexts _ (isDocument_redactSensitiveWorkflowStepResult hdocument)] at ht
  obtain ⟨text, -, rfl⟩ := List.mem_map.1 ht
  exact h text

theorem erasable_of_erased (hv : v ≠ "") (h : Erased v) : Erasable v := by
  intro t
  have hpaths : strictSensitiveOutputPaths (.list [.str "key"]) = some ["key"] := by decide +kernel
  have hsecret : declaredSecret Sample.keyPlan (.list [.str "key"]) (Sample.issued v t).metadata =
      some v := by
    rw [declaredSecret, hpaths]
    simp [Sample.keyPlan, Sample.issued, hv, guard]
  have hraw : (Sample.issued v t).metadata.lookup "sensitive_output_paths" =
      some (.list [.str "key"]) := rfl
  have hdocument : Value.isDocumentFields
      (redactSensitiveWorkflowStepResult (Sample.issued v t)).metadata = true :=
    isDocument_redactSensitiveWorkflowStepResult rfl
  refine h (Sample.issued v t) (some Sample.keyPlan) _ { Sample.keyPlan with value := v } rfl
    (by simp only [secureSensitiveProducerResult, hraw, hsecret]; rfl) rfl _ ?_
  rw [redactWorkflowSensitiveValue, Value.textsFields_mapTexts _ hdocument]
  refine List.mem_map_of_mem ?_
  change t ∈ Value.textsFields (redactedMetadata (Sample.issued v t).metadata
    (.map [("key", .str redactedWorkflowOutputValue), ("note", .str t)]) "paths")
  simp [redactedMetadata, Value.Fields.set, Value.textsFields, Value.texts]

/-- One pass of replacing a secret leaves it in no text exactly when it cannot come back. -/
theorem erasable_iff (hv : v ≠ "") :
    Erasable v ↔ ¬ Rejoins v.toList redactedWorkflowOutputValue.toList := by
  rw [← exists_infix_replaceFrom_iff (by simpa using hv), not_exists]
  refine ⟨fun h text => ?_, fun h t => ?_⟩
  · have htext := h (.ofList text)
    rwa [contains, decide_eq_false_iff_not, replaceAll, if_neg hv, String.toList_ofList,
      String.toList_ofList] at htext
  · rw [contains, decide_eq_false_iff_not, replaceAll, if_neg hv, String.toList_ofList]
    exact h t.toList

/-- Nothing of a secret is left, whatever result it is leased from, exactly when it cannot come back
    with the marker. -/
theorem erased_iff (hv : v ≠ "") :
    Erased v ↔ ¬ Rejoins v.toList redactedWorkflowOutputValue.toList :=
  ⟨fun h => (erasable_iff hv).1 (erasable_of_erased hv h),
    fun h => erased_of_erasable ((erasable_iff hv).2 h)⟩

/-- Two secrets are erased, and three come back: inside the marker, after and before it. -/
theorem erased_iff_word : Erased "s3cret" ∧ Erased "[[" ∧
    ¬ Erased "RED" ∧ ¬ Erased "]x" ∧ ¬ Erased "x[" :=
  ⟨(erased_iff (by decide)).2 (by decide +kernel), (erased_iff (by decide)).2 (by decide +kernel),
    fun h => (erased_iff (by decide)).1 h (by decide +kernel),
    fun h => (erased_iff (by decide)).1 h (by decide +kernel),
    fun h => (erased_iff (by decide)).1 h (by decide +kernel)⟩

/-- Every secret is erased. -/
def AllErased : Prop := ∀ v ≠ "", Erased v

/-- The secret `RED` is a part of the marker that takes its place. -/
theorem not_allErased : ¬ AllErased := by
  intro h
  have herasable : Erasable "RED" := erasable_of_erased (by decide) (h "RED" (by decide))
  exact (erasable_iff (by decide)).1 herasable (by decide +kernel)

/-! ## Pointers -/

/-- A segment of a pointer, escaped. -/
def escape : List Char → List Char
  | [] => []
  | '~' :: rest => '~' :: '0' :: escape rest
  | '/' :: rest => '~' :: '1' :: escape rest
  | c :: rest => c :: escape rest

theorem decode_escape (segment : List Char) :
    decodeWorkflowJSONPointerSegment (escape segment) = some segment := by
  fun_induction escape segment with
  | case1 => rfl
  | case2 rest ih => simp [decodeWorkflowJSONPointerSegment, ih]
  | case3 rest ih => simp [decodeWorkflowJSONPointerSegment, ih]
  | case4 c rest htilde hslash ih =>
    rw [decodeWorkflowJSONPointerSegment, ih]
    · rfl
    all_goals grind

/-- The segments that can be decoded are those that are escaped, each to what it was. -/
theorem decode_eq_some_iff {text segment : List Char} (htext : '/' ∉ text) :
    decodeWorkflowJSONPointerSegment text = some segment ↔ text = escape segment := by
  refine ⟨fun h => ?_, fun h => h ▸ decode_escape segment⟩
  fun_induction decodeWorkflowJSONPointerSegment text generalizing segment with
  | case1 =>
    cases h
    rfl
  | case2 rest ih | case3 rest ih =>
    obtain ⟨segment, hsegment, rfl⟩ := Option.map_eq_some_iff.1 h
    rw [escape, ← ih (by grind) hsegment]
  | case4 => cases h
  | case5 c rest _ _ htilde ih =>
    obtain ⟨segment, hsegment, rfl⟩ := Option.map_eq_some_iff.1 h
    rw [escape, ← ih (by grind) hsegment]
    · grind
    · grind

/-! ## The declared paths -/

/-- The segments name the same part of a value. -/
def SamePart (s s' : String) : Value → Prop
  | .list _ => atoi s = atoi s'
  | _ => s = s'

/-- The ways that the segments take through a value part, as far as the first one leads. -/
def Parted : List String → List String → Value → Prop
  | q :: qs, s :: ss, v =>
    ¬ SamePart q s v ∨ ∀ child, child? q v = some child → Parted qs ss child
  | _, _, _ => False

/-- Nothing but the marker is at the end of the segments. -/
def OnlyMarker (ss : List String) (v : Value) : Prop :=
  ∀ w, outputAt ss v = some w → w = .str redactedWorkflowOutputValue

section Paths

variable {s q rest : String} {ss qs rs paths : List String} {output redacted part child : Value}

theorem outputAt_cons : outputAt (s :: ss) output = (child? s output).bind (outputAt ss) := by
  cases output with
  | list items => simp [outputAt, child?, Option.bind_assoc]
  | _ => rfl

theorem child?_of_samePart (h : SamePart s q output) : child? q output = child? s output := by
  cases output with
  | list items =>
    rw [SamePart] at h
    simp only [child?, h]
  | _ => rw [h]

theorem samePart_setChild : SamePart s q (setChild rest part output) ↔ SamePart s q output := by
  cases output <;> rfl

theorem child?_setChild (hchild : child? s output = some child) (h : SamePart s q output) :
    child? q (setChild s part output) = some part := by
  rw [child?_of_samePart (samePart_setChild.2 h)]
  cases output with
  | map fields => exact Value.Fields.lookup_set_self ..
  | list items =>
    simp only [child?, setChild, Option.bind_eq_bind, Option.bind_eq_some_iff] at hchild ⊢
    obtain ⟨index, hindex, ⟨⟩, hle, hchild⟩ := hchild
    refine ⟨index, hindex, (), hle, ?_⟩
    rw [hindex, Option.getD_some, List.getElem?_set_self (List.getElem?_eq_some_iff.1 hchild).1]
  | _ => cases hchild

theorem child?_setChild_of_not_samePart (hchild : child? s output = some child)
    (h : ¬ SamePart s q output) : child? q (setChild s part output) = child? q output := by
  cases output with
  | map fields => exact Value.Fields.lookup_set_of_ne _ _ (Ne.symm h)
  | list items =>
    simp only [child?, Option.bind_eq_bind, Option.bind_eq_some_iff] at hchild
    obtain ⟨index, hindex, ⟨⟩, hle, hchild⟩ := hchild
    have hle := (Option.guard_eq_some' _).1 hle
    rw [SamePart, hindex] at h
    cases hq : atoi q with
    | none => simp [child?, setChild, hq]
    | some index' =>
      rw [hq, Option.some_inj] at h
      by_cases hle' : 0 ≤ index'
      · have hne : index.toNat ≠ index'.toNat := by omega
        simp [child?, setChild, hindex, hq, hle', List.getElem?_set_ne hne]
      · simp [child?, hq, hle', guard, setChild]
  | _ => cases hchild

theorem outputAt_redacted (h : redactWorkflowOutputSegments ss output = some redacted) :
    outputAt ss redacted = some (.str redactedWorkflowOutputValue) := by
  induction ss generalizing output redacted with
  | nil =>
    cases h
    rfl
  | cons s ss ih =>
    obtain ⟨child, part, hchild, hpart, rfl⟩ := redactWorkflowOutputSegments_cons.1 h
    have hself : SamePart s s output := by cases output <;> rfl
    rw [outputAt_cons, child?_setChild hchild hself, Option.bind_some, ih hpart]

/-- What is left at a path by redacting it stays so when another one is redacted. -/
theorem OnlyMarker.of_redact (h : redactWorkflowOutputSegments qs output = some redacted)
    (hss : OnlyMarker ss output) : OnlyMarker ss redacted := by
  induction qs generalizing ss output redacted with
  | nil =>
    cases h
    intro w hw
    cases ss with
    | nil => exact (Option.some.inj hw).symm
    | cons s ss => cases hw
  | cons q qs ih =>
    obtain ⟨child, part, hchild, hpart, rfl⟩ := redactWorkflowOutputSegments_cons.1 h
    cases ss with
    | nil =>
      rw [hss output rfl] at hchild
      cases hchild
    | cons s ss =>
      rw [OnlyMarker, outputAt_cons] at hss ⊢
      by_cases hsame : SamePart q s output
      · rw [child?_of_samePart hsame, hchild] at hss
        rw [child?_setChild hchild hsame]
        exact ih hpart hss
      · rwa [child?_setChild_of_not_samePart hchild hsame]

theorem Parted.exists_cons (h : Parted qs ss output) :
    (∃ q qs', qs = q :: qs') ∧ ∃ s ss', ss = s :: ss' := by
  cases qs with
  | nil => cases h
  | cons q qs =>
    cases ss with
    | nil => cases h
    | cons s ss => exact ⟨⟨q, qs, rfl⟩, s, ss, rfl⟩

theorem Parted.of_redact (h : redactWorkflowOutputSegments rs output = some redacted)
    (hparted : Parted qs ss output) : Parted qs ss redacted := by
  induction rs generalizing qs ss output redacted with
  | nil =>
    cases h
    obtain ⟨⟨q, qs, rfl⟩, s, ss, rfl⟩ := hparted.exists_cons
    exact .inr fun child hchild => by cases hchild
  | cons r rs ih =>
    obtain ⟨child, part, hchild, hpart, rfl⟩ := redactWorkflowOutputSegments_cons.1 h
    obtain ⟨⟨q, qs, rfl⟩, s, ss, rfl⟩ := hparted.exists_cons
    refine hparted.imp samePart_setChild.not.2 fun hparted next hnext => ?_
    by_cases hsame : SamePart r q output
    · rw [child?_setChild hchild hsame] at hnext
      cases hnext
      exact ih hpart (hparted child ((child?_of_samePart hsame).trans hchild))
    · rw [child?_setChild_of_not_samePart hchild hsame] at hnext
      exact hparted next hnext

/-- Nothing is changed away from a path that is redacted. -/
theorem outputAt_of_parted (h : redactWorkflowOutputSegments qs output = some redacted)
    (hparted : Parted qs ss output) : outputAt ss redacted = outputAt ss output := by
  induction qs generalizing ss output redacted with
  | nil => cases hparted
  | cons q qs ih =>
    obtain ⟨child, part, hchild, hpart, rfl⟩ := redactWorkflowOutputSegments_cons.1 h
    obtain ⟨-, s, ss, rfl⟩ := hparted.exists_cons
    rw [outputAt_cons, outputAt_cons]
    by_cases hsame : SamePart q s output
    · rw [child?_setChild hchild hsame, child?_of_samePart hsame, hchild]
      exact ih hpart (hparted.resolve_left (not_not.2 hsame) child hchild)
    · rw [child?_setChild_of_not_samePart hchild hsame]

theorem onlyMarker_of_foldlM (h : paths.foldlM redactWorkflowOutputPath output = some redacted) :
    ∀ path ∈ paths, ∀ segments, workflowOutputPathSegments path = some segments →
      OnlyMarker segments redacted := by
  induction paths generalizing output with
  | nil => exact fun _ hpath => by cases hpath
  | cons path paths ih =>
    rw [List.foldlM_cons, Option.bind_eq_bind, Option.bind_eq_some_iff] at h
    obtain ⟨next, hnext, h⟩ := h
    rw [List.forall_mem_cons]
    refine ⟨fun segments hsegments => ?_, ih h⟩
    -- It is so right after the path is redacted, and the other paths keep it.
    refine redactWorkflowOutputPath_induction (motive := OnlyMarker segments)
      (fun _ _ _ _ _ _ hv hmarker => hmarker.of_redact hv) h ?_
    rw [redactWorkflowOutputPath, hsegments, Option.bind_some] at hnext
    cases segments with
    | nil => cases hnext
    | cons segment segments =>
      intro w hw
      rw [outputAt_redacted hnext] at hw
      exact (Option.some.inj hw).symm

theorem outputAt_of_foldlM (h : paths.foldlM redactWorkflowOutputPath output = some redacted)
    (hparted : ∀ path ∈ paths, ∀ segments, workflowOutputPathSegments path = some segments →
      Parted segments ss output) : outputAt ss redacted = outputAt ss output := by
  refine (redactWorkflowOutputPath_induction (motive := fun v =>
    (∀ path ∈ paths, ∀ segments, workflowOutputPathSegments path = some segments →
      Parted segments ss v) ∧ outputAt ss v = outputAt ss output) ?_ h ⟨hparted, rfl⟩).2
  rintro path hpath segments v v' hsegments hv ⟨hparted, hsame⟩
  refine ⟨fun p hp ps hps => (hparted p hp ps hps).of_redact hv, ?_⟩
  rw [outputAt_of_parted hv (hparted path hpath segments hsegments), hsame]

/-- The declared paths are redacted and nothing else, or the whole output is replaced. -/
theorem declared_redacted {r : StepResult}
    (h : workflowSensitiveOutputPaths r.metadata = some paths) :
    ((redactSensitiveWorkflowStepResult r).metadata.lookup "output" =
        some (.str redactedWorkflowOutputValue) ∨
      ∃ output redacted, r.metadata.lookup "output" = some output ∧
        (redactSensitiveWorkflowStepResult r).metadata.lookup "output" = some redacted ∧
        (∀ path ∈ paths, ∀ segments, workflowOutputPathSegments path = some segments →
          ∀ w, outputAt segments redacted = some w → w = .str redactedWorkflowOutputValue) ∧
        ∀ ss, (∀ path ∈ paths, ∀ segments, workflowOutputPathSegments path = some segments →
          Parted segments ss output) → outputAt ss redacted = outputAt ss output) ∧
    ∀ text segment, '/' ∉ text →
      (decodeWorkflowJSONPointerSegment text = some segment ↔ text = escape segment) := by
  refine ⟨?_, fun text segment => decode_eq_some_iff⟩
  have hlookup (metadata : Value.Fields) (v : Value) (scope : String) :
      (redactedMetadata metadata v scope).lookup "output" = some v := by
    simp [redactedMetadata, Value.Fields.lookup_set]
  rw [redactSensitiveWorkflowStepResult, h]
  dsimp only
  cases hredacted : redactedOutput r.metadata paths with
  | none => exact .inl (hlookup ..)
  | some redacted =>
    obtain ⟨output, houtput, hfold⟩ := redactedOutput_eq_some hredacted
    exact .inr ⟨output, redacted, houtput, hlookup .., onlyMarker_of_foldlM hfold,
      fun ss => outputAt_of_foldlM hfold⟩

end Paths

/-- A result that declares two of its paths, one of them into a list. -/
def Sample.issuedTokens : StepResult :=
  { Sample.issued "s3cret" "ok" with
    metadata := [("output", .map [("key", .str "s3cret"), ("note", .str "ok"),
        ("tokens", .list [.map [("a/b", .str "t0")], .map [("a/b", .str "t1")]])]),
      ("sensitive_output_paths", .list [.str "key", .str "/tokens/1/a~1b"])] }

/-- Both declared paths hold the marker, and what is beside them is kept. -/
theorem declared_redacted_issued :
    ∃ redacted, (redactSensitiveWorkflowStepResult Sample.issuedTokens).metadata.lookup
        "output" = some redacted ∧
      OnlyMarker ["key"] redacted ∧ OnlyMarker ["tokens", "1", "a/b"] redacted ∧
      outputAt ["note"] redacted = some (.str "ok") ∧
      outputAt ["tokens", "0", "a/b"] redacted = some (.str "t0") := by
  have hkey : workflowOutputPathSegments "key" = some ["key"] := by decide +kernel
  have htoken : workflowOutputPathSegments "/tokens/1/a~1b" = some ["tokens", "1", "a/b"] := by
    decide +kernel
  have hpart : (((redactSensitiveWorkflowStepResult Sample.issuedTokens).metadata.lookup
      "output").bind (outputAt ["note"])).isSome := by decide +kernel
  have hpaths : workflowSensitiveOutputPaths Sample.issuedTokens.metadata =
      some ["key", "/tokens/1/a~1b"] := by decide +kernel
  obtain ⟨output, redacted, houtput, hlookup, hmarker, hkept⟩ :=
    (declared_redacted hpaths).1.resolve_left fun h => by simp [h, outputAt] at hpart
  cases houtput
  refine ⟨redacted, hlookup, hmarker _ (by simp) _ hkey, hmarker _ (by simp) _ htoken,
    hkept ["note"] ?_, hkept ["tokens", "0", "a/b"] ?_⟩
  · simp [hkey, htoken, Parted, SamePart]
  · -- The path into the list parts at the index.
    have hindex : atoi "1" ≠ atoi "0" := by decide +kernel
    simp only [List.forall_mem_cons, hkey, htoken, Option.some.injEq, forall_eq']
    refine ⟨.inl (by simp [SamePart]), .inr fun child hchild => .inl ?_, by simp⟩
    cases hchild
    exact hindex

end Yggdrasil.Runs
