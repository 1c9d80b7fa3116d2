import AttributeShell.Proofs.Completion.Descent

/-!
Names typed behind a text that awaits one. Completion goes down along the names that are closed and
filters what it finds there; a description is looked up along these names and the typed one. Both
walks end in the same tree, so that a name is offered behind each of its proper beginnings exactly
if it is described when it has been typed in full.
-/

namespace AttributeShell

/-- A name can be typed next: the text is empty, or a path that ends with a dot. -/
def AwaitsName (line : String) : Prop :=
  line = "" ∨ ∃ path, AttributePath.parse line = .ok path ∧ path.haltedAt = none ∧
    path.position = .afterDot

structure Reading.Awaits (line : String) (reading : Reading) : Prop where
  read : Reading.advance {} line.toList 0 = .going reading
  mode : reading.mode = none ∨ reading.mode = some .dot
  fits : reading.Fits (Text.size line)

theorem AwaitsName.exists_awaits {line : String} (h : AwaitsName line) :
    ∃ reading, Reading.Awaits line reading := by
  obtain rfl | ⟨path, hparse, hrunning, hposition⟩ := h
  · exact ⟨{}, rfl, .inl rfl, Reading.fits_empty⟩
  · obtain ⟨reading, hadvance, hfits, rfl⟩ := AttributePath.exists_advance_of_parse hparse hrunning
    refine ⟨reading, hadvance, .inr ?_, hfits⟩
    rw [Reading.toPath, Reading.mode_close] at hposition
    cases hmode : reading.mode with
    | none =>
      rw [hmode] at hposition
      cases hposition
    | some mode =>
      rw [hmode] at hposition
      cases mode <;> first | rfl | cases hposition

namespace Reading.Awaits

variable {line fragment name : String} {reading : Reading}

theorem buffer_eq (h : Awaits line reading) : reading.buffer = "" := by
  have hbuffer := h.fits.buffer
  obtain hmode | hmode := h.mode <;> rwa [hmode] at hbuffer

theorem close_eq (h : Awaits line reading) : reading.close = reading := by
  obtain hmode | hmode := h.mode <;> simp [close, hmode]

theorem insertionOffset_eq (h : Awaits line reading) :
    reading.insertionOffset = Text.size line := by
  have htyped : reading.typed = "" := by rw [typed, h.buffer_eq, ite_self]
  simpa [htyped] using h.fits.place

/-- A name is read behind the text, and a completion goes to its front. -/
theorem advance_name (h : Awaits line reading) (hname : IsName name.toList) :
    ∃ after, Reading.advance {} (line ++ name).toList 0 = .going after ∧
      after.Fits (Text.size (line ++ name)) ∧
      after.close.toPath = ⟨reading.segments, name, .name, Text.size line, none⟩ := by
  obtain ⟨c, cs, hcs⟩ := List.exists_cons_of_ne_nil hname.1
  have hc : isSeparator c = false :=
    isSeparator_of_isNameCharacter (hname.2 c (by rw [hcs]; exact List.mem_cons_self))
  have hbuffer : String.ofList (c :: cs) = name := by rw [← hcs, String.ofList_toList]
  rw [hcs] at hname
  have hadvance : Reading.advance {} (line ++ name).toList 0 =
      .going { reading.enter .name (Text.size line) c with buffer := name } := by
    rw [String.toList_append, advance_append, h.read, Scanned.going_andThen, hcs,
      Reading.advance_name (.front h.mode h.buffer_eq) hname, hbuffer, Nat.zero_add]
    rfl
  refine ⟨_, hadvance, ?_, ?_⟩
  · simpa [Text.size] using fits_advance fits_empty hadvance
  · simp [close, toPath, enter, Position.ofMode, insertionOffset, hc, h.fits.running]

/-- Behind a beginning of a name, which may be empty, the names that continue it are offered. -/
theorem complete_eq (h : Awaits line reading) (hfragment : ∀ c ∈ fragment.toList, isNameCharacter c)
    (writableOnly : Bool) (tree : Tree) :
    tree.complete writableOnly (line ++ fragment) (Text.size (line ++ fragment)) =
      (tree.descend writableOnly reading.segments.toList).map
        (·.completeName writableOnly fragment (Text.size line)) := by
  rw [Tree.complete, AttributePath.before?_size]
  by_cases hempty : fragment = ""
  -- With nothing typed the end of the path is that of the text, in front of a name or behind a dot.
  · have hoffered (below : Tree) : below.offered writableOnly reading.toPath =
        below.completeName writableOnly "" (Text.size line) := by
      obtain hmode | hmode := h.mode <;>
        simp [Tree.offered, toPath, hmode, Position.ofMode, h.buffer_eq, h.insertionOffset_eq]
    subst hempty
    rw [String.append_empty, h.read, Scanned.whole?, h.close_eq, Option.bind_some, Tree.resolve]
    simp only [hoffered]
    rfl
  · have hname : IsName fragment.toList := ⟨by simpa using hempty, hfragment⟩
    obtain ⟨after, hadvance, -, hpath⟩ := h.advance_name hname
    rw [hadvance, Scanned.whole?, hpath]
    rfl

theorem complete_eq_of_isPrefix (h : Awaits line reading) (hname : IsName name.toList)
    (hstart : fragment.toList <+: name.toList) (writableOnly : Bool) (tree : Tree) :
    tree.complete writableOnly (line ++ fragment) (Text.size (line ++ fragment)) =
      (tree.descend writableOnly reading.segments.toList).map
        (·.completeName writableOnly fragment (Text.size line)) := by
  have hfragment : ∀ c ∈ fragment.toList, isNameCharacter c := fun c hc =>
    hname.2 c (hstart.subset hc)
  exact h.complete_eq hfragment writableOnly tree

/-- A name typed in full closes the path, and is its last name. -/
theorem finishedNames?_eq (h : Awaits line reading) (hname : IsName name.toList) :
    AttributePath.finishedNames? (line ++ name) = some (reading.segments.toList ++ [name]) := by
  obtain ⟨after, hadvance, hfits, hpath⟩ := h.advance_name hname
  -- The text is trimmed before it is read, but what has been read as a path has nothing to trim.
  have hblank : ∀ c ∈ (line ++ name).toList, Text.isBlank c = false := fun c hc =>
    isBlank_of_isPathCharacter (isPathCharacter_of_advance fits_empty hadvance c hc)
  have hne : name ≠ "" := by simpa using hname.1
  rw [AttributePath.finishedNames?, Text.trim_eq_self hblank,
    AttributePath.parse_of_advance hadvance, hpath]
  simp [AttributePath.isFinished, AttributePath.isHalted, AttributePath.names, hne]

theorem describe_eq (h : Awaits line reading) (hname : IsName name.toList) (tree : Tree) :
    tree.describe (line ++ name) =
      (tree.descend false reading.segments.toList).bind (·.get? name) := by
  rw [Tree.describe, h.finishedNames?_eq hname, Option.bind_some, Tree.lookup_append_singleton]

end Reading.Awaits

/-! ### Suggestions -/

/-- The line once a suggestion has been accepted. -/
def Suggestion.accept? (suggestion : Suggestion) (line : String) : Option String := do
  let before ← Text.before? line suggestion.start
  let after ← Text.from? line suggestion.stop
  return before ++ suggestion.value ++ after

theorem Suggestion.accept?_eq (line fragment name : String) (description : Option String) :
    accept? ⟨name, Text.size line, Text.size (line ++ fragment), description⟩ (line ++ fragment) =
      some (line ++ name) := by
  simp [accept?, -Text.size_append]

theorem Suggestion.isSeparator_of_isName {name : String} (h : IsName name.toList) :
    isSeparator name = false := by
  refine Bool.eq_false_iff.2 fun hseparator => ?_
  simp only [isSeparator, Bool.or_eq_true, beq_iff_eq] at hseparator
  obtain (rfl | rfl) | rfl := hseparator
  · simpa using h.2 '.' (by decide)
  · simpa using h.2 '[' (by decide)
  · exact absurd (h.2 '=' (by decide)) (by decide)

namespace Tree

variable {line fragment name : String} {tree : Tree}

/-- A name is offered behind a proper beginning if it is there. The separator that may be offered as
well is no name. -/
theorem mem_candidates_iff_get? {offset : Nat} (hname : IsName name.toList)
    (hstart : fragment.toList <+: name.toList) (hproper : name ≠ fragment) :
    name ∈ (tree.completeName false fragment offset).candidates ↔ (tree.get? name).isSome := by
  have hseparator : tree.ending? false fragment ≠ some name := by
    intro hending
    obtain ⟨-, attr, -, hattr⟩ := ending?_eq_some.1 hending
    have hname := Suggestion.isSeparator_of_isName hname
    obtain rfl | rfl := Attribute.eq_of_separator? hattr <;> simp [Suggestion.isSeparator] at hname
  rw [mem_candidates_completeName, mem_continuations, visible?_false]
  simp [hseparator, hstart, hproper]

/-- Both walks lead to one tree, in which a name is offered behind a proper beginning if it is
there. -/
theorem exists_mem_candidates_iff {reading : Reading} (hawaits : reading.Awaits line)
    (hname : IsName name.toList) (hstart : fragment.toList <+: name.toList)
    (hproper : name ≠ fragment) :
    (∃ completion, tree.complete false (line ++ fragment) (Text.size (line ++ fragment)) =
        some completion ∧ name ∈ completion.candidates) ↔
      ∃ attr, tree.describe (line ++ name) = some attr := by
  rw [hawaits.complete_eq_of_isPrefix hname hstart false tree, hawaits.describe_eq hname tree]
  cases tree.descend false reading.segments.toList with
  | none => simp
  | some below =>
    simp only [Option.map_some, Option.some.injEq, exists_eq_left', Option.bind_some,
      ← Option.isSome_iff_exists]
    exact mem_candidates_iff_get? hname hstart hproper

theorem mem_suggest_of_describe {reading : Reading} {attr : Attribute}
    (hawaits : reading.Awaits line) (hname : IsName name.toList)
    (hstart : fragment.toList <+: name.toList) (hproper : name ≠ fragment)
    (hdescribe : tree.describe (line ++ name) = some attr) :
    ⟨name, Text.size line, Text.size (line ++ fragment), attr.description⟩ ∈
      tree.suggest false (line ++ fragment) (Text.size (line ++ fragment)) := by
  have hfound := hdescribe
  rw [hawaits.describe_eq hname tree, Option.bind_eq_some_iff] at hfound
  obtain ⟨below, hdescend, hget⟩ := hfound
  have hmem : name ∈ below.continuations false fragment := by
    rw [mem_continuations, visible?_false, hget]
    exact ⟨rfl, hstart, .inr hproper⟩
  have hseparator := Suggestion.isSeparator_of_isName hname
  rw [suggest, hawaits.complete_eq_of_isPrefix hname hstart false tree, hdescend]
  refine List.mem_map.2 ⟨name, mem_candidates_completeName.2 (.inl hmem), ?_⟩
  simp [offset_completeName hmem, Suggestion.expression?, hseparator, hdescribe]

/-- Completion and description agree. A name is a candidate behind each of its proper beginnings
exactly if it is described when it has been typed in full. It is then suggested in the place of the
beginning and with its description, and accepting the suggestion gives the text with the whole
name. -/
theorem mem_candidates_iff_describe (hline : AwaitsName line)
    (hname : ∀ c ∈ name.toList, isNameCharacter c) (hstart : fragment.toList <+: name.toList)
    (hproper : fragment ≠ name) (tree : Tree) :
    ((∃ completion, tree.complete false (line ++ fragment) (Text.size (line ++ fragment)) =
          some completion ∧ name ∈ completion.candidates) ↔
        ∃ attr, tree.describe (line ++ name) = some attr) ∧
      ∀ attr, tree.describe (line ++ name) = some attr →
        ∃ suggestion ∈ tree.suggest false (line ++ fragment) (Text.size (line ++ fragment)),
          suggestion.value = name ∧ suggestion.start = Text.size line ∧
          suggestion.stop = Text.size (line ++ fragment) ∧
          suggestion.accept? (line ++ fragment) = some (line ++ name) ∧
          suggestion.description = attr.description := by
  have hne : name.toList ≠ [] := by
    intro hnil
    rw [hnil, List.prefix_nil] at hstart
    exact hproper (String.toList_inj.1 (hstart.trans hnil.symm))
  obtain ⟨reading, hawaits⟩ := hline.exists_awaits
  refine ⟨exists_mem_candidates_iff hawaits ⟨hne, hname⟩ hstart hproper.symm,
    fun attr hdescribe => ?_⟩
  have hmem := mem_suggest_of_describe hawaits ⟨hne, hname⟩ hstart hproper.symm hdescribe
  exact ⟨_, hmem, rfl, rfl, rfl, Suggestion.accept?_eq line fragment name attr.description, rfl⟩

/-- An attribute of an object, behind the dot and its first letter. -/
theorem suggest_behind_dot :
    ∃ (tree : Tree) (attr : Attribute), AwaitsName "a." ∧
      tree.describe "a.bar" = some attr ∧ attr.description = some "inner" ∧
      ∃ suggestion ∈ tree.suggest false "a.b" 3,
        suggestion.value = "bar" ∧ suggestion.start = 2 ∧ suggestion.stop = 3 ∧
        suggestion.accept? "a.b" = some "a.bar" ∧ suggestion.description = some "inner" := by
  let attr : Attribute := .mk (.primitive .string) .readOnly (some "inner")
  let below : Tree := (∅ : Tree).insert "bar" attr
  let outer : Attribute := .mk (.container .object (.complex below)) .readWrite none
  let tree : Tree := (∅ : Tree).insert "a" outer
  have hline : AwaitsName "a." := .inr ⟨⟨.one "a", "", .afterDot, 2, none⟩, rfl, rfl, rfl⟩
  have hdescribe : tree.describe "a.bar" = some attr := rfl
  have hstart : "b".toList <+: "bar".toList := ⟨['a', 'r'], rfl⟩
  have hname : ∀ c ∈ "bar".toList, isNameCharacter c := List.all_eq_true.1 (by decide)
  have hagree := mem_candidates_iff_describe hline hname hstart (by decide) tree
  have hbegun : "a." ++ "b" = "a.b" := by decide
  have hwhole : "a." ++ "bar" = "a.bar" := by decide
  have hsizes : Text.size "a." = 2 ∧ Text.size "a.b" = 3 := by decide
  rw [hbegun, hwhole, hsizes.1, hsizes.2] at hagree
  exact ⟨tree, attr, hline, hdescribe, rfl, hagree.2 attr hdescribe⟩

end Tree

end AttributeShell
