import AttributeShell.Proofs.Completion.Describe

/-!
Separators among the suggestions. One is offered behind an index, and behind the name of an object
or of a list, where names that go on from there may be offered beside it. Put behind what has been
typed, it always closes the last name and extends the path. A suggestion replaces what has been
typed from its start on, though, and beside names the separator starts where they do: it then takes
the place of the typed name, and that name is lost (`extends_iff`).
-/

namespace AttributeShell

/-- The text is a path, and its closed names are all the names of the path typed so far. -/
def AttributePath.ExtendedBy (path : AttributePath) (text : String) : Prop :=
  ∃ extended, parse text = .ok extended ∧ extended.haltedAt = none ∧
    extended.segments.toList = path.names

/-- The candidates that continue a path: a dot and an opening bracket. -/
def ContinuesPath (candidate : String) : Prop := candidate = "." ∨ candidate = "["

theorem ContinuesPath.isSeparator {candidate : String} (h : ContinuesPath candidate) :
    Suggestion.isSeparator candidate := by
  obtain rfl | rfl := h <;> rfl

theorem ContinuesPath.exists_separates {candidate : String} (h : ContinuesPath candidate) :
    ∃ mode c, Reading.Separates mode c ∧ candidate.toList = [c] := by
  obtain rfl | rfl := h
  · exact ⟨.dot, '.', .inl ⟨rfl, rfl⟩, rfl⟩
  · exact ⟨.openBracket, '[', .inr ⟨rfl, rfl⟩, rfl⟩

namespace AttributePath

variable {typed separator : String} {path : AttributePath}

/-- Behind a complete path a separator closes the last name. -/
theorem extendedBy_separator (h : parse typed = .ok path) (hcomplete : path.IsComplete)
    (hseparator : ContinuesPath separator) : path.ExtendedBy (typed ++ separator) := by
  obtain ⟨mode, c, hc, hlist⟩ := hseparator.exists_separates
  obtain ⟨extended, hparse, hrunning, hsegments, -⟩ := readsAs_separator h hcomplete hc hlist
  exact ⟨extended, hparse, hrunning, hsegments⟩

/-- In the place of the name that is being typed a separator extends nothing. -/
theorem not_extendedBy_separator {line start : String} {position : Nat}
    (hline : Text.before? line position = some typed) (h : parse typed = .ok path)
    (hcomplete : path.IsComplete) (hname : path.position = .name)
    (hseparator : ContinuesPath separator)
    (hstart : Text.before? line path.insertionOffset = some start) :
    ¬ path.ExtendedBy (start ++ separator) := by
  obtain ⟨mode, c, hc, hlist⟩ := hseparator.exists_separates
  obtain ⟨reading, hadvance, -, hends, rfl⟩ := exists_endsItem h hcomplete
  have hmode : reading.mode = some .name := by
    cases hends with
    | name hmode _ => exact hmode
    | index hmode => simp [Reading.toPath, hmode, Position.ofMode] at hname
  obtain ⟨front, begun, hfront, hbegun, hbegins, hsegments⟩ :=
    Reading.exists_before?_insertionOffset hadvance hmode
  rw [Reading.insertionOffset_toPath_close, Text.before?_of_before? hline hfront] at hstart
  obtain rfl := Option.some.inj hstart
  have hadvanced : Reading.advance {} (front ++ separator).toList 0 =
      (begun.next (Text.size front) c).andThen .going := by
    rw [String.toList_append, hlist, Reading.advance_append, hbegun, Scanned.going_andThen,
      Nat.zero_add]
    rfl
  rintro ⟨extended, hparse, -, hnames⟩
  obtain hnext | hnext := Reading.next_separator_of_beginsName hbegins hc
  · rw [parse_eq, hadvanced, hnext] at hparse
    cases hparse
  · rw [hnext] at hadvanced
    obtain ⟨path, hparse', -, hclosed, -⟩ := readsAs_of_advance hadvanced
    obtain rfl := Except.ok.inj (hparse.symm.trans hparse')
    -- Nothing has been closed behind the start of the name, so the name is missing.
    rw [hclosed, Reading.names_close hends] at hnames
    simp [Reading.settle, Reading.commit, Reading.clear, hmode, hsegments] at hnames

theorem before?_eq_some {line : String} {position : Nat} :
    before? line position = some path ↔
      ∃ typed, Text.before? line position = some typed ∧ parse typed = .ok path ∧
        path.haltedAt = none := by
  cases hcut : Text.before? line position with
  | none => simp [before?, hcut]
  | some typed =>
    cases hparse : parse typed with
    | error error => simp [before?, hcut, hparse]
    | ok read =>
      cases hhalted : read.haltedAt <;> simp [before?, hcut, hparse, isHalted, hhalted] <;> grind

end AttributePath

namespace Tree

variable {writableOnly : Bool} {tree below : Tree} {line candidate : String} {position : Nat}
  {path : AttributePath}

/-- Every attribute is called by a name, at every depth. -/
def WellNamed (tree : Tree) : Prop :=
  ∀ names below, tree.Leads false names below → ∀ name ∈ below.names, IsName name.toList

theorem complete_eq_some {completion : Completion} :
    tree.complete writableOnly line position = some completion ↔
      ∃ path below, AttributePath.before? line position = some path ∧
        tree.Leads writableOnly path.segments.toList below ∧
        below.offered writableOnly path = completion := by
  simp [complete, Option.bind_eq_some_iff, resolve, descend_eq_some_iff]

theorem Leads.toFalse {names : List String} (h : tree.Leads writableOnly names below) :
    tree.Leads false names below := by
  cases writableOnly with
  | false => exact h
  | true => exact h.of_true

theorem isName_of_visible (hnames : ∀ name ∈ below.names, IsName name.toList)
    (h : (below.visible? writableOnly candidate).isSome) : IsName candidate.toList := by
  obtain ⟨attr, hattr⟩ := Option.isSome_iff_exists.1 h
  refine hnames candidate (NameMap.get?_isSome.1 ?_)
  rw [(visible?_eq_some.1 hattr).1]
  rfl

theorem offered_of_name (h : path.position = .name) :
    below.offered writableOnly path =
      below.completeName writableOnly path.fragment path.insertionOffset := by
  rw [offered, h]

/-- A separator that continues a path is offered only where a path is complete. -/
theorem isComplete_of_mem_offered (hnames : ∀ name ∈ below.names, IsName name.toList)
    (hrunning : path.haltedAt = none) (hcandidate : ContinuesPath candidate)
    (h : candidate ∈ (below.offered writableOnly path).candidates) : path.IsComplete := by
  have hname (hvisible : (below.visible? writableOnly candidate).isSome) : path.IsComplete := by
    have hseparator := Suggestion.isSeparator_of_isName (isName_of_visible hnames hvisible)
    rw [hcandidate.isSeparator] at hseparator
    cases hseparator
  rw [offered] at h
  cases hposition : path.position with
  | name =>
    rw [hposition] at h
    obtain hmem | hending := mem_candidates_completeName.1 h
    · exact hname (mem_continuations.1 hmem).1
    · exact ⟨hrunning, .inl ⟨hposition, (ending?_eq_some.1 hending).1⟩⟩
  | afterDot =>
    rw [hposition] at h
    exact hname (mem_visibleNames.1 h)
  | openBracket =>
    rw [hposition] at h
    cases h
  | listIndex =>
    rw [hposition] at h
    cases h
  | closeBracket => exact ⟨hrunning, .inr hposition⟩

theorem isSeparator_of_ending? {fragment : String}
    (h : below.ending? writableOnly fragment = some candidate) :
    Suggestion.isSeparator candidate := by
  obtain ⟨-, attr, -, hattr⟩ := ending?_eq_some.1 h
  exact ContinuesPath.isSeparator (Attribute.eq_of_separator? hattr)

/-- Beside separators alone, one that continues the path is put at its end. -/
theorem offset_offered_of_forall_isSeparator {typed : String}
    (hnames : ∀ name ∈ below.names, IsName name.toList)
    (hparse : AttributePath.parse typed = .ok path) (hcomplete : path.IsComplete)
    (hcandidate : candidate ∈ (below.offered writableOnly path).candidates)
    (hothers : ∀ other ∈ (below.offered writableOnly path).candidates,
      Suggestion.isSeparator other) :
    (below.offered writableOnly path).offset = Text.size typed := by
  have hplace := AttributePath.insertionOffset_add_fragment hparse hcomplete
  obtain ⟨hposition, hfragment⟩ | hposition := hcomplete.ends
  · rw [offered_of_name hposition] at hcandidate hothers ⊢
    have hnone : below.continuations writableOnly path.fragment = [] := by
      refine List.eq_nil_iff_forall_not_mem.2 fun name hname => ?_
      have hseparator := hothers name (mem_candidates_completeName.2 (.inl hname))
      have hisName := isName_of_visible hnames (mem_continuations.1 hname).1
      rw [Suggestion.isSeparator_of_isName hisName] at hseparator
      cases hseparator
    obtain hmem | hending := mem_candidates_completeName.1 hcandidate
    · rw [hnone] at hmem
      cases hmem
    · rw [completeName_eq, hending, hnone]
      exact hplace
  · rw [AttributePath.fragment_eq_empty hparse hcomplete hposition] at hplace
    rw [offered, hposition]
    exact hplace

/-- Beside a name, a separator starts where the name does. -/
theorem offset_offered_of_not_isSeparator (hcomplete : path.IsComplete)
    (hcandidate : candidate ∈ (below.offered writableOnly path).candidates)
    (hname : Suggestion.isSeparator candidate = false) :
    path.position = .name ∧
      (below.offered writableOnly path).offset = path.insertionOffset := by
  obtain ⟨hposition, -⟩ | hposition := hcomplete.ends
  · rw [offered_of_name hposition] at hcandidate ⊢
    obtain hmem | hending := mem_candidates_completeName.1 hcandidate
    · exact ⟨hposition, offset_completeName hmem⟩
    · rw [isSeparator_of_ending? hending] at hname
      cases hname
  · have hcandidates : (below.offered writableOnly path).candidates = [".", "="] := by
      rw [offered, hposition]
    rw [hcandidates] at hcandidate
    obtain rfl | rfl : candidate = "." ∨ candidate = "=" := by simpa using hcandidate
    · cases hname
    · cases hname

theorem mem_suggest {suggestion : Suggestion} {completion : Completion}
    (hcompletion : tree.complete writableOnly line position = some completion)
    (h : suggestion ∈ tree.suggest writableOnly line position) :
    suggestion.value ∈ completion.candidates ∧ suggestion.start = completion.offset ∧
      suggestion.stop = position := by
  rw [suggest, hcompletion] at h
  obtain ⟨candidate, hcandidate, rfl⟩ := List.mem_map.1 h
  exact ⟨hcandidate, rfl, rfl⟩

theorem exists_mem_suggest {completion : Completion}
    (hcompletion : tree.complete writableOnly line position = some completion)
    (h : candidate ∈ completion.candidates) :
    ∃ suggestion ∈ tree.suggest writableOnly line position, suggestion.value = candidate := by
  rw [suggest, hcompletion]
  exact ⟨_, List.mem_map.2 ⟨candidate, h, rfl⟩, rfl⟩

/-- A dot or an opening bracket that is suggested extends the path when it is put behind what has
been typed. Accepting the suggestion puts it there exactly if no name is suggested beside it. -/
theorem extends_iff (hnames : tree.WellNamed) {suggestion : Suggestion}
    (hmem : suggestion ∈ tree.suggest writableOnly line position)
    (hvalue : ContinuesPath suggestion.value) :
    ∃ typed path, Text.before? line position = some typed ∧
      AttributePath.parse typed = .ok path ∧ path.haltedAt = none ∧
      path.ExtendedBy (typed ++ suggestion.value) ∧
      ((∃ start, Text.before? line suggestion.start = some start ∧
          path.ExtendedBy (start ++ suggestion.value)) ↔
        ∀ other ∈ tree.suggest writableOnly line position,
          Suggestion.isSeparator other.value) := by
  obtain ⟨completion, hcompletion⟩ : ∃ completion,
      tree.complete writableOnly line position = some completion := by
    cases hcomplete : tree.complete writableOnly line position with
    | none => simp [suggest, hcomplete] at hmem
    | some completion => exact ⟨completion, rfl⟩
  obtain ⟨path, below, hbefore, hleads, rfl⟩ := complete_eq_some.1 hcompletion
  obtain ⟨typed, hline, hparse, hrunning⟩ := AttributePath.before?_eq_some.1 hbefore
  have hbelow := hnames path.segments.toList below hleads.toFalse
  obtain ⟨hcandidate, hstart, -⟩ := mem_suggest hcompletion hmem
  have hcomplete := isComplete_of_mem_offered hbelow hrunning hvalue hcandidate
  have hbehind := AttributePath.extendedBy_separator hparse hcomplete hvalue
  refine ⟨typed, path, hline, hparse, hrunning, hbehind, ?_, fun hothers => ?_⟩
  · rintro ⟨start, hcut, hextended⟩ other hother
    by_contra hname
    rw [Bool.not_eq_true] at hname
    obtain ⟨hposition, hoffset⟩ :=
      offset_offered_of_not_isSeparator hcomplete (mem_suggest hcompletion hother).1 hname
    rw [hstart, hoffset] at hcut
    exact AttributePath.not_extendedBy_separator hline hparse hcomplete hposition hvalue hcut
      hextended
  · have hseparators : ∀ other ∈ (below.offered writableOnly path).candidates,
        Suggestion.isSeparator other := by
      intro other hother
      obtain ⟨accepted, haccepted, rfl⟩ := exists_mem_suggest hcompletion hother
      exact hothers accepted haccepted
    have hoffset := offset_offered_of_forall_isSeparator hbelow hparse hcomplete hcandidate
      hseparators
    refine ⟨typed, ?_, hbehind⟩
    rw [hstart, hoffset, (Text.eq_append_of_before? hline).1, hline]

/-- An object, and a number that is read-only and whose name goes on from the object's. -/
def pools : Tree :=
  ((∅ : Tree).insert "pool" (.mk (.container .object .unspecified) .readWrite none)).insert
    "pool-size" (.mk (.primitive .int) .readOnly none)

theorem wellNamed_pools : pools.WellNamed := by
  intro names below hleads name hname
  cases hleads with
  | here =>
    have hnames : pools.names = ["pool", "pool-size"] := by decide
    rw [hnames] at hname
    obtain rfl | rfl : name = "pool" ∨ name = "pool-size" := by simpa using hname
    · exact ⟨by simp, List.all_eq_true.1 (by decide)⟩
    · exact ⟨by simp, List.all_eq_true.1 (by decide)⟩
  | @down _ next _ step _ attr hget _ hnested _ =>
    -- Neither of the two has attributes below it.
    simp only [pools, NameMap.get?_insert] at hget
    split_ifs at hget
    · cases hget
      cases hnested
    · cases hget
      cases hnested
    · cases hget

/-- With the longer name hidden, the dot is suggested behind the shorter one. -/
theorem extends_pool :
    pools.WellNamed ∧ ∃ suggestion ∈ pools.suggest true "pool" 4,
      ContinuesPath suggestion.value ∧ suggestion.start = 4 ∧
      ∃ path start, AttributePath.parse "pool" = .ok path ∧
        Text.before? "pool" suggestion.start = some start ∧
        path.ExtendedBy (start ++ suggestion.value) := by
  have hsuggest : pools.suggest true "pool" 4 = [⟨".", 4, 4, none⟩] := by decide +kernel
  have hmem : ⟨".", 4, 4, none⟩ ∈ pools.suggest true "pool" 4 := by simp [hsuggest]
  have hothers : ∀ other ∈ pools.suggest true "pool" 4, Suggestion.isSeparator other.value := by
    simp [hsuggest, Suggestion.isSeparator]
  obtain ⟨typed, path, hline, hparse, -, -, hiff⟩ := extends_iff wellNamed_pools hmem (.inl rfl)
  have hcut : Text.before? "pool" 4 = some "pool" := by decide
  obtain rfl := Option.some.inj (hcut.symm.trans hline)
  obtain ⟨start, hstart, hextended⟩ := hiff.2 hothers
  exact ⟨wellNamed_pools, _, hmem, .inl rfl, rfl, path, start, hparse, hstart, hextended⟩

/-- With both names shown, accepting the dot drops the typed one, and what is left is refused. -/
theorem exists_not_extendedBy :
    pools.WellNamed ∧ ∃ suggestion ∈ pools.suggest false "pool" 4,
      suggestion.value = "." ∧ suggestion.start = 0 ∧
      ∃ path, AttributePath.parse "pool" = .ok path ∧ path.names = ["pool"] ∧
        Text.before? "pool" suggestion.start = some "" ∧
        AttributePath.parse ("" ++ suggestion.value) = .error (.missingName '.' 0) ∧
        ¬ path.ExtendedBy ("" ++ suggestion.value) := by
  have hcompletion : pools.complete false "pool" 4 = some (pools.completeName false "pool" 0) := rfl
  have hlonger : "pool-size" ∈ pools.continuations false "pool" := by decide
  have hoffset : (pools.completeName false "pool" 0).offset = 0 := offset_completeName hlonger
  have hdot : "." ∈ (pools.completeName false "pool" 0).candidates :=
    mem_candidates_completeName.2 (.inr rfl)
  obtain ⟨suggestion, hmem, hvalue⟩ := exists_mem_suggest hcompletion hdot
  have hstart : suggestion.start = 0 := (mem_suggest hcompletion hmem).2.1.trans hoffset
  have hrefused : AttributePath.parse ("" ++ ".") = .error (.missingName '.' 0) := rfl
  refine ⟨wellNamed_pools, suggestion, hmem, hvalue, hstart,
    ⟨.empty, "pool", .name, 0, none⟩, rfl, rfl, ?_, ?_, ?_⟩
  · rw [hstart]
    rfl
  · rw [hvalue, hrefused]
  · rw [hvalue]
    rintro ⟨extended, hparse, -⟩
    rw [hrefused] at hparse
    cases hparse

end Tree

end AttributeShell
