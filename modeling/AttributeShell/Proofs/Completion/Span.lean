import AttributeShell.Proofs.Completion.Hint
import AttributeShell.Proofs.Completion.Resolve
import AttributeShell.Shell.Highlight

/-!
Every position that is worked out for a text is a boundary in it. A path delimits what has been
typed last, so a completion replaces the fragment, the digits of an index, or nothing; the text
behind a path starts where the path ends, and a line is coloured up to there or up to the character
that is wrong (`positions_in_range`).
-/

namespace AttributeShell

/-! ### Completions -/

namespace Tree

variable {writableOnly : Bool} {tree : Tree} {line : String} {position : Nat}

theorem offset_offered (writableOnly : Bool) (reached : Tree) (path : AttributePath) :
    (reached.offered writableOnly path).offset = path.insertionOffset ∨
      path.position = .name ∧ (reached.offered writableOnly path).offset =
        path.insertionOffset + Text.size path.fragment := by
  by_cases halone : ∃ separator, reached.Hints writableOnly path separator ∧
      (reached.offered writableOnly path).candidates = [separator]
  · obtain ⟨separator, hints, halone⟩ := halone
    exact .inr ⟨hints.1, offset_offered_of_alone hints halone⟩
  · simp only [not_exists, not_and] at halone
    exact .inl (offset_offered_of_not_alone halone)

/-- A completion replaces the fragment, the digits of an index, or nothing. -/
theorem exists_between_offset {completion : Completion}
    (h : tree.complete writableOnly line position = some completion) :
    ∃ path typed, AttributePath.before? line position = some path ∧
      Text.between? line completion.offset position = some typed ∧
      (typed = path.fragment ∨ typed = "" ∨
        path.position = .listIndex ∧ IsDigits typed.toList) := by
  obtain ⟨path, below, hbefore, -, rfl⟩ := complete_eq_some.1 h
  obtain ⟨text, hline, hparse, hrunning⟩ := AttributePath.before?_eq_some.1 hbefore
  obtain ⟨typed, hfrom, hdelimits⟩ := AttributePath.exists_delimits hparse
  rw [hrunning, Option.getD_none] at hfrom hdelimits
  rw [Text.between?_size] at hfrom
  obtain hoffset | ⟨hposition, hoffset⟩ := offset_offered writableOnly below path
  · refine ⟨path, typed, hbefore, ?_, ?_⟩
    · rw [Text.between?_of_before? hline, hoffset, hfrom]
    · rw [AttributePath.Delimits] at hdelimits
      cases hposition : path.position with
      | name =>
        rw [hposition] at hdelimits
        exact .inl hdelimits
      | listIndex =>
        rw [hposition] at hdelimits
        exact .inr (.inr ⟨rfl, hdelimits.1⟩)
      | afterDot | openBracket | closeBracket =>
        rw [hposition] at hdelimits
        exact .inr (.inl hdelimits.2.1)
  -- Behind the whole fragment nothing is left of the text.
  · rw [AttributePath.Delimits, hposition] at hdelimits
    obtain ⟨start, rfl, hstart⟩ := Text.eq_append_of_from? hfrom
    refine ⟨path, "", hbefore, ?_, .inr (.inl rfl)⟩
    rw [Text.between?_of_before? hline, hoffset, ← hstart, ← hdelimits, ← Text.size_append,
      Text.from?_size]

theorem exists_between_span {suggestion : Suggestion}
    (h : suggestion ∈ tree.suggest writableOnly line position) :
    suggestion.stop = position ∧
      ∃ typed, Text.between? line suggestion.start suggestion.stop = some typed := by
  cases hcomplete : tree.complete writableOnly line position with
  | none => simp [suggest, hcomplete] at h
  | some completion =>
    obtain ⟨-, hstart, hstop⟩ := mem_suggest hcomplete h
    obtain ⟨-, typed, -, htyped, -⟩ := exists_between_offset hcomplete
    refine ⟨hstop, typed, ?_⟩
    rw [hstart, hstop, htyped]

end Tree

/-! ### Commands -/

namespace Command

variable {line rest : String} {offset : Nat}

theorem ofSwitch_ne_trailing (argument : String) :
    ofSwitch argument ≠ .error (.invalidCommand (.trailing offset rest)) := by
  rw [ofSwitch]
  split
  · simp
  · split <;> simp

theorem parseShellCommand_ne_trailing (line : String) :
    parseShellCommand line ≠ .error (.invalidCommand (.trailing offset rest)) := by
  simp only [parseShellCommand]
  split
  · simp
  split
  · simp
  split
  · simp
  split
  · exact ofSwitch_ne_trailing _
  split
  · simp
  · simp

theorem from?_of_parsePath (h : parsePath line = .error (.invalidCommand (.trailing offset rest))) :
    Text.from? line offset = some rest := by
  rw [parsePath] at h
  cases hparse : AttributePath.parse line with
  | error error =>
    simp only [hparse, Except.error.injEq] at h
    obtain ⟨_, _, _, -, hrefuses, -⟩ := AttributePath.exists_refused hparse
    obtain rfl | ⟨_, rfl⟩ := hrefuses <;> cases h
  | ok path =>
    cases hhalted : path.haltedAt with
    | none => simp [hparse, hhalted] at h
    | some stop =>
      simp only [hparse, hhalted, Except.error.injEq, ParseError.invalidCommand.injEq,
        CommandFault.trailing.injEq] at h
      obtain ⟨rfl, rfl⟩ := h
      obtain ⟨before, c, hstands, -⟩ := AttributePath.exists_ended hparse hhalted
      obtain ⟨more, hmore⟩ := hstands.here
      rw [hmore, Option.getD_some]

/-- What is said to stand behind a path is the rest of the line from the end of the path on. -/
theorem from?_of_trailing (h : parse line = .error (.invalidCommand (.trailing offset rest))) :
    Text.from? (Text.trim line) offset = some rest := by
  simp only [parse] at h
  split at h
  · simp at h
  split at h
  · exact absurd h (parseShellCommand_ne_trailing _)
  · exact from?_of_parsePath h

end Command

/-! ### Colouring -/

namespace Highlight

/-- A line is coloured as a path up to the end of the path, or up to the character that is wrong. -/
theorem isBoundary_tailOf (path : String) : Text.IsBoundary path (tailOf path).1 := by
  rw [tailOf]
  cases hparse : AttributePath.parse path with
  | ok parsed =>
    obtain ⟨before, hbefore, -⟩ := AttributePath.exists_running hparse
    exact Text.isBoundary_of_before? hbefore
  | error error =>
    obtain ⟨offset, before, c, hstands, hrefuses, -⟩ := AttributePath.exists_refused hparse
    have hoffset : error.offset? = some offset := by
      obtain rfl | ⟨_, rfl⟩ := hrefuses <;> rfl
    simp only [hoffset, Option.getD_some, Nat.min_eq_left (Nat.le_of_lt hstands.inside)]
    exact Text.isBoundary_of_before? hstands.before

/-- The white space in front of a line ends at a boundary, and so does the first word behind it. -/
theorem isBoundary_indent (line : String) :
    Text.IsBoundary line
      (Text.size line - Text.size (String.ofList (Text.dropBlank line.toList))) := by
  let indent := String.ofList (Text.takeBlank line.toList)
  let body := String.ofList (Text.dropBlank line.toList)
  have hline : line = indent ++ body := by simp [indent, body, ← String.toList_inj]
  have hsize : Text.size line - Text.size body = Text.size indent := by
    rw [hline, Text.size_append, Nat.add_sub_cancel]
  rw [hsize, hline]
  exact Text.isBoundary_append indent body

theorem isBoundary_firstWord (body : String) :
    Text.IsBoundary body (Text.size (String.ofList (Text.firstWord body.toList))) := by
  let word := String.ofList (Text.firstWord body.toList)
  let rest := String.ofList (Text.afterFirstWord body.toList)
  have hbody : body = word ++ rest := by simp [word, rest, ← String.toList_inj]
  have hcut := Text.isBoundary_append word rest
  rwa [← hbody] at hcut

end Highlight

/-- Every position that is worked out for a text is a boundary in it. The place of a completion does
not lie behind the end of the path, and between them stands what the path says that was typed there.
So a completion replaces the fragment, the digits of an index or nothing, up to the position at
which it was asked for, and suggestions do so too. What is said to stand behind a path is the rest
of the line, and a line is coloured up to where its white space, its first word or its path ends. -/
theorem positions_in_range :
    (∀ text path, AttributePath.parse text = .ok path →
      let stop := path.haltedAt.getD (Text.size text)
      (path.insertionOffset ≤ stop ∧ Text.IsBoundary text path.insertionOffset ∧
        Text.IsBoundary text stop) ∧
      ∃ typed, Text.between? text path.insertionOffset stop = some typed ∧
        path.Delimits stop typed) ∧
    (∀ (writableOnly : Bool) (tree : Tree) (line : String) (position : Nat),
      (∀ completion, tree.complete writableOnly line position = some completion →
        (completion.offset ≤ position ∧ Text.IsBoundary line completion.offset ∧
          Text.IsBoundary line position) ∧
        ∃ path typed, AttributePath.before? line position = some path ∧
          Text.between? line completion.offset position = some typed ∧
          (typed = path.fragment ∨ typed = "" ∨
            path.position = .listIndex ∧ IsDigits typed.toList)) ∧
      ∀ suggestion ∈ tree.suggest writableOnly line position, suggestion.stop = position ∧
        ∃ typed, Text.between? line suggestion.start suggestion.stop = some typed) ∧
    (∀ line offset rest, Command.parse line = .error (.invalidCommand (.trailing offset rest)) →
      Text.from? (Text.trim line) offset = some rest) ∧
    ∀ line : String,
      let body := String.ofList (Text.dropBlank line.toList)
      Text.IsBoundary line (Text.size line - Text.size body) ∧
      Text.IsBoundary body (Text.size (String.ofList (Text.firstWord body.toList))) ∧
      Text.IsBoundary body (Highlight.tailOf body).1 := by
  refine ⟨fun text path hparse => ?_, fun writableOnly tree line position => ⟨?_, ?_⟩,
    fun line offset rest => Command.from?_of_trailing, fun line => ?_⟩
  · obtain ⟨typed, htyped, hdelimits⟩ := AttributePath.exists_delimits hparse
    exact ⟨Text.isBoundary_of_between? htyped, typed, htyped, hdelimits⟩
  · intro completion hcompletion
    obtain ⟨path, typed, hbefore, htyped, hcases⟩ := Tree.exists_between_offset hcompletion
    exact ⟨Text.isBoundary_of_between? htyped, path, typed, hbefore, htyped, hcases⟩
  · exact fun suggestion => Tree.exists_between_span
  · exact ⟨Highlight.isBoundary_indent line, Highlight.isBoundary_firstWord _,
      Highlight.isBoundary_tailOf _⟩

/-- The digits of an index behind a letter of two bytes, the bracket that is offered behind that
letter, and a line that goes on behind it. -/
theorem positions_in_range_index :
    (∃ path, AttributePath.parse "é[12" = .ok path ∧ path.insertionOffset = 3 ∧
      Text.IsBoundary "é[12" 3 ∧ path.Delimits 5 "12") ∧
    (∃ (tree : Tree) (completion : Completion), tree.complete false "é" 2 = some completion ∧
      completion.offset = 2 ∧ Text.IsBoundary "é" 2) ∧
    Command.parse "é b" = .error (.invalidCommand (.trailing 2 " b")) ∧
    Text.from? (Text.trim "é b") 2 = some " b" := by
  obtain ⟨hpaths, hcompletions, hcommands, -⟩ := positions_in_range
  have hparse : AttributePath.parse "é[12" = .ok ⟨.one "é", "", .listIndex, 3, none⟩ := rfl
  obtain ⟨⟨-, hplace, -⟩, typed, htyped, hdelimits⟩ := hpaths "é[12" _ hparse
  have hbetween : Text.between? "é[12" 3 5 = some "12" := by decide
  obtain rfl := Option.some.inj (hbetween.symm.trans htyped)
  let attr : Attribute := .mk (.container .list .unspecified) .readWrite none
  let tree : Tree := (∅ : Tree).insert "é" attr
  have hcompletion : tree.complete false "é" 2 = some ⟨["["], 2⟩ := by decide +kernel
  obtain ⟨⟨-, hoffset, -⟩, -⟩ := (hcompletions false tree "é" 2).1 _ hcompletion
  have hcommand : Command.parse "é b" = .error (.invalidCommand (.trailing 2 " b")) := by
    decide +kernel
  exact ⟨⟨_, hparse, rfl, hplace, hdelimits⟩, ⟨tree, _, hcompletion, rfl, hoffset⟩, hcommand,
    hcommands "é b" 2 " b" hcommand⟩

end AttributeShell
