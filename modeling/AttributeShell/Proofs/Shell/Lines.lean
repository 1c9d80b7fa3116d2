import AttributeShell.Proofs.Shell.Commands
import AttributeShell.Shell.Session

/-!
Recognising a command and reading it. Which lines are the shell's own commands is decided once by
their first word and once by reading them; the two never disagree. White space around a line does
not count, a line that is not a command of the shell is a path to describe or an error of one, and
describing a path that has been read so is never an error of syntax (`recognition_agrees`).
-/

namespace AttributeShell

namespace Command

variable {line path : String}

/-- A line that is not recognised is not known when it is read either. -/
theorem parseShellCommand_of_not_isShellCommand (hline : Text.trim line = line)
    (h : isShellCommand line = false) :
    parseShellCommand line = .error (.invalidCommand (.unknown line)) := by
  simp only [isShellCommand, Bool.or_eq_false_iff, Option.isSome_eq_false_iff,
    Option.isNone_iff_eq_none, beq_eq_false_iff_ne] at h
  obtain ⟨⟨⟨⟨⟨hgoTo, hwritable⟩, hhelp⟩, hexit⟩, hquit⟩, hreload⟩ := h
  simp only [parseShellCommand, hline, hgoTo, hwritable, hhelp, hexit, hquit, hreload, or_self,
    if_false]

/-- What is read as one of the shell's own commands is no line that it does not know. -/
theorem ne_unknown_of_isOwn {outcome : Except ParseError Command} (h : isOwn outcome = true)
    (text : String) : outcome ≠ .error (.invalidCommand (.unknown text)) := by
  rintro rfl
  cases h

theorem parsePath_ne_unknown (line text : String) :
    parsePath line ≠ .error (.invalidCommand (.unknown text)) := by
  rw [parsePath]
  cases hparse : AttributePath.parse line with
  | error error =>
    obtain ⟨_, _, _, -, hrefuses, -⟩ := AttributePath.exists_refused hparse
    obtain rfl | ⟨_, rfl⟩ := hrefuses <;> simp
  | ok path => cases hhalted : path.haltedAt <;> simp [hhalted]

/-- A line is read as a path to describe exactly if it is one to its end. -/
theorem parsePath_eq_describe_iff :
    parsePath line = .ok (.describe path) ↔ path = line ∧ IsPath line := by
  rw [parsePath, IsPath]
  cases hparse : AttributePath.parse line with
  | error error => simp
  | ok read =>
    cases hhalted : read.haltedAt with
    | none => simp [hhalted, eq_comm]
    | some offset => simp [hhalted]

/-- A line that is no shell command is read as its path, without the white space around it. -/
theorem parse_eq_describe_iff (h : isShellCommand (Text.trim line) = false) :
    parse line = .ok (.describe path) ↔
      path = Text.trim line ∧ path ≠ "" ∧ IsPath path := by
  simp only [parse, h, Bool.false_eq_true, if_false]
  by_cases hempty : Text.trim line = ""
  · rw [if_pos (String.isEmpty_iff.2 hempty)]
    constructor
    · intro h
      cases h
    · rintro ⟨rfl, hne, -⟩
      exact absurd hempty hne
  · rw [if_neg (by simpa using hempty), parsePath_eq_describe_iff]
    constructor
    · rintro ⟨rfl, hpath⟩
      exact ⟨rfl, hempty, hpath⟩
    · rintro ⟨rfl, -, hpath⟩
      exact ⟨rfl, hpath⟩

theorem parse_ne_unknown (line text : String) :
    parse line ≠ .error (.invalidCommand (.unknown text)) := by
  simp only [parse]
  split
  · simp
  split
  · next hcommand =>
    exact ne_unknown_of_isOwn (isOwn_parseShellCommand (Text.trim_trim line) hcommand) text
  · exact parsePath_ne_unknown _ text

/-- What is read as a path to describe is a path to its end. -/
theorem isPath_of_parse (h : parse line = .ok (.describe path)) : IsPath path := by
  by_cases hcommand : isShellCommand (Text.trim line) = true
  · have hown : isOwn (parse line) = true := (isOwn_parse line).trans hcommand
    rw [h] at hown
    cases hown
  · exact ((parse_eq_describe_iff (Bool.eq_false_iff.2 hcommand)).1 h).2.2

end Command

/-- A path that can be read to its end is described without an error of syntax. -/
theorem Shell.runDescribe_ne_parse {σ : Type} (source : Source σ) (now : Nat) (shell : Shell σ)
    {path : String} (h : IsPath path) (error : ParseError) :
    (shell.runDescribe source now path).1 ≠ .error (.parse error) := by
  obtain ⟨read, hparse, -⟩ := h
  simp only [runDescribe, hparse]
  split
  · simp
  · split <;> simp

/-- A line without white space around it is recognised as a command of the shell exactly if reading
it as one does not find it unknown. White space around a line changes nothing; reading a line never
finds an unknown command; a line that is no command of the shell is a path to describe exactly if
it is not blank and a path to its end; and to describe that path is no error of syntax, whatever
the source and the session are. -/
theorem Command.recognition_agrees (line : String) :
    (Text.trim line = line → (isShellCommand line = true ↔
      ∀ text, parseShellCommand line ≠ .error (.invalidCommand (.unknown text)))) ∧
    (∀ front back : String, (∀ c ∈ front.toList, Text.isBlank c) →
      (∀ c ∈ back.toList, Text.isBlank c) → parse (front ++ line ++ back) = parse line) ∧
    (∀ text, parse line ≠ .error (.invalidCommand (.unknown text))) ∧
    (isShellCommand (Text.trim line) = false → ∀ path,
      (parse line = .ok (.describe path) ↔
        path = Text.trim line ∧ path ≠ "" ∧ IsPath path)) ∧
    (∀ path, parse line = .ok (.describe path) →
      ∀ {σ : Type} (source : Source σ) (now : Nat) (shell : Shell σ) (error : ParseError),
        (shell.execute source now (.describe path)).1 ≠ .error (.parse error)) := by
  refine ⟨?_, ?_, parse_ne_unknown line, ?_, ?_⟩
  · intro hline
    constructor
    · intro hcommand
      exact ne_unknown_of_isOwn (isOwn_parseShellCommand hline hcommand)
    · intro hknown
      by_cases hcommand : isShellCommand line = true
      · exact hcommand
      · exact absurd (parseShellCommand_of_not_isShellCommand hline
          (Bool.eq_false_iff.2 hcommand)) (hknown line)
  · intro front back hfront hback
    have htrim : Text.trim (front ++ line ++ back) = Text.trim line := by
      rw [Text.trim, String.toList_append, String.toList_append,
        Text.trimmed_surrounded hfront hback, Text.trim]
    simp only [parse, htrim]
  · intro hcommand path
    exact parse_eq_describe_iff hcommand
  · intro path hparse σ source now shell error
    exact shell.runDescribe_ne_parse source now (isPath_of_parse hparse) error

/-- A keyword with an ideographic space behind it, a name that a keyword begins, a path with white
space around it, and what describing it comes to where nothing is known. -/
theorem Command.recognition_agrees_spaced :
    (Text.trim "writable\u3000on" = "writable\u3000on" ∧ isShellCommand "writable\u3000on" = true ∧
      ∀ text, parseShellCommand "writable\u3000on" ≠ .error (.invalidCommand (.unknown text))) ∧
    (Text.trim "cdrom.size" = "cdrom.size" ∧ isShellCommand "cdrom.size" = false ∧
      parse ("\u3000" ++ "cdrom.size" ++ "\t ") = parse "cdrom.size" ∧
      parse "cdrom.size" = .ok (.describe "cdrom.size")) ∧
    ∀ error, ((⟨{ address := .root }, ()⟩ : Shell Unit).execute (.fixed fun _ => none) 0
      (.describe "cdrom.size")).1 ≠ .error (.parse error) := by
  obtain ⟨hknown, -⟩ := recognition_agrees "writable\u3000on"
  obtain ⟨-, hspaced, -, hdescribes, hdescribed⟩ := recognition_agrees "cdrom.size"
  have hpath : IsPath "cdrom.size" := ⟨_, rfl, rfl⟩
  have hparse : parse "cdrom.size" = .ok (.describe "cdrom.size") :=
    (hdescribes rfl _).2 ⟨rfl, by decide, hpath⟩
  refine ⟨⟨rfl, rfl, (hknown rfl).1 rfl⟩, ⟨rfl, rfl, ?_, hparse⟩, hdescribed _ hparse _ _ _⟩
  exact hspaced _ _ (List.all_eq_true.1 rfl) (List.all_eq_true.1 rfl)

end AttributeShell
