import AttributeShell.Proofs.Path.Outcome
import AttributeShell.Command

/-!
Which lines are taken as commands of the shell itself. Whether a line is one can be told from what
it is read as: its own commands are read as themselves, or refused for their argument, and any other
line is read as a path to describe, or refused as a path (`isOwn_parse`).
-/

namespace AttributeShell.Command

/-- What a line is read as that is one of the shell's own commands: the command, or the usage of
it. -/
def isOwn : Except ParseError Command → Bool
  | .ok (.describe _) => false
  | .ok _ => true
  | .error (.invalidCommand (.switchUsage _)) => true
  | .error _ => false

variable {line : String}

theorem isOwn_ofSwitch (argument : String) : isOwn (ofSwitch argument) := by
  rw [ofSwitch]
  split
  · rfl
  · split <;> rfl

theorem isOwn_parseShellCommand (hline : Text.trim line = line) (h : isShellCommand line) :
    isOwn (parseShellCommand line) := by
  simp only [parseShellCommand, hline]
  split
  · rfl
  split
  · rfl
  split
  · rfl
  split
  · exact isOwn_ofSwitch _
  split
  · rfl
  · -- A word of the shell that none of the others is.
    simp_all [isShellCommand, Option.isSome_iff_exists]

theorem isOwn_parsePath (line : String) : isOwn (parsePath line) = false := by
  rw [parsePath]
  cases hparse : AttributePath.parse line with
  | error error =>
    obtain ⟨_, _, _, -, hrefuses, -⟩ := AttributePath.exists_refused hparse
    obtain rfl | ⟨_, rfl⟩ := hrefuses <;> rfl
  | ok path =>
    cases hhalted : path.haltedAt with
    | none => simp [hhalted, isOwn]
    | some offset => simp [hhalted, isOwn]

/-- A line is read as one of the shell's own commands exactly if it is one without the white space
around it. -/
theorem isOwn_parse (line : String) : isOwn (parse line) = isShellCommand (Text.trim line) := by
  simp only [parse]
  split
  · next hempty =>
    rw [String.isEmpty_iff.1 hempty]
    rfl
  split
  · next hcommand => rw [isOwn_parseShellCommand (Text.trim_trim line) hcommand, hcommand]
  · next hcommand => rw [isOwn_parsePath, Bool.eq_false_iff.2 hcommand]

end AttributeShell.Command
