import AttributeShell.Proofs.Path.Complete
import AttributeShell.Proofs.Path.Entering

/-!
The grammar of paths as a table, with a row for each state and a column for each kind of character.
A machine that has no stack, whose state is the one entered last and whose moves are the entries of
the table, reads every text as the automaton does (`parse_tabulated`). On the way the stack of the
automaton is always one of six.
-/

namespace AttributeShell

open Automaton

/-! ### The table -/

/-- The kinds of characters that the table tells apart. -/
inductive Column where
  | dot
  | openBracket
  | closeBracket
  | nameCharacter
  | other
  deriving Repr, DecidableEq

def Column.of (c : Char) : Column :=
  if c = '.' then dot
  else if c = '[' then openBracket
  else if c = ']' then closeBracket
  else if isNameCharacter c then nameCharacter
  else other

/-- What the table says to do with a character. -/
inductive Entry where
  | enter (mode : Mode)
  /-- Take the character into the current name. -/
  | consume
  /-- Take the character into the current index, if it is a digit, and refuse it otherwise. -/
  | consumeDigit
  | reject (expected : String)
  | halt
  /-- Leave the state, and read the character as at the front of a path. -/
  | leave
  deriving Repr, DecidableEq

/-- The table. -/
def Mode.entry : Mode → Column → Entry
  | initial, .dot => .enter dot
  | initial, .openBracket => .enter openBracket
  | initial, .closeBracket => .reject nameExpected
  | initial, .nameCharacter => .enter name
  | initial, .other => .halt
  | name, .dot => .leave
  | name, .openBracket => .leave
  | name, .closeBracket => .leave
  | name, .nameCharacter => .consume
  | name, .other => .leave
  | dot, _ => .leave
  | openBracket, _ => .enter listIndex
  | listIndex, .dot => .reject indexExpected
  | listIndex, .openBracket => .reject indexExpected
  | listIndex, .closeBracket => .enter closeBracket
  | listIndex, .nameCharacter => .consumeDigit
  | listIndex, .other => .reject indexExpected
  | closeBracket, _ => .leave

namespace Reading

/-- Enters a state, and does what is done with the character that led there: a separator closes the
name before it, a name begins with the character, and an index with a digit, or with the bracket
that ends it. -/
def enterOn (reading : Reading) (mode : Mode) (offset : Nat) (c : Char) : Scanned :=
  match mode with
  | .dot | .openBracket => reading.separate mode offset c
  | .name => .going ((reading.enter .name offset c).push c)
  | .listIndex =>
    if c.isDigit then .going ((reading.enter .listIndex offset c).push c)
    else if c = ']' then .going (reading.enter .listIndex offset c)
    else .failed (.unexpected c offset Mode.indexExpected)
  | .initial | .closeBracket => .going (reading.enter mode offset c)

/-- Does what an entry of the table says. The initial state is never left. -/
def obey (reading : Reading) (entry : Entry) (offset : Nat) (c : Char) : Scanned :=
  match entry with
  | .enter mode => reading.enterOn mode offset c
  | .consume => .going (reading.push c)
  | .consumeDigit =>
    if c.isDigit then .going (reading.push c)
    else .failed (.unexpected c offset Mode.indexExpected)
  | .reject expected => .failed (.unexpected c offset expected)
  | .halt => .halted { reading with haltedAt := some offset }
  | .leave => .going reading

/-- What is left of a reading when its state is left: the digits of an index go with the bracket
behind it. -/
def leaving (reading : Reading) : Reading :=
  if reading.mode = some .closeBracket then reading.clear else reading

/-- Reads a character by the table: by the row of the state entered last, and if that state is left,
by the first row. -/
def nextByTable (reading : Reading) (offset : Nat) (c : Char) : Scanned :=
  match (reading.mode.getD .initial).entry (.of c) with
  | .leave => reading.leaving.obey (Mode.initial.entry (.of c)) offset c
  | entry => reading.obey entry offset c

def advanceByTable (reading : Reading) : List Char → Nat → Scanned
  | [], _ => .going reading
  | c :: cs, offset =>
    (reading.nextByTable offset c).andThen fun reading =>
      reading.advanceByTable cs (offset + c.utf8Size)

end Reading

/-- Reads an attribute path by the table, without a stack. -/
def AttributePath.parseByTable (text : String) : Except ParseError AttributePath :=
  (Reading.advanceByTable {} text.toList 0).path

theorem Column.of_isNameCharacter {c : Char} (h : isNameCharacter c) :
    Column.of c = .nameCharacter := by
  have hother := isSeparator_of_isNameCharacter h
  simp only [isSeparator, Bool.or_eq_false_iff, beq_eq_false_iff_ne] at hother
  simp [Column.of, hother, h]

namespace Reading

variable {reading : Reading} {offset : Nat} {c : Char}

theorem afresh_eq_obey (reading : Reading) (offset : Nat) (c : Char) :
    reading.afresh offset c = reading.obey (Mode.initial.entry (.of c)) offset c := by
  rw [afresh, Column.of]
  split_ifs <;> rfl

/-- The first row is obeyed where the path begins. -/
theorem afresh_eq_nextByTable (hmode : reading.mode = none ∨ reading.mode = some .initial) :
    reading.afresh offset c = reading.nextByTable offset c := by
  have hrow : reading.mode.getD .initial = .initial := by
    rcases hmode with h | h <;> rw [h] <;> rfl
  rw [afresh_eq_obey, nextByTable, hrow]
  generalize Column.of c = column
  cases column <;> rfl

/-- Where a state is left, the first row is obeyed as well. -/
theorem nextByTable_of_leave {mode : Mode} (hmode : reading.mode = some mode)
    (hleave : mode.entry (.of c) = .leave) :
    reading.nextByTable offset c = reading.leaving.afresh offset c := by
  rw [nextByTable, hmode, Option.getD_some, hleave, afresh_eq_obey]

theorem next_eq_nextByTable (reading : Reading) (offset : Nat) (c : Char) :
    reading.next offset c = reading.nextByTable offset c := by
  rw [next]
  cases hmode : reading.mode with
  | none => exact afresh_eq_nextByTable (.inl hmode)
  | some mode =>
    cases mode with
    | initial => exact afresh_eq_nextByTable (.inr hmode)
    | name =>
      have hleaving : reading.leaving = reading := by simp [leaving, hmode]
      by_cases hname : isNameCharacter c
      · rw [nextByTable, hmode, Option.getD_some, Column.of_isNameCharacter hname]
        exact if_pos hname
      · have hleave : Mode.name.entry (.of c) = .leave := by
          rw [Column.of]
          split_ifs <;> rfl
        rw [nextByTable_of_leave hmode hleave, hleaving]
        exact if_neg hname
    | dot =>
      have hleaving : reading.leaving = reading := by simp [leaving, hmode]
      rw [nextByTable_of_leave hmode rfl, hleaving]
    | openBracket =>
      rw [nextByTable, hmode]
      rfl
    | listIndex =>
      rw [nextByTable, hmode, Option.getD_some]
      by_cases hdigit : c.isDigit
      · have hclose : c ≠ ']' := by rintro rfl; simp at hdigit
        rw [Column.of_isNameCharacter (isNameCharacter_of_isDigit hdigit)]
        simp [Mode.entry, obey, hdigit, hclose]
      · -- Whatever else it is but the closing bracket is refused.
        rw [Column.of]
        split_ifs <;> simp_all [Mode.entry, obey, enterOn]
    | closeBracket =>
      have hleaving : reading.leaving = reading.clear := by simp [leaving, hmode]
      rw [nextByTable_of_leave hmode rfl, hleaving]

theorem advance_eq_advanceByTable (reading : Reading) (cs : List Char) (offset : Nat) :
    reading.advance cs offset = reading.advanceByTable cs offset := by
  induction cs generalizing reading offset with
  | nil => rfl
  | cons c cs ih =>
    rw [advance_cons, advanceByTable, next_eq_nextByTable]
    apply congrArg
    funext read
    exact ih read _

/-! ### Where the automaton stands -/

variable {after : Reading}

theorem Moves.exists_mode (h : Moves reading offset c after) : ∃ mode, after.mode = some mode := by
  cases h with
  | continueName hmode => exact ⟨.name, hmode⟩
  | continueIndex hmode => exact ⟨.listIndex, hmode⟩
  | beginName | beginNameAfterIndex | closeName | separateAfterIndex | beginIndex | swallowBracket
  | closeIndex => exact ⟨_, rfl⟩

/-- A state has been entered as soon as a character has been read. -/
theorem mode_eq_none_iff {cs : List Char} (h : advance {} cs 0 = .going reading) :
    reading.mode = none ↔ cs = [] := by
  constructor
  · intro hmode
    rcases List.eq_nil_or_concat cs with hnil | ⟨before, c, rfl⟩
    · exact hnil
    · rw [List.concat_eq_append, advance_append] at h
      obtain ⟨read, hread, hlast⟩ := Scanned.andThen_eq_going.1 h
      obtain ⟨after, hnext, hnil⟩ := Scanned.andThen_eq_going.1 hlast
      cases hnil
      have hbuffer := (fits_advance fits_empty hread).buffer
      obtain ⟨mode, hsome⟩ := (moves_of_next hbuffer hnext).exists_mode
      rw [hsome] at hmode
      cases hmode
  · rintro rfl
    cases h
    rfl

end Reading

/-- The stacks of states that occur, the innermost state first. -/
def Mode.stacks : List (List Mode) :=
  [[initial], [name, initial], [dot, initial], [openBracket, initial],
    [listIndex, openBracket, initial], [closeBracket, listIndex, openBracket, initial]]

/-- Where the automaton stands behind some characters, and what it keeps of them. -/
structure Stands (cs : List Char) (cursor : Cursor Mode) (reading : Reading) : Prop where
  stack : cursor.stack ∈ Mode.stacks
  alone : cursor.stack = [.initial] ↔ cs = []
  top : cs ≠ [] → reading.mode = some cursor.state
  /-- The name in the buffer is what has been read since the place of a completion. -/
  name : cursor.state = .name → IsName reading.buffer.toList ∧
    ∃ before, cs = before ++ reading.buffer.toList ∧
      Text.byteLength before = reading.insertionOffset
  separator : cursor.state = .dot ∨ cursor.state = .openBracket → reading.buffer = ""
  index : cursor.state = .listIndex ∨ cursor.state = .closeBracket →
    IsDigits reading.buffer.toList

section Following

variable {cs : List Char} {cursor : Cursor Mode} {reading : Reading}

theorem Follows.stack_eq (h : Follows cursor reading) :
    cursor.stack = Mode.nested reading.mode ++ [.initial] := by
  rw [Cursor.stack, h.nested, h.root]

theorem Follows.stack_mem (h : Follows cursor reading) : cursor.stack ∈ Mode.stacks := by
  rw [h.stack_eq]
  rcases reading.mode with _ | mode
  · decide
  · cases mode <;> decide

/-- The innermost state is the one entered last. -/
theorem Follows.mode_eq (h : Follows cursor reading) (hstate : cursor.state ≠ .initial) :
    reading.mode = some cursor.state := by
  have hhead : cursor.state = (Mode.nested reading.mode).headD .initial := by
    rw [Cursor.state, h.nested, h.root]
  rw [hhead] at hstate ⊢
  generalize reading.mode = mode at hstate ⊢
  rcases mode with _ | mode
  · exact absurd rfl hstate
  · cases mode <;> rfl

/-- Only the initial state is open as long as no state has been entered. -/
theorem Follows.alone_iff (h : Follows cursor reading) (hmode : reading.mode ≠ some .initial) :
    (cursor.stack = [.initial] ↔ reading.mode = none) ∧
      (cursor.state = .initial ↔ reading.mode = none) := by
  have hhead : cursor.state = (Mode.nested reading.mode).headD .initial := by
    rw [Cursor.state, h.nested, h.root]
  rw [h.stack_eq, hhead]
  generalize reading.mode = entered at hmode
  rcases entered with _ | mode
  · exact ⟨by simp [Mode.nested], by simp [Mode.nested]⟩
  · cases mode with
    | initial => exact absurd rfl hmode
    | name | dot | openBracket | listIndex | closeBracket =>
      exact ⟨by simp [Mode.nested], by simp [Mode.nested]⟩

theorem stands_of_advance (hfollows : Follows cursor reading)
    (h : Reading.advance {} cs 0 = .going reading) : Stands cs cursor reading := by
  have hfits := Reading.fits_advance Reading.fits_empty h
  have hbuffer := hfits.buffer
  have hempty := Reading.mode_eq_none_iff h
  have hentered : reading.mode ≠ some .initial := by
    intro hmode
    rw [hmode] at hbuffer
    exact hbuffer
  obtain ⟨hstack, hinitial⟩ := hfollows.alone_iff hentered
  have hstate (mode : Mode) (hmode : cursor.state = mode) (hne : mode ≠ .initial) :
      reading.mode = some mode := by
    rw [← hmode] at hne ⊢
    exact hfollows.mode_eq hne
  constructor
  · exact hfollows.stack_mem
  · rw [hstack, hempty]
  · intro hne
    apply hfollows.mode_eq
    rw [Ne, hinitial, hempty]
    exact hne
  · intro hname
    have hmode := hstate .name hname (by simp)
    obtain ⟨before, start, hcs, -, -, -⟩ := Reading.exists_beginsName h hmode
    rw [hmode] at hbuffer
    have hplace := hfits.place
    have htyped : reading.typed = reading.buffer := by simp [Reading.typed, hmode]
    refine ⟨⟨by simpa using hbuffer.1, hbuffer.2⟩, before, hcs, ?_⟩
    have hlength := congrArg Text.byteLength hcs
    rw [Text.byteLength_append] at hlength
    rw [htyped, Text.size] at hplace
    omega
  · rintro (hdot | hopen)
    · rw [hstate .dot hdot (by simp)] at hbuffer
      exact hbuffer
    · rw [hstate .openBracket hopen (by simp)] at hbuffer
      exact hbuffer
  · rintro (hindex | hclose)
    · rw [hstate .listIndex hindex (by simp)] at hbuffer
      exact hbuffer
    · rw [hstate .closeBracket hclose (by simp)] at hbuffer
      exact hbuffer

end Following

theorem stands_of_consume {cs : List Char} {cursor : Cursor Mode} {reading : Reading}
    (h : consume AttributePath.patience Mode.state Reading.observe cs 0 (Cursor.start .initial) {} =
      .going cursor reading) : Stands cs cursor reading := by
  have hstart : Follows (Cursor.start .initial) {} := ⟨rfl, rfl, rfl⟩
  have hagrees := consume_agrees hstart cs 0
  rw [h] at hagrees
  generalize houtcome : Reading.advance {} cs 0 = outcome at hagrees
  cases hagrees with
  | going hfollows => exact stands_of_advance hfollows houtcome

namespace AttributePath

/-- The automaton of paths reads a text by the table. Behind every beginning of the text that
belongs to the path it stands on one of six stacks, with the state entered last on top. Each
character enters at most one state, the place of a completion never goes back, and what is read is
what the machine without a stack reads by the table. -/
theorem parse_tabulated (text : String) :
    (∀ cs rest cursor reading, text.toList = cs ++ rest →
      consume patience Mode.state Reading.observe cs 0 (Cursor.start .initial) {} =
        .going cursor reading → Stands cs cursor reading) ∧
    ((history text).filter fun entry => entry.1.kind = .enter).Pairwise
      (fun first second => first.1.offset < second.1.offset) ∧
    (history text).Pairwise (fun first second => first.2 ≤ second.2) ∧
    parse text = parseByTable text := by
  refine ⟨?_, enters_history_ascending text, (ascends_history text).places, ?_⟩
  · intro cs rest cursor reading _ hconsume
    exact stands_of_consume hconsume
  · rw [parse_eq, parseByTable, Reading.advance_eq_advanceByTable]

/-- Inside an index, in front of a further name. -/
theorem parse_tabulated_index :
    consume patience Mode.state Reading.observe "é[1".toList 0 (Cursor.start .initial) {} =
        .going ⟨.initial, [.listIndex, .openBracket], 3, '1', false⟩
          ⟨.one "é", "1", some .listIndex, some '1', 3, none⟩ ∧
      Stands "é[1".toList ⟨.initial, [.listIndex, .openBracket], 3, '1', false⟩
        ⟨.one "é", "1", some .listIndex, some '1', 3, none⟩ ∧
      parse "é[1].b" = parseByTable "é[1].b" ∧
      parseByTable "é[1].b" = .ok ⟨.one "é", "b", .name, 6, none⟩ := by
  have hconsume : consume patience Mode.state Reading.observe "é[1".toList 0
      (Cursor.start .initial) {} = .going ⟨.initial, [.listIndex, .openBracket], 3, '1', false⟩
        ⟨.one "é", "1", some .listIndex, some '1', 3, none⟩ := rfl
  obtain ⟨hstands, -, -, hparse⟩ := parse_tabulated "é[1].b"
  exact ⟨hconsume, hstands _ "].b".toList _ _ rfl hconsume, hparse, rfl⟩

end AttributePath

end AttributeShell
