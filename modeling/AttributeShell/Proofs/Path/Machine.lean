import AttributeShell.Path.Basic
import Mathlib.Tactic.SplitIfs

/-!
The grammar of paths as a machine without a stack. The only state of the machine is the one entered
last, which a `Reading` keeps anyway; leaving a dot or an index comes down to reading the next
character as at the front of a path.

The machine reads every text as the automaton does (`AttributePath.parse_eq`). The stack of the
automaton is the one that belongs to the state entered last, and this is the invariant of the
simulation (`Follows`).
-/

namespace AttributeShell

open Automaton

/-- What has become of a reading after some characters. -/
inductive Scanned where
  | going (reading : Reading)
  | halted (reading : Reading)
  | failed (error : ParseError)
  deriving Repr, DecidableEq

namespace Scanned

/-- Goes on reading unless the path has ended. -/
def andThen (outcome : Scanned) (more : Reading → Scanned) : Scanned :=
  match outcome with
  | going reading => more reading
  | halted reading => halted reading
  | failed error => failed error

@[simp] theorem going_andThen (reading : Reading) (more : Reading → Scanned) :
    (going reading).andThen more = more reading := rfl

@[simp] theorem halted_andThen (reading : Reading) (more : Reading → Scanned) :
    (halted reading).andThen more = halted reading := rfl

@[simp] theorem failed_andThen (error : ParseError) (more : Reading → Scanned) :
    (failed error).andThen more = failed error := rfl

theorem andThen_eq_going {outcome : Scanned} {more : Reading → Scanned} {after : Reading} :
    outcome.andThen more = going after ↔
      ∃ reading, outcome = going reading ∧ more reading = going after := by
  cases outcome <;> simp

end Scanned

namespace Reading

def enter (reading : Reading) (mode : Mode) (offset : Nat) (c : Char) : Reading :=
  { reading with mode := some mode, enteredOn := some c, enteredAt := offset }

/-- Takes a character into the current name or index. -/
def push (reading : Reading) (c : Char) : Reading :=
  { reading with buffer := reading.buffer.push c }

/-- Drops the digits of an index. -/
def clear (reading : Reading) : Reading := { reading with buffer := "" }

/-- Closes the current name. -/
def commit (reading : Reading) : Reading :=
  { reading.clear with segments := reading.segments.push reading.buffer }

/-- A dot or an opening bracket closes the name before it, unless an index stands there. -/
def separate (reading : Reading) (mode : Mode) (offset : Nat) (c : Char) : Scanned :=
  if reading.mode = some .closeBracket then .going (reading.enter mode offset c)
  else if reading.buffer.isEmpty then .failed (.missingName c offset)
  else .going (reading.commit.enter mode offset c)

/-- Reads a character as at the front of a path. -/
def afresh (reading : Reading) (offset : Nat) (c : Char) : Scanned :=
  if c = '.' then reading.separate .dot offset c
  else if c = '[' then reading.separate .openBracket offset c
  else if c = ']' then .failed (.unexpected c offset Mode.nameExpected)
  else if isNameCharacter c then .going ((reading.enter .name offset c).push c)
  else .halted { reading with haltedAt := some offset }

def next (reading : Reading) (offset : Nat) (c : Char) : Scanned :=
  match reading.mode with
  | none | some .initial | some .dot => reading.afresh offset c
  | some .name =>
    if isNameCharacter c then .going (reading.push c) else reading.afresh offset c
  | some .openBracket =>
    if c.isDigit then .going ((reading.enter .listIndex offset c).push c)
    else if c = ']' then .going (reading.enter .listIndex offset c)
    else .failed (.unexpected c offset Mode.indexExpected)
  | some .listIndex =>
    if c = ']' then .going (reading.enter .closeBracket offset c)
    else if c.isDigit then .going (reading.push c)
    else .failed (.unexpected c offset Mode.indexExpected)
  | some .closeBracket => reading.clear.afresh offset c

def advance (reading : Reading) : List Char → Nat → Scanned
  | [], _ => .going reading
  | c :: cs, offset =>
    (reading.next offset c).andThen fun reading => reading.advance cs (offset + c.utf8Size)

@[simp] theorem mode_enter (reading : Reading) (mode : Mode) (offset : Nat) (c : Char) :
    (reading.enter mode offset c).mode = some mode := rfl

@[simp] theorem segments_enter (reading : Reading) (mode : Mode) (offset : Nat) (c : Char) :
    (reading.enter mode offset c).segments = reading.segments := rfl

@[simp] theorem buffer_enter (reading : Reading) (mode : Mode) (offset : Nat) (c : Char) :
    (reading.enter mode offset c).buffer = reading.buffer := rfl

@[simp] theorem mode_push (reading : Reading) (c : Char) : (reading.push c).mode = reading.mode :=
  rfl

@[simp] theorem advance_nil (reading : Reading) (offset : Nat) :
    reading.advance [] offset = .going reading := rfl

theorem advance_cons (reading : Reading) (c : Char) (cs : List Char) (offset : Nat) :
    reading.advance (c :: cs) offset =
      (reading.next offset c).andThen fun reading => reading.advance cs (offset + c.utf8Size) := rfl

/-- Reading a text is reading its first part and then the second. -/
theorem advance_append (reading : Reading) (xs ys : List Char) (offset : Nat) :
    reading.advance (xs ++ ys) offset =
      (reading.advance xs offset).andThen fun reading =>
        reading.advance ys (offset + Text.byteLength xs) := by
  induction xs generalizing reading offset with
  | nil => rfl
  | cons c cs ih =>
    rw [List.cons_append, advance_cons, advance_cons]
    cases reading.next offset c with
    | going read =>
      rw [Scanned.going_andThen, Scanned.going_andThen, ih, Text.byteLength_cons, Nat.add_assoc]
    | halted read => rfl
    | failed error => rfl

/-- The reading once the text has ended: an index is left, and its digits are dropped. -/
def close (reading : Reading) : Reading :=
  match reading.mode with
  | some .listIndex | some .closeBracket => reading.clear
  | none | some .initial | some .name | some .dot | some .openBracket => reading

end Reading

/-- The path that has been read, or why there is none. -/
def Scanned.path : Scanned → Except ParseError AttributePath
  | going reading => .ok reading.close.toPath
  | halted reading => .ok reading.toPath
  | failed error => .error error

/-! ### The automaton follows the machine -/

/-- The states nested in the initial one when a state has been entered last. -/
def Mode.nested : Option Mode → List Mode
  | none | some initial => []
  | some name => [name]
  | some dot => [dot]
  | some openBracket => [openBracket]
  | some listIndex => [listIndex, openBracket]
  | some closeBracket => [closeBracket, listIndex, openBracket]

/-- The cursor stands where the machine does. -/
structure Follows (cursor : Cursor Mode) (reading : Reading) : Prop where
  root : cursor.root = .initial
  nested : cursor.nested = Mode.nested reading.mode
  escaped : cursor.escaped = false

structure AtRoot (cursor : Cursor Mode) : Prop where
  root : cursor.root = .initial
  nested : cursor.nested = []
  escaped : cursor.escaped = false

/-- What became of the characters is the same for the automaton as for the machine. -/
inductive Agrees : Progress Mode Reading → Scanned → Prop where
  | going {cursor reading} : Follows cursor reading →
    Agrees (.going cursor reading) (.going reading)
  | halted {cursor reading} :
    Agrees (.halted cursor reading) (.halted { reading with haltedAt := some cursor.offset })
  | failed {seen error} : Agrees (.failed seen error) (.failed error)

/-! What the states do with a character, with the triggers looked up. -/

theorem handler_initial (c : Char) : (Mode.state .initial).handler c =
    if c = '.' then .enter .dot
    else if c = '[' then .enter .openBracket
    else if c = ']' then .reject Mode.nameExpected
    else .classify isNameCharacter (.enter .name) .halt := by
  by_cases hdot : c = '.'
  · simp [Mode.state, State.handler, hdot]
  by_cases hopen : c = '['
  · simp [Mode.state, State.handler, hopen]
  by_cases hclose : c = ']'
  · simp [Mode.state, State.handler, hclose]
  · simp [Mode.state, State.handler, hdot, hopen, hclose, Ne.symm hdot, Ne.symm hopen,
      Ne.symm hclose]

theorem handler_listIndex (c : Char) : (Mode.state .listIndex).handler c =
    if c = ']' then .enter .closeBracket
    else .classify Char.isDigit (.word false) (.reject Mode.indexExpected) := by
  by_cases hclose : c = ']'
  · simp [Mode.state, State.handler, hclose]
  · simp [Mode.state, State.handler, hclose, Ne.symm hclose]

/-! What a handler makes of a reading. -/

section Handlers

variable {cursor : Cursor Mode} {reading : Reading} (patience : Nat)

theorem handle_enter {mode : Mode} (hmode : Reading.closesName mode = false) :
    handle Mode.state Reading.observe (patience + 1) (.enter mode) cursor reading =
      handle Mode.state Reading.observe patience (Mode.state mode).onEnter
        { cursor with nested := mode :: cursor.nested }
        (reading.enter mode cursor.offset cursor.character) := by
  simp [handle, report, Reading.observe, Cursor.event, Cursor.state, Reading.enter, hmode]

theorem handle_word :
    handle Mode.state Reading.observe (patience + 1) (.word false) cursor reading =
      .going cursor (reading.push cursor.character) := by
  simp [handle, report, Reading.observe, Cursor.event, Reading.push]

theorem handle_leave {mode : Mode} {outer : List Mode} (hnested : cursor.nested = mode :: outer) :
    handle Mode.state Reading.observe (patience + 1) .leave cursor reading =
      handle Mode.state Reading.observe patience (Mode.state (outer.headD cursor.root)).onReturn
        { cursor with nested := outer }
        (if mode = .listIndex then reading.clear else reading) := by
  simp [handle, report, Reading.observe, Cursor.event, Cursor.state, Reading.clear, hnested]

/-- A separator is entered from the initial state, and its state lasts until the next character. -/
theorem handle_separator {mode : Mode} (h : AtRoot cursor) (hmode : Reading.closesName mode) :
    Agrees (handle Mode.state Reading.observe (patience + 2) (.enter mode) cursor reading)
      (reading.separate mode cursor.offset cursor.character) := by
  -- Of the two states that close a name neither does anything when it is entered.
  have hignore : (Mode.state mode).onEnter = .ignore := by
    cases mode <;> first | rfl | cases hmode
  have hstack : mode :: cursor.nested = Mode.nested (some mode) := by
    rw [h.nested]
    cases mode <;> first | rfl | cases hmode
  rw [Reading.separate]
  split_ifs with hclosed hempty
  · have hrun : handle Mode.state Reading.observe (patience + 2) (.enter mode) cursor reading =
        .going { cursor with nested := mode :: cursor.nested }
          (reading.enter mode cursor.offset cursor.character) := by
      simp [handle, report, Reading.observe, Cursor.event, Cursor.state, Reading.enter, hignore,
        hclosed]
    rw [hrun]
    exact .going ⟨h.root, hstack, h.escaped⟩
  · have hrun : handle Mode.state Reading.observe (patience + 2) (.enter mode) cursor reading =
        .failed (reading.enter mode cursor.offset cursor.character)
          (.missingName cursor.character cursor.offset) := by
      simp [handle, report, Reading.observe, Cursor.event, Cursor.state, Reading.enter, hmode,
        hclosed, hempty]
    rw [hrun]
    exact .failed
  · have hrun : handle Mode.state Reading.observe (patience + 2) (.enter mode) cursor reading =
        .going { cursor with nested := mode :: cursor.nested }
          (reading.commit.enter mode cursor.offset cursor.character) := by
      simp [handle, report, Reading.observe, Cursor.event, Cursor.state, Reading.enter,
        Reading.commit, Reading.clear, hignore, hmode, hclosed, hempty]
    rw [hrun]
    exact .going ⟨h.root, hstack, h.escaped⟩

theorem handle_initial (h : AtRoot cursor) :
    Agrees (handle Mode.state Reading.observe (patience + 5)
        ((Mode.state .initial).handler cursor.character) cursor reading)
      (reading.afresh cursor.offset cursor.character) := by
  rw [handler_initial, Reading.afresh]
  split_ifs with hdot hopen hclose hname
  · exact handle_separator _ h rfl
  · exact handle_separator _ h rfl
  · exact .failed
  · -- The name that is entered takes its first character by looking it up again.
    have hrun : handle Mode.state Reading.observe (patience + 5)
        (.classify isNameCharacter (.enter .name) .halt) cursor reading =
        .going { cursor with nested := .name :: cursor.nested }
          ((reading.enter .name cursor.offset cursor.character).push cursor.character) := by
      rw [handle, if_pos hname, handle_enter _ rfl]
      simp [handle, Mode.state, State.handler, Cursor.state, hname, report, Reading.observe,
        Cursor.event, Reading.push]
    rw [hrun]
    exact .going ⟨h.root, by rw [h.nested]; rfl, h.escaped⟩
  · rw [handle, if_neg hname]
    exact .halted

/-- Back in the initial state, the character that led there is read afresh. -/
theorem handle_returned (h : AtRoot cursor) :
    Agrees (handle Mode.state Reading.observe (patience + 7) (Mode.state .initial).onReturn
        cursor reading)
      (reading.afresh cursor.offset cursor.character) := by
  have hstate : cursor.state = .initial := by simp [Cursor.state, h.root, h.nested]
  have hlookup : handle Mode.state Reading.observe (patience + 6) .redispatch cursor reading =
      handle Mode.state Reading.observe (patience + 5)
        ((Mode.state .initial).handler cursor.character) cursor reading := by
    rw [handle, hstate, handler_initial]
    split_ifs <;> rfl
  change Agrees (handle Mode.state Reading.observe (patience + 7)
    (.classify isPathCharacter .redispatch .halt) cursor reading) _
  rw [handle]
  split_ifs with hpath
  · rw [hlookup]
    exact handle_initial patience h
  · have hother : reading.afresh cursor.offset cursor.character =
        .halted { reading with haltedAt := some cursor.offset } := by
      simp only [isPathCharacter, isSeparator, Bool.or_eq_true, beq_iff_eq, not_or] at hpath
      obtain ⟨hname, ⟨hdot, hopen⟩, hclose⟩ := hpath
      simp [Reading.afresh, hname, hdot, hopen, hclose]
    rw [hother]
    exact .halted

end Handlers

/-- Where the cursor stands, the character at hand is handled as the machine reads it. -/
theorem handle_agrees {cursor : Cursor Mode} {reading : Reading} (h : Follows cursor reading) :
    Agrees (handle Mode.state Reading.observe AttributePath.patience
        ((Mode.state cursor.state).handler cursor.character) cursor reading)
      (reading.next cursor.offset cursor.character) := by
  obtain ⟨root, nested, offset, c, escaped⟩ := cursor
  obtain ⟨rfl, rfl, rfl⟩ := h
  have hpatience : AttributePath.patience = 6 + 10 := rfl
  rw [hpatience, Reading.next]
  cases hmode : reading.mode with
  | none => exact handle_initial _ ⟨rfl, rfl, rfl⟩
  | some mode =>
    cases mode with
    | initial => exact handle_initial _ ⟨rfl, rfl, rfl⟩
    | name =>
      change Agrees (handle _ _ _ (.classify isNameCharacter (.word false) .leave) _ _)
        (if isNameCharacter c then _ else _)
      rw [handle]
      split_ifs with hname
      · rw [handle_word]
        exact .going ⟨rfl, by rw [Reading.push, hmode], rfl⟩
      · rw [handle_leave _ rfl]
        exact handle_returned _ ⟨rfl, rfl, rfl⟩
    | dot =>
      change Agrees (handle _ _ _ .leave _ _) _
      rw [handle_leave _ rfl]
      exact handle_returned _ ⟨rfl, rfl, rfl⟩
    | openBracket =>
      change Agrees (handle _ _ _ (.enter .listIndex) _ _) _
      rw [handle_enter _ rfl]
      change Agrees (handle _ _ _ (.classify Char.isDigit (.word false)
        (.classify (· == ']') .ignore (.reject Mode.indexExpected))) _ _) _
      rw [handle]
      simp only
      split_ifs with hdigit hclose
      · rw [handle_word]
        exact .going ⟨rfl, rfl, rfl⟩
      · rw [handle]
        simp only [hclose, BEq.rfl, if_true]
        exact .going ⟨rfl, rfl, rfl⟩
      · rw [handle]
        simp only [beq_iff_eq, hclose, if_false]
        exact .failed
    | listIndex =>
      change Agrees (handle _ _ _ ((Mode.state .listIndex).handler c) _ _) _
      rw [handler_listIndex]
      simp only
      split_ifs with hclose hdigit
      · rw [handle_enter _ rfl]
        exact .going ⟨rfl, rfl, rfl⟩
      · rw [handle, if_pos hdigit, handle_word]
        exact .going ⟨rfl, by rw [Reading.push, hmode], rfl⟩
      · rw [handle, if_neg hdigit]
        exact .failed
    | closeBracket =>
      -- Leaving the bracket leaves the index and the bracket that opened it as well.
      change Agrees (handle _ _ _ .leave _ _) _
      rw [handle_leave _ rfl]
      change Agrees (handle _ _ _ .leave _ _) _
      rw [handle_leave _ rfl]
      change Agrees (handle _ _ _ .leave _ _) _
      rw [handle_leave _ rfl]
      exact handle_returned _ ⟨rfl, rfl, rfl⟩

theorem step_agrees {cursor : Cursor Mode} {reading : Reading} (h : Follows cursor reading)
    (offset : Nat) (c : Char) :
    Agrees (step AttributePath.patience Mode.state Reading.observe offset c cursor reading)
      (reading.next offset c) := by
  have hmoved : Follows (cursor.moveTo offset c) reading := ⟨h.root, h.nested, rfl⟩
  rw [step, Cursor.firstHandler, h.escaped]
  exact handle_agrees hmoved

theorem consume_agrees {cursor : Cursor Mode} {reading : Reading} (h : Follows cursor reading)
    (cs : List Char) (offset : Nat) :
    Agrees (consume AttributePath.patience Mode.state Reading.observe cs offset cursor reading)
      (reading.advance cs offset) := by
  induction cs generalizing cursor reading offset with
  | nil => exact .going h
  | cons c cs ih =>
    have hstep := step_agrees h offset c
    rw [consume, Reading.advance]
    generalize step _ _ _ _ _ _ _ = progress at hstep
    generalize reading.next offset c = outcome at hstep
    cases hstep with
    | going hfollows => exact ih hfollows _
    | halted => exact .halted
    | failed => exact .failed

/-- The nested states are left without a complaint, and an index takes its digits along. -/
theorem finish_agrees {progress : Progress Mode Reading} {outcome : Scanned}
    (h : Agrees progress outcome) (length : Nat) :
    AttributePath.ofRun (progress.finish Mode.state Reading.observe length) = outcome.path := by
  cases h with
  | @going cursor reading h =>
    obtain ⟨root, nested, offset, c, escaped⟩ := cursor
    obtain ⟨rfl, rfl, rfl⟩ := h
    -- With the state known, the stack is a closed list and the leaving of it computes.
    obtain ⟨segments, buffer, mode, enteredOn, enteredAt, haltedAt⟩ := reading
    cases mode with
    | none => rfl
    | some mode => cases mode <;> rfl
  | halted => rfl
  | failed => rfl

/-- A text is read by the automaton as by the machine. -/
theorem AttributePath.parse_eq (text : String) :
    parse text = (Reading.advance {} text.toList 0).path :=
  finish_agrees (consume_agrees ⟨rfl, rfl, rfl⟩ _ _) _

end AttributeShell
