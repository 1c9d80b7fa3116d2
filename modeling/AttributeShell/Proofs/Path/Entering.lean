import AttributeShell.Proofs.Automaton.Nesting
import AttributeShell.Proofs.Path.Invariant

/-!
Which states are entered while a path is read. A character enters at most one state, so that the
states of a text are entered at ascending positions; as a completion goes to where the last state
was entered, or behind the separator there, its place never goes back.
-/

namespace AttributeShell

open Automaton

/-! ### What a character enters -/

/-- The events of entering a state, among others. -/
def enters {S : Type} (events : List (Event S)) : List (Event S) :=
  events.filter fun event => event.kind = .enter

/-- The nested states are those that belong to the state entered last. -/
structure Stacked (cursor : Cursor Mode) : Prop where
  root : cursor.root = .initial
  nested : ∃ mode, cursor.nested = Mode.nested mode
  escaped : cursor.escaped = false

/-- At most so many states are entered, and the run is left with the states that belong to the last
one. -/
structure EntersAtMost (count : Nat) (told : List (Event Mode) × Course Mode) : Prop where
  length_le : (enters told.1).length ≤ count
  stacked : ∀ ended, told.2 = .going ended → Stacked ended

/-- Nothing is entered, and the run goes on. -/
theorem entersAtMost_going {events : List (Event Mode)} {cursor : Cursor Mode}
    (hevents : enters events = []) (hcursor : Stacked cursor) (count : Nat) :
    EntersAtMost count (events, .going cursor) where
  length_le := by simp [hevents]
  stacked := by
    intro ended hended
    cases hended
    exact hcursor

/-- The run ends here. -/
theorem entersAtMost_nil {course : Course Mode} (hcourse : ∀ ended, course ≠ .going ended)
    (count : Nat) : EntersAtMost count ([], course) where
  length_le := Nat.zero_le count
  stacked := by
    intro ended hended
    exact absurd hended (hcourse ended)

section Handlers

variable {cursor : Cursor Mode} {count : Nat} (patience : Nat)

theorem entersAtMost_enter {mode : Mode}
    (h : EntersAtMost count (follow Mode.state patience (Mode.state mode).onEnter
      { cursor with nested := mode :: cursor.nested })) :
    EntersAtMost (count + 1) (follow Mode.state (patience + 1) (.enter mode) cursor) := by
  rw [follow]
  exact ⟨Nat.succ_le_succ h.length_le, h.stacked⟩

/-- Leaving a state enters none, so that what follows counts alone. -/
theorem entersAtMost_leave {mode : Mode} {outer : List Mode}
    (hnested : cursor.nested = mode :: outer)
    (h : EntersAtMost count (follow Mode.state patience
      (Mode.state (outer.headD cursor.root)).onReturn { cursor with nested := outer })) :
    EntersAtMost count (follow Mode.state (patience + 1) .leave cursor) := by
  rw [follow, hnested]
  exact ⟨h.length_le, h.stacked⟩

theorem entersAtMost_word (h : Stacked cursor) :
    EntersAtMost count (follow Mode.state (patience + 1) (.word false) cursor) := by
  rw [follow]
  exact entersAtMost_going rfl h count

theorem stacked_enter {mode : Mode} (h : AtRoot cursor)
    (hmode : Mode.nested (some mode) = [mode]) :
    Stacked { cursor with nested := mode :: cursor.nested } where
  root := h.root
  nested := by
    refine ⟨some mode, ?_⟩
    rw [hmode, h.nested]
  escaped := h.escaped

/-- A separator is entered from the initial state, and does nothing more. -/
theorem entersAtMost_separator {mode : Mode} (h : AtRoot cursor)
    (hmode : Mode.nested (some mode) = [mode]) (hignore : (Mode.state mode).onEnter = .ignore) :
    EntersAtMost 1 (follow Mode.state (patience + 2) (.enter mode) cursor) := by
  apply entersAtMost_enter
  rw [hignore, follow]
  exact entersAtMost_going rfl (stacked_enter h hmode) 0

theorem entersAtMost_initial (h : AtRoot cursor) :
    EntersAtMost 1 (follow Mode.state (patience + 5)
      ((Mode.state .initial).handler cursor.character) cursor) := by
  rw [handler_initial]
  split_ifs with hdot hopen hclose
  · exact entersAtMost_separator _ h rfl rfl
  · exact entersAtMost_separator _ h rfl rfl
  · exact entersAtMost_nil (by simp) 1
  · rw [follow]
    split_ifs with hname
    · -- The name that is entered takes its first character by looking it up again.
      apply entersAtMost_enter
      show EntersAtMost 0 (follow Mode.state (patience + 3) .redispatch _)
      rw [follow]
      show EntersAtMost 0 (follow Mode.state (patience + 2)
        (.classify isNameCharacter (.word false) .leave) _)
      rw [follow, if_pos hname]
      exact entersAtMost_word _ (stacked_enter h rfl)
    · exact entersAtMost_nil (by simp) 1

/-- Back in the initial state, the character that led there is looked up once more. -/
theorem entersAtMost_returned (h : AtRoot cursor) :
    EntersAtMost 1 (follow Mode.state (patience + 7) (Mode.state .initial).onReturn cursor) := by
  have hstate : cursor.state = .initial := by simp [Cursor.state, h.root, h.nested]
  have hlookup : follow Mode.state (patience + 6) .redispatch cursor =
      follow Mode.state (patience + 5) ((Mode.state .initial).handler cursor.character) cursor := by
    rw [follow, hstate, handler_initial]
    split_ifs <;> rfl
  show EntersAtMost 1 (follow Mode.state (patience + 7)
    (.classify isPathCharacter .redispatch .halt) cursor)
  rw [follow]
  split_ifs with hpath
  · rw [hlookup]
    exact entersAtMost_initial patience h
  · exact entersAtMost_nil (by simp) 1

end Handlers

/-- One character enters at most one state, whatever state is the innermost. -/
theorem entersAtMost_one {cursor : Cursor Mode} (h : Stacked cursor) :
    EntersAtMost 1 (follow Mode.state AttributePath.patience
      ((Mode.state cursor.state).handler cursor.character) cursor) := by
  obtain ⟨root, nested, offset, c, escaped⟩ := cursor
  obtain ⟨rfl, ⟨mode, rfl⟩, rfl⟩ := h
  have hpatience : AttributePath.patience = 6 + 10 := rfl
  rw [hpatience]
  cases mode with
  | none => exact entersAtMost_initial _ ⟨rfl, rfl, rfl⟩
  | some mode =>
    cases mode with
    | initial => exact entersAtMost_initial _ ⟨rfl, rfl, rfl⟩
    | name =>
      show EntersAtMost 1 (follow _ _ (.classify isNameCharacter (.word false) .leave) _)
      rw [follow]
      split_ifs
      · exact entersAtMost_word _ ⟨rfl, ⟨some .name, rfl⟩, rfl⟩
      · exact entersAtMost_leave _ rfl (entersAtMost_returned _ ⟨rfl, rfl, rfl⟩)
    | dot => exact entersAtMost_leave _ rfl (entersAtMost_returned _ ⟨rfl, rfl, rfl⟩)
    | openBracket =>
      -- The index takes a digit or the bracket that ends it, and refuses anything else.
      apply entersAtMost_enter
      show EntersAtMost 0 (follow _ _ (.classify Char.isDigit (.word false)
        (.classify (· == ']') .ignore (.reject Mode.indexExpected))) _)
      rw [follow]
      split_ifs
      · exact entersAtMost_word _ ⟨rfl, ⟨some .listIndex, rfl⟩, rfl⟩
      · rw [follow]
        split_ifs
        · exact entersAtMost_going rfl ⟨rfl, ⟨some .listIndex, rfl⟩, rfl⟩ 0
        · exact entersAtMost_nil (by simp) 0
    | listIndex =>
      show EntersAtMost 1 (follow _ _ ((Mode.state .listIndex).handler c) _)
      rw [handler_listIndex]
      split_ifs
      · apply entersAtMost_enter
        exact entersAtMost_going rfl ⟨rfl, ⟨some .closeBracket, rfl⟩, rfl⟩ 0
      · rw [follow]
        split_ifs
        · exact entersAtMost_word _ ⟨rfl, ⟨some .listIndex, rfl⟩, rfl⟩
        · exact entersAtMost_nil (by simp) 1
    | closeBracket =>
      -- Leaving the bracket leaves the index and the bracket that opened it as well.
      exact entersAtMost_leave _ rfl (entersAtMost_leave _ rfl (entersAtMost_leave _ rfl
        (entersAtMost_returned _ ⟨rfl, rfl, rfl⟩)))

/-! ### The states of a text -/

/-- The states that are entered by some characters are entered at ascending positions. -/
theorem enters_scan_ascending {cursor : Cursor Mode} (h : Stacked cursor) (cs : List Char)
    (offset : Nat) :
    (enters (scan AttributePath.patience Mode.state cs offset cursor).1).Pairwise
      fun first second => first.offset < second.offset := by
  induction cs generalizing cursor offset with
  | nil => exact .nil
  | cons c rest ih =>
    have hmoved : Stacked (cursor.moveTo offset c) := ⟨h.root, h.nested, rfl⟩
    have hone : EntersAtMost 1 (follow Mode.state AttributePath.patience
        (cursor.firstHandler Mode.state c) (cursor.moveTo offset c)) := by
      rw [Cursor.firstHandler, h.escaped]
      exact entersAtMost_one hmoved
    obtain ⟨middle, hleads⟩ := exists_leadsTo Mode.state AttributePath.patience
      (cursor.firstHandler Mode.state c) (cursor.moveTo offset c)
    rw [scan]
    generalize follow Mode.state AttributePath.patience (cursor.firstHandler Mode.state c)
      (cursor.moveTo offset c) = told at hone hleads
    obtain ⟨events, course⟩ := told
    -- One event cannot be out of order.
    have hfirst : (enters events).Pairwise fun first second => first.offset < second.offset := by
      have hlength := hone.length_le
      rcases henters : enters events with _ | ⟨event, _ | ⟨other, more⟩⟩
      · exact .nil
      · exact List.pairwise_singleton _ _
      · rw [henters] at hlength
        simp at hlength
    cases course with
    | going reached =>
      obtain ⟨after, hpasses⟩ :=
        exists_passes Mode.state AttributePath.patience rest (offset + c.utf8Size) reached
      show (enters (events ++ _)).Pairwise _
      rw [enters, List.filter_append]
      refine List.pairwise_append.2 ⟨hfirst, ih (hone.stacked reached rfl) _, ?_⟩
      intro first hf second hs
      have hhere := (hleads.cascades.offset_of_mem first (List.mem_filter.1 hf).1).1
      have hlater := (hpasses.inside second (List.mem_filter.1 hs).1).1.le
      have hsize := Char.utf8Size_pos c
      have hoffset : (cursor.moveTo offset c).offset = offset := rfl
      omega
    | halted reached => exact hfirst
    | failed error => exact hfirst
    | exhausted => exact hfirst

theorem enters_closing_eq_nil {S : Type} (grammar : Grammar S) (length : Nat)
    (course : Course S) : enters (course.closing grammar length).1 = [] := by
  cases course with
  | going cursor =>
    obtain ⟨left, kept, -, hclosing, -⟩ :=
      exists_closing grammar length cursor.character cursor.nested
    show enters (closing grammar length cursor.character cursor.nested).1 = []
    rw [hclosing, enters, List.filter_eq_nil_iff]
    intro event hevent
    obtain ⟨state, -, rfl⟩ := List.mem_map.1 hevent
    simp [closingEvent]
  | halted cursor => rfl
  | failed error => rfl
  | exhausted => rfl

theorem enters_trace_ascending (text : String) :
    (enters (trace AttributePath.patience Mode.state .initial text).1).Pairwise
      fun first second => first.offset < second.offset := by
  have hstart : Stacked (Cursor.start .initial) := ⟨rfl, ⟨none, rfl⟩, rfl⟩
  have hscan := enters_scan_ascending hstart text.toList 0
  rw [trace]
  generalize scan AttributePath.patience Mode.state text.toList 0 (Cursor.start .initial) = told
    at hscan
  obtain ⟨events, course⟩ := told
  have hclosing := enters_closing_eq_nil Mode.state (Text.size text) course
  show (enters (events ++ (course.closing Mode.state (Text.size text)).1)).Pairwise _
  rw [enters] at hclosing
  rw [enters, List.filter_append, hclosing, List.append_nil]
  exact hscan

/-! ### The place of a completion -/

/-- The events of reading a text, each with the place that a completion has after it. -/
def AttributePath.history (text : String) : List (Event Mode × Nat) :=
  (run patience Mode.state .initial
    (Reading.observe.watched fun event reading => (event, reading.insertionOffset)) ({}, [])
    text).1.2

theorem insertionOffset_observe (event : Event Mode) (reading : Reading) :
    (Reading.observe event reading).1.insertionOffset =
      if event.kind = .enter then
        if isSeparator event.character then event.offset + 1 else event.offset
      else reading.insertionOffset := by
  rw [Reading.observe]
  cases hkind : event.kind with
  | enter => simp only [if_true]; split_ifs <;> simp_all [Reading.insertionOffset]
  | leave => simp only [reduceCtorEq, if_false]; split_ifs <;> rfl
  | character => rfl
  | halt => rfl

/-- The place of a completion does not go back at an event, and stays in front of the states that
are entered later. -/
theorem le_insertionOffset_observe {event : Event Mode} {events : List (Event Mode)}
    {reading : Reading}
    (hascending : (enters (event :: events)).Pairwise fun first second =>
      first.offset < second.offset)
    (hplace : ∀ entry ∈ enters (event :: events), reading.insertionOffset ≤ entry.offset) :
    reading.insertionOffset ≤ (Reading.observe event reading).1.insertionOffset ∧
      ∀ entry ∈ enters events,
        (Reading.observe event reading).1.insertionOffset ≤ entry.offset := by
  rw [insertionOffset_observe]
  by_cases hkind : event.kind = .enter
  · have henters : enters (event :: events) = event :: enters events := by
      simp [enters, hkind]
    rw [henters] at hascending hplace
    have hhere := hplace event List.mem_cons_self
    have hlater := (List.pairwise_cons.1 hascending).1
    rw [if_pos hkind]
    refine ⟨?_, ?_⟩
    · split_ifs <;> omega
    · intro entry hentry
      have hlt := hlater entry hentry
      split_ifs <;> omega
  · have henters : enters (event :: events) = enters events := by
      simp [enters, hkind]
    rw [henters] at hplace
    rw [if_neg hkind]
    exact ⟨Nat.le_refl _, hplace⟩

/-- What is noted down of some events: a beginning of them, with places that do not go back. -/
structure Ascends (events : List (Event Mode)) (place : Nat) (heard : List (Event Mode × Nat)) :
    Prop where
  isPrefix : heard.map Prod.fst <+: events
  places : heard.Pairwise fun first second => first.2 ≤ second.2
  above : ∀ entry ∈ heard, place ≤ entry.2

theorem exists_heard (events : List (Event Mode)) (reading : Reading)
    (noted : List (Event Mode × Nat))
    (hascending : (enters events).Pairwise fun first second => first.offset < second.offset)
    (hplace : ∀ entry ∈ enters events, reading.insertionOffset ≤ entry.offset) :
    ∃ heard,
      (tell (Reading.observe.watched fun event reading => (event, reading.insertionOffset)) events
        (reading, noted)).1.2 = noted ++ heard ∧
      Ascends events reading.insertionOffset heard := by
  induction events generalizing reading noted with
  | nil => exact ⟨[], by simp, ⟨List.prefix_rfl, .nil, by simp⟩⟩
  | cons event events ih =>
    obtain ⟨hgrows, hlater⟩ := le_insertionOffset_observe hascending hplace
    have htail : (enters events).Pairwise fun first second => first.offset < second.offset :=
      hascending.sublist ((List.sublist_cons_self event events).filter _)
    rcases hobserve : Reading.observe event reading with ⟨after, fault⟩
    rw [hobserve] at hgrows hlater
    have hwatched := Observer.watched_eq hobserve
      (fun event reading => (event, reading.insertionOffset)) noted
    cases fault with
    | none =>
      obtain ⟨heard, htell, hbegins, hplaces, habove⟩ :=
        ih after (noted ++ [(event, after.insertionOffset)]) htail hlater
      refine ⟨(event, after.insertionOffset) :: heard, ?_, ?_, ?_, ?_⟩
      · rw [tell_cons_of_none hwatched, htell, List.append_assoc, List.singleton_append]
      · exact List.cons_prefix_cons.2 ⟨rfl, hbegins⟩
      · exact List.pairwise_cons.2 ⟨habove, hplaces⟩
      · refine List.forall_mem_cons.2 ⟨hgrows, ?_⟩
        intro entry hentry
        exact Nat.le_trans hgrows (habove entry hentry)
    | some error =>
      refine ⟨[(event, after.insertionOffset)], ?_, ?_, List.pairwise_singleton _ _, ?_⟩
      · rw [tell_cons_of_some hwatched]
      · exact List.cons_prefix_cons.2 ⟨rfl, List.nil_prefix⟩
      · intro entry hentry
        rw [List.mem_singleton.1 hentry]
        exact hgrows

theorem ascends_history (text : String) :
    Ascends (trace AttributePath.patience Mode.state .initial text).1 0
      (AttributePath.history text) := by
  obtain ⟨heard, htell, hascends⟩ := exists_heard
    (trace AttributePath.patience Mode.state .initial text).1 {} []
    (enters_trace_ascending text) (fun entry _ => Nat.zero_le entry.offset)
  have hrun : AttributePath.history text = heard := by
    rw [AttributePath.history, run_eq_tell, Ending.fst_after, htell, List.nil_append]
  rw [hrun]
  exact hascends

/-- The states of a text are entered at ascending positions, as far as it is read: no character
enters two of them. -/
theorem enters_history_ascending (text : String) :
    ((AttributePath.history text).filter fun entry => entry.1.kind = .enter).Pairwise
      fun first second => first.1.offset < second.1.offset := by
  have hbegins := (ascends_history text).isPrefix
  have hpairwise := (enters_trace_ascending text).sublist (hbegins.sublist.filter _)
  rw [List.filter_map, List.pairwise_map] at hpairwise
  exact hpairwise

end AttributeShell
