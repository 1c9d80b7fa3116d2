import AttributeShell.Proofs.Automaton.Trace

/-!
The events of a run are well nested, whatever the grammar. A state that is left is the innermost of
those that are open, positions never go back, and when a run comes to the end of its text all states
are left there, the innermost first (`run_wellNested`).

At one character the handlers of many states may follow one another. What such a cascade can do is
said once, by `Cascades`, and everything else is read off it.
-/

namespace AttributeShell.Automaton

variable {S σ : Type}

/-- The events enter and leave states that lie one inside the other. The states open at first are
`before`, those open at last `after`, the innermost first; only the innermost one can be left. -/
inductive Nests : List S → List (Event S) → List S → Prop where
  | nil (states : List S) : Nests states [] states
  | enter {event : Event S} {events : List (Event S)} {before after : List S} :
      event.kind = .enter → Nests (event.state :: before) events after →
      Nests before (event :: events) after
  | leave {event : Event S} {events : List (Event S)} {before after : List S} :
      event.kind = .leave → Nests before events after →
      Nests (event.state :: before) (event :: events) after
  | other {event : Event S} {events : List (Event S)} {before after : List S} :
      event.kind = .character ∨ event.kind = .halt → Nests before events after →
      Nests before (event :: events) after

theorem Nests.append {xs ys : List (Event S)} {before middle after : List S}
    (hxs : Nests before xs middle) (hys : Nests middle ys after) :
    Nests before (xs ++ ys) after := by
  induction hxs with
  | nil states => exact hys
  | enter hkind _ ih => exact .enter hkind (ih hys)
  | leave hkind _ ih => exact .leave hkind (ih hys)
  | other hkind _ ih => exact .other hkind (ih hys)

/-! ### A cascade at one character -/

/-- All that can happen at one character: its events, from a cursor to another. -/
inductive Cascades : Cursor S → List (Event S) → Cursor S → Prop where
  | nil (cursor : Cursor S) : Cascades cursor [] cursor
  | enter {cursor after : Cursor S} {events : List (Event S)} (state : S) :
      Cascades { cursor with nested := state :: cursor.nested } events after →
      Cascades cursor
        (({ cursor with nested := state :: cursor.nested } : Cursor S).event .enter :: events) after
  | leave {cursor after : Cursor S} {events : List (Event S)} {inner : S} {outer : List S} :
      cursor.nested = inner :: outer → Cascades { cursor with nested := outer } events after →
      Cascades cursor (cursor.event .leave :: events) after
  | character (cursor : Cursor S) : Cascades cursor [cursor.event .character] cursor
  | escape (cursor : Cursor S) : Cascades cursor [] { cursor with escaped := true }

/-- Where a run stands, unless an error has ended it. -/
def Course.cursor? : Course S → Option (Cursor S)
  | going cursor => some cursor
  | halted cursor => some cursor
  | failed _ => none
  | exhausted => none

/-- The events of a cascade lead to a cursor, which is where the run stands if it has not failed. -/
structure LeadsTo (cursor : Cursor S) (told : List (Event S) × Course S) (after : Cursor S) :
    Prop where
  cascades : Cascades cursor told.1 after
  stands : ∀ ended, told.2.cursor? = some ended → ended = after

theorem leadsTo_going {cursor after : Cursor S} {events : List (Event S)}
    (h : Cascades cursor events after) : LeadsTo cursor (events, .going after) after :=
  ⟨h, fun _ hended => (Option.some.inj hended).symm⟩

theorem exists_leadsTo (grammar : Grammar S) (patience : Nat) (handler : Handler S)
    (cursor : Cursor S) :
    ∃ after, LeadsTo cursor (follow grammar patience handler cursor) after := by
  induction patience generalizing handler cursor with
  | zero => exact ⟨cursor, .nil cursor, by intro ended hended; cases hended⟩
  | succ patience ih =>
    cases handler with
    | ignore => exact ⟨cursor, leadsTo_going (.nil cursor)⟩
    | enter state =>
      obtain ⟨after, hcascades, hstands⟩ := ih (grammar state).onEnter
        { cursor with nested := state :: cursor.nested }
      exact ⟨after, .enter state hcascades, hstands⟩
    | word escape =>
      rw [follow]
      split
      · exact ⟨_, leadsTo_going (.escape cursor)⟩
      · exact ⟨_, leadsTo_going (.character cursor)⟩
    | leave =>
      rw [follow]
      rcases hnested : cursor.nested with _ | ⟨inner, outer⟩
      · exact ⟨cursor, leadsTo_going (.nil cursor)⟩
      · obtain ⟨after, hcascades, hstands⟩ := ih _ { cursor with nested := outer }
        exact ⟨after, .leave hnested hcascades, hstands⟩
    | redispatch =>
      rw [follow]
      generalize (grammar cursor.state).handler cursor.character = next
      cases next <;> first | exact ih _ cursor | exact ⟨cursor, leadsTo_going (.nil cursor)⟩
    | classify accepts matched otherwise =>
      rw [follow]
      exact ih _ cursor
    | reject expected => exact ⟨cursor, .nil cursor, by intro ended hended; cases hended⟩
    | halt => exact ⟨cursor, .nil cursor, fun _ hended => (Option.some.inj hended).symm⟩

namespace Cascades

variable {cursor after : Cursor S} {events : List (Event S)}

theorem nests (h : Cascades cursor events after) : Nests cursor.nested events after.nested := by
  induction h with
  | nil cursor => exact .nil _
  | enter state _ ih => exact .enter rfl ih
  | @leave cursor after events inner outer hnested _ ih =>
    have hstate : (cursor.event .leave).state = inner := by
      simp [Cursor.event, Cursor.state, hnested]
    rw [hnested, ← hstate]
    exact .leave rfl ih
  | character cursor => exact .other (.inl rfl) (.nil _)
  | escape cursor => exact .nil _

theorem offset_eq (h : Cascades cursor events after) : after.offset = cursor.offset := by
  induction h with
  | nil | character | escape => rfl
  | enter _ _ ih => exact ih
  | leave _ _ ih => exact ih

/-- Each event of a cascade is at the character that set it off. -/
theorem offset_of_mem (h : Cascades cursor events after) :
    ∀ event ∈ events, event.offset = cursor.offset ∧ event.kind ≠ .halt := by
  induction h with
  | nil | escape => simp
  | character => simp [Cursor.event]
  | enter _ _ ih => exact List.forall_mem_cons.2 ⟨by simp [Cursor.event], ih⟩
  | leave _ _ ih => exact List.forall_mem_cons.2 ⟨by simp [Cursor.event], ih⟩

end Cascades

/-! ### The characters of a text -/

/-- One of the characters stands at that position, if the first of them stands at `offset`. -/
def StandsOne (cs : List Char) (offset position : Nat) : Prop :=
  ∃ before c rest, cs = before ++ c :: rest ∧ position = offset + Text.byteLength before

theorem standsOne_head (c : Char) (rest : List Char) (offset : Nat) :
    StandsOne (c :: rest) offset offset :=
  ⟨[], c, rest, rfl, rfl⟩

theorem StandsOne.cons {rest : List Char} {c : Char} {offset position : Nat}
    (h : StandsOne rest (offset + c.utf8Size) position) :
    StandsOne (c :: rest) offset position := by
  obtain ⟨before, d, behind, rfl, rfl⟩ := h
  exact ⟨c :: before, d, behind, rfl, by rw [Text.byteLength_cons, Nat.add_assoc]⟩

theorem StandsOne.le {cs : List Char} {offset position : Nat} (h : StandsOne cs offset position) :
    offset ≤ position := by
  obtain ⟨before, c, rest, -, rfl⟩ := h
  omega

theorem StandsOne.lt {cs : List Char} {offset position : Nat} (h : StandsOne cs offset position) :
    position < offset + Text.byteLength cs := by
  obtain ⟨before, c, rest, rfl, rfl⟩ := h
  have hc := Char.utf8Size_pos c
  rw [Text.byteLength_append, Text.byteLength_cons]
  omega

/-- What becomes of some characters. Their events nest and do not go back, each of them is at one of
the characters, and a halt is behind all of them. -/
structure Passes (cs : List Char) (offset : Nat) (before : List S)
    (told : List (Event S) × Course S) (after : List S) : Prop where
  nests : Nests before told.1 after
  ascending : told.1.Pairwise fun first second => first.offset ≤ second.offset
  inside : ∀ event ∈ told.1, StandsOne cs offset event.offset ∧ event.kind ≠ .halt
  stands : ∀ ended, told.2.cursor? = some ended → ended.nested = after
  halts : ∀ ended, told.2 = .halted ended →
    StandsOne cs offset ended.offset ∧ ∀ event ∈ told.1, event.offset ≤ ended.offset

section Characters

variable {c : Char} {rest : List Char} {offset : Nat} {cursor : Cursor S}
  {told : List (Event S) × Course S}

theorem passes_nil (offset : Nat) (cursor : Cursor S) :
    Passes [] offset cursor.nested ([], .going cursor) cursor.nested where
  nests := .nil _
  ascending := .nil
  inside := by simp
  stands := by
    intro ended hended
    rw [Option.some.inj hended]
  halts := by
    intro ended hended
    cases hended

/-- A single character, whatever follows it in the text. -/
theorem passes_of_leadsTo {after : Cursor S} (h : LeadsTo (cursor.moveTo offset c) told after)
    (rest : List Char) : Passes (c :: rest) offset cursor.nested told after.nested where
  nests := h.cascades.nests
  ascending := by
    apply List.pairwise_of_forall_mem_list
    intro first hfirst second hsecond
    have heq := (h.cascades.offset_of_mem first hfirst).1
    have heq' := (h.cascades.offset_of_mem second hsecond).1
    omega
  inside := by
    intro event hevent
    obtain ⟨hoffset, hkind⟩ := h.cascades.offset_of_mem event hevent
    rw [hoffset]
    exact ⟨standsOne_head c rest offset, hkind⟩
  stands := by
    intro ended hended
    rw [h.stands ended hended]
  halts := by
    intro ended hended
    have hsome : told.2.cursor? = some ended := by rw [hended]; rfl
    have hoffset : ended.offset = offset := by
      rw [h.stands ended hsome]
      exact h.cascades.offset_eq
    rw [hoffset]
    refine ⟨standsOne_head c rest offset, ?_⟩
    intro event hevent
    exact Nat.le_of_eq (h.cascades.offset_of_mem event hevent).1

/-- A character that does not end the run, and those behind it. -/
theorem Passes.cons {events : List (Event S)} {reached : Cursor S} {after : List S}
    (hfirst : LeadsTo (cursor.moveTo offset c) (events, .going reached) reached)
    (hrest : Passes rest (offset + c.utf8Size) reached.nested told after) :
    Passes (c :: rest) offset cursor.nested (events ++ told.1, told.2) after := by
  have hpasses := passes_of_leadsTo hfirst rest
  have hhere : ∀ event ∈ events, event.offset = offset := by
    intro event hevent
    exact (hfirst.cascades.offset_of_mem event hevent).1
  refine ⟨hpasses.nests.append hrest.nests, ?_, ?_, hrest.stands, ?_⟩
  · refine List.pairwise_append.2 ⟨hpasses.ascending, hrest.ascending, ?_⟩
    intro first hf second hs
    have hle := (hrest.inside second hs).1.le
    have heq := hhere first hf
    omega
  · intro event hevent
    rcases List.mem_append.1 hevent with h | h
    · exact hpasses.inside event h
    · obtain ⟨hinside, hkind⟩ := hrest.inside event h
      exact ⟨hinside.cons, hkind⟩
  · intro ended hended
    obtain ⟨hinside, hbehind⟩ := hrest.halts ended hended
    refine ⟨hinside.cons, ?_⟩
    intro event hevent
    rcases List.mem_append.1 hevent with h | h
    · have hle := hinside.le
      have heq := hhere event h
      omega
    · exact hbehind event h

end Characters

theorem exists_passes (grammar : Grammar S) (patience : Nat) (cs : List Char) (offset : Nat)
    (cursor : Cursor S) :
    ∃ after, Passes cs offset cursor.nested (scan patience grammar cs offset cursor) after := by
  induction cs generalizing offset cursor with
  | nil => exact ⟨cursor.nested, passes_nil offset cursor⟩
  | cons c rest ih =>
    obtain ⟨middle, hleads⟩ := exists_leadsTo grammar patience (cursor.firstHandler grammar c)
      (cursor.moveTo offset c)
    rw [scan]
    generalize follow grammar patience (cursor.firstHandler grammar c) (cursor.moveTo offset c) =
      told at hleads
    obtain ⟨events, course⟩ := told
    cases course with
    | going reached =>
      obtain rfl : reached = middle := hleads.stands reached rfl
      obtain ⟨after, hrest⟩ := ih (offset + c.utf8Size) reached
      exact ⟨after, .cons hleads hrest⟩
    | halted reached => exact ⟨middle.nested, passes_of_leadsTo hleads rest⟩
    | failed error => exact ⟨middle.nested, passes_of_leadsTo hleads rest⟩
    | exhausted => exact ⟨middle.nested, passes_of_leadsTo hleads rest⟩

/-! ### The end of a text -/

section Closing

variable (grammar : Grammar S) (length : Nat) (last : Char)

/-- At the end of a text some of the nested states are left, the innermost first, and all of them
unless one has to be closed. -/
theorem exists_closing (nested : List S) :
    ∃ left kept, nested = left ++ kept ∧
      (closing grammar length last nested).1 = left.map (closingEvent length last) ∧
      ((closing grammar length last nested).2 = .returned → kept = []) := by
  induction nested with
  | nil => exact ⟨[], [], rfl, rfl, fun _ => rfl⟩
  | cons state outer ih =>
    rw [closing]
    split
    · exact ⟨[], state :: outer, rfl, rfl, by intro h; cases h⟩
    · obtain ⟨left, kept, rfl, hevents, hkept⟩ := ih
      refine ⟨state :: left, kept, rfl, ?_, hkept⟩
      exact congrArg (closingEvent length last state :: ·) hevents

theorem nests_closing (left kept : List S) :
    Nests (left ++ kept) (left.map (closingEvent length last)) kept := by
  induction left with
  | nil => exact .nil kept
  | cons state left ih =>
    have hleave : (closingEvent length last state).kind = .leave := rfl
    exact .leave hleave ih

end Closing

/-! ### Whole runs -/

/-- What the events of a run over a text are like that ends in some way. -/
structure WellNested (text : String) (ending : Ending) (events : List (Event S)) : Prop where
  /-- A state that is left is the innermost of the open ones. -/
  nests : ∃ after, Nests [] events after
  ascending : events.Pairwise fun first second => first.offset ≤ second.offset
  /-- Each event is at the front of a character of the text, or at its end. -/
  boundary : ∀ event ∈ events,
    ∃ before rest, text = before ++ rest ∧ event.offset = Text.size before
  haltLast : ∀ before event after, events = before ++ event :: after → event.kind = .halt →
    after = []
  /-- At the end of the text everything that is still open is left, the innermost first. -/
  closed : ending = .returned → (∀ event ∈ events, event.kind ≠ .halt) →
    Nests [] events [] ∧ ∃ before states last,
      events = before ++ states.map (closingEvent (Text.size text) last) ∧
        Nests [] before states ∧ ∀ event ∈ before, event.offset < Text.size text

theorem StandsOne.boundary {text : String} {position : Nat} (h : StandsOne text.toList 0 position) :
    ∃ before rest, text = before ++ rest ∧ position = Text.size before := by
  obtain ⟨before, c, rest, htext, rfl⟩ := h
  refine ⟨String.ofList before, String.ofList (c :: rest), ?_, by simp [Text.size]⟩
  rw [← String.toList_inj, htext]
  simp

/-- If only the last event can be a halt, nothing is behind a halt. -/
theorem eq_nil_of_halt {events before after : List (Event S)} {final event : Event S}
    (hnone : ∀ event ∈ events, event.kind ≠ .halt)
    (heq : events ++ [final] = before ++ event :: after) (hhalt : event.kind = .halt) :
    after = [] := by
  rcases List.eq_nil_or_concat after with h | ⟨front, x, rfl⟩
  · exact h
  · -- Otherwise the halt is among the first events.
    have hsplit : events ++ [final] = (before ++ event :: front) ++ [x] := by
      rw [heq]
      simp
    have hevents : events = before ++ event :: front := (List.append_inj' hsplit rfl).1
    exact absurd hhalt (hnone event (by rw [hevents]; simp))

section Endings

variable {text : String} {events : List (Event S)} {course : Course S} {states : List S}

theorem Passes.boundary (h : Passes text.toList 0 [] (events, course) states) :
    ∀ event ∈ events, ∃ before rest, text = before ++ rest ∧ event.offset = Text.size before :=
  fun event hevent => (h.inside event hevent).1.boundary

theorem Passes.noHalt (h : Passes text.toList 0 [] (events, course) states) :
    ∀ event ∈ events, event.kind ≠ .halt :=
  fun event hevent => (h.inside event hevent).2

theorem Passes.beforeEnd (h : Passes text.toList 0 [] (events, course) states) :
    ∀ event ∈ events, event.offset < Text.size text := by
  intro event hevent
  have hlt := (h.inside event hevent).1.lt
  rwa [Nat.zero_add] at hlt

/-- An error leaves the events as they are. -/
theorem Passes.wellNested_of_ne_returned (h : Passes text.toList 0 [] (events, course) states)
    {ending : Ending} (hending : ending ≠ .returned) : WellNested text ending events where
  nests := ⟨states, h.nests⟩
  ascending := h.ascending
  boundary := h.boundary
  haltLast := by
    intro before event after heq hhalt
    exact absurd hhalt (h.noHalt event (by rw [heq]; simp))
  closed := by
    intro hreturned
    exact absurd hreturned hending

theorem Passes.wellNested_halted {cursor : Cursor S}
    (h : Passes text.toList 0 [] (events, .halted cursor) states) :
    WellNested text .returned (events ++ [cursor.event .halt]) := by
  obtain ⟨hinside, hbehind⟩ := h.halts cursor rfl
  constructor
  · exact ⟨states, h.nests.append (.other (.inr rfl) (.nil states))⟩
  · refine List.pairwise_append.2 ⟨h.ascending, List.pairwise_singleton _ _, ?_⟩
    intro first hfirst second hsecond
    obtain rfl := List.mem_singleton.1 hsecond
    exact hbehind first hfirst
  · intro event hevent
    rcases List.mem_append.1 hevent with hevent | hevent
    · exact h.boundary event hevent
    · obtain rfl := List.mem_singleton.1 hevent
      exact hinside.boundary
  · intro before event after heq hhalt
    exact eq_nil_of_halt h.noHalt heq hhalt
  · intro _ hnone
    exact absurd rfl (hnone (cursor.event .halt) (by simp))

/-- At the end of the text the states that are left were the innermost ones; if all could be left,
none is open any more. -/
theorem Passes.wellNested_closing {cursor : Cursor S}
    (h : Passes text.toList 0 [] (events, .going cursor) states) (grammar : Grammar S) :
    WellNested text (closing grammar (Text.size text) cursor.character cursor.nested).2
      (events ++ (closing grammar (Text.size text) cursor.character cursor.nested).1) := by
  obtain rfl : cursor.nested = states := h.stands cursor rfl
  obtain ⟨left, kept, hnested, hclosing, hkept⟩ :=
    exists_closing grammar (Text.size text) cursor.character cursor.nested
  rw [hclosing]
  have hnests : Nests [] (events ++ left.map (closingEvent (Text.size text) cursor.character))
      kept := by
    apply h.nests.append
    rw [hnested]
    exact nests_closing _ _ left kept
  have hend : ∀ event ∈ left.map (closingEvent (Text.size text) cursor.character),
      event.offset = Text.size text ∧ event.kind ≠ .halt := by
    intro event hevent
    obtain ⟨state, -, rfl⟩ := List.mem_map.1 hevent
    exact ⟨rfl, by simp [closingEvent]⟩
  constructor
  · exact ⟨kept, hnests⟩
  · refine List.pairwise_append.2 ⟨h.ascending, ?_, ?_⟩
    · apply List.pairwise_of_forall_mem_list
      intro first hfirst second hsecond
      have heq := (hend first hfirst).1
      have heq' := (hend second hsecond).1
      omega
    · intro first hfirst second hsecond
      have hlt := h.beforeEnd first hfirst
      have heq := (hend second hsecond).1
      omega
  · intro event hevent
    rcases List.mem_append.1 hevent with hevent | hevent
    · exact h.boundary event hevent
    · exact ⟨text, "", by simp, (hend event hevent).1⟩
  · intro before event after heq hhalt
    have hevent : event ∈ events ++ left.map (closingEvent (Text.size text) cursor.character) := by
      rw [heq]
      simp
    rcases List.mem_append.1 hevent with hevent | hevent
    · exact absurd hhalt (h.noHalt event hevent)
    · exact absurd hhalt (hend event hevent).2
  · intro hreturned _
    obtain rfl := hkept hreturned
    rw [List.append_nil] at hnested
    subst hnested
    exact ⟨hnests, events, cursor.nested, cursor.character, rfl, h.nests, h.beforeEnd⟩

end Endings

theorem wellNested_trace (patience : Nat) (grammar : Grammar S) (root : S) (text : String) :
    WellNested text (trace patience grammar root text).2 (trace patience grammar root text).1 := by
  obtain ⟨states, hpasses⟩ := exists_passes grammar patience text.toList 0 (Cursor.start root)
  rw [trace]
  generalize scan patience grammar text.toList 0 (Cursor.start root) = told at hpasses
  obtain ⟨events, course⟩ := told
  cases course with
  | going cursor => exact hpasses.wellNested_closing grammar
  | halted cursor => exact hpasses.wellNested_halted
  | failed error =>
    simp only [Course.closing, List.append_nil]
    exact hpasses.wellNested_of_ne_returned (by simp)
  | exhausted =>
    simp only [Course.closing, List.append_nil]
    exact hpasses.wellNested_of_ne_returned (by simp)

/-- The events that an observer is told are well nested, for every grammar and every observer that
never fails; to watch the observer does not change the run. -/
theorem run_wellNested (patience : Nat) (grammar : Grammar S) (root : S) {observer : Observer S σ}
    (hobserver : observer.NeverFails) (seen : σ) (text : String) :
    ∃ events,
      run patience grammar root (observer.watched fun event _ => event) (seen, []) text =
        (((run patience grammar root observer seen text).1, events),
          (run patience grammar root observer seen text).2) ∧
      WellNested text (run patience grammar root observer seen text).2 events := by
  obtain ⟨hwatched, hending⟩ := run_watched hobserver patience grammar root seen text
  refine ⟨(trace patience grammar root text).1, ?_, ?_⟩
  · rw [hwatched, hending]
  · rw [hending]
    exact wellNested_trace patience grammar root text

/-- Words and parentheses around them, which the end of the text closes: `false` is the state
outside of all parentheses. -/
def parentheses : Grammar Bool
  | false => { name := "WORDS", otherwise := .word false, triggers := [('(', .enter true)] }
  | true =>
    { name := "PAREN", otherwise := .word false, triggers := [('(', .enter true), (')', .leave)] }

/-- Three parentheses, one of which is closed in the text. -/
theorem run_wellNested_parentheses :
    (recorder (S := Bool) (fun _ => none) true).NeverFails ∧
    ∃ events : List (Event Bool),
      run 8 parentheses false ((recorder (fun _ => none) true).watched fun event _ => event)
        ([], []) "é(b(c)(" = ((events, events), .returned) ∧
      (events.map fun event => (event.kind, event.state, event.offset)) =
        [(.character, false, 0), (.enter, true, 2), (.character, true, 3), (.enter, true, 4),
          (.character, true, 5), (.leave, true, 6), (.enter, true, 7), (.leave, true, 8),
          (.leave, true, 8)] ∧
      WellNested "é(b(c)(" .returned events := by
  have hnever : (recorder (S := Bool) (fun _ => none) true).NeverFails := by
    intro event seen
    simp [recorder]
  obtain ⟨events, hrun, hnested⟩ :=
    run_wellNested 8 parentheses false hnever [] "é(b(c)("
  have hwatched : (run 8 parentheses false
      ((recorder (fun _ => none) true).watched fun event _ => event) ([], []) "é(b(c)(").1.2 =
      events := by rw [hrun]
  subst hwatched
  exact ⟨hnever, _, rfl, rfl, hnested⟩

end AttributeShell.Automaton
