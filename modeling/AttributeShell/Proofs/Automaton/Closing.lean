import AttributeShell.Proofs.Automaton.Prefix

/-!
The end of a text. The states that are nested when all characters have been read are left there, the
innermost first. The first of them that has to be closed is an error; if there is none, the run
returns. No return handler takes part in this. In a run that returns without a halt, every state
that has to be closed has therefore been left at a character of the text (`run_closing`).
-/

namespace AttributeShell.Automaton

variable {S σ : Type}

/-! ### What is left at the end -/

/-- What the end of a text makes of the states that are nested there, the innermost first. -/
structure Closes (grammar : Grammar S) (length : Nat) (last : Char) (nested : List S)
    (events : List (Event S)) (ending : Ending) : Prop where
  returned_iff : ending = .returned ↔ ∀ state ∈ nested, (grammar state).mustClose = false
  /-- If the run returns, all of them have been left. -/
  all : ending = .returned → events = nested.map (closingEvent length last)
  /-- If it does not, those inside the innermost one that has to be closed have been left. -/
  upTo : ending ≠ .returned → ∃ left state outer, nested = left ++ state :: outer ∧
    (∀ inner ∈ left, (grammar inner).mustClose = false) ∧ (grammar state).mustClose = true ∧
    events = left.map (closingEvent length last) ∧
    ending = .failed (.unterminated (grammar state).name length)

section Closing

variable (grammar : Grammar S) (length : Nat) (last : Char)

theorem closes_closing (nested : List S) :
    Closes grammar length last nested (closing grammar length last nested).1
      (closing grammar length last nested).2 := by
  induction nested with
  | nil =>
    refine ⟨?_, fun _ => rfl, ?_⟩
    · simp [closing]
    · intro hending
      exact absurd rfl hending
  | cons state outer ih =>
    rw [closing]
    by_cases hopen : (grammar state).mustClose = true
    · rw [if_pos hopen]
      refine ⟨?_, ?_, ?_⟩
      · simp [hopen]
      · intro hending
        cases hending
      · intro _
        exact ⟨[], state, outer, rfl, by simp, hopen, rfl, rfl⟩
    · rw [if_neg hopen]
      have hmay : (grammar state).mustClose = false := Bool.eq_false_iff.2 hopen
      refine ⟨?_, ?_, ?_⟩
      · rw [List.forall_mem_cons]
        exact ih.returned_iff.trans (and_iff_right hmay).symm
      · intro hending
        exact congrArg (closingEvent length last state :: ·) (ih.all hending)
      · intro hending
        obtain ⟨left, found, rest, rfl, hleft, hfound, hevents, hfailed⟩ := ih.upTo hending
        refine ⟨state :: left, found, rest, rfl, ?_, hfound, ?_, hfailed⟩
        · exact List.forall_mem_cons.2 ⟨hmay, hleft⟩
        · exact congrArg (closingEvent length last state :: ·) hevents

/-- At the end of a text only the names of the states count, and which of them have to be closed. -/
theorem unwind_onReturn (observer : Observer S σ) (onReturn : S → Handler S) (nested : List S)
    (seen : σ) :
    unwind (fun state => { grammar state with onReturn := onReturn state }) observer length last
      nested seen = unwind grammar observer length last nested seen := by
  induction nested generalizing seen with
  | nil => rfl
  | cons state outer ih => simp only [unwind, ih]

end Closing

/-! ### What is left before the end -/

theorem Nests.exists_middle {xs ys : List (Event S)} {before after : List S}
    (h : Nests before (xs ++ ys) after) :
    ∃ middle, Nests before xs middle ∧ Nests middle ys after := by
  induction xs generalizing before with
  | nil => exact ⟨before, .nil before, h⟩
  | cons event xs ih =>
    rw [List.cons_append] at h
    cases h with
    | enter hkind hrest =>
      obtain ⟨middle, hxs, hys⟩ := ih hrest
      exact ⟨middle, .enter hkind hxs, hys⟩
    | leave hkind hrest =>
      obtain ⟨middle, hxs, hys⟩ := ih hrest
      exact ⟨middle, .leave hkind hxs, hys⟩
    | other hkind hrest =>
      obtain ⟨middle, hxs, hys⟩ := ih hrest
      exact ⟨middle, .other hkind hxs, hys⟩

/-- The event leaves a state that has been open before the events in front of it, which enter and
leave only what is nested in it. -/
structure Exits (state : S) (inner : List S) (events : List (Event S)) (exit : Event S) : Prop where
  kind : exit.kind = .leave
  state : exit.state = state
  nests : Nests inner events []

/-- A state that is open at first and not at last is left in between. -/
theorem Nests.exists_exits {state : S} {outer : List S} {events : List (Event S)}
    {after : List S} (inner : List S) (h : Nests (inner ++ state :: outer) events after)
    (hafter : state ∉ after) :
    ∃ inside exit behind, events = inside ++ exit :: behind ∧ Exits state inner inside exit := by
  generalize hbefore : inner ++ state :: outer = before at h
  induction h generalizing inner with
  | nil states =>
    subst hbefore
    exact absurd (List.mem_append_right inner List.mem_cons_self) hafter
  | @enter event events before after hkind _ ih =>
    have hentered : (event.state :: inner) ++ state :: outer = event.state :: before := by
      rw [List.cons_append, hbefore]
    obtain ⟨inside, exit, behind, rfl, hexit⟩ := ih _ hafter hentered
    exact ⟨event :: inside, exit, behind, rfl, hexit.kind, hexit.state, .enter hkind hexit.nests⟩
  | @leave event events before after hkind _ ih =>
    cases inner with
    | nil =>
      obtain ⟨hstate, -⟩ := List.cons.inj hbefore
      exact ⟨[], event, events, rfl, hkind, hstate.symm, .nil []⟩
    | cons innermost inner =>
      obtain ⟨rfl, hrest⟩ := List.cons.inj hbefore
      obtain ⟨inside, exit, behind, rfl, hexit⟩ := ih inner hafter hrest
      exact ⟨event :: inside, exit, behind, rfl, hexit.kind, hexit.state,
        .leave hkind hexit.nests⟩
  | @other event events before after hkind _ ih =>
    obtain ⟨inside, exit, behind, rfl, hexit⟩ := ih inner hafter hbefore
    exact ⟨event :: inside, exit, behind, rfl, hexit.kind, hexit.state, .other hkind hexit.nests⟩

/-- What stands somewhere in two lists, but not in the second, stands in the first. -/
theorem exists_eq_append_of_notMem {α : Type} {xs ys before rest : List α} {x : α}
    (h : xs ++ ys = before ++ x :: rest) (hx : x ∉ ys) :
    ∃ during, xs = before ++ x :: during ∧ rest = during ++ ys := by
  obtain ⟨front, -, rfl⟩ | ⟨front, rfl, hrest⟩ := List.append_eq_append_iff.1 h
  · exact absurd (List.mem_append_right front List.mem_cons_self) hx
  · cases front with
    | nil =>
      rw [List.nil_append] at hrest
      exact absurd (by simp [← hrest]) hx
    | cons first during =>
      obtain ⟨rfl, rfl⟩ := List.cons.inj hrest
      exact ⟨during, rfl, rfl⟩

section Runs

variable {patience : Nat} {grammar : Grammar S} {root : S} {text : String}

/-- A run that returns without a halt has read all of its text. -/
theorem exists_going_of_returned (hreturned : (trace patience grammar root text).2 = .returned)
    (hnone : ∀ event ∈ (trace patience grammar root text).1, event.kind ≠ .halt) :
    ∃ events cursor,
      scan patience grammar text.toList 0 (Cursor.start root) = (events, .going cursor) := by
  rw [trace] at hreturned hnone
  generalize scan patience grammar text.toList 0 (Cursor.start root) = told at *
  obtain ⟨events, course⟩ := told
  cases course with
  | going cursor => exact ⟨events, cursor, rfl⟩
  | halted cursor =>
    exact absurd rfl (hnone (cursor.event .halt) (by simp [Course.closing]))
  | failed error => cases hreturned
  | exhausted => cases hreturned

theorem trace_of_going {events : List (Event S)} {cursor : Cursor S}
    (h : scan patience grammar text.toList 0 (Cursor.start root) = (events, .going cursor)) :
    trace patience grammar root text =
      (events ++ (closing grammar (Text.size text) cursor.character cursor.nested).1,
        (closing grammar (Text.size text) cursor.character cursor.nested).2) := by
  rw [trace, h]
  rfl

/-- What is entered and has to be closed is left at a character of the text, if the run returns
without a halt. -/
theorem exists_exits_of_returned (hreturned : (trace patience grammar root text).2 = .returned)
    (hnone : ∀ event ∈ (trace patience grammar root text).1, event.kind ≠ .halt)
    {before rest : List (Event S)} {entry : Event S}
    (htrace : (trace patience grammar root text).1 = before ++ entry :: rest)
    (hentry : entry.kind = .enter) (hopen : (grammar entry.state).mustClose = true) :
    ∃ inside exit behind, rest = inside ++ exit :: behind ∧
      Exits entry.state [] inside exit ∧ exit.offset < Text.size text := by
  obtain ⟨events, cursor, hscan⟩ := exists_going_of_returned hreturned hnone
  rw [trace_of_going hscan] at hreturned htrace
  have hcloses := closes_closing grammar (Text.size text) cursor.character cursor.nested
  rw [hcloses.all hreturned] at htrace
  obtain ⟨states, hpasses⟩ := exists_passes grammar patience text.toList 0 (Cursor.start root)
  rw [hscan] at hpasses
  obtain rfl : cursor.nested = states := hpasses.stands cursor rfl
  -- At the end of the text nothing is entered.
  have hduring : entry ∉ cursor.nested.map (closingEvent (Text.size text) cursor.character) := by
    intro hmem
    obtain ⟨state, -, rfl⟩ := List.mem_map.1 hmem
    cases hentry
  obtain ⟨during, rfl, rfl⟩ := exists_eq_append_of_notMem htrace hduring
  obtain ⟨middle, -, hmiddle⟩ := hpasses.nests.exists_middle
  cases hmiddle with
  | enter _ hduring =>
    have hafter : entry.state ∉ cursor.nested := by
      intro hmem
      have hmay := hcloses.returned_iff.1 hreturned entry.state hmem
      rw [hopen] at hmay
      cases hmay
    obtain ⟨inside, exit, behind, rfl, hexit⟩ := hduring.exists_exits [] hafter
    refine ⟨inside, exit, behind ++ _, List.append_assoc _ _ _, hexit, ?_⟩
    exact hpasses.beforeEnd exit (by simp)
  | leave hkind _ =>
    rw [hentry] at hkind
    cases hkind
  | other hkind _ =>
    rw [hentry] at hkind
    simp at hkind

end Runs

/-- The end of a text. If all characters are read, the states that are nested then are left in turn,
and the innermost one that has to be closed ends the run with an error; the return handlers do not
matter. If a run returns without a halt, each state that has to be closed is left, behind its entry
and what has been nested in it, before the end of the text. -/
theorem run_closing (patience : Nat) (grammar : Grammar S) (root : S) {observer : Observer S σ}
    (hobserver : observer.NeverFails) (seen : σ) (text : String) :
    let watched : Observer S (σ × List (Event S)) := observer.watched fun event _ => event
    (∀ cursor heard events,
      consume patience grammar watched text.toList 0 (Cursor.start root) (seen, []) =
        .going cursor (heard, events) →
      (∃ last ending,
        run patience grammar root watched (seen, []) text =
          (((tell observer last heard).1, events ++ last), ending) ∧
        Closes grammar (Text.size text) cursor.character cursor.nested last ending) ∧
      ∀ onReturn : S → Handler S,
        (Progress.going cursor (heard, events)).finish
            (fun state => { grammar state with onReturn := onReturn state }) watched
            (Text.size text) =
          run patience grammar root watched (seen, []) text) ∧
    (∀ heard events,
      run patience grammar root watched (seen, []) text = ((heard, events), .returned) →
      (∀ event ∈ events, event.kind ≠ .halt) →
      ∀ before entry rest, events = before ++ entry :: rest → entry.kind = .enter →
        (grammar entry.state).mustClose = true →
        ∃ inside exit behind, rest = inside ++ exit :: behind ∧
          Exits entry.state [] inside exit ∧ exit.offset < Text.size text) := by
  intro watched
  refine ⟨?_, ?_⟩
  · intro cursor heard events hconsume
    have hrun : run patience grammar root watched (seen, []) text =
        unwind grammar watched (Text.size text) cursor.character cursor.nested
          (heard, events) := by
      rw [run, hconsume, Progress.finish]
    refine ⟨⟨_, _, ?_, closes_closing grammar (Text.size text) cursor.character cursor.nested⟩, ?_⟩
    · rw [hrun, unwind_eq_tell, tell_watched hobserver, Ending.after]
    · intro onReturn
      rw [hrun]
      exact unwind_onReturn grammar _ _ watched onReturn cursor.nested _
  · intro heard events hrun hnone before entry rest hevents hentry hopen
    obtain ⟨hwatched, -⟩ := run_watched hobserver patience grammar root seen text
    rw [hwatched] at hrun
    obtain ⟨hheard, hreturned⟩ := Prod.mk.inj hrun
    obtain ⟨-, rfl⟩ := Prod.mk.inj hheard
    exact exists_exits_of_returned hreturned hnone hevents hentry hopen

/-- Square brackets, which the end of the text may close, and parentheses, which it may not. -/
inductive Bracket where
  | outside
  | square
  | parenthesis
  deriving Repr, DecidableEq

/-- Inside a square bracket, the character that closes a bracket nested there is reported. -/
def brackets : Grammar Bracket
  | .outside =>
    { name := "WORDS", otherwise := .word false
      triggers := [('[', .enter .square), ('(', .enter .parenthesis)] }
  | .square =>
    { name := "SQUARE", otherwise := .word false
      triggers := [('[', .enter .square), ('(', .enter .parenthesis), (']', .leave)]
      onReturn := .word false }
  | .parenthesis =>
    { name := "PAREN", otherwise := .word false
      triggers := [('[', .enter .square), (')', .leave)]
      mustClose := true }

/-- Two square brackets are left at the end before the parenthesis around them is found open; one is
left there behind a parenthesis that the text has closed. -/
theorem run_closing_brackets :
    let observer : Observer Bracket (List (Event Bracket)) := recorder (fun _ => none) true
    let watched := observer.watched fun event _ => event
    observer.NeverFails ∧
    (∃ cursor heard events last ending,
      consume 8 brackets watched "(é[[".toList 0 (Cursor.start .outside) ([], []) =
        .going cursor (heard, events) ∧
      cursor.nested = [.square, .square, .parenthesis] ∧
      run 8 brackets .outside watched ([], []) "(é[[" =
        (((tell observer last heard).1, events ++ last), ending) ∧
      Closes brackets 5 '[' cursor.nested last ending ∧
      (run 8 brackets .outside watched ([], []) "(é[[").2 =
        .failed (.unterminated "PAREN" 5)) ∧
    ∃ events entry rest inside exit behind,
      run 8 brackets .outside watched ([], []) "[(é)b" = ((events, events), .returned) ∧
      entry.kind = .enter ∧ entry.state = .parenthesis ∧
      events = events.take 1 ++ entry :: rest ∧
      rest = inside ++ exit :: behind ∧ Exits .parenthesis [] inside exit ∧ exit.offset < 6 := by
  intro observer watched
  have hnever : observer.NeverFails := neverFails_recorder true
  refine ⟨hnever, ?_, ?_⟩
  · obtain ⟨hends, -⟩ := run_closing 8 brackets .outside hnever [] "(é[["
    obtain ⟨⟨last, ending, hrun, hcloses⟩, -⟩ := hends _ _ _ rfl
    exact ⟨_, _, _, last, ending, rfl, rfl, hrun, hcloses, rfl⟩
  · obtain ⟨-, hexits⟩ := run_closing 8 brackets .outside hnever [] "[(é)b"
    obtain ⟨inside, exit, behind, hrest, hexit, hoffset⟩ :=
      hexits _ _ rfl (by decide) [_] _ _ rfl rfl rfl
    exact ⟨_, _, _, inside, exit, behind, rfl, rfl, rfl, rfl, hrest, hexit, hoffset⟩

end AttributeShell.Automaton
