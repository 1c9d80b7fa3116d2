import AttributeShell.Automaton.Run
import AttributeShell.Path.Grammar

/-!
Looking a character up again. A handler may pass a character on without doing anything with it, by a
question about the character or by looking it up in the active state. This comes to a handler that
acts, except in one case: what the active state has for the character is a question whose answer is
to look it up again. Then the character is passed on for ever (`settles_iff_not_circular`). A table
entry that is itself the look-up does nothing.
-/

namespace AttributeShell.Automaton

variable {S σ : Type}

namespace Handler

/-- Does not pass the character on to another handler without doing anything. -/
def Acts : Handler S → Prop
  | .redispatch | .classify .. => False
  | .ignore | .enter _ | .word _ | .leave | .reject _ | .halt => True

/-- What all questions about a character lead to. -/
def chosen (c : Char) : Handler S → Handler S
  | .classify accepts matched otherwise =>
    if accepts c then matched.chosen c else otherwise.chosen c
  | handler => handler

/-- The number of questions on the way there. -/
def questions (c : Char) : Handler S → Nat
  | .classify accepts matched otherwise =>
    (if accepts c then matched.questions c else otherwise.questions c) + 1
  | _ => 0

/-- Whether some answer to the questions is to look the character up again. -/
def asksAgain : Handler S → Bool
  | .classify _ matched otherwise => matched.asksAgain || otherwise.asksAgain
  | .redispatch => true
  | .ignore | .enter _ | .word _ | .leave | .reject _ | .halt => false

/-- The questions end at a handler that acts or at a look-up. -/
theorem acts_chosen {handler : Handler S} {c : Char} (h : handler.chosen c ≠ .redispatch) :
    (handler.chosen c).Acts := by
  induction handler with
  | classify accepts matched otherwise ihMatched ihOtherwise =>
    rw [chosen] at h ⊢
    by_cases hc : accepts c = true
    · rw [if_pos hc] at h ⊢
      exact ihMatched h
    · rw [if_neg hc] at h ⊢
      exact ihOtherwise h
  | redispatch => exact absurd rfl h
  | ignore | enter | word | leave | reject | halt => trivial

theorem asksAgain_of_chosen {handler : Handler S} {c : Char} (h : handler.chosen c = .redispatch) :
    handler.asksAgain = true := by
  induction handler with
  | classify accepts matched otherwise ihMatched ihOtherwise =>
    rw [chosen] at h
    rw [asksAgain, Bool.or_eq_true]
    by_cases hc : accepts c = true
    · rw [if_pos hc] at h
      exact .inl (ihMatched h)
    · rw [if_neg hc] at h
      exact .inr (ihOtherwise h)
  | redispatch => rfl
  | ignore | enter | word | leave | reject | halt => cases h

end Handler

/-- What the state has for the character is a question whose answer is to look it up again. -/
def State.Circular (state : State S) (c : Char) : Prop :=
  state.handler c ≠ .redispatch ∧ (state.handler c).chosen c = .redispatch

/-- After finitely many questions and look-ups, which do nothing, a handler follows that acts. -/
def Settles (grammar : Grammar S) (handler : Handler S) (cursor : Cursor S) : Prop :=
  ∃ steps last, last.Acts ∧
    ∀ {σ : Type} (observer : Observer S σ) (patience : Nat) (seen : σ),
      handle grammar observer (patience + 1 + steps) handler cursor seen =
        handle grammar observer (patience + 1) last cursor seen

section Passing

variable {grammar : Grammar S} {handler : Handler S} {cursor : Cursor S}

/-- The questions about the character at hand take a step each and do nothing else. -/
theorem handle_chosen (observer : Observer S σ) (patience : Nat) (seen : σ) :
    handle grammar observer (patience + handler.questions cursor.character) handler cursor seen =
      handle grammar observer patience (handler.chosen cursor.character) cursor seen := by
  induction handler with
  | classify accepts matched otherwise ihMatched ihOtherwise =>
    rw [Handler.questions, Handler.chosen, ← Nat.add_assoc, handle]
    by_cases hc : accepts cursor.character = true
    · rw [if_pos hc, if_pos hc, if_pos hc]
      exact ihMatched
    · rw [if_neg hc, if_neg hc, if_neg hc]
      exact ihOtherwise
  | redispatch | ignore | enter | word | leave | reject | halt => rfl

/-- A look-up passes the character on to what the active state has for it. -/
theorem handle_redispatch
    (h : (grammar cursor.state).handler cursor.character ≠ .redispatch)
    (observer : Observer S σ) (patience : Nat) (seen : σ) :
    handle grammar observer (patience + 1) .redispatch cursor seen =
      handle grammar observer patience ((grammar cursor.state).handler cursor.character) cursor
        seen := by
  rw [handle]
  generalize (grammar cursor.state).handler cursor.character = found at h
  cases found <;> first | rfl | exact absurd rfl h

/-- A look-up that finds another one does nothing. -/
theorem handle_redispatch_of_eq
    (h : (grammar cursor.state).handler cursor.character = .redispatch)
    (observer : Observer S σ) (patience : Nat) (seen : σ) :
    handle grammar observer (patience + 1) .redispatch cursor seen = .going cursor seen := by
  rw [handle, h]

theorem settles_of_chosen (h : handler.chosen cursor.character ≠ .redispatch) :
    Settles grammar handler cursor := by
  refine ⟨handler.questions cursor.character, _, Handler.acts_chosen h, ?_⟩
  intro σ observer patience seen
  exact handle_chosen observer (patience + 1) seen

/-- If the questions lead to a look-up, it settles unless that leads to a look-up again. -/
theorem settles_of_chosen_redispatch (hchosen : handler.chosen cursor.character = .redispatch)
    (h : ¬ (grammar cursor.state).Circular cursor.character) :
    Settles grammar handler cursor := by
  by_cases hentry : (grammar cursor.state).handler cursor.character = .redispatch
  · refine ⟨1 + handler.questions cursor.character, .ignore, trivial, ?_⟩
    intro σ observer patience seen
    rw [← Nat.add_assoc, handle_chosen, hchosen, handle_redispatch_of_eq hentry]
    rfl
  · have hacts : ((grammar cursor.state).handler cursor.character).chosen cursor.character ≠
        .redispatch := fun hagain => h ⟨hentry, hagain⟩
    have hfound : Settles grammar ((grammar cursor.state).handler cursor.character) cursor :=
      settles_of_chosen hacts
    obtain ⟨steps, last, hlast, hsettles⟩ := hfound
    refine ⟨steps + 1 + handler.questions cursor.character, last, hlast, ?_⟩
    intro σ observer patience seen
    rw [← Nat.add_assoc, ← Nat.add_assoc, handle_chosen, hchosen, handle_redispatch hentry]
    exact hsettles observer patience seen

/-- If the questions lead to a look-up and that leads to a look-up again, no number of steps is
enough. -/
theorem handle_eq_exhausted (h : (grammar cursor.state).Circular cursor.character)
    (hchosen : handler.chosen cursor.character = .redispatch) (observer : Observer S σ)
    (patience : Nat) (seen : σ) :
    handle grammar observer patience handler cursor seen = .exhausted seen := by
  obtain ⟨hentry, hagain⟩ := h
  -- Each step keeps to handlers whose questions lead to a look-up.
  induction patience generalizing handler with
  | zero => rfl
  | succ patience ih =>
    cases handler with
    | classify accepts matched otherwise =>
      rw [Handler.chosen] at hchosen
      rw [handle]
      by_cases hc : accepts cursor.character = true
      · rw [if_pos hc] at hchosen ⊢
        exact ih hchosen
      · rw [if_neg hc] at hchosen ⊢
        exact ih hchosen
    | redispatch =>
      rw [handle_redispatch hentry]
      exact ih hagain
    | ignore | enter | word | leave | reject | halt => cases hchosen

/-- What acts does something at once, if only that the observer fails. -/
theorem handle_ne_exhausted (h : handler.Acts) (error : ParseError) :
    handle grammar (fun _ (seen : Unit) => (seen, some error)) 1 handler cursor () ≠
      .exhausted () := by
  cases handler with
  | redispatch | classify => cases h
  | ignore | enter | reject | halt => simp [handle, report]
  | word escape =>
    rw [handle]
    split <;> simp [report]
  | leave =>
    rw [handle]
    split <;> simp [report]

theorem not_settles_of_circular (h : (grammar cursor.state).Circular cursor.character)
    (hchosen : handler.chosen cursor.character = .redispatch) :
    ¬ Settles grammar handler cursor := by
  rintro ⟨steps, last, hlast, hsettles⟩
  have hfails := hsettles (fun _ (seen : Unit) => (seen, some (.invalidCommand .empty))) 0 ()
  rw [handle_eq_exhausted h hchosen] at hfails
  exact handle_ne_exhausted hlast (.invalidCommand .empty) hfails.symm

/-- A handler that does not settle is one whose questions lead to a look-up that leads to a look-up
again. -/
theorem not_settles_iff : ¬ Settles grammar handler cursor ↔
    handler.chosen cursor.character = .redispatch ∧
      (grammar cursor.state).Circular cursor.character := by
  constructor
  · intro hsettles
    have hchosen : handler.chosen cursor.character = .redispatch :=
      Classical.byContradiction fun hacts => hsettles (settles_of_chosen hacts)
    refine ⟨hchosen, Classical.byContradiction fun hcircular => ?_⟩
    exact hsettles (settles_of_chosen_redispatch hchosen hcircular)
  · rintro ⟨hchosen, hcircular⟩
    exact not_settles_of_circular hcircular hchosen

/-- Where the active state is not circular, every handler settles. -/
theorem settles_of_not_circular (h : ¬ (grammar cursor.state).Circular cursor.character) :
    Settles grammar handler cursor :=
  Classical.byContradiction fun hsettles => h (not_settles_iff.1 hsettles).2

end Passing

/-- Every handler settles at a character exactly if what the active state has for it is not
circular. A handler that does not settle is one whose questions lead to such a look-up, and no
number of steps is enough for it, whoever observes. -/
theorem settles_iff_not_circular (grammar : Grammar S) (cursor : Cursor S) :
    ((∀ handler, Settles grammar handler cursor) ↔
      ¬ (grammar cursor.state).Circular cursor.character) ∧
    ∀ handler,
      (¬ Settles grammar handler cursor ↔
        handler.chosen cursor.character = .redispatch ∧
          (grammar cursor.state).Circular cursor.character) ∧
      (¬ Settles grammar handler cursor →
        ∀ {σ : Type} (observer : Observer S σ) (patience : Nat) (seen : σ),
          handle grammar observer patience handler cursor seen = .exhausted seen) := by
  refine ⟨?_, fun handler => ⟨not_settles_iff, ?_⟩⟩
  · constructor
    · intro hall hcircular
      exact not_settles_of_circular hcircular rfl (hall .redispatch)
    · intro hcircular handler
      exact settles_of_not_circular hcircular
  · intro hsettles σ observer patience seen
    obtain ⟨hchosen, hcircular⟩ := not_settles_iff.1 hsettles
    exact handle_eq_exhausted hcircular hchosen observer patience seen

/-- A state that looks letters up again, and ignores everything else. -/
def lettersAgain : Grammar Unit := fun _ =>
  { name := "LETTERS", otherwise := .classify Char.isAlpha .redispatch .ignore }

/-- There a digit settles, whatever the handler, and the look-up of a letter does not. -/
theorem settles_lettersAgain :
    (∀ handler, Settles lettersAgain handler ((Cursor.start ()).moveTo 0 '1')) ∧
    ¬ Settles lettersAgain .redispatch ((Cursor.start ()).moveTo 0 'x') := by
  obtain ⟨hdigit, -⟩ := settles_iff_not_circular lettersAgain ((Cursor.start ()).moveTo 0 '1')
  obtain ⟨-, hletter⟩ := settles_iff_not_circular lettersAgain ((Cursor.start ()).moveTo 0 'x')
  refine ⟨hdigit.2 ?_, (hletter .redispatch).1.2 ⟨rfl, by rintro ⟨⟩, rfl⟩⟩
  rintro ⟨-, hchosen⟩
  cases hchosen

/-- A letter is passed on for ever, although the table has no look-up as an entry of its own. -/
theorem exists_not_settles :
    ¬ (∀ (grammar : Grammar Unit) (handler : Handler Unit) (cursor : Cursor Unit),
      Settles grammar handler cursor) ∧
    ∀ patience, run patience lettersAgain () (recorder (fun _ => none) true) [] "x" =
      ([], .exhausted) := by
  have hcircular : (lettersAgain ()).Circular 'x' := ⟨by rintro ⟨⟩, rfl⟩
  refine ⟨?_, ?_⟩
  · intro hall
    have hletter : ¬ Settles lettersAgain .redispatch ((Cursor.start ()).moveTo 0 'x') :=
      not_settles_of_circular hcircular rfl
    exact hletter (hall lettersAgain .redispatch _)
  · intro patience
    have hletter : step patience lettersAgain (recorder (fun _ => none) true) 0 'x'
        (Cursor.start ()) [] = .exhausted [] := by
      rw [step]
      exact handle_eq_exhausted hcircular rfl _ patience []
    have htext : "x".toList = ['x'] := rfl
    rw [run, htext, consume, hletter]
    rfl

/-! ### Grammars that never ask again -/

/-- If no answer in the table is to look a character up again, no character is circular. -/
theorem State.not_circular_of_asksAgain {state : State S}
    (hotherwise : state.otherwise.asksAgain = false)
    (htriggers : ∀ trigger ∈ state.triggers, trigger.2.asksAgain = false) (c : Char) :
    ¬ state.Circular c := by
  rintro ⟨-, hchosen⟩
  have hasks := Handler.asksAgain_of_chosen hchosen
  rw [State.handler] at hasks
  split at hasks
  · next trigger hfound =>
    rw [htriggers trigger (List.mem_of_find?_eq_some hfound)] at hasks
    cases hasks
  · rw [hotherwise] at hasks
    cases hasks

/-- In the grammar of paths a character is looked up again only when a state is entered or left. -/
theorem not_circular_path (mode : Mode) (c : Char) : ¬ (Mode.state mode).Circular c := by
  apply State.not_circular_of_asksAgain
  · cases mode <;> rfl
  · cases mode <;> simp [Mode.state, Handler.asksAgain]

theorem settles_path (handler : Handler Mode) (cursor : Cursor Mode) :
    Settles Mode.state handler cursor :=
  settles_of_not_circular (not_circular_path cursor.state cursor.character)

end AttributeShell.Automaton
