import AttributeShell.Automaton.Run

/-!
What a run of an automaton has to tell, apart from any observer. The events of a run do not depend
on who hears them: an observer hears them one after the other, until it fails on one of them, and
the run then ends (`run_eq_tell`). What holds of all that can happen in a run is therefore proved of
its `trace`, in which no observer takes part.
-/

namespace AttributeShell.Automaton

variable {S σ ω : Type}

/-- What has become of a run as far as no observer failed. -/
inductive Course (S : Type) where
  | going (cursor : Cursor S)
  | halted (cursor : Cursor S)
  | failed (error : ParseError)
  | exhausted

/-! ### Telling events -/

/-- Tells an observer some events, until it fails on one of them. -/
def tell (observer : Observer S σ) : List (Event S) → σ → σ × Option ParseError
  | [], seen => (seen, none)
  | event :: events, seen =>
    match observer event seen with
    | (seen, some error) => (seen, some error)
    | (seen, none) => tell observer events seen

/-- What has become of a run whose events have been told. -/
def Course.after (course : Course S) : σ × Option ParseError → Progress S σ
  | (seen, some error) => .failed seen error
  | (seen, none) =>
    match course with
    | going cursor => .going cursor seen
    | halted cursor => .halted cursor seen
    | failed error => .failed seen error
    | exhausted => .exhausted seen

/-- How a run ends whose events have been told. -/
def Ending.after (ending : Ending) : σ × Option ParseError → σ × Ending
  | (seen, some error) => (seen, .failed error)
  | (seen, none) => (seen, ending)

@[simp] theorem Ending.fst_after (ending : Ending) (told : σ × Option ParseError) :
    (ending.after told).1 = told.1 := by
  rcases told with ⟨seen, _ | error⟩ <;> rfl

@[simp] theorem tell_nil (observer : Observer S σ) (seen : σ) :
    tell observer [] seen = (seen, none) := rfl

theorem tell_cons_of_none {observer : Observer S σ} {event : Event S} {seen after : σ}
    (h : observer event seen = (after, none)) (events : List (Event S)) :
    tell observer (event :: events) seen = tell observer events after := by
  simp only [tell, h]

theorem tell_cons_of_some {observer : Observer S σ} {event : Event S} {seen after : σ}
    {error : ParseError} (h : observer event seen = (after, some error))
    (events : List (Event S)) :
    tell observer (event :: events) seen = (after, some error) := by
  simp only [tell, h]

theorem tell_append_of_none {observer : Observer S σ} {xs : List (Event S)} {seen after : σ}
    (h : tell observer xs seen = (after, none)) (ys : List (Event S)) :
    tell observer (xs ++ ys) seen = tell observer ys after := by
  induction xs generalizing seen with
  | nil =>
    obtain rfl : seen = after := congrArg Prod.fst h
    rfl
  | cons event events ih =>
    rcases hheard : observer event seen with ⟨heard, _ | error⟩
    · rw [tell_cons_of_none hheard] at h
      rw [List.cons_append, tell_cons_of_none hheard, ih h]
    · rw [tell_cons_of_some hheard] at h
      cases h

theorem tell_append_of_some {observer : Observer S σ} {xs : List (Event S)} {seen after : σ}
    {error : ParseError} (h : tell observer xs seen = (after, some error))
    (ys : List (Event S)) : tell observer (xs ++ ys) seen = (after, some error) := by
  induction xs generalizing seen with
  | nil => cases h
  | cons event events ih =>
    rcases hheard : observer event seen with ⟨heard, _ | found⟩
    · rw [tell_cons_of_none hheard] at h
      rw [List.cons_append, tell_cons_of_none hheard, ih h]
    · rw [tell_cons_of_some hheard] at h
      rw [List.cons_append, tell_cons_of_some hheard, h]

/-- What an observer keeps on each event it keeps on all of them, also if it fails on the last. -/
theorem tell_keeps {observer : Observer S σ} {p : σ → Prop}
    (hkeeps : ∀ event seen, p seen → p (observer event seen).1) (events : List (Event S))
    {seen : σ} (h : p seen) : p (tell observer events seen).1 := by
  induction events generalizing seen with
  | nil => exact h
  | cons event events ih =>
    have hheard := hkeeps event seen h
    rcases hobserve : observer event seen with ⟨heard, _ | error⟩
    · rw [tell_cons_of_none hobserve]
      exact ih (by rwa [hobserve] at hheard)
    · rw [tell_cons_of_some hobserve]
      rwa [hobserve] at hheard

/-! ### The events of a run -/

/-- The events of a handler, and of all that it leads to at this character. -/
def follow (grammar : Grammar S) : Nat → Handler S → Cursor S → List (Event S) × Course S
  | 0, _, _ => ([], .exhausted)
  | patience + 1, handler, cursor =>
    match handler with
    | .ignore => ([], .going cursor)
    | .enter state =>
      let entered := { cursor with nested := state :: cursor.nested }
      let (events, course) := follow grammar patience (grammar state).onEnter entered
      (entered.event .enter :: events, course)
    | .word escape =>
      if escape && cursor.character == '\\' then ([], .going { cursor with escaped := true })
      else ([cursor.event .character], .going cursor)
    | .leave =>
      match cursor.nested with
      | [] => ([], .going cursor)
      | _ :: outer =>
        let left := { cursor with nested := outer }
        let (events, course) := follow grammar patience (grammar left.state).onReturn left
        (cursor.event .leave :: events, course)
    | .redispatch =>
      match (grammar cursor.state).handler cursor.character with
      | .redispatch => ([], .going cursor)
      | next => follow grammar patience next cursor
    | .classify accepts matched otherwise =>
      follow grammar patience (if accepts cursor.character then matched else otherwise) cursor
    | .reject expected => ([], .failed (.unexpected cursor.character cursor.offset expected))
    | .halt => ([], .halted cursor)

/-- The events of the characters from a position on, until one of them ends the run. -/
def scan (patience : Nat) (grammar : Grammar S) :
    List Char → Nat → Cursor S → List (Event S) × Course S
  | [], _, cursor => ([], .going cursor)
  | c :: rest, offset, cursor =>
    match follow grammar patience (cursor.firstHandler grammar c) (cursor.moveTo offset c) with
    | (events, .going cursor) =>
      let (more, course) := scan patience grammar rest (offset + c.utf8Size) cursor
      (events ++ more, course)
    | (events, ended) => (events, ended)

/-- A state is left at the end of the text. -/
def closingEvent (length : Nat) (last : Char) (state : S) : Event S :=
  ⟨.leave, state, length, last, true⟩

/-- The events of leaving the nested states at the end of the text. -/
def closing (grammar : Grammar S) (length : Nat) (last : Char) :
    List S → List (Event S) × Ending
  | [] => ([], .returned)
  | state :: outer =>
    if (grammar state).mustClose then ([], .failed (.unterminated (grammar state).name length))
    else
      let (events, ending) := closing grammar length last outer
      (closingEvent length last state :: events, ending)

/-- The events behind the last character that is read. -/
def Course.closing (grammar : Grammar S) (length : Nat) : Course S → List (Event S) × Ending
  | going cursor => Automaton.closing grammar length cursor.character cursor.nested
  | halted cursor => ([cursor.event .halt], .returned)
  | failed error => ([], .failed error)
  | exhausted => ([], .exhausted)

/-- All events of a run, and how it ends. -/
def trace (patience : Nat) (grammar : Grammar S) (root : S) (text : String) :
    List (Event S) × Ending :=
  let (events, course) := scan patience grammar text.toList 0 (Cursor.start root)
  let (last, ending) := course.closing grammar (Text.size text)
  (events ++ last, ending)

/-! ### An observer hears the events of the run -/

section Hearing

variable (grammar : Grammar S) (observer : Observer S σ)

theorem report_eq_tell (event : Event S) (events : List (Event S)) (course : Course S) (seen : σ)
    (goOn : σ → Progress S σ)
    (hgoOn : ∀ seen, goOn seen = course.after (tell observer events seen)) :
    report observer event seen goOn = course.after (tell observer (event :: events) seen) := by
  rcases hheard : observer event seen with ⟨heard, _ | error⟩
  · rw [tell_cons_of_none hheard, ← hgoOn, report, hheard]
  · rw [tell_cons_of_some hheard, report, hheard]
    rfl

theorem handle_eq_tell (patience : Nat) (handler : Handler S) (cursor : Cursor S) (seen : σ) :
    handle grammar observer patience handler cursor seen =
      (follow grammar patience handler cursor).2.after
        (tell observer (follow grammar patience handler cursor).1 seen) := by
  induction patience generalizing handler cursor seen with
  | zero => rfl
  | succ patience ih =>
    cases handler with
    | ignore => rfl
    | enter state =>
      rw [handle, follow]
      apply report_eq_tell
      intro seen
      exact ih _ _ seen
    | word escape =>
      rw [handle, follow]
      split
      · rfl
      · apply report_eq_tell
        intro seen
        rfl
    | leave =>
      rw [handle, follow]
      rcases hnested : cursor.nested with _ | ⟨inner, outer⟩
      · rfl
      · apply report_eq_tell
        intro seen
        exact ih _ _ seen
    | redispatch =>
      rw [handle, follow]
      generalize (grammar cursor.state).handler cursor.character = next
      cases next <;> first | rfl | exact ih _ _ _
    | classify accepts matched otherwise =>
      rw [handle, follow]
      exact ih _ _ _
    | reject expected => rfl
    | halt => rfl

theorem consume_eq_tell (patience : Nat) (cs : List Char) (offset : Nat) (cursor : Cursor S)
    (seen : σ) :
    consume patience grammar observer cs offset cursor seen =
      (scan patience grammar cs offset cursor).2.after
        (tell observer (scan patience grammar cs offset cursor).1 seen) := by
  induction cs generalizing offset cursor seen with
  | nil => rfl
  | cons c rest ih =>
    rw [consume, step, handle_eq_tell, scan]
    rcases follow grammar patience (cursor.firstHandler grammar c) (cursor.moveTo offset c) with
      ⟨events, course⟩
    rcases htold : tell observer events seen with ⟨told, _ | error⟩
    · cases course with
      | going after =>
        show consume patience grammar observer rest (offset + c.utf8Size) after told = _
        rw [ih, tell_append_of_none htold]
      | halted after => simp only [htold, Course.after]
      | failed error => simp only [htold, Course.after]
      | exhausted => simp only [htold, Course.after]
    · cases course with
      | going after => simp only [tell_append_of_some htold, Course.after]
      | halted after => simp only [htold, Course.after]
      | failed error => simp only [htold, Course.after]
      | exhausted => simp only [htold, Course.after]

theorem unwind_eq_tell (length : Nat) (last : Char) (nested : List S) (seen : σ) :
    unwind grammar observer length last nested seen =
      (closing grammar length last nested).2.after
        (tell observer (closing grammar length last nested).1 seen) := by
  induction nested generalizing seen with
  | nil => rfl
  | cons state outer ih =>
    rw [unwind, closing]
    split
    · rfl
    · rcases hheard : observer (closingEvent length last state) seen with ⟨heard, _ | error⟩
      · rw [tell_cons_of_none hheard, ← ih]
        simp only [closingEvent] at hheard
        simp only [hheard]
      · rw [tell_cons_of_some hheard]
        simp only [closingEvent] at hheard
        simp only [hheard, Ending.after]

theorem finish_eq_tell (length : Nat) (course : Course S) (seen : σ) :
    (course.after (seen, none)).finish grammar observer length =
      (course.closing grammar length).2.after
        (tell observer (course.closing grammar length).1 seen) := by
  cases course with
  | going cursor => exact unwind_eq_tell grammar observer _ _ _ seen
  | halted cursor =>
    rcases hheard : observer (cursor.event .halt) seen with ⟨heard, _ | error⟩
    · simp only [Course.after, Course.closing, Progress.finish, hheard,
        tell_cons_of_none hheard, tell_nil, Ending.after]
    · simp only [Course.after, Course.closing, Progress.finish, hheard,
        tell_cons_of_some hheard, Ending.after]
  | failed error => rfl
  | exhausted => rfl

/-- A run tells its observer the events of its trace, and ends as they do unless the observer fails
on one of them. -/
theorem run_eq_tell (patience : Nat) (root : S) (seen : σ) (text : String) :
    run patience grammar root observer seen text =
      (trace patience grammar root text).2.after
        (tell observer (trace patience grammar root text).1 seen) := by
  rw [run, trace, consume_eq_tell]
  rcases scan patience grammar text.toList 0 (Cursor.start root) with ⟨events, course⟩
  rcases htold : tell observer events seen with ⟨told, _ | error⟩
  · simp only [finish_eq_tell, tell_append_of_none htold]
  · simp only [tell_append_of_some htold, Course.after, Progress.finish, Ending.after]

theorem run_keeps {p : σ → Prop} (hkeeps : ∀ event seen, p seen → p (observer event seen).1)
    (patience : Nat) (root : S) {seen : σ} (h : p seen) (text : String) :
    p (run patience grammar root observer seen text).1 := by
  rw [run_eq_tell, Ending.fst_after]
  exact tell_keeps hkeeps _ h

end Hearing

/-! ### Observers that never fail, and observers that are watched -/

theorem Observer.NeverFails.eq {observer : Observer S σ} (h : observer.NeverFails)
    (event : Event S) (seen : σ) : observer event seen = ((observer event seen).1, none) :=
  Prod.ext rfl (h event seen)

theorem Observer.watched_eq {observer : Observer S σ} {event : Event S} {seen heard : σ}
    {fault : Option ParseError} (h : observer event seen = (heard, fault)) (note : Event S → σ → ω)
    (noted : List ω) :
    observer.watched note event (seen, noted) =
      ((heard, noted ++ [note event heard]), fault) := by
  simp only [Observer.watched, h]

theorem tell_of_neverFails {observer : Observer S σ} (h : observer.NeverFails)
    (events : List (Event S)) (seen : σ) :
    tell observer events seen = ((tell observer events seen).1, none) := by
  induction events generalizing seen with
  | nil => rfl
  | cons event events ih =>
    rw [tell_cons_of_none (h.eq event seen)]
    exact ih _

/-- Who watches an observer that never fails notes down every event. -/
theorem tell_watched {observer : Observer S σ} (h : observer.NeverFails)
    (events noted : List (Event S)) (seen : σ) :
    tell (observer.watched fun event _ => event) events (seen, noted) =
      (((tell observer events seen).1, noted ++ events), none) := by
  induction events generalizing seen noted with
  | nil => simp
  | cons event events ih =>
    have hheard := h.eq event seen
    rw [tell_cons_of_none (Observer.watched_eq hheard _ noted), tell_cons_of_none hheard, ih]
    simp

/-- Watching an observer that never fails shows the trace of the run, and changes nothing in it. -/
theorem run_watched {observer : Observer S σ} (h : observer.NeverFails) (patience : Nat)
    (grammar : Grammar S) (root : S) (seen : σ) (text : String) :
    run patience grammar root (observer.watched fun event _ => event) (seen, []) text =
        (((run patience grammar root observer seen text).1,
          (trace patience grammar root text).1), (trace patience grammar root text).2) ∧
      (run patience grammar root observer seen text).2 =
        (trace patience grammar root text).2 := by
  rw [run_eq_tell, run_eq_tell, tell_watched h, tell_of_neverFails h]
  exact ⟨rfl, rfl⟩

end AttributeShell.Automaton
