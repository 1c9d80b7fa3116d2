import AttributeShell.Proofs.Automaton.Nesting

/-!
What a run tells of the beginning of a text. The events of a text are those of its first characters
and then those of the rest (`scan_append`), and an observer that is watched while it takes in the
first of them has noted them down whatever becomes of the rest.
-/

namespace AttributeShell.Automaton

variable {S σ ω : Type}

theorem neverFails_recorder (hearsHalt : Bool) :
    (recorder (fun _ => none) hearsHalt : Observer S (List (Event S))).NeverFails := by
  intro event seen
  rw [recorder]
  split <;> rfl

theorem Course.after_eq_going {course : Course S} {told : σ × Option ParseError}
    {cursor : Cursor S} {seen : σ} :
    course.after told = .going cursor seen ↔ course = .going cursor ∧ told = (seen, none) := by
  obtain ⟨heard, _ | error⟩ := told
  · cases course <;> simp [Course.after]
  · simp [Course.after]

/-- What is told of a text is what is told of its first part and then of the second. -/
theorem scan_append {patience : Nat} {grammar : Grammar S} {xs : List Char} {offset : Nat}
    {cursor reached : Cursor S} {events : List (Event S)}
    (h : scan patience grammar xs offset cursor = (events, .going reached)) (ys : List Char) :
    scan patience grammar (xs ++ ys) offset cursor =
      (events ++ (scan patience grammar ys (offset + Text.byteLength xs) reached).1,
        (scan patience grammar ys (offset + Text.byteLength xs) reached).2) := by
  induction xs generalizing offset cursor events with
  | nil =>
    cases h
    rfl
  | cons c xs ih =>
    rw [scan] at h
    rw [List.cons_append, scan]
    generalize follow grammar patience (cursor.firstHandler grammar c) (cursor.moveTo offset c) =
      told at h
    obtain ⟨first, course⟩ := told
    cases course with
    | going middle =>
      obtain ⟨hevents, hcourse⟩ := Prod.mk.inj h
      have hrest : scan patience grammar xs (offset + c.utf8Size) middle =
          ((scan patience grammar xs (offset + c.utf8Size) middle).1, .going reached) := by
        rw [← hcourse]
      simp only [ih hrest, ← hevents, Text.byteLength_cons, Nat.add_assoc, List.append_assoc]
    | halted middle => cases h
    | failed error => cases h
    | exhausted => cases h

/-- What is told of a single character is what its handler tells. -/
theorem fst_scan_singleton (patience : Nat) (grammar : Grammar S) (c : Char)
    (offset : Nat) (cursor : Cursor S) :
    (scan patience grammar [c] offset cursor).1 =
      (follow grammar patience (cursor.firstHandler grammar c) (cursor.moveTo offset c)).1 := by
  rw [scan]
  generalize follow grammar patience (cursor.firstHandler grammar c) (cursor.moveTo offset c) = told
  obtain ⟨events, course⟩ := told
  cases course with
  | going reached => exact List.append_nil events
  | halted reached => rfl
  | failed error => rfl
  | exhausted => rfl

/-- Who watches an observer notes down the events that it takes in. -/
theorem exists_noted_of_tell {observer : Observer S σ} {events : List (Event S)}
    {seen after : σ} (h : tell observer events seen = (after, none)) (note : Event S → σ → ω)
    (noted : List (Event S × ω)) :
    ∃ entries, entries.map Prod.fst = events ∧
      tell (observer.watched fun event seen => (event, note event seen)) events (seen, noted) =
        ((after, noted ++ entries), none) := by
  induction events generalizing seen noted with
  | nil =>
    cases h
    exact ⟨[], rfl, by simp⟩
  | cons event events ih =>
    rcases hheard : observer event seen with ⟨heard, _ | error⟩
    · rw [tell_cons_of_none hheard] at h
      obtain ⟨entries, hentries, htell⟩ := ih h (noted ++ [(event, note event heard)])
      refine ⟨(event, note event heard) :: entries, by simp [hentries], ?_⟩
      rw [tell_cons_of_none (Observer.watched_eq hheard _ noted), htell, List.append_assoc,
        List.singleton_append]
    · rw [tell_cons_of_some hheard] at h
      cases h

/-- What has been noted down stays. -/
theorem noted_prefix_tell (observer : Observer S σ) (note : Event S → σ → ω)
    (events : List (Event S)) (seen : σ) (noted : List ω) :
    noted <+: (tell (observer.watched note) events (seen, noted)).1.2 := by
  induction events generalizing seen noted with
  | nil => exact List.prefix_rfl
  | cons event events ih =>
    rcases hheard : observer event seen with ⟨heard, _ | error⟩
    · rw [tell_cons_of_none (Observer.watched_eq hheard note noted)]
      exact (List.prefix_append _ _).trans (ih heard _)
    · rw [tell_cons_of_some (Observer.watched_eq hheard note noted)]
      exact List.prefix_append _ _

theorem StandsOne.eq_of_singleton {c : Char} {offset position : Nat}
    (h : StandsOne [c] offset position) : position = offset := by
  obtain ⟨before, d, rest, hcs, rfl⟩ := h
  cases before with
  | nil => rfl
  | cons x before => simp at hcs

/-- At the end of a text nothing is taken in. -/
theorem kind_of_mem_closing {grammar : Grammar S} {length : Nat} {course : Course S}
    {event : Event S} (h : event ∈ (course.closing grammar length).1) :
    event.kind ≠ .character := by
  cases course with
  | going cursor =>
    obtain ⟨left, kept, -, hclosing, -⟩ :=
      exists_closing grammar length cursor.character cursor.nested
    have hevent : event ∈ (closing grammar length cursor.character cursor.nested).1 := h
    rw [hclosing] at hevent
    obtain ⟨state, -, rfl⟩ := List.mem_map.1 hevent
    simp [closingEvent]
  | halted cursor =>
    rw [List.mem_singleton.1 h]
    simp [Cursor.event]
  | failed error => cases h
  | exhausted => cases h

end AttributeShell.Automaton
