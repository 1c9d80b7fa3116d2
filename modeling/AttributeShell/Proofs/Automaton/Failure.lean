import AttributeShell.Path.Basic
import AttributeShell.Proofs.Automaton.Trace

/-!
An observer that fails stops a run at once. The events up to the one that it fails on are those of
the run in which it does not fail, that event is the last, and the run ends with the observer's
error, wherever in a cascade or at the end of the text the event stands (`run_failingAt`).
-/

namespace AttributeShell.Automaton

variable {S σ : Type}

/-- Behaves as another observer does and keeps every event, but fails right after the event numbered
`n`. -/
def Observer.failingAt (observer : Observer S σ) (n : Nat) (error : ParseError) :
    Observer S (σ × List (Event S)) :=
  fun event seen =>
    (((observer event seen.1).1, seen.2 ++ [event]),
      if seen.2.length = n then some error else none)

variable {observer : Observer S σ} {n : Nat} {events : List (Event S)}

/-- Before the event numbered `n` the observer does not fail. -/
theorem tell_failingAt_of_le (h : observer.NeverFails) (error : ParseError) (seen : σ)
    (noted : List (Event S)) (hle : noted.length + events.length ≤ n) :
    tell (observer.failingAt n error) events (seen, noted) =
      (((tell observer events seen).1, noted ++ events), none) := by
  induction events generalizing seen noted with
  | nil => simp
  | cons event events ih =>
    rw [List.length_cons] at hle
    have hne : noted.length ≠ n := by omega
    have hgoesOn : observer.failingAt n error event (seen, noted) =
        (((observer event seen).1, noted ++ [event]), none) := by
      simp only [Observer.failingAt, if_neg hne]
    have hshort : (noted ++ [event]).length + events.length ≤ n := by
      rw [List.length_append, List.length_singleton]
      omega
    rw [tell_cons_of_none hgoesOn, tell_cons_of_none (h.eq event seen), ih _ _ hshort,
      List.append_assoc, List.singleton_append]

/-- On the event numbered `n` the observer fails, and hears nothing more. -/
theorem tell_failingAt_of_lt (h : observer.NeverFails) (error : ParseError)
    (hlt : n < events.length) (seen : σ) :
    tell (observer.failingAt n error) events (seen, []) =
      (((tell observer (events.take (n + 1)) seen).1, events.take (n + 1)), some error) := by
  obtain ⟨first, event, behind, rfl, rfl⟩ :
      ∃ first event behind, events = first ++ event :: behind ∧ first.length = n :=
    ⟨events.take n, events[n], events.drop (n + 1), by simp, by simp; omega⟩
  have hfirst : tell (observer.failingAt first.length error) first (seen, []) =
      (((tell observer first seen).1, first), none) :=
    tell_failingAt_of_le h error seen [] (by simp)
  have hlast : observer.failingAt first.length error event ((tell observer first seen).1, first) =
      (((observer event (tell observer first seen).1).1, first ++ [event]), some error) := by
    rw [Observer.failingAt, if_pos rfl]
  have htake : (first ++ event :: behind).take (first.length + 1) = first ++ [event] := by
    rw [List.take_length_add_append]
    rfl
  rw [tell_append_of_none hfirst, tell_cons_of_some hlast, htake,
    tell_append_of_none (tell_of_neverFails h first seen), tell_cons_of_none (h.eq event _),
    tell_nil]

/-- The failure of an observer ends a run at once, and changes nothing before. If the run with an
observer that never fails has more than `n` events, the observer that behaves alike but fails right
after the event numbered `n` hears exactly the first `n + 1` of them, and the run ends with its
error. Otherwise both runs are the same. -/
theorem run_failingAt (patience : Nat) (grammar : Grammar S) (root : S) {observer : Observer S σ}
    (hobserver : observer.NeverFails) (seen : σ) (text : String) (n : Nat) (error : ParseError) :
    ∃ events,
      run patience grammar root (observer.watched fun event _ => event) (seen, []) text =
        (((run patience grammar root observer seen text).1, events),
          (run patience grammar root observer seen text).2) ∧
      (n < events.length →
        run patience grammar root (observer.failingAt n error) (seen, []) text =
          (((tell observer (events.take (n + 1)) seen).1, events.take (n + 1)), .failed error)) ∧
      (events.length ≤ n →
        run patience grammar root (observer.failingAt n error) (seen, []) text =
          run patience grammar root (observer.watched fun event _ => event) (seen, []) text) := by
  obtain ⟨hwatched, hending⟩ := run_watched hobserver patience grammar root seen text
  refine ⟨(trace patience grammar root text).1, ?_, ?_, ?_⟩
  · rw [hwatched, hending]
  · intro hlt
    rw [run_eq_tell, tell_failingAt_of_lt hobserver error hlt, Ending.after]
  · intro hle
    have htell : tell (observer.failingAt n error) (trace patience grammar root text).1 (seen, []) =
        (((tell observer (trace patience grammar root text).1 seen).1,
          (trace patience grammar root text).1), none) :=
      tell_failingAt_of_le hobserver error seen [] (by simpa using hle)
    rw [run_eq_tell, run_eq_tell, htell, tell_watched hobserver, List.nil_append]

/-- A dot leaves three states at once. An observer that fails on the second of them does not hear of
the third, and one that would fail later hears everything. -/
theorem run_failingAt_index :
    let observer : Observer Mode (List (Event Mode)) := recorder (fun _ => none) true
    let error : ParseError := .invalidAddress "fault"
    observer.NeverFails ∧ ∃ events : List (Event Mode),
      run 16 Mode.state .initial observer [] "a[1]." = (events, .returned) ∧
      ((events.map fun event => (event.kind, event.state, event.offset)).drop 6 =
        [(.enter, .closeBracket, 3), (.leave, .closeBracket, 4), (.leave, .listIndex, 4),
          (.leave, .openBracket, 4), (.enter, .dot, 4), (.leave, .dot, 5)]) ∧
      run 16 Mode.state .initial (observer.failingAt 8 error) ([], []) "a[1]." =
        ((events.take 9, events.take 9), .failed error) ∧
      run 16 Mode.state .initial (observer.failingAt 12 error) ([], []) "a[1]." =
        ((events, events), .returned) := by
  intro observer error
  have hnever : observer.NeverFails := by
    intro event seen
    simp [observer, recorder]
  obtain ⟨events, hrun, hearly, -⟩ :=
    run_failingAt 16 Mode.state .initial hnever [] "a[1]." 8 error
  obtain ⟨events', hrun', -, hlate⟩ :=
    run_failingAt 16 Mode.state .initial hnever [] "a[1]." 12 error
  have hwatched : (run 16 Mode.state .initial (observer.watched fun event _ => event) ([], [])
      "a[1].").1.2 = events := by rw [hrun]
  have hsame : events' = events := by
    rw [← hwatched, hrun']
  subst hsame hwatched
  exact ⟨hnever, _, rfl, rfl, hearly (by decide), hlate (by decide)⟩

end AttributeShell.Automaton
