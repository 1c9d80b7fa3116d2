import AttributeShell.Proofs.Automaton.Prefix

/-!
Escapes. In a state that takes words with escapes, a backslash and the character behind it are one
character of the word, whatever the state would do with that character: it is reported at its own
position, and nothing is entered or left. A text with a backslash before each of its characters is
therefore reported character by character, and as nothing else (`run_escaped`).
-/

namespace AttributeShell.Automaton

variable {S σ ω : Type}

/-- A character of a word. -/
def reported (state : S) (offset : Nat) (c : Char) : Event S :=
  ⟨.character, state, offset, c, false⟩

/-- A backslash before each of the characters. -/
def escapes (cs : List Char) : List Char := cs.flatMap fun c => ['\\', c]

/-- The events of characters that each stand behind a backslash, the first of which is at
`offset`. -/
def reports (state : S) : List Char → Nat → List (Event S)
  | [], _ => []
  | c :: cs, offset => reported state (offset + 1) c :: reports state cs (offset + 1 + c.utf8Size)

theorem map_reports (state : S) (cs : List Char) (offset : Nat) :
    (reports state cs offset).map (fun event => (event.kind, event.state, event.character)) =
      cs.map fun c => (.character, state, c) := by
  induction cs generalizing offset with
  | nil => rfl
  | cons c cs ih => rw [reports, List.map_cons, ih, List.map_cons, reported]

theorem Observer.NeverFails.watched {observer : Observer S σ} (h : observer.NeverFails)
    (note : Event S → σ → ω) : (observer.watched note).NeverFails := by
  intro event seen
  rw [Observer.watched_eq (h.eq event seen.1)]

section Reading

variable {patience : Nat} {grammar : Grammar S} {observer : Observer S σ} {cursor : Cursor S}

/-- A text is read by reading its first part and then the second. -/
theorem consume_append {xs : List Char} {offset : Nat} {reached : Cursor S} {seen heard : σ}
    (h : consume patience grammar observer xs offset cursor seen = .going reached heard)
    (ys : List Char) :
    consume patience grammar observer (xs ++ ys) offset cursor seen =
      consume patience grammar observer ys (offset + Text.byteLength xs) reached heard := by
  rw [consume_eq_tell] at h
  obtain ⟨hcourse, htold⟩ := Course.after_eq_going.1 h
  have hscan : scan patience grammar xs offset cursor =
      ((scan patience grammar xs offset cursor).1, .going reached) := Prod.ext rfl hcourse
  rw [consume_eq_tell, scan_append hscan, tell_append_of_none htold, ← consume_eq_tell]

/-- The backslash is not reported, and nothing but the next character is affected by it. -/
theorem step_backslash (hescaped : cursor.escaped = false)
    (hword : (grammar cursor.state).handler '\\' = .word true) (offset : Nat) (seen : σ) :
    step (patience + 1) grammar observer offset '\\' cursor seen =
      .going { cursor.moveTo offset '\\' with escaped := true } seen := by
  rw [step, Cursor.firstHandler, if_neg (by simp [hescaped]), hword, handle]
  exact if_pos (by simp [Cursor.moveTo])

/-- The character behind it is reported, whatever its handler is. -/
theorem step_escaped (hobserver : observer.NeverFails) (hescaped : cursor.escaped = true)
    (offset : Nat) (c : Char) (seen : σ) :
    step (patience + 1) grammar observer offset c cursor seen =
      .going (cursor.moveTo offset c) (observer (reported cursor.state offset c) seen).1 := by
  have hevent : (cursor.moveTo offset c).event .character = reported cursor.state offset c := rfl
  rw [step, Cursor.firstHandler, if_pos hescaped, handle, if_neg (by simp), report, hevent,
    hobserver.eq]

/-- A backslash and a character behind it. -/
theorem consume_escaped (hobserver : observer.NeverFails) (hescaped : cursor.escaped = false)
    (hword : (grammar cursor.state).handler '\\' = .word true) (c : Char) (rest : List Char)
    (offset : Nat) (seen : σ) :
    consume (patience + 1) grammar observer ('\\' :: c :: rest) offset cursor seen =
      consume (patience + 1) grammar observer rest (offset + 1 + c.utf8Size)
        (cursor.moveTo (offset + 1) c)
        (observer (reported cursor.state (offset + 1) c) seen).1 := by
  have hsize : ('\\' : Char).utf8Size = 1 := rfl
  rw [consume, step_backslash hescaped hword, hsize]
  simp only
  rw [consume, step_escaped hobserver rfl]
  rfl

/-- Characters that each stand behind a backslash are reported in the state in which the first of
them is read. -/
theorem exists_consume_escapes (patience : Nat) (hobserver : observer.NeverFails)
    (hescaped : cursor.escaped = false)
    (hword : (grammar cursor.state).handler '\\' = .word true) (cs : List Char) (offset : Nat)
    (seen : σ) :
    ∃ reached : Cursor S, reached.nested = cursor.nested ∧
      consume (patience + 1) grammar observer (escapes cs) offset cursor seen =
        .going reached (tell observer (reports cursor.state cs offset) seen).1 := by
  induction cs generalizing cursor offset seen with
  | nil => exact ⟨cursor, rfl, rfl⟩
  | cons c cs ih =>
    have hcons : escapes (c :: cs) = '\\' :: c :: escapes cs := rfl
    have hmoved : (cursor.moveTo (offset + 1) c).escaped = false := rfl
    obtain ⟨reached, hnested, hconsume⟩ := ih hmoved hword (offset + 1 + c.utf8Size)
      (observer (reported cursor.state (offset + 1) c) seen).1
    refine ⟨reached, hnested, ?_⟩
    rw [hcons, consume_escaped hobserver hescaped hword, hconsume, reports,
      tell_cons_of_none (hobserver.eq _ seen)]
    rfl

end Reading

/-- An escape shields any character. Behind a beginning that has been read up to a state which takes
words with escapes, a backslash and a character are one event, the character at its own position,
and what is nested stays as it was; the run then goes on with the rest. From such an initial state,
a text with a backslash before each of its characters is read to its end, and its characters are
all that is reported. -/
theorem run_escaped (patience : Nat) (grammar : Grammar S) (root : S) {observer : Observer S σ}
    (hobserver : observer.NeverFails) (seen : σ) :
    let watched : Observer S (σ × List (Event S)) := observer.watched fun event _ => event
    (∀ (before rest : String) (c : Char) (cursor : Cursor S) (heard : σ) (events : List (Event S)),
      consume (patience + 1) grammar watched before.toList 0 (Cursor.start root) (seen, []) =
        .going cursor (heard, events) →
      cursor.escaped = false → (grammar cursor.state).handler '\\' = .word true →
      ∃ (reached : Cursor S) (event : Event S),
        reached.stack = cursor.stack ∧ reached.escaped = false ∧
        event = reported cursor.state (Text.size before + 1) c ∧
        consume (patience + 1) grammar watched (before ++ "\\" ++ String.singleton c).toList 0
            (Cursor.start root) (seen, []) =
          .going reached ((observer event heard).1, events ++ [event]) ∧
        run (patience + 1) grammar root watched (seen, [])
            (before ++ "\\" ++ String.singleton c ++ rest) =
          (consume (patience + 1) grammar watched rest.toList
              (Text.size (before ++ "\\" ++ String.singleton c)) reached
              ((observer event heard).1, events ++ [event])).finish grammar watched
            (Text.size (before ++ "\\" ++ String.singleton c ++ rest))) ∧
    ((grammar root).handler '\\' = .word true → ∀ word : String,
      ∃ events,
        run (patience + 1) grammar root watched (seen, []) (String.ofList (escapes word.toList)) =
          (((tell observer events seen).1, events), .returned) ∧
        events = reports root word.toList 0 ∧
        events.map (fun event => (event.kind, event.state, event.character)) =
          word.toList.map fun c => (.character, root, c)) := by
  intro watched
  have hwatched : watched.NeverFails := hobserver.watched _
  refine ⟨?_, ?_⟩
  · intro before rest c cursor heard events hbefore hescaped hword
    have hconsume : consume (patience + 1) grammar watched
        (before ++ "\\" ++ String.singleton c).toList 0 (Cursor.start root) (seen, []) =
        .going (cursor.moveTo (Text.size before + 1) c)
          ((observer (reported cursor.state (Text.size before + 1) c) heard).1,
            events ++ [reported cursor.state (Text.size before + 1) c]) := by
      have htext : (before ++ "\\" ++ String.singleton c).toList =
          before.toList ++ ['\\', c] := by simp
      rw [htext, consume_append hbefore, consume_escaped hwatched hescaped hword, Nat.zero_add]
      rfl
    refine ⟨cursor.moveTo (Text.size before + 1) c, _, rfl, rfl, rfl, hconsume, ?_⟩
    have hsize : Text.byteLength (before ++ "\\" ++ String.singleton c).toList =
        Text.size (before ++ "\\" ++ String.singleton c) := rfl
    rw [run, String.toList_append, consume_append hconsume, Nat.zero_add, hsize]
  · intro hword word
    have hstart : (Cursor.start root).escaped = false := rfl
    obtain ⟨reached, hnested, hconsume⟩ :=
      exists_consume_escapes patience hwatched hstart hword word.toList 0 (seen, [])
    refine ⟨reports root word.toList 0, ?_, rfl, map_reports root word.toList 0⟩
    have hheard : (tell watched (reports root word.toList 0) (seen, [])).1 =
        ((tell observer (reports root word.toList 0) seen).1, reports root word.toList 0) := by
      rw [tell_watched hobserver, List.nil_append]
    have hleft : reached.nested = [] := hnested
    have hstate : (Cursor.start root).state = root := rfl
    rw [run, String.toList_ofList, hconsume, Progress.finish, hleft, unwind, hstate, hheard]

/-- Words with parentheses around them, in which a hash is refused and an exclamation mark ends the
expression. `true` is the state inside of parentheses. -/
def escapedWords : Grammar Bool
  | false =>
    { name := "WORDS", otherwise := .word true
      triggers := [('(', .enter true), ('!', .halt), ('#', .reject "no hashes")] }
  | true =>
    { name := "PAREN", otherwise := .word true
      triggers := [('(', .enter true), (')', .leave), ('#', .reject "no hashes")]
      mustClose := true }

/-- A parenthesis that is closed inside another one, an escaped one behind it, and a text of nothing
but characters that would otherwise enter a state, be refused, end the run or escape. -/
theorem run_escaped_parentheses :
    let observer : Observer Bool (List (Event Bool)) := recorder (fun _ => none) true
    let watched := observer.watched fun event _ => event
    observer.NeverFails ∧
    (∃ cursor heard events,
      consume 8 escapedWords watched "(é(\\))".toList 0 (Cursor.start false) ([], []) =
        .going cursor (heard, events) ∧
      cursor.stack = [true, false] ∧ cursor.escaped = false ∧
      (escapedWords cursor.state).handler '\\' = .word true ∧
      ∃ (reached : Cursor Bool) (event : Event Bool),
        reached.stack = [true, false] ∧ event = reported true 8 ')' ∧
        consume 8 escapedWords watched "(é(\\))\\)".toList 0 (Cursor.start false) ([], []) =
          .going reached ((observer event heard).1, events ++ [event])) ∧
    (escapedWords false).handler '\\' = .word true ∧
    ∃ events : List (Event Bool),
      run 8 escapedWords false watched ([], []) "\\(\\#\\!\\\\" = ((events, events), .returned) ∧
      events.map (fun event => (event.kind, event.state, event.character)) =
        [(.character, false, '('), (.character, false, '#'), (.character, false, '!'),
          (.character, false, '\\')] := by
  intro observer watched
  have hnever : observer.NeverFails := neverFails_recorder true
  obtain ⟨hshields, hwords⟩ := run_escaped 7 escapedWords false hnever []
  refine ⟨hnever, ?_, rfl, ?_⟩
  · obtain ⟨reached, event, hstack, -, hevent, hconsume, -⟩ :=
      hshields "(é(\\))" "" ')' _ _ _ rfl rfl rfl
    exact ⟨_, _, _, rfl, rfl, rfl, rfl, reached, event, hstack, hevent, hconsume⟩
  · obtain ⟨events, hrun, rfl, hevents⟩ := hwords rfl "(#!\\"
    exact ⟨_, hrun, hevents⟩

end AttributeShell.Automaton
