import AttributeShell.Proofs.Path.Complete

/-!
Two paths joined by a dot. Behind a complete path and a dot, a text is read as it is read on its
own: the same characters are taken in and the same states are entered, behind the names that are
there already and at positions further on.

The two readings start in different states, at the front of a text and behind a dot, and are in the
same one after the first character. From then on `Behind` relates them, and with them what comes of
the two texts (`AttributePath.parse_joined`).
-/

namespace AttributeShell

/-- The same error further on in a text. -/
def ParseError.shift (distance : Nat) : ParseError → ParseError
  | .missingName separator offset => .missingName separator (offset + distance)
  | .unexpected character offset expected => .unexpected character (offset + distance) expected
  | .unterminated state offset => .unterminated state (offset + distance)
  | .invalidAddress text => .invalidAddress text
  | .invalidCommand fault => .invalidCommand fault

/-- The same names and the same current one, behind names that are there already. Neither reading
has ended. -/
structure Joined (names : List String) (own whole : Reading) : Prop where
  segments : whole.segments.toList = names ++ own.segments.toList
  buffer : whole.buffer = own.buffer
  own_running : own.haltedAt = none
  whole_running : whole.haltedAt = none

/-- The same reading, behind names that are there already and take so many bytes. -/
structure Behind (names : List String) (distance : Nat) (own whole : Reading) : Prop
    extends Joined names own whole where
  mode : whole.mode = own.mode
  enteredOn : whole.enteredOn = own.enteredOn
  enteredAt : whole.enteredAt = own.enteredAt + distance

inductive EndsBehind (names : List String) (distance : Nat) : Scanned → Scanned → Prop where
  | going {own whole : Reading} : Behind names distance own whole →
      EndsBehind names distance (.going own) (.going whole)
  | halted {own whole : Reading} {offset : Nat} : Behind names distance own whole →
      EndsBehind names distance (.halted { own with haltedAt := some offset })
        (.halted { whole with haltedAt := some (offset + distance) })
  | failed {error : ParseError} :
      EndsBehind names distance (.failed error) (.failed (error.shift distance))

namespace Joined

variable {names : List String} {distance : Nat} {own whole : Reading}

theorem enter (h : Joined names own whole) (mode : Mode) (offset : Nat) (c : Char) :
    Behind names distance (own.enter mode offset c) (whole.enter mode (offset + distance) c) :=
  ⟨⟨h.segments, h.buffer, h.own_running, h.whole_running⟩, rfl, rfl, rfl⟩

theorem clear (h : Joined names own whole) : Joined names own.clear whole.clear :=
  ⟨h.segments, rfl, h.own_running, h.whole_running⟩

theorem commit (h : Joined names own whole) : Joined names own.commit whole.commit := by
  refine ⟨?_, rfl, h.own_running, h.whole_running⟩
  simp [Reading.commit, h.segments, h.buffer]

end Joined

namespace Behind

variable {names : List String} {distance : Nat} {own whole : Reading}

theorem push (h : Behind names distance own whole) (c : Char) :
    Behind names distance (own.push c) (whole.push c) :=
  ⟨⟨h.segments, by simp [Reading.push, h.buffer], h.own_running, h.whole_running⟩,
    h.mode, h.enteredOn, h.enteredAt⟩

theorem clear (h : Behind names distance own whole) :
    Behind names distance own.clear whole.clear :=
  ⟨h.toJoined.clear, h.mode, h.enteredOn, h.enteredAt⟩

end Behind

section Characters

variable {names : List String} {distance : Nat} {own whole : Reading} (offset : Nat) (c : Char)

theorem separate_behind (h : Joined names own whole)
    (hindex : whole.mode = some .closeBracket ↔ own.mode = some .closeBracket) (mode : Mode) :
    EndsBehind names distance (own.separate mode offset c)
      (whole.separate mode (offset + distance) c) := by
  by_cases hown : own.mode = some .closeBracket
  · simp only [Reading.separate, hown, hindex.2 hown, if_true]
    exact .going (h.enter mode offset c)
  · have hwhole : whole.mode ≠ some .closeBracket := fun hwhole => hown (hindex.1 hwhole)
    simp only [Reading.separate, hown, hwhole, h.buffer, if_false]
    split_ifs
    · exact .failed
    · exact .going (h.commit.enter mode offset c)

/-- A character that may stand in a path is read alike at the front of a text and behind a dot. -/
theorem afresh_behind (h : Joined names own whole)
    (hindex : whole.mode = some .closeBracket ↔ own.mode = some .closeBracket)
    (hc : isPathCharacter c ∨ Behind names distance own whole) :
    EndsBehind names distance (own.afresh offset c) (whole.afresh (offset + distance) c) := by
  simp only [Reading.afresh]
  split_ifs with hdot hopen hclose hname
  · exact separate_behind offset c h hindex .dot
  · exact separate_behind offset c h hindex .openBracket
  · exact .failed
  · exact .going ((h.enter .name offset c).push c)
  · obtain hpath | hbehind := hc
    · simp [isPathCharacter, isSeparator, hdot, hopen, hclose, hname] at hpath
    · exact .halted hbehind

theorem next_behind (h : Behind names distance own whole) :
    EndsBehind names distance (own.next offset c) (whole.next (offset + distance) c) := by
  have hindex : whole.mode = some .closeBracket ↔ own.mode = some .closeBracket := by rw [h.mode]
  have hafresh := afresh_behind offset c h.toJoined hindex (.inr h)
  rw [Reading.next, Reading.next, h.mode]
  cases hmode : own.mode with
  | none => exact hafresh
  | some mode =>
    cases mode with
    | initial => exact hafresh
    | name =>
      simp only
      split_ifs
      · exact .going (h.push c)
      · exact hafresh
    | dot => exact hafresh
    | openBracket =>
      simp only
      split_ifs
      · exact .going ((h.toJoined.enter .listIndex offset c).push c)
      · exact .going (h.toJoined.enter .listIndex offset c)
      · exact .failed
    | listIndex =>
      simp only
      split_ifs
      · exact .going (h.toJoined.enter .closeBracket offset c)
      · exact .going (h.push c)
      · exact .failed
    | closeBracket => exact afresh_behind offset c h.toJoined.clear hindex (.inr h.clear)

end Characters

theorem andThen_behind {names : List String} {distance : Nat} {own whole : Scanned}
    (h : EndsBehind names distance own whole) {moreOwn moreWhole : Reading → Scanned}
    (hmore : ∀ readOwn readWhole, Behind names distance readOwn readWhole →
      EndsBehind names distance (moreOwn readOwn) (moreWhole readWhole)) :
    EndsBehind names distance (own.andThen moreOwn) (whole.andThen moreWhole) := by
  cases h with
  | going hread => exact hmore _ _ hread
  | halted hread => exact .halted hread
  | failed => exact .failed

theorem advance_behind {names : List String} {distance : Nat} {own whole : Reading}
    (h : Behind names distance own whole) (cs : List Char) (offset : Nat) :
    EndsBehind names distance (own.advance cs offset) (whole.advance cs (offset + distance)) := by
  induction cs generalizing own whole offset with
  | nil => exact .going h
  | cons c cs ih =>
    rw [Reading.advance_cons, Reading.advance_cons]
    refine andThen_behind (next_behind offset c h) fun readOwn readWhole hread => ?_
    rw [Nat.add_right_comm]
    exact ih hread (offset + c.utf8Size)

/-! ### A complete path, a dot, and what follows -/

/-- Where the reading of a complete path stands behind one more dot. -/
structure Dotted (names : List String) (offset : Nat) (reading : Reading) : Prop
    extends Joined names {} reading where
  mode : reading.mode = some .dot
  place : reading.insertionOffset = offset

/-- Behind a complete path and a dot, a text is read from a reading that has the names of the path
closed and nothing else. -/
theorem AttributePath.exists_dotted {text : String} {path : AttributePath}
    (hparse : parse text = .ok path) (hcomplete : path.IsComplete) :
    ∃ dotted, Dotted path.names (Text.size text + 1) dotted ∧ ∀ more : String,
      Reading.advance {} (text ++ "." ++ more).toList 0 =
        dotted.advance more.toList (Text.size text + 1) := by
  obtain ⟨reading, hadvance, hfits, hends, rfl⟩ := exists_endsItem hparse hcomplete
  refine ⟨reading.settle.enter .dot (Text.size text) '.', ⟨⟨?_, ?_, rfl, ?_⟩, rfl, ?_⟩, ?_⟩
  · simpa [Reading.enter] using (Reading.names_close hends).symm
  · exact Reading.buffer_settle reading
  · simpa [Reading.enter] using hfits.running
  · exact Reading.insertionOffset_enter_separator rfl
  · intro more
    have htext : (text ++ "." ++ more).toList = text.toList ++ '.' :: more.toList := by simp
    rw [htext, Reading.advance_append, hadvance, Scanned.going_andThen, Nat.zero_add]
    exact Reading.advance_separator hends (.inl ⟨rfl, rfl⟩)

/-- A text that starts like a path is read behind the dot as on its own. -/
theorem Dotted.advance_behind {names : List String} {distance : Nat} {reading : Reading}
    (h : Dotted names distance reading) {c : Char} (hc : isPathCharacter c) (cs : List Char) :
    EndsBehind names distance (Reading.advance {} (c :: cs) 0)
      (reading.advance (c :: cs) distance) := by
  -- The states differ, but either of them has the first character read afresh.
  have hfirst : EndsBehind names distance (Reading.afresh {} 0 c) (reading.afresh distance c) := by
    have hafresh : EndsBehind names distance (Reading.afresh {} 0 c)
        (reading.afresh (0 + distance) c) :=
      afresh_behind 0 c h.toJoined (by simp [h.mode]) (.inl hc)
    rwa [Nat.zero_add] at hafresh
  have hnext : reading.next distance c = reading.afresh distance c := by
    simp [Reading.next, h.mode]
  rw [Reading.advance_cons, Reading.advance_cons, hnext]
  refine andThen_behind hfirst fun readOwn readWhole hread => ?_
  rw [Nat.zero_add, Nat.add_comm]
  exact AttributeShell.advance_behind hread cs c.utf8Size

theorem Reading.advance_eq_halted {reading : Reading} {c : Char}
    (hmode : reading.mode = none ∨ reading.mode = some .dot) (hc : isPathCharacter c = false)
    (cs : List Char) (offset : Nat) :
    reading.advance (c :: cs) offset = .halted { reading with haltedAt := some offset } := by
  simp only [isPathCharacter, isSeparator, Bool.or_eq_false_iff, beq_eq_false_iff_ne] at hc
  obtain ⟨hname, ⟨hdot, hopen⟩, hclose⟩ := hc
  have hnext : reading.next offset c = .halted { reading with haltedAt := some offset } := by
    obtain hmode | hmode := hmode <;>
      simp [next, hmode, afresh, hname, hdot, hopen, hclose]
  rw [advance_cons, hnext, Scanned.halted_andThen]

/-! ### The path of a joined text -/

/-- The same path, behind names that are there already and take so many bytes. -/
structure AttributePath.JoinedBehind (names : List String) (distance : Nat)
    (own whole : AttributePath) : Prop where
  segments : whole.segments.toList = names ++ own.segments.toList
  fragment : whole.fragment = own.fragment
  position : whole.position = own.position
  insertionOffset : whole.insertionOffset = own.insertionOffset + distance
  haltedAt : whole.haltedAt = own.haltedAt.map (· + distance)

namespace Behind

variable {names : List String} {distance : Nat} {own whole : Reading}

theorem insertionOffset (h : Behind names distance own whole) :
    whole.insertionOffset = own.insertionOffset + distance := by
  rw [Reading.insertionOffset, Reading.insertionOffset, h.enteredOn, h.enteredAt]
  cases own.enteredOn with
  | none => rfl
  | some c =>
    simp only
    split_ifs
    · rw [Nat.add_right_comm]
    · rfl

theorem close (h : Behind names distance own whole) :
    Behind names distance own.close whole.close := by
  rw [Reading.close, Reading.close, h.mode]
  split
  · exact h.clear
  · exact h.clear
  all_goals exact h

theorem joinedBehind (h : Behind names distance own whole) :
    AttributePath.JoinedBehind names distance own.toPath whole.toPath where
  segments := h.segments
  fragment := h.buffer
  position := congrArg Position.ofMode h.mode
  insertionOffset := h.insertionOffset
  haltedAt := by simp [Reading.toPath, h.own_running, h.whole_running]

/-- A path that ends before its text ends that much further on. -/
theorem joinedBehind_halted (h : Behind names distance own whole) (offset : Nat) :
    AttributePath.JoinedBehind names distance { own with haltedAt := some offset }.toPath
      { whole with haltedAt := some (offset + distance) }.toPath :=
  { h.joinedBehind with insertionOffset := h.insertionOffset, haltedAt := rfl }

end Behind

namespace EndsBehind

variable {names : List String} {distance : Nat} {own whole : Scanned}

theorem path_eq_ok {path : AttributePath} (h : EndsBehind names distance own whole)
    (hpath : own.path = .ok path) :
    ∃ joined, whole.path = .ok joined ∧ path.JoinedBehind names distance joined := by
  cases h with
  | going hread =>
    cases hpath
    exact ⟨_, rfl, hread.close.joinedBehind⟩
  | halted hread =>
    cases hpath
    exact ⟨_, rfl, hread.joinedBehind_halted _⟩
  | failed => cases hpath

theorem path_eq_error {error : ParseError} (h : EndsBehind names distance own whole)
    (hpath : own.path = .error error) : whole.path = .error (error.shift distance) := by
  cases h with
  | going => cases hpath
  | halted => cases hpath
  | failed =>
    cases hpath
    rfl

end EndsBehind

namespace AttributePath

/-- Reading a path is a homomorphism for the dot. Behind a complete path and a dot, a text that
starts like a path is read as on its own: as the same path behind the names of the first one, or
with the same error, and each position is that many bytes further on. -/
theorem parse_joined {a b : String} {path : AttributePath} {c : Char}
    (hparse : parse a = .ok path) (hcomplete : path.IsComplete)
    (hfirst : b.toList.head? = some c) (hc : isPathCharacter c) :
    (∀ own, parse b = .ok own → ∃ whole, parse (a ++ "." ++ b) = .ok whole ∧
      own.JoinedBehind path.names (Text.size a + 1) whole) ∧
    ∀ error, parse b = .error error →
      parse (a ++ "." ++ b) = .error (error.shift (Text.size a + 1)) := by
  obtain ⟨dotted, hdotted, hadvance⟩ := exists_dotted hparse hcomplete
  obtain ⟨cs, hcs⟩ : ∃ cs, b.toList = c :: cs := List.head?_eq_some_iff.1 hfirst
  have hends : EndsBehind path.names (Text.size a + 1) (Reading.advance {} b.toList 0)
      (Reading.advance {} (a ++ "." ++ b).toList 0) := by
    rw [hadvance b, hcs]
    exact hdotted.advance_behind hc cs
  rw [parse_eq b, parse_eq (a ++ "." ++ b)]
  exact ⟨fun own => hends.path_eq_ok, fun error => hends.path_eq_error⟩

/-- Behind an index and a dot, a path with a text behind it, and one that lacks a name. -/
theorem parse_joined_index :
    ∃ path, parse "a[0]" = .ok path ∧ path.IsComplete ∧ isPathCharacter 'b' ∧
      (∃ own whole, parse "b.c d" = .ok own ∧ own.haltedAt = some 3 ∧
        parse "a[0].b.c d" = .ok whole ∧ own.JoinedBehind ["a"] 5 whole) ∧
      parse "b..c" = .error (.missingName '.' 2) ∧
      parse "a[0].b..c" = .error (.missingName '.' 7) := by
  have hparse : parse "a[0]" = .ok ⟨.one "a", "", .closeBracket, 4, none⟩ := rfl
  have hcomplete : IsComplete ⟨.one "a", "", .closeBracket, 4, none⟩ := ⟨rfl, .inr rfl⟩
  have hc : isPathCharacter 'b' := by decide
  have hown : parse "b.c d" = .ok ⟨.one "b", "c", .name, 2, some 3⟩ := rfl
  have hrefused : parse "b..c" = .error (.missingName '.' 2) := rfl
  obtain ⟨whole, hwhole, hjoined⟩ :=
    (parse_joined hparse hcomplete (b := "b.c d") rfl hc).1 _ hown
  have hfailed := (parse_joined hparse hcomplete (b := "b..c") rfl hc).2 _ hrefused
  exact ⟨_, hparse, hcomplete, hc, ⟨_, whole, hown, rfl, hwhole, hjoined⟩, hrefused, hfailed⟩

end AttributePath

end AttributeShell
