import AttributeShell.Proofs.Path.Complete

/-!
What becomes of a text is decided at the first character that does not belong to the path. Up to
there the text is a path, and whatever follows the character changes nothing: it is refused with its
own position, or the path ends before it. A text in which there is no such character is a path, and
so is each of its beginnings (`parse_decided`).
-/

namespace AttributeShell

/-- A text is a path to its end, which may still be typed on. -/
def IsPath (text : String) : Prop :=
  ∃ path, AttributePath.parse text = .ok path ∧ path.haltedAt = none

/-- The character stands at that position of the text, behind those before it. -/
structure StandsAt (text : String) (offset : Nat) (before : String) (c : Char) : Prop where
  inside : offset < Text.size text
  before : Text.before? text offset = some before
  here : ∃ rest, Text.from? text offset = some (String.singleton c ++ rest)

theorem standsAt_size (before rest : String) (c : Char) :
    StandsAt (before ++ (String.singleton c ++ rest)) (Text.size before) before c := by
  have hc := Char.utf8Size_pos c
  refine ⟨?_, Text.before?_append before _, rest, Text.from?_append before _⟩
  simp [Text.size]
  omega

/-- A text goes on behind what stands before one of its characters. -/
theorem StandsAt.exists_rest {text before : String} {offset : Nat} {c : Char}
    (h : StandsAt text offset before c) :
    ∃ rest, rest ≠ "" ∧ text = before ++ rest ∧ offset = Text.size before := by
  obtain ⟨hsize, rest, rfl⟩ := Text.eq_append_of_before? h.before
  refine ⟨rest, ?_, rfl, hsize.symm⟩
  rintro rfl
  have hinside := h.inside
  rw [← hsize, Text.size_append, Text.size_empty] at hinside
  omega

theorem IsPath.isPathCharacter {text : String} (h : IsPath text) :
    ∀ c ∈ text.toList, isPathCharacter c := by
  obtain ⟨path, hparse, hrunning⟩ := h
  obtain ⟨reading, hadvance, -⟩ := AttributePath.exists_advance_of_parse hparse hrunning
  exact Reading.isPathCharacter_of_advance Reading.fits_empty hadvance

namespace AttributePath

variable {text : String}

theorem isPath_of_advance {reading : Reading}
    (h : Reading.advance {} text.toList 0 = .going reading) : IsPath text := by
  obtain ⟨path, hparse, hrunning, -⟩ := readsAs_of_advance h
  exact ⟨path, hparse, hrunning⟩

/-- Reading that ends before the text ends in the same way for every text with that beginning. -/
theorem exists_stop {outcome : Scanned} (h : Reading.advance {} text.toList 0 = outcome)
    (hends : ∀ read, outcome ≠ .going read) :
    ∃ before c read, StandsAt text (Text.size before) before c ∧
      Reading.advance {} before.toList 0 = .going read ∧
      read.next (Text.size before) c = outcome ∧
      ∀ more, Reading.advance {} (before ++ String.singleton c ++ more).toList 0 = outcome := by
  obtain ⟨before, c, rest, read, htext, hread, hnext⟩ := Reading.exists_next_of_advance h hends
  have hwhole : text = String.ofList before ++ (String.singleton c ++ String.ofList rest) := by
    simp [← String.toList_inj, htext]
  have hsize : Text.size (String.ofList before) = Text.byteLength before := by simp [Text.size]
  rw [Nat.zero_add, ← hsize] at hnext
  refine ⟨String.ofList before, c, read, ?_, by rwa [String.toList_ofList], hnext, fun more => ?_⟩
  · rw [hwhole]
    exact standsAt_size _ _ c
  · have hmore : (String.ofList before ++ String.singleton c ++ more).toList =
        before ++ c :: more.toList := by simp
    rw [hmore, Reading.advance_append, hread, Scanned.going_andThen, Nat.zero_add, ← hsize,
      Reading.advance_cons, hnext]
    -- What has ended does not go on.
    cases outcome with
    | going read => exact absurd rfl (hends read)
    | halted read => rfl
    | failed error => rfl

theorem exists_refused {error : ParseError} (h : parse text = .error error) :
    ∃ offset before c, StandsAt text offset before c ∧ Reading.Refuses c offset error ∧
      IsPath before ∧ ∀ more, parse (before ++ String.singleton c ++ more) = .error error := by
  rw [parse_eq] at h
  cases hadvance : Reading.advance {} text.toList 0 with
  | going read =>
    rw [hadvance] at h
    cases h
  | halted read =>
    rw [hadvance] at h
    cases h
  | failed reason =>
    rw [hadvance] at h
    cases h
    obtain ⟨before, c, read, hstands, hread, hnext, hmore⟩ := exists_stop hadvance (by simp)
    refine ⟨Text.size before, before, c, hstands, Reading.refuses_of_next hnext,
      isPath_of_advance hread, fun more => ?_⟩
    rw [parse_eq, hmore]
    rfl

theorem exists_ended {path : AttributePath} {offset : Nat} (h : parse text = .ok path)
    (hhalted : path.haltedAt = some offset) :
    ∃ before c, StandsAt text offset before c ∧ isPathCharacter c = false ∧
      parse before = .ok { path with haltedAt := none } ∧
      ∀ more, parse (before ++ String.singleton c ++ more) = .ok path := by
  rw [parse_eq] at h
  cases hadvance : Reading.advance {} text.toList 0 with
  | going read =>
    rw [hadvance] at h
    cases h
    have hrunning := (Reading.fits_advance Reading.fits_empty hadvance).running
    simp [Reading.toPath, hrunning] at hhalted
  | halted after =>
    rw [hadvance] at h
    cases h
    obtain ⟨before, c, read, hstands, hread, hnext, hmore⟩ := exists_stop hadvance (by simp)
    obtain ⟨hc, rfl⟩ := Reading.next_eq_halted hnext
    obtain rfl := Option.some.inj hhalted
    have hrunning := (Reading.fits_advance Reading.fits_empty hread).running
    refine ⟨before, c, hstands, hc, ?_, fun more => ?_⟩
    · rw [parse_of_advance hread]
      simp [Reading.toPath, Reading.insertionOffset, hrunning]
    · rw [parse_eq, hmore]
      rfl
  | failed error =>
    rw [hadvance] at h
    cases h

theorem isPath_of_before? {path : AttributePath} (h : parse text = .ok path)
    (hrunning : path.haltedAt = none) {offset : Nat} {before : String}
    (hbefore : Text.before? text offset = some before) : IsPath before := by
  obtain ⟨reading, hadvance, -⟩ := exists_advance_of_parse h hrunning
  obtain ⟨-, rest, rfl⟩ := Text.eq_append_of_before? hbefore
  rw [String.toList_append, Reading.advance_append] at hadvance
  obtain ⟨read, hread, -⟩ := Scanned.andThen_eq_going.1 hadvance
  exact isPath_of_advance hread

/-- What becomes of a text is decided at the first character that does not belong to the path. An
error is about the character at its position, behind a path, and every text with the same beginning
has it. The end of a path before its text is that of a character that stands in no path, behind the
same path, and every text with the same beginning ends there alike. Otherwise every beginning of the
text is a path. -/
theorem parse_decided (text : String) :
    (∀ error, parse text = .error error →
      ∃ offset before c, StandsAt text offset before c ∧ Reading.Refuses c offset error ∧
        IsPath before ∧ ∀ more, parse (before ++ String.singleton c ++ more) = .error error) ∧
    (∀ path offset, parse text = .ok path → path.haltedAt = some offset →
      ∃ before c, StandsAt text offset before c ∧ isPathCharacter c = false ∧
        parse before = .ok { path with haltedAt := none } ∧
        ∀ more, parse (before ++ String.singleton c ++ more) = .ok path) ∧
    ∀ path, parse text = .ok path → path.haltedAt = none →
      ∀ offset before, Text.before? text offset = some before → IsPath before :=
  ⟨fun _ => exists_refused, fun _ _ => exists_ended,
    fun _ h hrunning _ _ => isPath_of_before? h hrunning⟩

/-- A letter inside brackets, an equals sign behind an index, and a path cut inside an index. -/
theorem parse_decided_index :
    (parse "foo[x]" = .error (.unexpected 'x' 4 Mode.indexExpected) ∧ IsPath "foo[" ∧
      ∀ more, parse ("foo[" ++ String.singleton 'x' ++ more) =
        .error (.unexpected 'x' 4 Mode.indexExpected)) ∧
    (parse "é[1]=2" = .ok ⟨.one "é", "", .closeBracket, 5, some 5⟩ ∧
      parse "é[1]" = .ok ⟨.one "é", "", .closeBracket, 5, none⟩ ∧
      ∀ more, parse ("é[1]" ++ String.singleton '=' ++ more) =
        .ok ⟨.one "é", "", .closeBracket, 5, some 5⟩) ∧
    (parse "a[12].b" = .ok ⟨.one "a", "b", .name, 6, none⟩ ∧ IsPath "a[1") := by
  refine ⟨?_, ?_, ?_⟩
  · have hparse : parse "foo[x]" = .error (.unexpected 'x' 4 Mode.indexExpected) := rfl
    obtain ⟨offset, before, c, hstands, hrefuses, hpath, hmore⟩ :=
      (parse_decided "foo[x]").1 _ hparse
    obtain ⟨rfl, rfl⟩ : c = 'x' ∧ offset = 4 := by simpa [Reading.Refuses, eq_comm] using hrefuses
    have hcut : Text.before? "foo[x]" 4 = some "foo[" := by decide
    obtain rfl := Option.some.inj (hcut.symm.trans hstands.before)
    exact ⟨hparse, hpath, hmore⟩
  · have hparse : parse "é[1]=2" = .ok ⟨.one "é", "", .closeBracket, 5, some 5⟩ := rfl
    obtain ⟨before, c, hstands, -, hbefore, hmore⟩ :=
      (parse_decided "é[1]=2").2.1 _ 5 hparse rfl
    have hcut : Text.before? "é[1]=2" 5 = some "é[1]" := by decide
    obtain rfl := Option.some.inj (hcut.symm.trans hstands.before)
    obtain ⟨rest, hrest⟩ := hstands.here
    have hfrom : Text.from? "é[1]=2" 5 = some "=2" := by decide
    have hc : c = '=' := by
      have hlist := congrArg String.toList (Option.some.inj (hfrom.symm.trans hrest))
      simpa [eq_comm] using congrArg List.head? hlist
    subst hc
    exact ⟨hparse, hbefore, hmore⟩
  · have hparse : parse "a[12].b" = .ok ⟨.one "a", "b", .name, 6, none⟩ := rfl
    exact ⟨hparse, (parse_decided "a[12].b").2.2 _ hparse rfl 3 "a[1" (by decide)⟩

end AttributePath

end AttributeShell
