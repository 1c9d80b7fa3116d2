import AttributeShell.Proofs.Path.Invariant
import Mathlib.Data.List.Induction

/-!
Complete paths: those that can end where they do, with a name or behind an index. A complete path
goes on with a separator, and behind one a name or an index follows. The readings on the way are
given in full, with the place of a completion.
-/

namespace AttributeShell

/-- A name: some characters of names, and at least one. -/
def IsName (cs : List Char) : Prop := cs ≠ [] ∧ ∀ c ∈ cs, isNameCharacter c

/-- The digits of an index. There need not be any. -/
def IsDigits (cs : List Char) : Prop := ∀ c ∈ cs, c.isDigit

namespace Reading

variable {reading after : Reading} {offset : Nat} {c : Char}

/-- Characters that are all taken in are appended to the buffer. -/
theorem advance_of_next_eq_push {mode : Mode} {cs : List Char} (hmode : reading.mode = some mode)
    (hnext : ∀ (before : Reading) (offset : Nat), ∀ c ∈ cs, before.mode = some mode →
      before.next offset c = .going (before.push c)) :
    reading.advance cs offset =
      .going { reading with buffer := reading.buffer ++ String.ofList cs } := by
  induction cs generalizing reading offset with
  | nil => simp
  | cons c cs ih =>
    have hpushed : (reading.push c).mode = some mode := hmode
    rw [advance_cons, hnext reading offset c List.mem_cons_self hmode, Scanned.going_andThen,
      ih hpushed fun before offset x hx => hnext before offset x (List.mem_cons_of_mem c hx)]
    simp [push, ← String.toList_inj]

/-! ### Names -/

/-- A name can begin here. -/
inductive BeginsName (reading : Reading) : Prop where
  | front : reading.mode = none ∨ reading.mode = some .dot → reading.buffer = "" →
      BeginsName reading
  | afterIndex : reading.mode = some .closeBracket → BeginsName reading

theorem next_of_beginsName (h : reading.BeginsName) (hc : isNameCharacter c) :
    reading.next offset c =
      .going { reading.enter .name offset c with buffer := String.ofList [c] } := by
  cases h with
  | front hmode hempty =>
    obtain hmode | hmode := hmode <;>
      simp [next, hmode, afresh_of_isNameCharacter hc, push, enter, hempty]
  | afterIndex hmode =>
    simp [next, hmode, afresh_of_isNameCharacter hc, push, enter, clear]

theorem advance_name {cs : List Char} (h : reading.BeginsName) (hname : IsName (c :: cs)) :
    reading.advance (c :: cs) offset =
      .going { reading.enter .name offset c with buffer := String.ofList (c :: cs) } := by
  have hnext (before : Reading) (offset : Nat) (x : Char) (hx : x ∈ cs)
      (hmode : before.mode = some .name) : before.next offset x = .going (before.push x) := by
    simp [next, hmode, hname.2 x (List.mem_cons_of_mem c hx)]
  rw [advance_cons, next_of_beginsName h (hname.2 c List.mem_cons_self), Scanned.going_andThen,
    advance_of_next_eq_push rfl hnext]
  simp

/-- While a name is being typed, the text is that name behind a place where it can begin. Nothing
has been closed since. -/
theorem exists_beginsName {w : List Char} (h : advance {} w 0 = .going reading)
    (hmode : reading.mode = some .name) :
    ∃ v before, w = v ++ reading.buffer.toList ∧ advance {} v 0 = .going before ∧
      before.BeginsName ∧ reading.segments = before.segments := by
  induction w using List.reverseRecOn generalizing reading with
  | nil =>
    cases h
    cases hmode
  | append_singleton w c ih =>
    rw [advance_append] at h
    obtain ⟨read, hread, hlast⟩ := Scanned.andThen_eq_going.1 h
    obtain ⟨after, hnext, hnil⟩ := Scanned.andThen_eq_going.1 hlast
    cases hnil
    have hbuffer := (fits_advance fits_empty hread).buffer
    cases moves_of_next hbuffer hnext with
    | beginName hfront hc =>
      have hempty : read.buffer = "" := by obtain h | h := hfront <;> rwa [h] at hbuffer
      exact ⟨w, read, by simp [push, hempty], hread, .front hfront hempty, rfl⟩
    | beginNameAfterIndex hindex hc =>
      exact ⟨w, read, by simp [push, enter, clear], hread, .afterIndex hindex, rfl⟩
    | continueName hname hc =>
      obtain ⟨v, before, rfl, hbefore, hbegins, hsegments⟩ := ih hread hname
      exact ⟨v, before, by simp [push], hbefore, hbegins, hsegments⟩
    | closeName _ hc => obtain ⟨rfl, -⟩ | ⟨rfl, -⟩ := hc <;> cases hmode
    | separateAfterIndex _ hc => obtain ⟨rfl, -⟩ | ⟨rfl, -⟩ := hc <;> cases hmode
    | beginIndex => cases hmode
    | swallowBracket => cases hmode
    | continueIndex hindex =>
      rw [mode_push, hindex] at hmode
      cases hmode
    | closeIndex => cases hmode

/-- The place of a completion is in front of the name that is being typed. -/
theorem exists_before?_insertionOffset {text : String}
    (h : advance {} text.toList 0 = .going reading) (hmode : reading.mode = some .name) :
    ∃ before start, Text.before? text reading.insertionOffset = some before ∧
      advance {} before.toList 0 = .going start ∧ start.BeginsName ∧
      reading.segments = start.segments := by
  obtain ⟨v, start, htext, hstart, hbegins, hsegments⟩ := exists_beginsName h hmode
  have hwhole : text = String.ofList v ++ reading.buffer := by simp [← String.toList_inj, htext]
  have htyped : reading.typed = reading.buffer := by simp [typed, hmode]
  have hplace : reading.insertionOffset = Text.size (String.ofList v) := by
    have hfits := (fits_advance fits_empty h).place
    rw [htyped, Nat.zero_add, htext, Text.byteLength_append] at hfits
    rw [Text.size, String.toList_ofList]
    exact Nat.add_right_cancel hfits
  refine ⟨String.ofList v, start, ?_, by rwa [String.toList_ofList], hbegins, hsegments⟩
  rw [hplace, hwhole, Text.before?_append]

/-! ### Separators -/

/-- An item of the path ends here: a name that is not empty, or an index. -/
inductive EndsItem (reading : Reading) : Prop where
  | name : reading.mode = some .name → reading.buffer ≠ "" → EndsItem reading
  | index : reading.mode = some .closeBracket → EndsItem reading

/-- Closes the last name, unless the index behind it has done so. -/
def settle (reading : Reading) : Reading :=
  if reading.mode = some .closeBracket then reading.clear else reading.commit

@[simp] theorem buffer_settle (reading : Reading) : reading.settle.buffer = "" := by
  rw [settle]
  split_ifs <;> rfl

@[simp] theorem haltedAt_settle (reading : Reading) :
    reading.settle.haltedAt = reading.haltedAt := by
  rw [settle]
  split_ifs <;> rfl

theorem next_separator {mode : Mode} (h : reading.EndsItem) (hc : Separates mode c) :
    reading.next offset c = .going (reading.settle.enter mode offset c) := by
  cases h with
  | name hmode hbuffer =>
    have hname : isNameCharacter c = false := by
      obtain ⟨-, rfl⟩ | ⟨-, rfl⟩ := hc <;> simp
    simp [next, hmode, hname, afresh_of_separates hc, separate, settle, hbuffer]
  | index hmode =>
    have hindex : reading.clear.mode = some .closeBracket := hmode
    simp [next, hmode, afresh_of_separates hc, separate, settle, hindex]

/-- Where a name can begin, a separator closes none: it is refused, or stands behind an index. -/
theorem next_separator_of_beginsName {mode : Mode} (h : reading.BeginsName)
    (hc : Separates mode c) :
    reading.next offset c = .failed (.missingName c offset) ∨
      reading.next offset c = .going (reading.clear.enter mode offset c) := by
  cases h with
  | front hmode hempty =>
    have hafresh : reading.next offset c = reading.afresh offset c := by
      obtain hmode | hmode := hmode <;> simp [next, hmode]
    have hindex : reading.mode ≠ some .closeBracket := by
      obtain hmode | hmode := hmode <;> simp [hmode]
    rw [hafresh, afresh_of_separates hc]
    exact .inl (separate_eq_failed hindex hempty)
  | afterIndex hmode =>
    have hsettle : reading.settle = reading.clear := by simp [settle, hmode]
    rw [next_separator (.index hmode) hc, hsettle]
    exact .inr rfl

theorem advance_separator {mode : Mode} {cs : List Char} (h : reading.EndsItem)
    (hc : Separates mode c) :
    reading.advance (c :: cs) offset =
      (reading.settle.enter mode offset c).advance cs (offset + c.utf8Size) := by
  rw [advance_cons, next_separator h hc, Scanned.going_andThen]

/-! ### Indices -/

theorem next_openBracket (hmode : reading.mode = some .openBracket) (hc : c.isDigit ∨ c = ']')
    (offset : Nat) : ∃ buffer, reading.next offset c =
      .going { reading.enter .listIndex offset c with buffer := buffer } := by
  obtain hdigit | rfl := hc
  · exact ⟨_, by simp [next, hmode, hdigit]; rfl⟩
  · exact ⟨_, by simp [next, hmode]; rfl⟩

/-- What follows an opening bracket is taken into the buffer, until the bracket that ends it. -/
theorem advance_digits {ds : List Char} (hmode : reading.mode = some .openBracket)
    (hc : c.isDigit ∨ c = ']') (hds : IsDigits ds) (offset : Nat) :
    ∃ buffer, reading.advance (c :: ds) offset =
      .going { reading.enter .listIndex offset c with buffer := buffer } := by
  -- After the first character, which may be a bracket, only digits come.
  have hnext (before : Reading) (offset : Nat) (d : Char) (hd : d ∈ ds)
      (hmode : before.mode = some .listIndex) : before.next offset d = .going (before.push d) := by
    have hclose : d ≠ ']' := by rintro rfl; simpa using hds _ hd
    simp [next, hmode, hds d hd, hclose]
  obtain ⟨buffer, hbegin⟩ := next_openBracket hmode hc offset
  refine ⟨buffer ++ String.ofList ds, ?_⟩
  rw [advance_cons, hbegin, Scanned.going_andThen, advance_of_next_eq_push rfl hnext]

/-- An index, with its brackets, is read behind the end of an item. It adds nothing to the names. -/
theorem advance_index {ds : List Char} (h : reading.EndsItem) (hc : c.isDigit ∨ c = ']')
    (hds : IsDigits ds) (offset : Nat) :
    ∃ after, reading.advance ('[' :: (c :: ds ++ [']'])) offset = .going after ∧
      after.mode = some .closeBracket ∧ after.segments = reading.settle.segments := by
  let opened := reading.settle.enter .openBracket offset '['
  have hopen : opened.mode = some .openBracket := rfl
  let inside := offset + '['.utf8Size
  obtain ⟨buffer, hdigits⟩ := advance_digits hopen hc hds inside
  let indexed : Reading := { opened.enter .listIndex inside c with buffer := buffer }
  have hclose (offset : Nat) :
      indexed.advance [']'] offset = .going (indexed.enter .closeBracket offset ']') := rfl
  refine ⟨indexed.enter .closeBracket (inside + Text.byteLength (c :: ds)) ']', ?_, rfl, rfl⟩
  rw [advance_separator h (.inr ⟨rfl, rfl⟩), advance_append, hdigits, Scanned.going_andThen, hclose]

/-! ### Paths that have been read to their end -/

@[simp] theorem haltedAt_close (reading : Reading) : reading.close.haltedAt = reading.haltedAt := by
  rw [close]
  split <;> rfl

@[simp] theorem segments_close (reading : Reading) : reading.close.segments = reading.segments := by
  rw [close]
  split <;> rfl

@[simp] theorem mode_close (reading : Reading) : reading.close.mode = reading.mode := by
  rw [close]
  split <;> rfl

@[simp] theorem insertionOffset_close (reading : Reading) :
    reading.close.insertionOffset = reading.insertionOffset := by
  rw [close]
  split <;> rfl

theorem insertionOffset_toPath_close (reading : Reading) :
    reading.close.toPath.insertionOffset = reading.insertionOffset :=
  insertionOffset_close reading

end Reading

namespace AttributePath

variable {text : String} {path : AttributePath}

theorem parse_of_advance {reading : Reading}
    (h : Reading.advance {} text.toList 0 = .going reading) :
    parse text = .ok reading.close.toPath := by
  rw [parse_eq, h]
  rfl

/-- A text that is a path to its end is read to its end by the machine. -/
theorem exists_advance_of_parse (h : parse text = .ok path) (hrunning : path.haltedAt = none) :
    ∃ reading, Reading.advance {} text.toList 0 = .going reading ∧
      reading.Fits (Text.size text) ∧ path = reading.close.toPath := by
  rw [parse_eq] at h
  cases hadvance : Reading.advance {} text.toList 0 with
  | going reading =>
    rw [hadvance] at h
    have hfits := Reading.fits_advance Reading.fits_empty hadvance
    rw [Nat.zero_add] at hfits
    exact ⟨reading, rfl, hfits, (Except.ok.inj h).symm⟩
  | halted reading =>
    rw [hadvance] at h
    cases h
    exact absurd hrunning (Reading.isHalted_of_advance hadvance)
  | failed error =>
    rw [hadvance] at h
    cases h

/-- The text is a path to its end, with these names closed and this much of a name behind them. -/
def ReadsAs (text : String) (names : List String) (fragment : String) (position : Position)
    (place : Nat) : Prop :=
  ∃ path, parse text = .ok path ∧ path.haltedAt = none ∧ path.segments.toList = names ∧
    path.fragment = fragment ∧ path.position = position ∧ path.insertionOffset = place

theorem readsAs_of_advance {reading : Reading}
    (h : Reading.advance {} text.toList 0 = .going reading) :
    ReadsAs text reading.segments.toList reading.close.buffer (.ofMode reading.mode)
      reading.insertionOffset := by
  have hrunning := (Reading.fits_advance Reading.fits_empty h).running
  refine ⟨reading.close.toPath, parse_of_advance h, ?_, ?_, rfl, ?_, ?_⟩
  · simpa [Reading.toPath] using hrunning
  · simp [Reading.toPath]
  · simp [Reading.toPath]
  · simp [Reading.toPath]

/-- The path can end where it does: with a name, or behind an index. -/
structure IsComplete (path : AttributePath) : Prop where
  running : path.haltedAt = none
  ends : path.position = .name ∧ path.fragment ≠ "" ∨ path.position = .closeBracket

end AttributePath

namespace Reading

variable {reading : Reading} {offset : Nat}

theorem isComplete_iff (hfits : reading.Fits offset) :
    reading.close.toPath.IsComplete ↔ reading.EndsItem := by
  have hbuffer := hfits.buffer
  constructor
  · rintro ⟨-, hends⟩
    cases hmode : reading.mode with
    | none =>
      rw [hmode] at hbuffer
      simp [close, toPath, hmode, Position.ofMode, show reading.buffer = "" from hbuffer] at hends
    | some mode =>
      rw [hmode] at hbuffer
      cases mode with
      | initial => cases hbuffer
      | name => exact .name hmode hbuffer.1
      | dot => simp [close, toPath, hmode, Position.ofMode] at hends
      | openBracket => simp [close, toPath, hmode, Position.ofMode] at hends
      | listIndex => simp [close, clear, toPath, hmode, Position.ofMode] at hends
      | closeBracket => exact .index hmode
  · intro hends
    refine ⟨by simpa [toPath] using hfits.running, ?_⟩
    cases hends with
    | name hmode hne => exact .inl (by simp [close, toPath, hmode, Position.ofMode, hne])
    | index hmode => exact .inr (by simp [close, clear, toPath, hmode, Position.ofMode])

/-- The names of a complete path are those that a separator would have closed. -/
theorem names_close (h : reading.EndsItem) :
    reading.close.toPath.names = reading.settle.segments.toList := by
  cases h with
  | name hmode hne => simp [close, toPath, AttributePath.names, settle, commit, clear, hmode, hne]
  | index hmode => simp [close, toPath, AttributePath.names, settle, clear, hmode]

end Reading

theorem AttributePath.exists_endsItem {text : String} {path : AttributePath}
    (h : parse text = .ok path) (hcomplete : path.IsComplete) :
    ∃ reading, Reading.advance {} text.toList 0 = .going reading ∧
      reading.Fits (Text.size text) ∧ reading.EndsItem ∧ path = reading.close.toPath := by
  obtain ⟨reading, hadvance, hfits, rfl⟩ := exists_advance_of_parse h hcomplete.running
  exact ⟨reading, hadvance, hfits, (Reading.isComplete_iff hfits).1 hcomplete, rfl⟩

/-- The fragment of a complete path is what has been typed since the place of a completion. -/
theorem AttributePath.insertionOffset_add_fragment {text : String} {path : AttributePath}
    (h : parse text = .ok path) (hcomplete : path.IsComplete) :
    path.insertionOffset + Text.size path.fragment = Text.size text := by
  obtain ⟨reading, -, hfits, hends, rfl⟩ := exists_endsItem h hcomplete
  have hbuffer : reading.close.buffer = reading.typed := by
    cases hends with
    | name hmode _ => simp [Reading.close, Reading.typed, hmode]
    | index hmode => simp [Reading.close, Reading.typed, Reading.clear, hmode]
  have hfragment : reading.close.toPath.fragment = reading.typed := hbuffer
  rw [Reading.insertionOffset_toPath_close, hfragment, hfits.place]

/-- Behind an index no fragment is left. -/
theorem AttributePath.fragment_eq_empty {text : String} {path : AttributePath}
    (h : parse text = .ok path) (hcomplete : path.IsComplete)
    (hposition : path.position = .closeBracket) : path.fragment = "" := by
  obtain ⟨reading, -, -, hends, rfl⟩ := exists_endsItem h hcomplete
  cases hends with
  | name hmode _ => simp [Reading.toPath, hmode, Position.ofMode] at hposition
  | index hmode => simp [Reading.toPath, Reading.close, Reading.clear, hmode]

/-- A separator behind a complete path closes its last name. -/
theorem AttributePath.readsAs_separator {text separator : String} {path : AttributePath}
    {mode : Mode} {c : Char} (h : parse text = .ok path) (hcomplete : path.IsComplete)
    (hc : Reading.Separates mode c) (hseparator : separator.toList = [c]) :
    ReadsAs (text ++ separator) path.names "" (.ofMode mode) (Text.size text + 1) := by
  obtain ⟨reading, hadvance, -, hends, rfl⟩ := exists_endsItem h hcomplete
  let separated := reading.settle.enter mode (Text.size text) c
  have hseparated : Reading.advance {} (text ++ separator).toList 0 = .going separated := by
    rw [String.toList_append, hseparator, Reading.advance_append, hadvance, Scanned.going_andThen,
      Reading.advance_separator hends hc, Nat.zero_add]
    rfl
  have hclose : separated.close = separated := by obtain ⟨rfl, -⟩ | ⟨rfl, -⟩ := hc <;> rfl
  have hplace : separated.insertionOffset = Text.size text + 1 := by
    rw [Reading.insertionOffset_enter_separator hc.isSeparator,
      utf8Size_of_isSeparator hc.isSeparator]
  have hreads := readsAs_of_advance hseparated
  rw [hclose, hplace] at hreads
  simpa [separated, Reading.names_close hends] using hreads

end AttributeShell
