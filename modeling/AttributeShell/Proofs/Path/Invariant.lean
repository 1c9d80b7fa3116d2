import AttributeShell.Proofs.Path.Machine
import AttributeShell.Proofs.Path.Characters
import AttributeShell.Text.Bytes

/-!
What a reading keeps while a path is read: what stands in its buffer, and how far the place of a
completion lies behind the characters read so far. Both depend on the state entered last alone.
-/

namespace AttributeShell

/-! ### What stands in the buffer -/

theorem forall_mem_push {p : Char → Prop} {text : String} {c : Char} :
    (∀ x ∈ (text.push c).toList, p x) ↔ (∀ x ∈ text.toList, p x) ∧ p c := by
  simp [or_imp, forall_and]

namespace Reading

/-- What stands in the buffer: a name, the digits of an index, or nothing. The initial state is
never entered. -/
def BufferFits (buffer : String) : Option Mode → Prop
  | none | some .dot | some .openBracket => buffer = ""
  | some .initial => False
  | some .name => buffer ≠ "" ∧ ∀ c ∈ buffer.toList, isNameCharacter c
  | some .listIndex | some .closeBracket => ∀ c ∈ buffer.toList, c.isDigit

/-- The characters read since the place of a completion. -/
def typed (reading : Reading) : String :=
  if reading.mode = some .closeBracket then "" else reading.buffer

/-- What a reading keeps at a position of the text. -/
structure Fits (reading : Reading) (offset : Nat) : Prop where
  running : reading.haltedAt = none
  buffer : BufferFits reading.buffer reading.mode
  /-- A completion goes before the characters typed last. -/
  place : reading.insertionOffset + Text.size reading.typed = offset

theorem fits_empty : Fits {} 0 := ⟨rfl, rfl, rfl⟩

/-! ### What a character can do -/

/-- The state is the one that the separator enters. -/
def Separates (mode : Mode) (c : Char) : Prop :=
  mode = .dot ∧ c = '.' ∨ mode = .openBracket ∧ c = '['

theorem Separates.isSeparator {mode : Mode} {c : Char} (h : Separates mode c) : isSeparator c := by
  obtain ⟨-, rfl⟩ | ⟨-, rfl⟩ := h <;> rfl

/-- What a character that belongs to the path makes of a reading. -/
inductive Moves (reading : Reading) (offset : Nat) (c : Char) : Reading → Prop where
  | beginName : reading.mode = none ∨ reading.mode = some .dot → isNameCharacter c →
      Moves reading offset c ((reading.enter .name offset c).push c)
  | beginNameAfterIndex : reading.mode = some .closeBracket → isNameCharacter c →
      Moves reading offset c ((reading.clear.enter .name offset c).push c)
  | continueName : reading.mode = some .name → isNameCharacter c →
      Moves reading offset c (reading.push c)
  | closeName {mode : Mode} : reading.mode = some .name → Separates mode c →
      Moves reading offset c (reading.commit.enter mode offset c)
  | separateAfterIndex {mode : Mode} : reading.mode = some .closeBracket → Separates mode c →
      Moves reading offset c (reading.clear.enter mode offset c)
  | beginIndex : reading.mode = some .openBracket → c.isDigit →
      Moves reading offset c ((reading.enter .listIndex offset c).push c)
  | swallowBracket : reading.mode = some .openBracket → c = ']' →
      Moves reading offset c (reading.enter .listIndex offset c)
  | continueIndex : reading.mode = some .listIndex → c.isDigit →
      Moves reading offset c (reading.push c)
  | closeIndex : reading.mode = some .listIndex → c = ']' →
      Moves reading offset c (reading.enter .closeBracket offset c)

variable {reading after : Reading} {offset : Nat} {c : Char}

theorem afresh_of_isNameCharacter (hc : isNameCharacter c) :
    reading.afresh offset c = .going ((reading.enter .name offset c).push c) := by
  have hdot : c ≠ '.' := by rintro rfl; simp at hc
  have hopen : c ≠ '[' := by rintro rfl; simp at hc
  have hclose : c ≠ ']' := by rintro rfl; simp at hc
  simp [afresh, hdot, hopen, hclose, hc]

theorem afresh_of_separates {mode : Mode} (hc : Separates mode c) :
    reading.afresh offset c = reading.separate mode offset c := by
  obtain ⟨rfl, rfl⟩ | ⟨rfl, rfl⟩ := hc <;> simp [afresh]

theorem cases_of_afresh (h : reading.afresh offset c = .going after) :
    (isNameCharacter c ∧ after = (reading.enter .name offset c).push c) ∨
      ∃ mode, Separates mode c ∧ reading.separate mode offset c = .going after := by
  by_cases hc : isNameCharacter c
  · rw [afresh_of_isNameCharacter hc] at h
    cases h
    exact .inl ⟨hc, rfl⟩
  · rw [afresh] at h
    split_ifs at h with hdot hopen hclose
    · exact .inr ⟨_, .inl ⟨rfl, hdot⟩, h⟩
    · exact .inr ⟨_, .inr ⟨rfl, hopen⟩, h⟩

theorem separate_eq_failed {mode : Mode} (hindex : reading.mode ≠ some .closeBracket)
    (hbuffer : reading.buffer = "") :
    reading.separate mode offset c = .failed (.missingName c offset) := by
  simp [separate, hindex, hbuffer]

/-- Only a name can begin where nothing stands in the buffer. -/
theorem isNameCharacter_of_afresh (hindex : reading.mode ≠ some .closeBracket)
    (hbuffer : reading.buffer = "") (h : reading.afresh offset c = .going after) :
    isNameCharacter c ∧ after = (reading.enter .name offset c).push c := by
  obtain hname | ⟨mode, -, hseparate⟩ := cases_of_afresh h
  · exact hname
  · rw [separate_eq_failed hindex hbuffer] at hseparate
    cases hseparate

theorem moves_of_next (hbuffer : BufferFits reading.buffer reading.mode)
    (h : reading.next offset c = .going after) : Moves reading offset c after := by
  cases hmode : reading.mode with
  | none =>
    simp only [next, hmode] at h hbuffer
    obtain ⟨hc, rfl⟩ := isNameCharacter_of_afresh (by simp [hmode]) hbuffer h
    exact .beginName (.inl hmode) hc
  | some mode =>
    rw [hmode] at hbuffer
    cases mode with
    | initial => cases hbuffer
    | dot =>
      simp only [next, hmode] at h
      obtain ⟨hc, rfl⟩ := isNameCharacter_of_afresh (by simp [hmode]) hbuffer h
      exact .beginName (.inr hmode) hc
    | name =>
      simp only [next, hmode] at h
      split_ifs at h with hc
      · cases h
        exact .continueName hmode hc
      · obtain ⟨hc', -⟩ | ⟨mode, hmode', hseparate⟩ := cases_of_afresh h
        · exact absurd hc' hc
        · have hempty : ¬ reading.buffer.isEmpty := by simpa using hbuffer.1
          simp only [separate, hmode, hempty] at hseparate
          cases hseparate
          exact .closeName hmode hmode'
    | openBracket =>
      simp only [next, hmode] at h
      split_ifs at h with hdigit hclose
      · cases h
        exact .beginIndex hmode hdigit
      · cases h
        exact .swallowBracket hmode hclose
    | listIndex =>
      simp only [next, hmode] at h
      split_ifs at h with hclose hdigit
      · cases h
        exact .closeIndex hmode hclose
      · cases h
        exact .continueIndex hmode hdigit
    | closeBracket =>
      simp only [next, hmode] at h
      have hindex : reading.clear.mode = some .closeBracket := hmode
      obtain ⟨hc, rfl⟩ | ⟨mode, hmode', hseparate⟩ := cases_of_afresh h
      · exact .beginNameAfterIndex hmode hc
      · simp only [separate, hindex, if_true] at hseparate
        cases hseparate
        exact .separateAfterIndex hmode hmode'

/-! ### What a reading keeps -/

theorem insertionOffset_enter {mode : Mode} (hc : isSeparator c = false) :
    (reading.enter mode offset c).insertionOffset = offset := by
  simp [insertionOffset, enter, hc]

theorem insertionOffset_enter_separator {mode : Mode} (hc : isSeparator c) :
    (reading.enter mode offset c).insertionOffset = offset + c.utf8Size := by
  simp [insertionOffset, enter, hc, utf8Size_of_isSeparator hc]

theorem place_push (hmode : reading.mode ≠ some .closeBracket) (c : Char) :
    (reading.push c).insertionOffset + Text.size (reading.push c).typed =
      reading.insertionOffset + Text.size reading.typed + c.utf8Size := by
  have htyped : (reading.push c).typed = reading.typed.push c := by simp [typed, push, hmode]
  rw [htyped, Text.size_push, Nat.add_assoc]
  rfl

theorem fits_begin {mode : Mode} (hrunning : reading.haltedAt = none)
    (hempty : reading.buffer = "") (hmode : mode ≠ .closeBracket) (hc : isSeparator c = false)
    (hbuffer : BufferFits ("".push c) (some mode)) :
    ((reading.enter mode offset c).push c).Fits (offset + c.utf8Size) := by
  refine ⟨hrunning, by rwa [← hempty] at hbuffer, ?_⟩
  rw [place_push (by simpa [enter] using hmode), insertionOffset_enter hc]
  simp [typed, enter, hempty]

theorem fits_continue (hfits : reading.Fits offset) (hmode : reading.mode ≠ some .closeBracket)
    (hbuffer : BufferFits (reading.buffer.push c) reading.mode) :
    (reading.push c).Fits (offset + c.utf8Size) :=
  ⟨hfits.running, hbuffer, by rw [place_push hmode, hfits.place]⟩

/-- A state is entered on a separator, and a completion goes behind it. -/
theorem fits_enter {mode : Mode} (hrunning : reading.haltedAt = none) (hc : isSeparator c)
    (hbuffer : BufferFits reading.buffer (some mode))
    (htyped : mode = .closeBracket ∨ reading.buffer = "") :
    (reading.enter mode offset c).Fits (offset + c.utf8Size) := by
  refine ⟨hrunning, hbuffer, ?_⟩
  -- Behind a closing bracket the digits still stand in the buffer, but are not typed any more.
  have hnothing : (reading.enter mode offset c).typed = "" := by
    obtain rfl | hempty := htyped
    · rfl
    · simp [typed, enter, hempty]
  rw [insertionOffset_enter_separator hc, hnothing, Text.size_empty, Nat.add_zero]

/-- The next character keeps what a reading keeps. -/
theorem fits_next (hfits : reading.Fits offset) (h : reading.next offset c = .going after) :
    after.Fits (offset + c.utf8Size) := by
  have hrunning := hfits.running
  have hbuffer := hfits.buffer
  cases moves_of_next hbuffer h with
  | beginName hmode hc =>
    have hempty : reading.buffer = "" := by obtain h | h := hmode <;> rwa [h] at hbuffer
    exact fits_begin hrunning hempty (by simp) (isSeparator_of_isNameCharacter hc)
      (by simpa [BufferFits] using hc)
  | beginNameAfterIndex hmode hc =>
    exact fits_begin hrunning rfl (by simp) (isSeparator_of_isNameCharacter hc)
      (by simpa [BufferFits] using hc)
  | continueName hmode hc =>
    rw [hmode] at hbuffer
    refine fits_continue hfits (by simp [hmode]) ?_
    rw [hmode]
    exact ⟨String.push_ne_empty, forall_mem_push.2 ⟨hbuffer.2, hc⟩⟩
  | closeName hmode hseparates =>
    refine fits_enter hrunning hseparates.isSeparator ?_ (.inr rfl)
    obtain ⟨rfl, -⟩ | ⟨rfl, -⟩ := hseparates <;> rfl
  | separateAfterIndex hmode hseparates =>
    refine fits_enter hrunning hseparates.isSeparator ?_ (.inr rfl)
    obtain ⟨rfl, -⟩ | ⟨rfl, -⟩ := hseparates <;> rfl
  | beginIndex hmode hdigit =>
    rw [hmode] at hbuffer
    exact fits_begin hrunning hbuffer (by simp) (isSeparator_of_isDigit hdigit)
      (by simpa [BufferFits] using hdigit)
  | swallowBracket hmode hclose =>
    rw [hmode] at hbuffer
    subst hclose
    refine fits_enter hrunning rfl ?_ (.inr hbuffer)
    simp [BufferFits, show reading.buffer = "" from hbuffer]
  | continueIndex hmode hdigit =>
    rw [hmode] at hbuffer
    refine fits_continue hfits (by simp [hmode]) ?_
    rw [hmode]
    exact forall_mem_push.2 ⟨hbuffer, hdigit⟩
  | closeIndex hmode hclose =>
    rw [hmode] at hbuffer
    subst hclose
    exact fits_enter hrunning rfl hbuffer (.inl rfl)

theorem fits_advance {cs : List Char} (hfits : reading.Fits offset)
    (h : reading.advance cs offset = .going after) : after.Fits (offset + Text.byteLength cs) := by
  induction cs generalizing reading offset with
  | nil =>
    cases h
    exact hfits
  | cons c cs ih =>
    obtain ⟨read, hnext, hrest⟩ := Scanned.andThen_eq_going.1 h
    have hfits' := ih (fits_next hfits hnext) hrest
    rwa [Nat.add_assoc] at hfits'

theorem Moves.isPathCharacter (h : Moves reading offset c after) : isPathCharacter c := by
  cases h with
  | beginName _ hc => exact isPathCharacter_of_isNameCharacter hc
  | beginNameAfterIndex _ hc => exact isPathCharacter_of_isNameCharacter hc
  | continueName _ hc => exact isPathCharacter_of_isNameCharacter hc
  | closeName _ hseparates => exact isPathCharacter_of_isSeparator hseparates.isSeparator
  | separateAfterIndex _ hseparates => exact isPathCharacter_of_isSeparator hseparates.isSeparator
  | beginIndex _ hdigit =>
    exact isPathCharacter_of_isNameCharacter (isNameCharacter_of_isDigit hdigit)
  | swallowBracket _ hclose => exact isPathCharacter_of_isSeparator (by simp [hclose, isSeparator])
  | continueIndex _ hdigit =>
    exact isPathCharacter_of_isNameCharacter (isNameCharacter_of_isDigit hdigit)
  | closeIndex _ hclose => exact isPathCharacter_of_isSeparator (by simp [hclose, isSeparator])

theorem isPathCharacter_of_advance {cs : List Char} (hfits : reading.Fits offset)
    (h : reading.advance cs offset = .going after) : ∀ x ∈ cs, isPathCharacter x := by
  induction cs generalizing reading offset with
  | nil => simp
  | cons c cs ih =>
    obtain ⟨read, hnext, hrest⟩ := Scanned.andThen_eq_going.1 h
    exact List.forall_mem_cons.2
      ⟨(moves_of_next hfits.buffer hnext).isPathCharacter, ih (fits_next hfits hnext) hrest⟩

/-! ### Where reading ends before its text -/

theorem afresh_eq_halted (h : reading.afresh offset c = .halted after) :
    isPathCharacter c = false ∧ after = { reading with haltedAt := some offset } := by
  rw [afresh, separate, separate] at h
  split_ifs at h with hdot hindex hempty hopen hindex hempty hclose hname
  cases h
  simp [isPathCharacter, isSeparator, hdot, hopen, hclose, hname]

/-- A path ends before its text at a character that stands in no path. What has been read is then
what it would be if the text ended there. -/
theorem next_eq_halted (h : reading.next offset c = .halted after) :
    isPathCharacter c = false ∧ after = { reading.close with haltedAt := some offset } := by
  rw [close]
  cases hmode : reading.mode with
  | none =>
    simp only [next, hmode] at h
    exact afresh_eq_halted h
  | some mode =>
    cases mode with
    | initial =>
      simp only [next, hmode] at h
      exact afresh_eq_halted h
    | name =>
      simp only [next, hmode] at h
      split_ifs at h
      exact afresh_eq_halted h
    | dot =>
      simp only [next, hmode] at h
      exact afresh_eq_halted h
    | openBracket =>
      simp only [next, hmode] at h
      split_ifs at h
    | listIndex =>
      simp only [next, hmode] at h
      split_ifs at h
    | closeBracket =>
      simp only [next, hmode] at h
      exact afresh_eq_halted h

/-- The error of a character that is refused. -/
def Refuses (c : Char) (offset : Nat) (error : ParseError) : Prop :=
  error = .missingName c offset ∨ ∃ expected, error = .unexpected c offset expected

variable {error : ParseError}

theorem refuses_of_separate {mode : Mode} (h : reading.separate mode offset c = .failed error) :
    Refuses c offset error := by
  rw [separate] at h
  split_ifs at h
  cases h
  exact .inl rfl

theorem refuses_of_afresh (h : reading.afresh offset c = .failed error) :
    Refuses c offset error := by
  rw [afresh] at h
  split_ifs at h
  · exact refuses_of_separate h
  · exact refuses_of_separate h
  · cases h
    exact .inr ⟨_, rfl⟩

theorem refuses_of_next (h : reading.next offset c = .failed error) : Refuses c offset error := by
  rw [next] at h
  split at h
  · exact refuses_of_afresh h
  · exact refuses_of_afresh h
  · exact refuses_of_afresh h
  · split_ifs at h
    exact refuses_of_afresh h
  · split_ifs at h
    cases h
    exact .inr ⟨_, rfl⟩
  · split_ifs at h
    cases h
    exact .inr ⟨_, rfl⟩
  · exact refuses_of_afresh h

/-- Reading that ends before its text does so at one character, up to which it goes on. -/
theorem exists_next_of_advance {cs : List Char} {outcome : Scanned}
    (h : reading.advance cs offset = outcome) (hends : ∀ read, outcome ≠ .going read) :
    ∃ before c rest read, cs = before ++ c :: rest ∧ reading.advance before offset = .going read ∧
      read.next (offset + Text.byteLength before) c = outcome := by
  induction cs generalizing reading offset with
  | nil => exact absurd h.symm (hends reading)
  | cons c cs ih =>
    rw [advance_cons] at h
    cases hnext : reading.next offset c with
    | going first =>
      rw [hnext] at h
      obtain ⟨before, d, rest, read, rfl, hread, hstop⟩ := ih h
      refine ⟨c :: before, d, rest, read, rfl, ?_, ?_⟩
      · rw [advance_cons, hnext, Scanned.going_andThen, hread]
      · rwa [Text.byteLength_cons, ← Nat.add_assoc]
    | halted read =>
      rw [hnext] at h
      exact ⟨[], c, cs, reading, rfl, rfl, hnext.trans h⟩
    | failed error =>
      rw [hnext] at h
      exact ⟨[], c, cs, reading, rfl, rfl, hnext.trans h⟩

theorem isHalted_of_advance {cs : List Char} (h : reading.advance cs offset = .halted after) :
    after.haltedAt ≠ none := by
  obtain ⟨before, c, rest, read, rfl, -, hnext⟩ := exists_next_of_advance h (by simp)
  simp [(next_eq_halted hnext).2]

end Reading

end AttributeShell
