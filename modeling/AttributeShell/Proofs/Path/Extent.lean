import AttributeShell.Proofs.Path.Outcome

/-!
How far a path reaches back from its end. Between the place of a completion and the end of the path
stands what has been typed last: the fragment, the digits of an index, or nothing. Both positions
are boundaries of the text (`AttributePath.exists_delimits`).
-/

namespace AttributeShell

namespace Reading

variable {reading after : Reading} {offset : Nat} {c : Char}

theorem typed_begin {mode : Mode} (hempty : reading.buffer = "") (hmode : mode ≠ .closeBracket) :
    ((reading.enter mode offset c).push c).typed.toList = [c] := by
  simp [typed, push, enter, hempty, hmode]

theorem typed_continue (hmode : reading.mode ≠ some .closeBracket) :
    (reading.push c).typed.toList = reading.typed.toList ++ [c] := by
  simp [typed, push, hmode]

theorem typed_enter {mode : Mode} (h : mode = .closeBracket ∨ reading.buffer = "") :
    (reading.enter mode offset c).typed.toList = [] := by
  obtain rfl | hempty := h
  · rfl
  · simp [typed, enter, hempty]

/-- A character continues what has been typed, or begins anew, or closes it. -/
theorem typed_of_moves (hbuffer : BufferFits reading.buffer reading.mode)
    (h : Moves reading offset c after) : after.typed.toList <:+ reading.typed.toList ++ [c] := by
  cases h with
  | beginName hmode _ =>
    have hempty : reading.buffer = "" := by obtain h | h := hmode <;> rwa [h] at hbuffer
    rw [typed_begin hempty (by simp)]
    exact List.suffix_append _ _
  | beginNameAfterIndex _ _ =>
    rw [typed_begin rfl (by simp)]
    exact List.suffix_append _ _
  | continueName hmode _ => exact ⟨[], typed_continue (by simp [hmode])⟩
  | closeName _ _ =>
    rw [typed_enter (.inr rfl)]
    exact List.nil_suffix
  | separateAfterIndex _ _ =>
    rw [typed_enter (.inr rfl)]
    exact List.nil_suffix
  | beginIndex hmode _ =>
    rw [hmode] at hbuffer
    rw [typed_begin hbuffer (by simp)]
    exact List.suffix_append _ _
  | swallowBracket hmode _ =>
    rw [hmode] at hbuffer
    rw [typed_enter (.inr hbuffer)]
    exact List.nil_suffix
  | continueIndex hmode _ => exact ⟨[], typed_continue (by simp [hmode])⟩
  | closeIndex _ _ =>
    rw [typed_enter (.inl rfl)]
    exact List.nil_suffix

theorem typed_of_advance {cs : List Char} (hfits : reading.Fits offset)
    (h : reading.advance cs offset = .going after) :
    after.typed.toList <:+ reading.typed.toList ++ cs := by
  induction cs generalizing reading offset with
  | nil =>
    cases h
    exact ⟨[], (List.append_nil _).symm⟩
  | cons c cs ih =>
    obtain ⟨read, hnext, hrest⟩ := Scanned.andThen_eq_going.1 h
    have hread := typed_of_moves hfits.buffer (moves_of_next hfits.buffer hnext)
    have hafter := ih (fits_next hfits hnext) hrest
    rw [List.append_cons]
    exact hafter.trans (List.suffix_append_self_iff.2 hread)

/-- What has been typed last stands at the end of the text, behind the place of a completion. -/
theorem from?_insertionOffset {text : String} (h : advance {} text.toList 0 = .going reading) :
    Text.from? text reading.insertionOffset = some reading.typed := by
  obtain ⟨before, hbefore⟩ : reading.typed.toList <:+ text.toList := typed_of_advance fits_empty h
  have htext : text = String.ofList before ++ reading.typed := by
    simp [← String.toList_inj, hbefore]
  have hplace : reading.insertionOffset = Text.size (String.ofList before) := by
    have hfits : reading.insertionOffset + Text.size reading.typed = 0 + Text.size text :=
      (fits_advance fits_empty h).place
    rw [Nat.zero_add, htext, Text.size_append] at hfits
    exact Nat.add_right_cancel hfits
  rw [hplace, htext, Text.from?_append]

end Reading

namespace AttributePath

variable {text : String} {path : AttributePath}

/-- What stands between the place of a completion and the end of the path. -/
def Delimits (path : AttributePath) (stop : Nat) (typed : String) : Prop :=
  match path.position with
  | .name => typed = path.fragment
  | .afterDot | .openBracket | .closeBracket =>
    path.insertionOffset = stop ∧ typed = "" ∧ path.fragment = ""
  | .listIndex => IsDigits typed.toList ∧ path.fragment = ""

end AttributePath

theorem Reading.delimits_close {reading : Reading} {offset : Nat} (hfits : reading.Fits offset) :
    reading.close.toPath.Delimits offset reading.typed := by
  have hbuffer := hfits.buffer
  have hplace := hfits.place
  cases hmode : reading.mode with
  | none => simp [AttributePath.Delimits, toPath, close, typed, Position.ofMode, hmode]
  | some mode =>
    rw [hmode] at hbuffer
    cases mode with
    | initial => cases hbuffer
    | name => simp [AttributePath.Delimits, toPath, close, typed, Position.ofMode, hmode]
    | dot =>
      have hempty : reading.buffer = "" := hbuffer
      simpa [AttributePath.Delimits, toPath, close, typed, Position.ofMode, hmode, hempty]
        using hplace
    | openBracket =>
      have hempty : reading.buffer = "" := hbuffer
      simpa [AttributePath.Delimits, toPath, close, typed, Position.ofMode, hmode, hempty]
        using hplace
    | listIndex =>
      have hdigits : IsDigits reading.buffer.toList := hbuffer
      simpa [AttributePath.Delimits, toPath, close, clear, typed, Position.ofMode, hmode]
        using hdigits
    | closeBracket =>
      simpa [AttributePath.Delimits, toPath, close, clear, insertionOffset, typed,
        Position.ofMode, hmode] using hplace

namespace AttributePath

variable {text : String} {path : AttributePath}

/-- Up to its end a text is a path that goes on. -/
theorem exists_running (h : parse text = .ok path) :
    ∃ before, Text.before? text (path.haltedAt.getD (Text.size text)) = some before ∧
      parse before = .ok { path with haltedAt := none } := by
  cases hhalted : path.haltedAt with
  | none =>
    refine ⟨text, Text.before?_size text, ?_⟩
    rw [h, ← hhalted]
  | some offset =>
    obtain ⟨before, c, hstands, -, hbefore, -⟩ := exists_ended h hhalted
    exact ⟨before, hstands.before, hbefore⟩

/-- The place of a completion and the end of the path are boundaries of the text, and between them
stands what the path says that was typed there. -/
theorem exists_delimits (h : parse text = .ok path) :
    ∃ typed, Text.between? text path.insertionOffset (path.haltedAt.getD (Text.size text)) =
        some typed ∧ path.Delimits (path.haltedAt.getD (Text.size text)) typed := by
  obtain ⟨before, hbefore, hparse⟩ := exists_running h
  obtain ⟨reading, hadvance, hfits, hpath⟩ := exists_advance_of_parse hparse rfl
  have hplace : path.insertionOffset = reading.insertionOffset := by
    rw [← Reading.insertionOffset_toPath_close reading, ← hpath]
  have hstop := (Text.eq_append_of_before? hbefore).1
  have hdelimits : path.Delimits (Text.size before) reading.typed := by
    have hclose := Reading.delimits_close hfits
    rwa [← hpath] at hclose
  refine ⟨reading.typed, ?_, hstop ▸ hdelimits⟩
  rw [Text.between?_of_before? hbefore, hplace, Reading.from?_insertionOffset hadvance]

/-- A fragment is made of characters of names. -/
theorem isName_fragment (h : parse text = .ok path) (hposition : path.position = .name)
    (hne : path.fragment ≠ "") : IsName path.fragment.toList := by
  obtain ⟨before, -, hparse⟩ := exists_running h
  obtain ⟨reading, -, hfits, hends, hpath⟩ :=
    exists_endsItem hparse ⟨rfl, .inl ⟨hposition, hne⟩⟩
  cases hends with
  | name hmode _ =>
    have hfragment : path.fragment = reading.close.buffer := congrArg AttributePath.fragment hpath
    have hclose : reading.close = reading := by simp [Reading.close, hmode]
    have hbuffer := hfits.buffer
    rw [hmode] at hbuffer
    rw [hfragment, hclose]
    exact ⟨by simpa using hbuffer.1, hbuffer.2⟩
  | index hmode =>
    have hindex : path.position = .ofMode reading.close.mode :=
      congrArg AttributePath.position hpath
    rw [Reading.mode_close, hmode, hposition] at hindex
    cases hindex

end AttributePath

end AttributeShell
