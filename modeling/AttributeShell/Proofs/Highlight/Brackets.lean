import AttributeShell.Proofs.Highlight.Lossless
import AttributeShell.Proofs.Path.Words
import Mathlib.Data.List.Induction

/-!
Whether the colours of a path agree with the states of the automaton that reads it. Colouring knows
only whether the last bracket was an opening one, and the automaton keeps a stack. They come to the
same but for one thing: the automaton takes the closing bracket of an empty index and stays in the
index, where it reads further digits, while these are coloured as parts of a name
(`agrees_iff_not_behindEmptyIndex`).
-/

namespace AttributeShell

open AttributePath

namespace Highlight

/-! ### Inside of brackets -/

/-- Whether what follows some characters is inside of brackets. -/
def inside (cs : List Char) : Bool := cs.foldl bracketsAfter false

/-- The characters end with an empty index, and further digits perhaps. -/
def BehindEmptyIndex (cs : List Char) : Prop :=
  ∃ before digits, cs = before ++ '[' :: ']' :: digits ∧ IsDigits digits

theorem inside_append_singleton (cs : List Char) (c : Char) :
    inside (cs ++ [c]) = bracketsAfter (inside cs) c := by
  rw [inside, List.foldl_append]
  rfl

theorem bracketsAfter_of_isNameCharacter {c : Char} (hc : isNameCharacter c) (inBrackets : Bool) :
    bracketsAfter inBrackets c = inBrackets := by
  have hopen : c ≠ '[' := by rintro rfl; simp at hc
  have hclose : c ≠ ']' := by rintro rfl; simp at hc
  simp [bracketsAfter, hopen, hclose]

/-- A character of a name changes nothing in this. -/
theorem inside_append_of_isNameCharacter {c : Char} (hc : isNameCharacter c) (cs : List Char) :
    inside (cs ++ [c]) = inside cs := by
  rw [inside_append_singleton, bracketsAfter_of_isNameCharacter hc]

theorem foldl_bracketsAfter_of_isDigits {digits : List Char} (h : IsDigits digits)
    (inBrackets : Bool) : digits.foldl bracketsAfter inBrackets = inBrackets := by
  induction digits generalizing inBrackets with
  | nil => rfl
  | cons d digits ih =>
    obtain ⟨hd, hdigits⟩ := List.forall_mem_cons.1 h
    rw [List.foldl_cons, bracketsAfter_of_isNameCharacter (isNameCharacter_of_isDigit hd),
      ih hdigits]

theorem inside_index {digits : List Char} (h : IsDigits digits) (before : List Char) :
    inside (before ++ '[' :: digits) = true := by
  rw [inside, List.foldl_append, List.foldl_cons]
  exact foldl_bracketsAfter_of_isDigits h true

theorem BehindEmptyIndex.inside_eq {cs : List Char} (h : BehindEmptyIndex cs) :
    inside cs = false := by
  obtain ⟨before, digits, rfl, hdigits⟩ := h
  rw [inside, List.foldl_append, List.foldl_cons, List.foldl_cons]
  exact foldl_bracketsAfter_of_isDigits hdigits false

/-! ### What the brackets say of the state entered last -/

/-- What the brackets among the characters read so far say of the state entered last. -/
def BracketsFit (cs : List Char) : Option Mode → Prop
  | none | some .initial | some .name | some .dot | some .closeBracket => inside cs = false
  | some .openBracket => ∃ before, cs = before ++ ['[']
  | some .listIndex =>
    (∃ before digits, cs = before ++ '[' :: digits ∧ IsDigits digits) ∨ BehindEmptyIndex cs

variable {reading after : Reading} {cs : List Char} {offset : Nat} {c : Char}

theorem bracketsFit_of_separates {mode : Mode} (hc : Reading.Separates mode c)
    (h : inside cs = false) : BracketsFit (cs ++ [c]) (some mode) := by
  obtain ⟨rfl, rfl⟩ | ⟨rfl, rfl⟩ := hc
  · rw [BracketsFit, inside_append_singleton, h]
    rfl
  · exact ⟨cs, rfl⟩

theorem isDigits_append_singleton {digits : List Char} (h : IsDigits digits) (hc : c.isDigit) :
    IsDigits (digits ++ [c]) :=
  List.forall_mem_append.2 ⟨h, List.forall_mem_singleton.2 hc⟩

/-- A further digit leaves an index what it is. -/
theorem bracketsFit_of_continueIndex (h : BracketsFit cs (some .listIndex)) (hc : c.isDigit) :
    BracketsFit (cs ++ [c]) (some .listIndex) := by
  obtain ⟨before, digits, rfl, hdigits⟩ | ⟨before, digits, rfl, hdigits⟩ := h
  · exact .inl ⟨before, digits ++ [c], by simp, isDigits_append_singleton hdigits hc⟩
  · exact .inr ⟨before, digits ++ [c], by simp, isDigits_append_singleton hdigits hc⟩

theorem bracketsFit_of_moves (h : BracketsFit cs reading.mode)
    (hmoves : reading.Moves offset c after) : BracketsFit (cs ++ [c]) after.mode := by
  cases hmoves with
  | beginName hmode hc =>
    have hinside : inside cs = false := by
      obtain hmode | hmode := hmode <;> rwa [hmode] at h
    exact (inside_append_of_isNameCharacter hc cs).trans hinside
  | beginNameAfterIndex hmode hc =>
    rw [hmode] at h
    exact (inside_append_of_isNameCharacter hc cs).trans h
  | continueName hmode hc =>
    rw [hmode] at h
    rw [Reading.mode_push, hmode]
    exact (inside_append_of_isNameCharacter hc cs).trans h
  | closeName hmode hseparates =>
    rw [hmode] at h
    exact bracketsFit_of_separates hseparates h
  | separateAfterIndex hmode hseparates =>
    rw [hmode] at h
    exact bracketsFit_of_separates hseparates h
  | beginIndex hmode hc =>
    rw [hmode] at h
    obtain ⟨before, rfl⟩ := h
    exact .inl ⟨before, [c], by simp, List.forall_mem_singleton.2 hc⟩
  | swallowBracket hmode hc =>
    rw [hmode] at h
    obtain ⟨before, rfl⟩ := h
    subst hc
    exact .inr ⟨before, [], by simp, List.forall_mem_nil _⟩
  | continueIndex hmode hc =>
    rw [hmode] at h
    rw [Reading.mode_push, hmode]
    exact bracketsFit_of_continueIndex h hc
  | closeIndex hmode hc =>
    subst hc
    exact inside_append_singleton cs ']'

theorem bracketsFit_of_advance (h : Reading.advance {} cs 0 = .going reading) :
    BracketsFit cs reading.mode := by
  induction cs using List.reverseRecOn generalizing reading with
  | nil =>
    cases h
    rfl
  | append_singleton cs c ih =>
    rw [Reading.advance_append] at h
    obtain ⟨read, hread, hlast⟩ := Scanned.andThen_eq_going.1 h
    obtain ⟨last, hnext, hnil⟩ := Scanned.andThen_eq_going.1 hlast
    cases hnil
    have hbuffer := (Reading.fits_advance Reading.fits_empty hread).buffer
    exact bracketsFit_of_moves (ih hread) (Reading.moves_of_next hbuffer hnext)

/-! ### The state behind an empty index -/

theorem mode_of_openBracket (hbuffer : Reading.BufferFits reading.buffer reading.mode)
    (h : reading.next offset '[' = .going after) : after.mode = some .openBracket := by
  cases Reading.moves_of_next hbuffer h with
  | beginName _ hc => simp at hc
  | beginNameAfterIndex _ hc => simp at hc
  | continueName _ hc => simp at hc
  | closeName _ hseparates =>
    obtain ⟨-, hc⟩ | ⟨rfl, -⟩ := hseparates
    · exact absurd hc (by decide)
    · rfl
  | separateAfterIndex _ hseparates =>
    obtain ⟨-, hc⟩ | ⟨rfl, -⟩ := hseparates
    · exact absurd hc (by decide)
    · rfl
  | beginIndex _ hc => simp at hc
  | swallowBracket _ hc => exact absurd hc (by decide)
  | continueIndex _ hc => simp at hc
  | closeIndex _ hc => exact absurd hc (by decide)

/-- Digits keep an index open. -/
theorem mode_of_isDigits {digits : List Char} (hdigits : IsDigits digits)
    (hmode : reading.mode = some .listIndex)
    (h : reading.advance digits offset = .going after) : after.mode = some .listIndex := by
  induction digits generalizing reading offset with
  | nil =>
    cases h
    exact hmode
  | cons d digits ih =>
    obtain ⟨hd, hrest⟩ := List.forall_mem_cons.1 hdigits
    have hclose : d ≠ ']' := by rintro rfl; simp at hd
    obtain ⟨read, hnext, hadvance⟩ := Scanned.andThen_eq_going.1 h
    rw [Reading.next, hmode] at hnext
    simp only [if_neg hclose, if_pos hd, Scanned.going.injEq] at hnext
    subst hnext
    exact ih hrest ((Reading.mode_push reading d).trans hmode) hadvance

theorem mode_of_behindEmptyIndex (hindex : BehindEmptyIndex cs)
    (h : Reading.advance {} cs 0 = .going reading) : reading.mode = some .listIndex := by
  obtain ⟨before, digits, rfl, hdigits⟩ := hindex
  rw [Reading.advance_append] at h
  obtain ⟨first, hfirst, hrest⟩ := Scanned.andThen_eq_going.1 h
  obtain ⟨opened, hopen, hrest⟩ := Scanned.andThen_eq_going.1 hrest
  obtain ⟨swallowed, hclose, hrest⟩ := Scanned.andThen_eq_going.1 hrest
  have hmode := mode_of_openBracket (Reading.fits_advance Reading.fits_empty hfirst).buffer hopen
  have hindex : swallowed.mode = some .listIndex := by
    rw [Reading.next, hmode] at hclose
    cases hclose
    rfl
  exact mode_of_isDigits hdigits hindex hrest

/-! ### Classes and states -/

theorem token_of_isSeparator (hc : isSeparator c) (inBrackets : Bool) :
    token inBrackets c = .separator := by
  simp [token, hc]

theorem token_of_isNameCharacter (hc : isNameCharacter c) : token false c = .name := by
  simp [token, hc, isSeparator_of_isNameCharacter hc]

theorem token_of_isDigit (hc : c.isDigit) : token true c = .index := by
  simp [token, hc, isSeparator_of_isDigit hc]

/-- How a character is taken in, and the class that it is coloured as: those of names and of indices
agree, except behind an empty index. -/
inductive Colours (before : List Char) (c : Char) : List Mode → Token → Prop where
  | separator : isSeparator c → Colours before c [] .separator
  | name : isNameCharacter c → ¬ BehindEmptyIndex before → Colours before c [.name] .name
  | index : c.isDigit → ¬ BehindEmptyIndex before → Colours before c [.listIndex] .index
  | behindEmptyIndex : c.isDigit → BehindEmptyIndex before → Colours before c [.listIndex] .name

/-- A separator is never a part of a word. -/
theorem colours_of_isSeparator (hc : isSeparator c) (mode : Option Mode) :
    Colours cs c (Mode.taking mode c) (token (inside cs) c) := by
  have hname : ¬ isNameCharacter c := fun h => by
    rw [isSeparator_of_isNameCharacter h] at hc
    cases hc
  have hdigit : ¬ c.isDigit := fun h => hname (isNameCharacter_of_isDigit h)
  have htaking : Mode.taking mode c = [] := by
    rw [Mode.taking.eq_def]
    split <;> simp [hname, hdigit]
  rw [htaking, token_of_isSeparator hc]
  exact .separator hc

/-- Outside of an index a character is coloured as the part of a name that it is. -/
theorem colours_of_isNameCharacter (hread : Reading.advance {} cs 0 = .going reading)
    (hopen : reading.mode ≠ some .openBracket) (hindex : reading.mode ≠ some .listIndex)
    (hc : isNameCharacter c) :
    Colours cs c (Mode.taking reading.mode c) (token (inside cs) c) := by
  have hbehind : ¬ BehindEmptyIndex cs := fun h => hindex (mode_of_behindEmptyIndex h hread)
  have hfit := bracketsFit_of_advance hread
  obtain ⟨houtside, htaking⟩ :
      inside cs = false ∧ Mode.taking reading.mode c = [.name] := by
    revert hopen hindex hfit
    cases reading.mode with
    | none => exact fun _ _ hfit => ⟨hfit, if_pos hc⟩
    | some mode =>
      cases mode with
      | openBracket => exact fun hopen => absurd rfl hopen
      | listIndex => exact fun _ hindex => absurd rfl hindex
      | initial | name | dot | closeBracket => exact fun _ _ hfit => ⟨hfit, if_pos hc⟩
  rw [houtside, htaking, token_of_isNameCharacter hc]
  exact .name hc hbehind

theorem not_behindEmptyIndex_of_inside (h : inside cs = true) : ¬ BehindEmptyIndex cs := by
  intro hbehind
  rw [hbehind.inside_eq] at h
  cases h

theorem colours_of_moves (hread : Reading.advance {} cs 0 = .going reading)
    (h : reading.Moves offset c after) :
    Colours cs c (Mode.taking reading.mode c) (token (inside cs) c) := by
  have hfit := bracketsFit_of_advance hread
  cases h with
  | beginName hmode hc =>
    obtain hmode | hmode := hmode <;>
      exact colours_of_isNameCharacter hread (by simp [hmode]) (by simp [hmode]) hc
  | beginNameAfterIndex hmode hc | continueName hmode hc =>
    exact colours_of_isNameCharacter hread (by simp [hmode]) (by simp [hmode]) hc
  | closeName _ hseparates | separateAfterIndex _ hseparates =>
    exact colours_of_isSeparator hseparates.isSeparator _
  | swallowBracket _ hc | closeIndex _ hc =>
    subst hc
    exact colours_of_isSeparator rfl _
  | beginIndex hmode hc =>
    rw [hmode] at hfit
    obtain ⟨before, rfl⟩ := hfit
    have hinside : inside (before ++ ['[']) = true := inside_index (List.forall_mem_nil _) before
    rw [hmode, Mode.taking, if_pos hc, hinside, token_of_isDigit hc]
    exact .index hc (not_behindEmptyIndex_of_inside hinside)
  | continueIndex hmode hc =>
    rw [hmode] at hfit
    rw [hmode, Mode.taking, if_pos hc]
    obtain ⟨before, digits, rfl, hdigits⟩ | hbehind := hfit
    · have hinside := inside_index hdigits before
      rw [hinside, token_of_isDigit hc]
      exact .index hc (not_behindEmptyIndex_of_inside hinside)
    · rw [hbehind.inside_eq, token_of_isNameCharacter (isNameCharacter_of_isDigit hc)]
      exact .behindEmptyIndex hc hbehind

/-! ### Lines -/

/-- The style in which a line shows the character that follows these, behind the white space in
front. -/
def shownBehind (text : String) (before : List Char) : Option Style :=
  styleAt (pieces true text)
    (Text.byteLength (Text.takeBlank text.toList) + Text.byteLength before)

/-- The colours of a character in a line are those of the states in which it is taken in. -/
structure Agrees (text : String) (before : List Char) (c : Char) : Prop where
  index : shownBehind text before = some Token.index.style ↔
    Consumes (String.ofList (Text.dropBlank text.toList)) .listIndex (Text.byteLength before)
  name : shownBehind text before = some Token.name.style ↔
    Consumes (String.ofList (Text.dropBlank text.toList)) .name (Text.byteLength before)
  separator : shownBehind text before = some Token.separator.style ↔ isSeparator c

/-- A character before the end of the path is taken in, and shown, as the brackets before it say. -/
theorem exists_colours {text : String} {before rest : List Char}
    (hother : Command.isOwn (Command.parse text) = false)
    (hbody : Text.dropBlank text.toList = before ++ c :: rest)
    (hpath : Text.byteLength before < (tailOf (String.ofList (before ++ c :: rest))).1) :
    ∃ taken kind, Colours before c taken kind ∧ shownBehind text before = some kind.style ∧
      ∀ mode, Consumes (String.ofList (before ++ c :: rest)) mode (Text.byteLength before) ↔
        mode ∈ taken := by
  rw [Command.isOwn_parse] at hother
  obtain ⟨valid, tail, hcut⟩ := exists_cut (String.ofList (before ++ c :: rest))
  have htext := hcut.text_eq
  rw [String.toList_ofList] at htext
  rw [hcut.stop] at hpath
  obtain ⟨more, hvalid⟩ := Text.exists_eq_append_of_byteLength_lt htext hpath
  obtain ⟨parsed, hparse, hrunning⟩ := hcut.isPath
  obtain ⟨_, hadvance, -⟩ := exists_advance_of_parse hparse hrunning
  rw [hvalid, Reading.advance_append] at hadvance
  obtain ⟨read, hread, hmore⟩ := Scanned.andThen_eq_going.1 hadvance
  obtain ⟨after, hnext, -⟩ := Scanned.andThen_eq_going.1 hmore
  rw [Nat.zero_add] at hnext
  have hbuffer := (Reading.fits_advance Reading.fits_empty hread).buffer
  refine ⟨_, _, colours_of_moves hread (Reading.moves_of_next hbuffer hnext), ?_,
    consumes_iff (String.toList_ofList) hread hnext⟩
  have hwritten : Text.byteLength before < Text.byteLength (written (marked valid.toList)) := by
    rw [written_marked]
    exact hpath
  have hindent := styleAt_append_add (piece .plain (Text.takeBlank text.toList))
    (marked valid.toList ++ tail) (Text.byteLength before)
  rw [written_piece] at hindent
  rw [shownBehind, pieces_eq, if_neg (Bool.eq_false_iff.1 hother), hbody, hcut.pieces_eq, hindent,
    styleAt_append_of_lt hwritten, hvalid, styleAt_marked]
  rfl

/-- Before the error or the end of the path in a line, a character is shown as a separator exactly
if it is one. The colours of names and indices are those of the states that take the character in,
except for digits behind an empty index: these are taken in as parts of the index and shown as parts
of a name. -/
theorem agrees_iff_not_behindEmptyIndex {text : String} {before rest : List Char}
    (hother : Command.isOwn (Command.parse text) = false)
    (hbody : Text.dropBlank text.toList = before ++ c :: rest)
    (hpath : Text.byteLength before < (tailOf (String.ofList (before ++ c :: rest))).1) :
    (shownBehind text before = some Token.separator.style ↔ isSeparator c) ∧
      (Agrees text before c ↔ ¬ (c.isDigit ∧ BehindEmptyIndex before)) ∧
      (c.isDigit → BehindEmptyIndex before →
        shownBehind text before = some Token.name.style ∧
          Consumes (String.ofList (before ++ c :: rest)) .listIndex (Text.byteLength before)) := by
  obtain ⟨taken, kind, hcolours, hshown, htaken⟩ := exists_colours hother hbody hpath
  have hstyle (found : Token) : shownBehind text before = some found.style ↔ kind = found := by
    rw [hshown, Option.some.injEq]
    exact ⟨Token.style_injective, congrArg Token.style⟩
  have hagrees : Agrees text before c ↔ (kind = .index ↔ .listIndex ∈ taken) ∧
      (kind = .name ↔ .name ∈ taken) ∧ (kind = .separator ↔ isSeparator c) := by
    rw [← htaken, ← htaken, ← hstyle, ← hstyle, ← hstyle, ← hbody]
    exact ⟨fun h => ⟨h.index, h.name, h.separator⟩, fun ⟨hindex, hname, hseparator⟩ =>
      ⟨hindex, hname, hseparator⟩⟩
  rw [hstyle, hagrees, hstyle, htaken]
  cases hcolours with
  | separator hc =>
    have hdigit : ¬ c.isDigit := fun h => by simp [isSeparator_of_isDigit h] at hc
    simp [hc, hdigit]
  | name hc hbehind => simp [isSeparator_of_isNameCharacter hc, hbehind]
  | index hc hbehind => simp [isSeparator_of_isDigit hc, hbehind]
  | behindEmptyIndex hc hbehind => simp [isSeparator_of_isDigit hc, hc, hbehind]

/-- The last digit of an index, in a line with white space in front and an error behind. -/
theorem agrees_index :
    Command.isOwn (Command.parse " é[12]..b") = false ∧
      Text.dropBlank " é[12]..b".toList = "é[1".toList ++ '2' :: "]..b".toList ∧
      Text.byteLength "é[1".toList <
        (tailOf (String.ofList ("é[1".toList ++ '2' :: "]..b".toList))).1 ∧
      ¬ BehindEmptyIndex "é[1".toList ∧ Agrees " é[12]..b" "é[1".toList '2' := by
  have hother : Command.isOwn (Command.parse " é[12]..b") = false := by decide +kernel
  have hbody : Text.dropBlank " é[12]..b".toList = "é[1".toList ++ '2' :: "]..b".toList := by
    decide +kernel
  have hpath : Text.byteLength "é[1".toList <
      (tailOf (String.ofList ("é[1".toList ++ '2' :: "]..b".toList))).1 := by decide +kernel
  have hbehind : ¬ BehindEmptyIndex "é[1".toList := not_behindEmptyIndex_of_inside (by decide)
  obtain ⟨-, hagrees, -⟩ := agrees_iff_not_behindEmptyIndex hother hbody hpath
  exact ⟨hother, hbody, hpath, hbehind, hagrees.2 fun h => hbehind h.2⟩

/-- A digit behind an empty index is taken in as one of the index, and shown as a part of a name. -/
theorem exists_not_agrees :
    ∃ text before c, Command.isOwn (Command.parse text) = false ∧
      Text.dropBlank text.toList = before ++ [c] ∧
      Text.byteLength before < (tailOf (String.ofList (before ++ [c]))).1 ∧
      shownBehind text before = some Token.name.style ∧
      Consumes (String.ofList (before ++ [c])) .listIndex (Text.byteLength before) ∧
      ¬ Agrees text before c := by
  have hbody : Text.dropBlank "a[]1".toList = "a[]".toList ++ ['1'] := rfl
  have hshown : shownBehind "a[]1" "a[]".toList = some Token.name.style := by decide +kernel
  have htaken : Consumes (String.ofList ("a[]".toList ++ ['1'])) .listIndex
      (Text.byteLength "a[]".toList) := by
    refine ⟨(⟨.character, .listIndex, 3, '1', false⟩, 3), by decide +kernel, rfl, rfl, rfl⟩
  refine ⟨"a[]1", "a[]".toList, '1', by decide +kernel, hbody, by decide +kernel, hshown, htaken,
    fun hagrees => ?_⟩
  have hindex := hagrees.index.2 htaken
  rw [hshown] at hindex
  exact absurd hindex (by decide)

end Highlight

end AttributeShell
