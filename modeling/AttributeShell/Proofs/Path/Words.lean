import AttributeShell.Proofs.Automaton.Prefix
import AttributeShell.Proofs.Path.Entering

/-!
Which characters of a path are taken in as parts of words, and in which state: those of names in the
state of a name, and the digits of indices in the state of an index. Which of the two it is depends
on the state entered last alone (`consumes_iff`).
-/

namespace AttributeShell

open Automaton AttributePath

/-! ### What is taken in of a character -/

/-- The states in which the characters of some events are taken in. -/
def words {S : Type} (events : List (Event S)) : List S :=
  (events.filter fun event => event.kind = .character).map (·.state)

/-- The state in which a character is taken in, if it is, when that state was entered last. -/
def Mode.taking : Option Mode → Char → List Mode
  | some .openBracket, c | some .listIndex, c => if c.isDigit then [listIndex] else []
  | none, c | some .initial, c | some .name, c | some .dot, c | some .closeBracket, c =>
    if isNameCharacter c then [name] else []

section Handlers

variable {cursor : Cursor Mode} (patience : Nat)

/-- Leaving a state takes nothing in, so that what follows counts alone. -/
theorem words_leave {mode : Mode} {outer taken : List Mode}
    (hnested : cursor.nested = mode :: outer)
    (h : words (follow Mode.state patience (Mode.state (outer.headD cursor.root)).onReturn
      { cursor with nested := outer }).1 = taken) :
    words (follow Mode.state (patience + 1) .leave cursor).1 = taken := by
  rw [follow, hnested]
  exact h

theorem words_classify (accepts : Char → Bool) (matched otherwise : Handler Mode) :
    words (follow Mode.state (patience + 1) (.classify accepts matched otherwise) cursor).1 =
      if accepts cursor.character then words (follow Mode.state patience matched cursor).1
      else words (follow Mode.state patience otherwise cursor).1 := by
  rw [follow]
  split_ifs <;> rfl

theorem words_initial :
    words (follow Mode.state (patience + 5)
        ((Mode.state .initial).handler cursor.character) cursor).1 =
      if isNameCharacter cursor.character then [.name] else [] := by
  rw [handler_initial]
  by_cases hname : isNameCharacter cursor.character
  · have hother := isSeparator_of_isNameCharacter hname
    simp only [isSeparator, Bool.or_eq_false_iff, beq_eq_false_iff_ne] at hother
    obtain ⟨⟨hdot, hopen⟩, hclose⟩ := hother
    rw [if_neg hdot, if_neg hopen, if_neg hclose, words_classify, if_pos hname, if_pos hname]
    -- The name that is entered takes its first character by looking it up again.
    show words (follow Mode.state (patience + 2)
      (.classify isNameCharacter (.word false) .leave) _).1 = _
    rw [words_classify, if_pos hname]
    rfl
  · rw [if_neg hname]
    split_ifs
    · rfl
    · rfl
    · rfl
    · rw [words_classify, if_neg hname]
      rfl

/-- Back in the initial state, the character that led there is looked up once more. -/
theorem words_returned (h : AtRoot cursor) :
    words (follow Mode.state (patience + 7) (Mode.state .initial).onReturn cursor).1 =
      if isNameCharacter cursor.character then [.name] else [] := by
  have hstate : cursor.state = .initial := by simp [Cursor.state, h.root, h.nested]
  have hlookup : follow Mode.state (patience + 6) .redispatch cursor =
      follow Mode.state (patience + 5) ((Mode.state .initial).handler cursor.character) cursor := by
    rw [follow, hstate, handler_initial]
    split_ifs <;> rfl
  show words (follow Mode.state (patience + 7)
    (.classify isPathCharacter .redispatch .halt) cursor).1 = _
  rw [words_classify, hlookup, words_initial]
  split_ifs with hpath hname hname
  · rfl
  · rfl
  · exact absurd (isPathCharacter_of_isNameCharacter hname) hpath
  · rfl

end Handlers

/-- What is taken in of a character depends on the state entered last alone. -/
theorem words_follow {cursor : Cursor Mode} {reading : Reading} (h : Follows cursor reading) :
    words (follow Mode.state AttributePath.patience
        ((Mode.state cursor.state).handler cursor.character) cursor).1 =
      Mode.taking reading.mode cursor.character := by
  obtain ⟨root, nested, offset, c, escaped⟩ := cursor
  obtain ⟨rfl, rfl, rfl⟩ := h
  have hpatience : AttributePath.patience = 6 + 10 := rfl
  rw [hpatience]
  generalize reading.mode = entered
  cases entered with
  | none => exact words_initial _
  | some mode =>
    cases mode with
    | initial => exact words_initial _
    | name =>
      show words (follow _ _ (.classify isNameCharacter (.word false) .leave) _).1 = _
      rw [words_classify]
      by_cases hname : isNameCharacter c
      · rw [if_pos hname, Mode.taking, if_pos hname]
        rfl
      · rw [if_neg hname]
        exact words_leave _ rfl (words_returned _ ⟨rfl, rfl, rfl⟩)
    | dot =>
      exact words_leave _ rfl (words_returned _ ⟨rfl, rfl, rfl⟩)
    | openBracket =>
      show words (follow Mode.state 15 (.classify Char.isDigit (.word false)
        (.classify (· == ']') .ignore (.reject Mode.indexExpected))) _).1 =
          if c.isDigit then [.listIndex] else []
      rw [words_classify, words_classify]
      split_ifs <;> rfl
    | listIndex =>
      show words (follow Mode.state (15 + 1) ((Mode.state .listIndex).handler c) _).1 =
        if c.isDigit then _ else _
      rw [handler_listIndex]
      by_cases hdigit : c.isDigit
      · have hclose : c ≠ ']' := by rintro rfl; simp at hdigit
        rw [if_neg hclose, words_classify, if_pos hdigit, if_pos hdigit]
        rfl
      · rw [if_neg hdigit]
        split_ifs
        · rfl
        · rw [words_classify, if_neg hdigit]
          rfl
    | closeBracket =>
      -- Leaving the bracket leaves the index and the bracket that opened it as well.
      exact words_leave _ rfl (words_leave _ rfl (words_leave _ rfl
        (words_returned _ ⟨rfl, rfl, rfl⟩)))

/-! ### What is taken in of a text -/

/-- The events that belong to some characters of a path, in which no error is met. -/
theorem Follows.exists_scan {cursor : Cursor Mode} {reading after : Reading} {cs : List Char}
    {offset : Nat} (h : Follows cursor reading)
    (hadvance : reading.advance cs offset = .going after) :
    ∃ events reached,
      scan AttributePath.patience Mode.state cs offset cursor = (events, .going reached) ∧
      Follows reached after ∧ tell Reading.observe events reading = (after, none) := by
  have hagrees := consume_agrees h cs offset
  rw [hadvance, consume_eq_tell] at hagrees
  generalize hprogress : (scan AttributePath.patience Mode.state cs offset cursor).2.after
    (tell Reading.observe (scan AttributePath.patience Mode.state cs offset cursor).1 reading) =
      progress at hagrees
  cases hagrees with
  | @going reached _ hfollows =>
    obtain ⟨hcourse, htold⟩ := Course.after_eq_going.1 hprogress
    exact ⟨_, reached, Prod.ext rfl hcourse, hfollows, htold⟩

/-- The events of a text, cut at one of its characters. -/
structure CutAt (text : String) (offset : Nat) (taken : List Mode)
    (first here behind : List (Event Mode)) : Prop where
  events_eq : (trace AttributePath.patience Mode.state .initial text).1 = first ++ here ++ behind
  words_eq : words here = taken
  offset_lt : ∀ event ∈ first, event.offset < offset
  offset_eq : ∀ event ∈ here, event.offset = offset
  lt_offset : ∀ event ∈ behind, event.kind = .character → offset < event.offset
  /-- Up to the character no error is met. -/
  heard : ∃ seen, tell Reading.observe (first ++ here) {} = (seen, none)

theorem exists_cutAt {text : String} {before rest : List Char} {c : Char} {read after : Reading}
    (htext : text.toList = before ++ c :: rest)
    (hread : Reading.advance {} before 0 = .going read)
    (hnext : read.next (Text.byteLength before) c = .going after) :
    ∃ first here behind,
      CutAt text (Text.byteLength before) (Mode.taking read.mode c) first here behind := by
  have hstart : Follows (Cursor.start .initial) {} := ⟨rfl, rfl, rfl⟩
  obtain ⟨first, middle, hfirst, hmiddle, htoldFirst⟩ := hstart.exists_scan hread
  have hone : read.advance [c] (Text.byteLength before) = .going after := by
    rw [Reading.advance_cons, hnext]
    rfl
  obtain ⟨here, reached, hhere, -, htoldHere⟩ := hmiddle.exists_scan hone
  obtain ⟨_, hpassesFirst⟩ := exists_passes Mode.state patience before 0 (Cursor.start .initial)
  obtain ⟨_, hpassesHere⟩ :=
    exists_passes Mode.state patience [c] (Text.byteLength before) middle
  obtain ⟨_, hpassesRest⟩ := exists_passes Mode.state patience rest
    (Text.byteLength before + Text.byteLength [c]) reached
  rw [hfirst] at hpassesFirst
  rw [hhere] at hpassesHere
  have hscan := scan_append hfirst (c :: rest)
  rw [Nat.zero_add, ← List.singleton_append, scan_append hhere,
    List.singleton_append, ← htext] at hscan
  generalize scan patience Mode.state rest (Text.byteLength before + Text.byteLength [c]) reached =
    told at hscan hpassesRest
  refine ⟨first, here, told.1 ++ (told.2.closing Mode.state (Text.size text)).1, ?_, ?_, ?_, ?_, ?_,
    ?_⟩
  · rw [trace, hscan]
    simp
  · have hmoved : Follows (middle.moveTo (Text.byteLength before) c) read :=
      ⟨hmiddle.root, hmiddle.nested, rfl⟩
    have hevents := fst_scan_singleton patience Mode.state c (Text.byteLength before) middle
    rw [hhere, Cursor.firstHandler, hmiddle.escaped] at hevents
    rw [show here = _ from hevents]
    exact words_follow hmoved
  · intro event hevent
    have hlt := (hpassesFirst.inside event hevent).1.lt
    rwa [Nat.zero_add] at hlt
  · intro event hevent
    exact (hpassesHere.inside event hevent).1.eq_of_singleton
  · intro event hevent hkind
    obtain hrest | hclosing := List.mem_append.1 hevent
    · have hle := (hpassesRest.inside event hrest).1.le
      have hc := Char.utf8Size_pos c
      rw [Text.byteLength_cons] at hle
      omega
    · exact absurd hkind (kind_of_mem_closing hclosing)
  · exact ⟨after, by rw [tell_append_of_none htoldFirst, htoldHere]⟩

namespace AttributePath

/-- The character at that position of the text is taken in as a part of a word, in that state. -/
def Consumes (text : String) (mode : Mode) (offset : Nat) : Prop :=
  ∃ entry ∈ history text,
    entry.1.kind = .character ∧ entry.1.state = mode ∧ entry.1.offset = offset

theorem consumes_iff {text : String} {before rest : List Char} {c : Char} {read after : Reading}
    (htext : text.toList = before ++ c :: rest)
    (hread : Reading.advance {} before 0 = .going read)
    (hnext : read.next (Text.byteLength before) c = .going after) (mode : Mode) :
    Consumes text mode (Text.byteLength before) ↔ mode ∈ Mode.taking read.mode c := by
  obtain ⟨first, here, behind, hcut⟩ := exists_cutAt htext hread hnext
  rw [← hcut.words_eq]
  constructor
  · rintro ⟨entry, hentry, hkind, rfl, hoffset⟩
    have hmem : entry.1 ∈ first ++ here ++ behind := by
      rw [← hcut.events_eq]
      exact (ascends_history text).isPrefix.subset (List.mem_map_of_mem hentry)
    obtain hmem | hbehind := List.mem_append.1 hmem
    · obtain hfirst | hhere := List.mem_append.1 hmem
      · exact absurd hoffset (Nat.ne_of_lt (hcut.offset_lt _ hfirst))
      · exact List.mem_map_of_mem (List.mem_filter.2 ⟨hhere, by simpa using hkind⟩)
    · exact absurd hoffset (Nat.ne_of_gt (hcut.lt_offset _ hbehind hkind))
  · intro hmode
    obtain ⟨event, hevent, rfl⟩ := List.mem_map.1 hmode
    obtain ⟨hhere, hkind⟩ := List.mem_filter.1 hevent
    obtain ⟨seen, hheard⟩ := hcut.heard
    obtain ⟨entries, hentries, htell⟩ := exists_noted_of_tell hheard
      (fun _ reading => reading.insertionOffset) []
    have hhistory : entries <+: history text := by
      rw [history, run_eq_tell, Ending.fst_after, hcut.events_eq, tell_append_of_none htell]
      exact noted_prefix_tell _ _ _ _ _
    obtain ⟨entry, hentry, rfl⟩ : ∃ entry ∈ entries, entry.1 = event := by
      rw [← List.mem_map, hentries]
      exact List.mem_append_right _ hhere
    exact ⟨entry, hhistory.subset hentry, by simpa using hkind, rfl, hcut.offset_eq _ hhere⟩

end AttributePath

end AttributeShell
