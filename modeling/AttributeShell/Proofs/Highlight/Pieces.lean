import Mathlib.Data.List.Chain
import AttributeShell.Proofs.Path.Characters
import AttributeShell.Shell.Highlight

/-!
Pieces of a text, and the pieces that the characters of a path are cut into. What is written in
these is what was cut; none of them is empty, and neighbours have different styles. At each position
they show the style of the class of the character there (`styleAt_marked`).
-/

namespace AttributeShell.Highlight

/-- What is written in some pieces. -/
def written (pieces : List Piece) : List Char := pieces.flatMap (·.text.toList)

@[simp] theorem written_nil : written [] = [] := rfl

@[simp] theorem written_cons (first : Piece) (pieces : List Piece) :
    written (first :: pieces) = first.text.toList ++ written pieces := rfl

@[simp] theorem written_append (xs ys : List Piece) :
    written (xs ++ ys) = written xs ++ written ys :=
  List.flatMap_append

/-- The style in which a position is shown. -/
def styleAt : List Piece → Nat → Option Style
  | [], _ => none
  | first :: pieces, position =>
    if position < Text.size first.text then some first.style
    else styleAt pieces (position - Text.size first.text)

theorem styleAt_append_of_lt {xs : List Piece} {position : Nat}
    (h : position < Text.byteLength (written xs)) (ys : List Piece) :
    styleAt (xs ++ ys) position = styleAt xs position := by
  induction xs generalizing position with
  | nil => simp at h
  | cons first xs ih =>
    rw [written_cons, Text.byteLength_append] at h
    rw [List.cons_append, styleAt, styleAt]
    split
    · rfl
    · next hfirst =>
      apply ih
      rw [Text.size] at hfirst ⊢
      omega

theorem styleAt_append_add (xs ys : List Piece) (position : Nat) :
    styleAt (xs ++ ys) (Text.byteLength (written xs) + position) = styleAt ys position := by
  induction xs with
  | nil => simp
  | cons first xs ih =>
    have hfirst : ¬ Text.byteLength (written (first :: xs)) + position < Text.size first.text := by
      rw [written_cons, Text.byteLength_append, Text.size]
      omega
    have hrest : Text.byteLength (written (first :: xs)) + position - Text.size first.text =
        Text.byteLength (written xs) + position := by
      rw [written_cons, Text.byteLength_append, Text.size]
      omega
    rw [List.cons_append, styleAt, if_neg hfirst, hrest, ih]

/-! ### A single piece -/

theorem piece_of_ne_nil (style : Style) {text : List Char} (h : text ≠ []) :
    piece style text = [⟨style, String.ofList text⟩] := by
  simp [piece, h]

@[simp] theorem written_piece (style : Style) (text : List Char) :
    written (piece style text) = text := by
  by_cases h : text = []
  · subst h
    rfl
  · simp [piece_of_ne_nil style h]

theorem text_ne_of_mem_piece {style : Style} {text : List Char} {shown : Piece}
    (h : shown ∈ piece style text) : shown.text ≠ "" := by
  by_cases hnil : text = []
  · subst hnil
    cases h
  · rw [piece_of_ne_nil style hnil, List.mem_singleton] at h
    subst h
    simpa using hnil

/-! ### Neighbours of one class -/

/-- One character more among the neighbours of one class: it is alone, or joins those of its class,
or stands before those of another. -/
inductive Joins (mark : Token × Char) :
    List (Token × List Char) → List (Token × List Char) → Prop where
  | alone : Joins mark [] [(mark.1, [mark.2])]
  | same (run : List Char) (more : List (Token × List Char)) :
      Joins mark ((mark.1, run) :: more) ((mark.1, mark.2 :: run) :: more)
  | other {next : Token} (run : List Char) (more : List (Token × List Char)) : mark.1 ≠ next →
      Joins mark ((next, run) :: more) ((mark.1, [mark.2]) :: (next, run) :: more)

theorem joins_runs (mark : Token × Char) (marks : List (Token × Char)) :
    Joins mark (runs marks) (runs (mark :: marks)) := by
  rw [runs]
  rcases runs marks with _ | ⟨⟨next, run⟩, more⟩
  · exact .alone
  · by_cases h : mark.1 = next
    · subst h
      simp only [if_true]
      exact .same run more
    · simp only [if_neg h]
      exact .other run more h

/-- The neighbours of one class, one behind the other, are the characters with their classes. -/
theorem flatMap_runs (marks : List (Token × Char)) :
    (runs marks).flatMap (fun run => run.2.map (run.1, ·)) = marks := by
  induction marks with
  | nil => rfl
  | cons mark marks ih =>
    have hjoins := joins_runs mark marks
    generalize runs marks = before at hjoins ih
    generalize runs (mark :: marks) = after at hjoins
    rw [← ih]
    cases hjoins <;> rfl

theorem ne_nil_of_mem_runs {marks : List (Token × Char)} :
    ∀ run ∈ runs marks, run.2 ≠ [] := by
  induction marks with
  | nil => simp [runs]
  | cons mark marks ih =>
    have hjoins := joins_runs mark marks
    generalize runs marks = before at hjoins ih
    generalize runs (mark :: marks) = after at hjoins
    cases hjoins with
    | alone => simp
    | same run more =>
      exact List.forall_mem_cons.2 ⟨by simp, (List.forall_mem_cons.1 ih).2⟩
    | other run more _ => exact List.forall_mem_cons.2 ⟨by simp, ih⟩

/-- Those of one class do not stand beside those of the same class. -/
theorem isChain_runs (marks : List (Token × Char)) :
    (runs marks).IsChain fun first second => first.1 ≠ second.1 := by
  induction marks with
  | nil => exact .nil
  | cons mark marks ih =>
    have hjoins := joins_runs mark marks
    generalize runs marks = before at hjoins ih
    generalize runs (mark :: marks) = after at hjoins
    cases hjoins with
    | alone => exact .singleton _
    | same run more =>
      cases ih with
      | singleton => exact .singleton _
      | cons_cons hne hmore => exact .cons_cons hne hmore
    | other run more hne => exact .cons_cons hne ih

/-- A class with the characters of it that stand together, as a piece. -/
def pieceOf (run : Token × List Char) : Piece := ⟨run.1.style, String.ofList run.2⟩

/-- At a position within its first character, neighbours of one class are shown in the style of that
class, and behind it as the rest. -/
theorem styleAt_runs_cons (mark : Token × Char) (marks : List (Token × Char)) (position : Nat) :
    styleAt ((runs (mark :: marks)).map pieceOf) position =
      if position < mark.2.utf8Size then some mark.1.style
      else styleAt ((runs marks).map pieceOf) (position - mark.2.utf8Size) := by
  have hjoins := joins_runs mark marks
  generalize runs marks = before at hjoins
  generalize runs (mark :: marks) = after at hjoins
  have hsize (run : List Char) : Text.size (pieceOf (mark.1, mark.2 :: run)).text =
      mark.2.utf8Size + Text.byteLength run := by
    simp [pieceOf, Text.size]
  cases hjoins with
  | alone =>
    rw [List.map_singleton, styleAt, hsize]
    rfl
  | same run more =>
    have hrun : Text.size (pieceOf (mark.1, run)).text = Text.byteLength run := by
      simp [pieceOf, Text.size]
    have hrest : position - (mark.2.utf8Size + Text.byteLength run) =
        position - mark.2.utf8Size - Text.byteLength run := by
      omega
    rw [List.map_cons, List.map_cons, styleAt, styleAt, hsize, hrun, hrest]
    -- The class is the same within the first character and within the others.
    split
    · split
      · rfl
      · rw [if_pos (by omega)]
        rfl
    · rw [if_neg (by omega), if_neg (by omega)]
  | other run more _ =>
    rw [List.map_cons, styleAt, hsize]
    rfl

/-! ### The pieces of a path -/

theorem Token.style_injective {first second : Token} (h : first.style = second.style) :
    first = second := by
  cases first <;> cases second <;> first | rfl | cases h

/-- A character of a path is of a class of its own. -/
theorem token_ne_other {c : Char} (h : isPathCharacter c) (inBrackets : Bool) :
    token inBrackets c ≠ .other := by
  rw [token]
  split
  · simp
  · next hseparator =>
    have hname : isNameCharacter c := by simpa [isPathCharacter, hseparator] using h
    split <;> simp

theorem map_snd_tokens (inBrackets : Bool) (cs : List Char) :
    (tokens inBrackets cs).map Prod.snd = cs := by
  induction cs generalizing inBrackets with
  | nil => rfl
  | cons c cs ih => rw [tokens, List.map_cons, ih]

theorem eq_token_of_mem_tokens {inBrackets : Bool} {cs : List Char} {mark : Token × Char}
    (h : mark ∈ tokens inBrackets cs) : ∃ inside, mark.1 = token inside mark.2 := by
  induction cs generalizing inBrackets with
  | nil => cases h
  | cons c cs ih =>
    obtain rfl | hmem := List.mem_cons.1 h
    · exact ⟨inBrackets, rfl⟩
    · exact ih hmem

/-- The pieces that the characters of a path are cut into. -/
def marked (cs : List Char) : List Piece := (runs (tokens false cs)).map pieceOf

@[simp] theorem written_marked (cs : List Char) : written (marked cs) = cs := by
  have hwhole := congrArg (List.map Prod.snd) (flatMap_runs (tokens false cs))
  rw [map_snd_tokens, List.map_flatMap] at hwhole
  simpa [written, marked, pieceOf, List.flatMap_map, Function.comp_def] using hwhole

/-- Pieces of a path are in the styles of the classes that belong to paths, and hold characters of
paths only. -/
structure IsMark (shown : Piece) : Prop where
  text_ne : shown.text ≠ ""
  style : shown.style ∈ [Token.name.style, Token.separator.style, Token.index.style]
  characters : ∀ c ∈ shown.text.toList, isPathCharacter c

theorem isMark_of_mem_marked {cs : List Char} (h : ∀ c ∈ cs, isPathCharacter c) {shown : Piece}
    (hshown : shown ∈ marked cs) : IsMark shown := by
  obtain ⟨run, hrun, rfl⟩ := List.mem_map.1 hshown
  have hmarks : ∀ c ∈ run.2, (run.1, c) ∈ tokens false cs := by
    intro c hc
    rw [← flatMap_runs (tokens false cs)]
    exact List.mem_flatMap.2 ⟨run, hrun, List.mem_map_of_mem hc⟩
  have hpath : ∀ c ∈ run.2, isPathCharacter c := by
    intro c hc
    apply h
    rw [← map_snd_tokens false cs]
    exact List.mem_map_of_mem (hmarks c hc)
  have hne := ne_nil_of_mem_runs run hrun
  obtain ⟨c, hc⟩ := List.exists_mem_of_ne_nil _ hne
  obtain ⟨inside, hkind⟩ := eq_token_of_mem_tokens (hmarks c hc)
  refine ⟨by simpa [pieceOf] using hne, ?_, by simpa [pieceOf] using hpath⟩
  have hother : run.1 ≠ .other := by
    rw [show run.1 = token inside c from hkind]
    exact token_ne_other (hpath c hc) inside
  rw [pieceOf]
  cases hclass : run.1 with
  | name => exact .head _
  | separator => exact .tail _ (.head _)
  | index => exact .tail _ (.tail _ (.head _))
  | other => exact absurd hclass hother

theorem isChain_marked (cs : List Char) :
    (marked cs).IsChain fun first second => first.style ≠ second.style := by
  rw [marked, List.isChain_map]
  exact (isChain_runs _).imp fun _ _ hne hstyle => hne (Token.style_injective hstyle)

theorem styleAt_tokens (inBrackets : Bool) (before : List Char) (c : Char) (rest : List Char) :
    styleAt ((runs (tokens inBrackets (before ++ c :: rest))).map pieceOf)
        (Text.byteLength before) =
      some (token (before.foldl bracketsAfter inBrackets) c).style := by
  induction before generalizing inBrackets with
  | nil =>
    rw [List.nil_append, tokens, styleAt_runs_cons]
    exact if_pos c.utf8Size_pos
  | cons x before ih =>
    have hbehind : ¬ Text.byteLength (x :: before) < x.utf8Size := by
      rw [Text.byteLength_cons]
      omega
    have hrest : Text.byteLength (x :: before) - x.utf8Size = Text.byteLength before := by
      rw [Text.byteLength_cons]
      omega
    rw [List.cons_append, tokens, styleAt_runs_cons]
    simp only [if_neg hbehind, hrest]
    exact ih _

/-- At each position the pieces of a path show the style of the class of the character there. -/
theorem styleAt_marked (before : List Char) (c : Char) (rest : List Char) :
    styleAt (marked (before ++ c :: rest)) (Text.byteLength before) =
      some (token (before.foldl bracketsAfter false) c).style :=
  styleAt_tokens false before c rest

end AttributeShell.Highlight
