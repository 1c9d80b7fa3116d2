import AttributeShell.Proofs.Highlight.Pieces
import AttributeShell.Proofs.Shell.Commands

/-!
The pieces of a line are the line. A line that is taken as a command of the shell begins with its
word; any other line is shown as a path up to where it is none any more, and the last piece says
why: it is marked from the character on that is wrong, or plain from where the path has ended
(`pieces_lossless`).
-/

namespace AttributeShell

namespace Highlight

/-! ### Where a path ends -/

/-- What is shown behind the part of a text that is a path: nothing if the text ends there, a plain
piece if it goes on with something else, and a marked one if it is wrong there. -/
inductive Tail (path : String) (stop : Nat) : List Piece → Prop where
  | whole {parsed : AttributePath} : AttributePath.parse path = .ok parsed →
      parsed.haltedAt = none → Tail path stop []
  | ended {parsed : AttributePath} {rest : String} : AttributePath.parse path = .ok parsed →
      parsed.haltedAt = some stop → rest ≠ "" → Tail path stop [⟨.plain, rest⟩]
  | refused {error : ParseError} {rest : String} : AttributePath.parse path = .error error →
      error.offset? = some stop → rest ≠ "" → Tail path stop [⟨wrong, rest⟩]

/-- The part of a text that is a path, and what is shown behind it. -/
structure Cut (path valid : String) (tail : List Piece) : Prop where
  isPath : IsPath valid
  stop : (tailOf path).1 = Text.size valid
  text_eq : path.toList = valid.toList ++ written tail
  pieces_eq : ofPath path = marked valid.toList ++ tail
  tail : Tail path (Text.size valid) tail

theorem ofPath_append {valid rest : String} {style : Style}
    (h : tailOf (valid ++ rest) = (Text.size valid, style)) :
    ofPath (valid ++ rest) = marked valid.toList ++ piece style rest.toList := by
  rw [ofPath, h]
  simp only [String.toList_append, Text.size, Text.takeBytes_append, Text.dropBytes_append]
  rfl

theorem exists_cut (path : String) : ∃ valid tail, Cut path valid tail := by
  cases hparse : AttributePath.parse path with
  | ok parsed =>
    cases hhalted : parsed.haltedAt with
    | none =>
      have htail : tailOf (path ++ "") = (Text.size path, .plain) := by
        simp only [String.append_empty, tailOf, hparse, hhalted, Option.getD_none]
      have hpieces := ofPath_append htail
      rw [String.append_empty] at htail hpieces
      exact ⟨path, [], ⟨parsed, hparse, hhalted⟩, congrArg Prod.fst htail, by simp, hpieces,
        .whole hparse hhalted⟩
    | some offset =>
      obtain ⟨before, c, hstands, -, hbefore, -⟩ := AttributePath.exists_ended hparse hhalted
      obtain ⟨rest, hrest, rfl, rfl⟩ := hstands.exists_rest
      have htail : tailOf (before ++ rest) = (Text.size before, .plain) := by
        simp only [tailOf, hparse, hhalted, Option.getD_some]
      have hpieces := ofPath_append htail
      rw [piece_of_ne_nil _ (by simpa using hrest), String.ofList_toList] at hpieces
      exact ⟨before, _, ⟨_, hbefore, rfl⟩, congrArg Prod.fst htail, by simp, hpieces,
        .ended hparse hhalted hrest⟩
  | error error =>
    obtain ⟨offset, before, c, hstands, hrefuses, hpath, -⟩ := AttributePath.exists_refused hparse
    have hinside := hstands.inside
    have hoffset : error.offset? = some offset := by
      obtain rfl | ⟨_, rfl⟩ := hrefuses <;> rfl
    obtain ⟨rest, hrest, rfl, rfl⟩ := hstands.exists_rest
    have htail : tailOf (before ++ rest) = (Text.size before, wrong) := by
      simp only [tailOf, hparse, hoffset, Option.getD_some, Nat.min_eq_left (Nat.le_of_lt hinside)]
    have hpieces := ofPath_append htail
    rw [piece_of_ne_nil _ (by simpa using hrest), String.ofList_toList] at hpieces
    exact ⟨before, _, hpath, congrArg Prod.fst htail, by simp, hpieces,
      .refused hparse hoffset hrest⟩

/-! ### What the last piece says -/

/-- One piece is in that style, the last, and it starts at that position; or none is, if there is no
such position. -/
def OnlyLast (shown : List Piece) (style : Style) : Option Nat → Prop
  | none => ∀ other ∈ shown, other.style ≠ style
  | some position => ∃ others last, shown = others ++ [last] ∧ last.style = style ∧
      Text.byteLength (written others) = position ∧ ∀ other ∈ others, other.style ≠ style

/-- A path is shown as what it is. -/
structure ShowsPath (path : String) (shown : List Piece) : Prop where
  /-- A path that is wrong at some character is marked from there on. -/
  refused : ∀ error, AttributePath.parse path = .error error →
    OnlyLast shown .plain none ∧
      ∃ position, error.offset? = some position ∧ OnlyLast shown wrong (some position)
  /-- Otherwise nothing is marked, and what follows the end of the path is plain. -/
  accepted : ∀ parsed, AttributePath.parse path = .ok parsed →
    OnlyLast shown wrong none ∧ OnlyLast shown .plain parsed.haltedAt
  marks : ∀ other ∈ shown, other.style ≠ wrong → other.style ≠ .plain → IsMark other
  neighbours : shown.IsChain fun first second => first.style ≠ second.style

theorem IsMark.style_ne {shown : Piece} (h : IsMark shown) :
    shown.style ≠ wrong ∧ shown.style ≠ .plain ∧ shown.style.bold = false := by
  have hall : ∀ style ∈ [Token.name.style, Token.separator.style, Token.index.style],
      style ≠ wrong ∧ style ≠ .plain ∧ style.bold = false := by
    decide
  exact hall _ h.style

theorem plain_ne_wrong : Style.plain ≠ wrong := by decide

section Tails

variable {path : String} {marks tail : List Piece} {last : Piece} {style : Style}

theorem onlyLast_append_none (hmarks : ∀ other ∈ marks, other.style ≠ style)
    (hlast : last.style ≠ style) : OnlyLast (marks ++ [last]) style none :=
  List.forall_mem_append.2 ⟨hmarks, List.forall_mem_singleton.2 hlast⟩

theorem isChain_append_last
    (hchain : marks.IsChain fun first second => first.style ≠ second.style)
    (hlast : ∀ other ∈ marks, other.style ≠ last.style) :
    (marks ++ [last]).IsChain fun first second => first.style ≠ second.style := by
  refine List.isChain_append.2 ⟨hchain, .singleton last, ?_⟩
  intro first hfirst second hsecond
  obtain rfl : last = second := Option.some.inj hsecond
  exact hlast first (List.mem_of_getLast? hfirst)

theorem marks_append_last (hmarks : ∀ other ∈ marks, IsMark other)
    (hlast : last.style = wrong ∨ last.style = .plain) :
    ∀ other ∈ marks ++ [last], other.style ≠ wrong → other.style ≠ .plain → IsMark other := by
  refine List.forall_mem_append.2 ⟨fun other h _ _ => hmarks other h, ?_⟩
  refine List.forall_mem_singleton.2 fun hwrong hplain => ?_
  exact absurd hlast (not_or.2 ⟨hwrong, hplain⟩)

/-- What is shown behind the pieces of a path says what becomes of the path. -/
theorem showsPath_append (hmarks : ∀ other ∈ marks, IsMark other)
    (hchain : marks.IsChain fun first second => first.style ≠ second.style)
    (htail : Tail path (Text.byteLength (written marks)) tail) :
    ShowsPath path (marks ++ tail) := by
  have hwrong : ∀ other ∈ marks, other.style ≠ wrong := fun other h => (hmarks other h).style_ne.1
  have hplain : ∀ other ∈ marks, other.style ≠ .plain :=
    fun other h => (hmarks other h).style_ne.2.1
  cases htail with
  | whole hparse hhalted =>
    rw [List.append_nil]
    refine ⟨fun error herror => ?_, fun parsed hok => ?_, fun other h _ _ => hmarks other h, hchain⟩
    · rw [hparse] at herror
      cases herror
    · obtain rfl := Except.ok.inj (hparse.symm.trans hok)
      rw [hhalted]
      exact ⟨hwrong, hplain⟩
  | ended hparse hhalted _ =>
    refine ⟨fun error herror => ?_, fun parsed hok => ?_, marks_append_last hmarks (.inr rfl),
      isChain_append_last hchain hplain⟩
    · rw [hparse] at herror
      cases herror
    · obtain rfl := Except.ok.inj (hparse.symm.trans hok)
      rw [hhalted]
      exact ⟨onlyLast_append_none hwrong plain_ne_wrong, marks, _, rfl, rfl, rfl, hplain⟩
  | refused hparse hoffset _ =>
    refine ⟨fun error herror => ?_, fun parsed hok => ?_, marks_append_last hmarks (.inl rfl),
      isChain_append_last hchain hwrong⟩
    · obtain rfl := Except.error.inj (hparse.symm.trans herror)
      exact ⟨onlyLast_append_none hplain plain_ne_wrong.symm, _, hoffset, marks, _, rfl, rfl, rfl,
        hwrong⟩
    · rw [hparse] at hok
      cases hok

end Tails

/-! ### Lines -/

theorem pieces_eq (text : String) :
    pieces true text = piece .plain (Text.takeBlank text.toList) ++
      if Command.isShellCommand (Text.trim text) then ofCommand (Text.dropBlank text.toList)
      else ofPath (String.ofList (Text.dropBlank text.toList)) := rfl

theorem text_ne_of_mem_ofPath {path : String} {shown : Piece} (h : shown ∈ ofPath path) :
    shown.text ≠ "" ∧ shown.style.bold = false := by
  obtain ⟨valid, tail, hcut⟩ := exists_cut path
  rw [hcut.pieces_eq] at h
  obtain hmark | htail := List.mem_append.1 h
  · have hmark := isMark_of_mem_marked (hcut.isPath.isPathCharacter) hmark
    exact ⟨hmark.text_ne, hmark.style_ne.2.2⟩
  · cases hcut.tail with
    | whole => cases htail
    | ended _ _ hrest | refused _ _ hrest =>
      obtain rfl := List.mem_singleton.1 htail
      exact ⟨hrest, rfl⟩

/-- The style of a word of the shell. -/
def keyword : Style := { foreground := some .blue, bold := true }

/-- A line that is a command of the shell starts with a word. -/
theorem firstWord_ne_nil {text : String} (h : Command.isShellCommand (Text.trim text)) :
    Text.firstWord (Text.dropBlank text.toList) ≠ [] := by
  cases hbody : Text.dropBlank text.toList with
  | nil =>
    have hempty : Text.trim text = "" := by
      rw [Text.trim, Text.trimmed, hbody]
      rfl
    rw [hempty] at h
    cases h
  | cons c rest =>
    simp [Text.firstWord, Text.isBlank_of_dropBlank hbody]

theorem text_ne_of_mem_ofCommand {text : String} (h : Command.isShellCommand (Text.trim text))
    {shown : Piece} (hshown : shown ∈ ofCommand (Text.dropBlank text.toList)) :
    shown.text ≠ "" := by
  obtain rfl | hrest := List.mem_cons.1 hshown
  · simpa using firstWord_ne_nil h
  · exact text_ne_of_mem_piece hrest

theorem written_ofCommand (line : List Char) : written (ofCommand line) = line := by
  simp [ofCommand]

theorem written_ofPath (path : String) : written (ofPath path) = path.toList := by
  obtain ⟨valid, tail, hcut⟩ := exists_cut path
  rw [hcut.pieces_eq, hcut.text_eq, written_append, written_marked]

theorem showsPath_ofPath (path : String) : ShowsPath path (ofPath path) := by
  obtain ⟨valid, tail, hcut⟩ := exists_cut path
  have hmarks := hcut.isPath.isPathCharacter
  rw [hcut.pieces_eq]
  apply showsPath_append (fun other h => isMark_of_mem_marked hmarks h) (isChain_marked _)
  rw [written_marked]
  exact hcut.tail

/-- The pieces of a line are the line, and none of them is empty. Behind the white space in front
comes a word in the style of keywords exactly if the line is taken as one of the shell's own
commands; any other line is shown as a path, marked from the character on that is wrong, or plain
from where the path has ended. -/
theorem pieces_lossless (text : String) :
    let body := Text.dropBlank text.toList
    ∃ shown, pieces true text = piece .plain (Text.takeBlank text.toList) ++ shown ∧
      (written (pieces true text) = text.toList ∧ written shown = body ∧
        ∀ other ∈ pieces true text, other.text ≠ "") ∧
      (shown.head? = some ⟨keyword, String.ofList (Text.firstWord body)⟩ ↔
        Command.isOwn (Command.parse text)) ∧
      (Command.isOwn (Command.parse text) = false → ShowsPath (String.ofList body) shown) := by
  intro body
  rw [Command.isOwn_parse, pieces_eq]
  cases hcommand : Command.isShellCommand (Text.trim text) with
  | true =>
    rw [if_pos rfl]
    refine ⟨ofCommand body, rfl, ⟨?_, written_ofCommand body, ?_⟩, iff_of_true rfl rfl, ?_⟩
    · rw [written_append, written_piece, written_ofCommand, Text.takeBlank_append_dropBlank]
    · exact List.forall_mem_append.2 ⟨fun _ => text_ne_of_mem_piece,
        fun _ => text_ne_of_mem_ofCommand hcommand⟩
    · intro hother
      cases hother
  | false =>
    rw [if_neg Bool.false_ne_true]
    refine ⟨ofPath (String.ofList body), rfl, ⟨?_, ?_, ?_⟩, iff_of_false ?_ Bool.false_ne_true,
      fun _ => showsPath_ofPath _⟩
    · rw [written_append, written_piece, written_ofPath, String.toList_ofList,
        Text.takeBlank_append_dropBlank]
    · rw [written_ofPath, String.toList_ofList]
    · exact List.forall_mem_append.2 ⟨fun _ => text_ne_of_mem_piece,
        fun _ h => (text_ne_of_mem_ofPath h).1⟩
    · -- No piece of a path is bold.
      intro hhead
      have hbold := (text_ne_of_mem_ofPath (List.mem_of_head? hhead)).2
      cases hbold

/-- A path behind white space, with a dot too many. -/
theorem pieces_lossless_index :
    let shown : List Piece := [⟨Token.name.style, "é"⟩, ⟨Token.separator.style, "["⟩,
      ⟨Token.index.style, "12"⟩, ⟨Token.separator.style, "]."⟩, ⟨wrong, ".b "⟩]
    pieces true " é[12]..b " = ⟨.plain, " "⟩ :: shown ∧
      Command.isOwn (Command.parse " é[12]..b ") = false ∧
      AttributePath.parse "é[12]..b " = .error (.missingName '.' 7) ∧
      ShowsPath "é[12]..b " shown := by
  intro shown
  have hpieces : pieces true " é[12]..b " = ⟨.plain, " "⟩ :: shown := by decide +kernel
  have hother : Command.isOwn (Command.parse " é[12]..b ") = false := by decide +kernel
  obtain ⟨found, hfound, -, -, hshows⟩ := pieces_lossless " é[12]..b "
  obtain rfl : shown = found := (List.cons.inj (hpieces.symm.trans hfound)).2
  exact ⟨hpieces, hother, rfl, hshows hother⟩

end Highlight

end AttributeShell
