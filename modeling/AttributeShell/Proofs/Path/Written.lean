import AttributeShell.Proofs.Path.Complete

/-!
Paths as they are written: items joined with dots, each of them a name with any number of indices
behind it. A written path is read back as its names, and so is what comes of typing a dot, a
bracket or an index behind it (`readsAs_writePath`).

The items are read one after the other. Behind each of them the names so far are those that a
separator would close, and the state tells whether the item has an index (`EndsItems`).
-/

namespace AttributeShell

/-- The digits of an index; there is at least one. -/
structure PathIndex where
  digits : String
  nonempty : digits ≠ ""
  isDigits : IsDigits digits.toList

/-- A name and the indices behind it. -/
structure PathItem where
  name : String
  isName : IsName name.toList
  indices : List PathIndex

namespace PathIndex

def written (index : PathIndex) : List Char := '[' :: (index.digits.toList ++ [']'])

theorem exists_digits_eq (index : PathIndex) :
    ∃ d ds, index.digits.toList = d :: ds ∧ d.isDigit ∧ IsDigits ds := by
  have hne : index.digits.toList ≠ [] := by simpa using index.nonempty
  obtain ⟨d, ds, hdigits⟩ := List.exists_cons_of_ne_nil hne
  have hall := index.isDigits
  rw [hdigits] at hall
  exact ⟨d, ds, hdigits, List.forall_mem_cons.1 hall⟩

end PathIndex

def PathItem.written (item : PathItem) : List Char :=
  item.name.toList ++ item.indices.flatMap PathIndex.written

/-- The items joined with dots. -/
def writePath (items : List PathItem) : String :=
  String.ofList (['.'].intercalate (items.map PathItem.written))

namespace Reading

variable {reading : Reading}

/-! ### The items are read one after the other -/

/-- Some items have been read, the last of them to its end. -/
structure EndsItems (names : List String) (last : PathItem) (reading : Reading) : Prop where
  names : reading.settle.segments.toList = names
  name : last.indices = [] → reading.mode = some .name ∧ reading.buffer = last.name
  index : last.indices ≠ [] → reading.mode = some .closeBracket

theorem EndsItems.endsItem {names : List String} {last : PathItem}
    (h : reading.EndsItems names last) : reading.EndsItem := by
  by_cases hindices : last.indices = []
  · obtain ⟨hmode, hbuffer⟩ := h.name hindices
    refine .name hmode ?_
    rw [hbuffer]
    simpa using last.isName.1
  · exact .index (h.index hindices)

theorem advance_pathIndex (h : reading.EndsItem) (index : PathIndex) (offset : Nat) :
    ∃ after, reading.advance index.written offset = .going after ∧
      after.mode = some .closeBracket ∧ after.segments = reading.settle.segments := by
  obtain ⟨d, ds, hdigits, hd, hds⟩ := index.exists_digits_eq
  rw [PathIndex.written, hdigits]
  exact advance_index h (.inl hd) hds offset

theorem advance_indices (h : reading.EndsItem) (index : PathIndex) (more : List PathIndex)
    (offset : Nat) :
    ∃ after, reading.advance ((index :: more).flatMap PathIndex.written) offset = .going after ∧
      after.mode = some .closeBracket ∧ after.segments = reading.settle.segments := by
  induction more generalizing reading index offset with
  | nil => simpa using advance_pathIndex h index offset
  | cons second more ih =>
    obtain ⟨read, hread, hmode, hsegments⟩ := advance_pathIndex h index offset
    obtain ⟨after, hmore, hmode', hsegments'⟩ :=
      ih (.index hmode) second (offset + Text.byteLength index.written)
    -- Behind an index there is no name left to close.
    have hsettle : read.settle.segments = read.segments := by simp [settle, hmode, clear]
    refine ⟨after, ?_, hmode', by rw [hsegments', hsettle, hsegments]⟩
    rw [List.flatMap_cons, advance_append, hread, Scanned.going_andThen, hmore]

theorem advance_pathItem (h : reading.BeginsName) (item : PathItem) (offset : Nat) :
    ∃ after, reading.advance item.written offset = .going after ∧
      after.EndsItems (reading.segments.toList ++ [item.name]) item := by
  obtain ⟨c, cs, hname⟩ := List.exists_cons_of_ne_nil item.isName.1
  have hisName := item.isName
  rw [hname] at hisName
  let named : Reading := { reading.enter .name offset c with buffer := item.name }
  have hread : reading.advance item.name.toList offset = .going named := by
    rw [hname, advance_name h hisName, ← hname, String.ofList_toList]
  have hends : named.EndsItem := .name rfl (by simpa using item.isName.1)
  have hsettle : named.settle.segments.toList = reading.segments.toList ++ [item.name] := by
    simp [named, settle, commit, enter]
  rw [PathItem.written, advance_append, hread, Scanned.going_andThen]
  cases hindices : item.indices with
  | nil => exact ⟨named, rfl, hsettle, fun _ => ⟨rfl, rfl⟩, fun hne => absurd hindices hne⟩
  | cons index more =>
    obtain ⟨after, hmore, hmode, hsegments⟩ := advance_indices hends index more
      (offset + Text.byteLength item.name.toList)
    refine ⟨after, hmore, ?_, fun hnil => by simp [hindices] at hnil, fun _ => hmode⟩
    simpa [settle, hmode, clear, hsegments] using hsettle

theorem advance_pathItems (h : reading.BeginsName) (first : PathItem) (rest : List PathItem)
    (offset : Nat) :
    ∃ after, reading.advance (['.'].intercalate ((first :: rest).map PathItem.written)) offset =
        .going after ∧
      after.EndsItems (reading.segments.toList ++ (first :: rest).map PathItem.name)
        ((first :: rest).getLast (List.cons_ne_nil first rest)) := by
  induction rest generalizing reading first offset with
  | nil => simpa using advance_pathItem h first offset
  | cons second rest ih =>
    obtain ⟨read, hread, hends⟩ := advance_pathItem h first offset
    let dotOffset := offset + Text.byteLength first.written
    let dotted := read.settle.enter .dot dotOffset '.'
    have hbegins : dotted.BeginsName := .front (.inr rfl) (buffer_settle read)
    obtain ⟨after, hrest, hlast⟩ := ih hbegins second (dotOffset + '.'.utf8Size)
    refine ⟨after, ?_, ?_⟩
    · rw [List.map_cons, List.map_cons, List.intercalate_cons_cons, ← List.map_cons,
        List.append_assoc, List.singleton_append, advance_append, hread, Scanned.going_andThen,
        advance_separator hends.endsItem (.inl ⟨rfl, rfl⟩), hrest]
    · have hnames : dotted.segments.toList = reading.segments.toList ++ [first.name] := hends.names
      rw [hnames, List.append_assoc] at hlast
      simpa using hlast

end Reading

/-! ### Written paths are read back -/

namespace AttributePath

variable {items : List PathItem}

theorem exists_endsItems (h : items ≠ []) :
    ∃ reading, Reading.advance {} (writePath items).toList 0 = .going reading ∧
      reading.EndsItems (items.map PathItem.name) (items.getLast h) := by
  obtain ⟨first, rest, rfl⟩ := List.exists_cons_of_ne_nil h
  have hfront : Reading.BeginsName {} := .front (.inl rfl) rfl
  simpa [writePath] using Reading.advance_pathItems hfront first rest 0

theorem exists_isComplete_writePath (h : items ≠ []) :
    ∃ path, parse (writePath items) = .ok path ∧ path.IsComplete ∧
      path.names = items.map PathItem.name := by
  obtain ⟨reading, hadvance, hends⟩ := exists_endsItems h
  have hfits := Reading.fits_advance Reading.fits_empty hadvance
  refine ⟨reading.close.toPath, parse_of_advance hadvance,
    (Reading.isComplete_iff hfits).2 hends.endsItem, ?_⟩
  rw [Reading.names_close hends.endsItem, hends.names]

/-- Without an index at its end, a written path ends with its last name. -/
theorem readsAs_writePath_name (h : items ≠ []) (hindices : (items.getLast h).indices = []) :
    ReadsAs (writePath items) (items.map PathItem.name).dropLast (items.getLast h).name .name
      (Text.size (writePath items) - Text.size (items.getLast h).name) := by
  obtain ⟨reading, hadvance, hends⟩ := exists_endsItems h
  obtain ⟨hmode, hbuffer⟩ := hends.name hindices
  have hfits := Reading.fits_advance Reading.fits_empty hadvance
  have hplace : reading.insertionOffset + Text.size (items.getLast h).name =
      Text.size (writePath items) := by
    simpa [Reading.typed, hmode, hbuffer, Text.size] using hfits.place
  have hsegments : (items.map PathItem.name).dropLast = reading.segments.toList := by
    rw [← hends.names]
    simp [Reading.settle, Reading.commit, hmode]
  have hclose : reading.close.buffer = (items.getLast h).name := by
    simp [Reading.close, hmode, hbuffer]
  have hreads := readsAs_of_advance hadvance
  rwa [hclose, hmode, ← hsegments, Nat.eq_sub_of_add_eq hplace] at hreads

/-- With an index at its end, all names of a written path are closed. -/
theorem readsAs_writePath_index (h : items ≠ []) (hindices : (items.getLast h).indices ≠ []) :
    ReadsAs (writePath items) (items.map PathItem.name) "" .closeBracket
      (Text.size (writePath items)) := by
  obtain ⟨reading, hadvance, hends⟩ := exists_endsItems h
  have hmode := hends.index hindices
  have hfits := Reading.fits_advance Reading.fits_empty hadvance
  have hplace : reading.insertionOffset = Text.size (writePath items) := by
    simpa [Reading.typed, hmode, Text.size] using hfits.place
  have hsegments : reading.segments.toList = items.map PathItem.name := by
    rw [← hends.names]
    simp [Reading.settle, Reading.clear, hmode]
  have hclose : reading.close.buffer = "" := by simp [Reading.close, Reading.clear, hmode]
  have hreads := readsAs_of_advance hadvance
  rwa [hclose, hmode, hsegments, hplace] at hreads

/-- An index that is still open behind a complete path. Its digits are no part of the path. -/
theorem readsAs_openIndex {text : String} {path : AttributePath} (h : parse text = .ok path)
    (hcomplete : path.IsComplete) (index : PathIndex) :
    ReadsAs (text ++ "[" ++ index.digits) path.names "" .listIndex (Text.size text + 1) := by
  obtain ⟨reading, hadvance, -, hends, rfl⟩ := exists_endsItem h hcomplete
  obtain ⟨d, ds, hdigits, hd, hds⟩ := index.exists_digits_eq
  let opened := reading.settle.enter .openBracket (Text.size text) '['
  have hopened : opened.mode = some .openBracket := rfl
  obtain ⟨buffer, hread⟩ := Reading.advance_digits hopened (.inl hd) hds (Text.size text + 1)
  have htext : (text ++ "[" ++ index.digits).toList = text.toList ++ '[' :: d :: ds := by
    simp [hdigits]
  have hwhole : Reading.advance {} (text ++ "[" ++ index.digits).toList 0 =
      .going { opened.enter .listIndex (Text.size text + 1) d with buffer := buffer } := by
    rw [htext, Reading.advance_append, hadvance, Scanned.going_andThen, Nat.zero_add,
      Reading.advance_separator hends (.inr ⟨rfl, rfl⟩)]
    exact hread
  have hplace : (opened.enter .listIndex (Text.size text + 1) d).insertionOffset =
      Text.size text + 1 :=
    Reading.insertionOffset_enter (isSeparator_of_isDigit hd)
  obtain ⟨path, hparse, hrunning, hsegments, hfragment, hposition, hoffset⟩ :=
    readsAs_of_advance hwhole
  refine ⟨path, hparse, hrunning, ?_, hfragment, hposition, hoffset.trans hplace⟩
  rw [hsegments, Reading.names_close hends]
  rfl

/-- A written path is read back: its names, with the last of them as the fragment unless an index
stands at the end. A dot, an opening bracket and the digits of an index behind it are read as
such, and close the last name. -/
theorem readsAs_writePath (h : items ≠ []) :
    let text := writePath items
    let names := items.map PathItem.name
    let last := items.getLast h
    (∃ path, parse text = .ok path ∧ path.haltedAt = none ∧ path.names = names) ∧
      (last.indices = [] → ReadsAs text names.dropLast last.name .name
        (Text.size text - Text.size last.name)) ∧
      (last.indices ≠ [] → ReadsAs text names "" .closeBracket (Text.size text)) ∧
      ReadsAs (text ++ ".") names "" .afterDot (Text.size text + 1) ∧
      ReadsAs (text ++ "[") names "" .openBracket (Text.size text + 1) ∧
      ∀ index : PathIndex,
        ReadsAs (text ++ "[" ++ index.digits) names "" .listIndex (Text.size text + 1) := by
  intro text names last
  obtain ⟨path, hparse, hcomplete, hnames⟩ := exists_isComplete_writePath h
  have hdot : ReadsAs (text ++ ".") path.names "" .afterDot (Text.size text + 1) :=
    readsAs_separator hparse hcomplete (.inl ⟨rfl, rfl⟩) rfl
  have hopen : ReadsAs (text ++ "[") path.names "" .openBracket (Text.size text + 1) :=
    readsAs_separator hparse hcomplete (.inr ⟨rfl, rfl⟩) rfl
  have hindex := readsAs_openIndex hparse hcomplete
  rw [hnames] at hdot hopen hindex
  exact ⟨⟨path, hparse, hcomplete.running, hnames⟩, readsAs_writePath_name h,
    readsAs_writePath_index h, hdot, hopen, hindex⟩

/-- Two indices behind the first name and one behind the last, which takes three bytes for its two
characters. -/
theorem readsAs_writePath_indices :
    ∃ (items : List PathItem) (h : items ≠ []),
      writePath items = "a[0][12].é1[7]" ∧ (items.getLast h).indices ≠ [] ∧
      ReadsAs "a[0][12].é1[7]" ["a", "é1"] "" .closeBracket 15 ∧
      ReadsAs "a[0][12].é1[7]." ["a", "é1"] "" .afterDot 16 ∧
      ReadsAs "a[0][12].é1[7][12" ["a", "é1"] "" .listIndex 16 := by
  let digit (c : Char) (hc : c.isDigit) : PathIndex :=
    ⟨String.ofList [c], by simp, by simpa [IsDigits] using hc⟩
  let twelve : PathIndex := ⟨"12", by decide, by simp [IsDigits]⟩
  let first : PathItem := ⟨"a", ⟨by simp, by simp; decide⟩, [digit '0' rfl, twelve]⟩
  let last : PathItem := ⟨"é1", ⟨by simp, by simp; decide⟩, [digit '7' rfl]⟩
  have htext : writePath [first, last] = "a[0][12].é1[7]" := by decide
  have hsize : Text.size "a[0][12].é1[7]" = 15 := by decide
  have hindices : last.indices ≠ [] := List.cons_ne_nil _ _
  obtain ⟨-, -, hindex, hdot, -, hopen⟩ := readsAs_writePath (List.cons_ne_nil first [last])
  rw [htext, hsize] at hdot
  have hclosed := hindex hindices
  have hopened := hopen twelve
  rw [htext, hsize] at hclosed hopened
  have hdotted : "a[0][12].é1[7]" ++ "." = "a[0][12].é1[7]." := by decide
  have hbracket : "a[0][12].é1[7]" ++ "[" ++ twelve.digits = "a[0][12].é1[7][12" := by decide
  rw [hdotted] at hdot
  rw [hbracket] at hopened
  exact ⟨[first, last], List.cons_ne_nil first [last], htext, hindices, hclosed, hdot, hopened⟩

end AttributePath

end AttributeShell
