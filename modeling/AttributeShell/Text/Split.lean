/-!
Cutting a text at a separating character, once or everywhere.
-/

namespace AttributeShell.Text

/-- The pieces between the separators, empty ones included. -/
def pieces (separator : Char) : List Char → List (List Char)
  | [] => [[]]
  | c :: cs =>
    if c = separator then [] :: pieces separator cs
    else
      match pieces separator cs with
      | [] => [[c]]
      | first :: rest => (c :: first) :: rest

def parts (separator : Char) (cs : List Char) : List (List Char) :=
  (pieces separator cs).filter (!·.isEmpty)

/-- The characters before the first separator and those after it, if there is one. -/
def splitOnce (separator : Char) : List Char → Option (List Char × List Char)
  | [] => none
  | c :: cs =>
    if c = separator then some ([], cs)
    else (splitOnce separator cs).map fun (before, after) => (c :: before, after)

/-- The characters after a given beginning. -/
def dropStart : List Char → List Char → Option (List Char)
  | [], cs => some cs
  | _ :: _, [] => none
  | b :: beginning, c :: cs => if b = c then dropStart beginning cs else none

def startsWith (text beginning : String) : Bool :=
  (dropStart beginning.toList text.toList).isSome

theorem dropStart_eq_some_iff {beginning cs rest : List Char} :
    dropStart beginning cs = some rest ↔ cs = beginning ++ rest := by
  induction beginning generalizing cs with
  | nil => simp [dropStart]
  | cons b beginning ih =>
    cases cs with
    | nil => simp [dropStart]
    | cons c cs =>
      by_cases h : b = c
      · simp [dropStart, h, ih]
      · simp [dropStart, h, Ne.symm h]

theorem startsWith_iff {text beginning : String} :
    startsWith text beginning ↔ beginning.toList <+: text.toList := by
  simp only [startsWith, Option.isSome_iff_exists, dropStart_eq_some_iff]
  exact exists_congr fun rest => eq_comm

@[simp] theorem startsWith_empty (text : String) : startsWith text "" := by
  simp [startsWith_iff]

theorem splitOnce_eq_some {separator : Char} {cs before after : List Char}
    (h : splitOnce separator cs = some (before, after)) :
    cs = before ++ separator :: after ∧ separator ∉ before := by
  induction cs generalizing before with
  | nil => simp [splitOnce] at h
  | cons c cs ih =>
    by_cases hc : c = separator
    · simp only [splitOnce, hc, if_true, Option.some.injEq, Prod.mk.injEq] at h
      simp [← h.1, ← h.2, hc]
    · simp only [splitOnce, hc, if_false, Option.map_eq_some_iff, Prod.exists] at h
      obtain ⟨before', after', hcut, heq⟩ := h
      simp only [Prod.mk.injEq] at heq
      obtain ⟨rfl, rfl⟩ := heq
      obtain ⟨hcs, hmem⟩ := ih hcut
      exact ⟨by simp [hcs], by simp [Ne.symm hc, hmem]⟩

/-- A text is cut once where the separator stands behind characters that are none. -/
theorem splitOnce_append {separator : Char} {before : List Char} (h : separator ∉ before)
    (after : List Char) :
    splitOnce separator (before ++ separator :: after) = some (before, after) := by
  induction before with
  | nil => simp [splitOnce]
  | cons c cs ih =>
    obtain ⟨hc, hcs⟩ := List.ne_and_not_mem_of_not_mem_cons h
    simp [splitOnce, Ne.symm hc, ih hcs]

theorem pieces_ne_nil (separator : Char) (cs : List Char) : pieces separator cs ≠ [] := by
  cases cs with
  | nil => simp [pieces]
  | cons c cs =>
    rw [pieces]
    split
    · simp
    · split <;> simp

/-- The pieces of two texts that a separator joins are those of the one and those of the other. -/
theorem pieces_append (separator : Char) (xs ys : List Char) :
    pieces separator (xs ++ separator :: ys) = pieces separator xs ++ pieces separator ys := by
  induction xs with
  | nil => simp [pieces]
  | cons c cs ih =>
    by_cases hc : c = separator
    · simp [pieces, hc, ih]
    · obtain ⟨first, rest, hpieces⟩ := List.exists_cons_of_ne_nil (pieces_ne_nil separator cs)
      simp [pieces, hc, ih, hpieces]

theorem pieces_of_notMem {separator : Char} {cs : List Char} (h : separator ∉ cs) :
    pieces separator cs = [cs] := by
  induction cs with
  | nil => rfl
  | cons c cs ih =>
    obtain ⟨hc, hcs⟩ := List.ne_and_not_mem_of_not_mem_cons h
    simp [pieces, Ne.symm hc, ih hcs]

theorem notMem_of_mem_pieces {separator : Char} {cs piece : List Char}
    (h : piece ∈ pieces separator cs) : separator ∉ piece := by
  induction cs generalizing piece with
  | nil =>
    obtain rfl := List.mem_singleton.1 h
    exact List.not_mem_nil
  | cons c cs ih =>
    obtain ⟨first, rest, hpieces⟩ := List.exists_cons_of_ne_nil (pieces_ne_nil separator cs)
    rw [hpieces] at ih
    by_cases hc : c = separator
    · rw [pieces, if_pos hc, hpieces, List.mem_cons] at h
      obtain rfl | hmem := h
      · exact List.not_mem_nil
      · exact ih hmem
    · rw [pieces, if_neg hc, hpieces, List.mem_cons] at h
      obtain rfl | hmem := h
      · exact List.not_mem_cons_of_ne_of_not_mem (Ne.symm hc) (ih List.mem_cons_self)
      · exact ih (List.mem_cons_of_mem first hmem)

theorem parts_append (separator : Char) (xs ys : List Char) :
    parts separator (xs ++ separator :: ys) = parts separator xs ++ parts separator ys := by
  simp [parts, pieces_append]

@[simp] theorem parts_cons_separator (separator : Char) (cs : List Char) :
    parts separator (separator :: cs) = parts separator cs :=
  parts_append separator [] cs

theorem parts_of_notMem {separator : Char} {cs : List Char} (h : separator ∉ cs) (hne : cs ≠ []) :
    parts separator cs = [cs] := by
  simp [parts, pieces_of_notMem h, hne]

theorem notMem_of_mem_parts {separator : Char} {cs part : List Char}
    (h : part ∈ parts separator cs) : separator ∉ part :=
  notMem_of_mem_pieces (List.mem_filter.1 h).1

end AttributeShell.Text
