/-!
White space, and the pieces of a text that it separates: the text without its white space at either
end, and its first word with what follows. Everything is stated on lists of characters; the forms
on strings are wrappers.
-/

namespace AttributeShell.Text

/-- The characters of the Unicode property White_Space. -/
def isBlank (c : Char) : Bool :=
  let n := c.toNat
  (9 ≤ n && n ≤ 13) || n == 0x20 || n == 0x85 || n == 0xA0 || n == 0x1680
    || (0x2000 ≤ n && n ≤ 0x200A) || n == 0x2028 || n == 0x2029 || n == 0x202F || n == 0x205F
    || n == 0x3000

def dropBlank (cs : List Char) : List Char := cs.dropWhile isBlank

def takeBlank (cs : List Char) : List Char := cs.takeWhile isBlank

def dropBlankEnd (cs : List Char) : List Char := (cs.reverse.dropWhile isBlank).reverse

def firstWord (cs : List Char) : List Char := cs.takeWhile (!isBlank ·)

def afterFirstWord (cs : List Char) : List Char := cs.dropWhile (!isBlank ·)

/-- The characters without the white space at either end. -/
def trimmed (cs : List Char) : List Char := dropBlankEnd (dropBlank cs)

def trim (text : String) : String := String.ofList (trimmed text.toList)

@[simp] theorem takeBlank_append_dropBlank (cs : List Char) : takeBlank cs ++ dropBlank cs = cs :=
  List.takeWhile_append_dropWhile

@[simp] theorem firstWord_append_afterFirstWord (cs : List Char) :
    firstWord cs ++ afterFirstWord cs = cs :=
  List.takeWhile_append_dropWhile

@[simp] theorem toList_trim (text : String) : (trim text).toList = trimmed text.toList := by
  simp [trim]

/-- A text without white space is left as it is. -/
theorem trim_eq_self {text : String} (h : ∀ c ∈ text.toList, isBlank c = false) :
    trim text = text := by
  have hdrop (cs : List Char) (hcs : ∀ c ∈ cs, isBlank c = false) :
      cs.dropWhile isBlank = cs := by
    cases cs with
    | nil => rfl
    | cons c cs => simp [hcs c List.mem_cons_self]
  have hreverse : ∀ c ∈ text.toList.reverse, isBlank c = false := by simpa using h
  rw [trim, trimmed, dropBlank, hdrop _ h, dropBlankEnd, hdrop _ hreverse, List.reverse_reverse,
    String.ofList_toList]

theorem dropBlank_cons {c : Char} (hc : isBlank c = false) (cs : List Char) :
    dropBlank (c :: cs) = c :: cs := by
  simp [dropBlank, hc]

/-- White space at the end is dropped from behind the last character that is none. -/
theorem dropBlankEnd_append {c : Char} (hc : isBlank c = false) (xs ys : List Char) :
    dropBlankEnd (xs ++ c :: ys) = xs ++ c :: dropBlankEnd ys := by
  have hreverse : (xs ++ c :: ys).reverse = ys.reverse ++ c :: xs.reverse := by simp
  rw [dropBlankEnd, hreverse, List.dropWhile_append, dropBlankEnd]
  split
  · rename_i hall
    simp [List.isEmpty_iff.1 hall, hc]
  · simp

theorem dropBlank_eq_self_iff {cs : List Char} :
    dropBlank cs = cs ↔ cs.head?.any isBlank = false := by
  cases cs with
  | nil => simp [dropBlank]
  | cons c cs =>
    cases hc : isBlank c with
    | false => simp [dropBlank, hc]
    | true =>
      have hshort : (dropBlank cs).length ≤ cs.length :=
        (List.dropWhile_sublist isBlank).length_le
      have hne : dropBlank cs ≠ c :: cs := by
        intro h
        rw [h, List.length_cons] at hshort
        omega
      simpa [dropBlank, hc] using hne

theorem dropBlankEnd_eq_self_iff {cs : List Char} :
    dropBlankEnd cs = cs ↔ cs.getLast?.any isBlank = false := by
  rw [dropBlankEnd, List.reverse_eq_iff, ← List.head?_reverse]
  exact dropBlank_eq_self_iff

/-- A text is left as it is exactly if white space stands at neither end. -/
theorem trimmed_eq_self_iff {cs : List Char} :
    trimmed cs = cs ↔ cs.head?.any isBlank = false ∧ cs.getLast?.any isBlank = false := by
  rw [← dropBlank_eq_self_iff, ← dropBlankEnd_eq_self_iff]
  constructor
  · intro h
    have hsuffix : dropBlank cs <:+ cs := List.dropWhile_suffix isBlank
    have hshort : (trimmed cs).length ≤ (dropBlank cs).length := by
      simpa [trimmed, dropBlankEnd] using
        (List.dropWhile_sublist isBlank (l := (dropBlank cs).reverse)).length_le
    have hstart : dropBlank cs = cs :=
      hsuffix.eq_of_length_le (by rwa [h] at hshort)
    exact ⟨hstart, by rwa [trimmed, hstart] at h⟩
  · rintro ⟨hstart, hend⟩
    rw [trimmed, hstart, hend]

theorem trim_eq_self_iff {text : String} :
    trim text = text ↔ trimmed text.toList = text.toList := by
  rw [← String.toList_inj, toList_trim]

/-- What is left when white space is dropped from the front does not start with it. -/
theorem head?_dropWhile_isBlank (cs : List Char) :
    (cs.dropWhile isBlank).head?.any isBlank = false := by
  have hhead := List.head?_dropWhile_not isBlank cs
  cases h : (cs.dropWhile isBlank).head? with
  | none => rfl
  | some c =>
    rw [h] at hhead
    exact hhead

theorem isBlank_of_dropBlank {c : Char} {cs rest : List Char} (h : dropBlank cs = c :: rest) :
    isBlank c = false := by
  have hhead := head?_dropWhile_isBlank cs
  rwa [show cs.dropWhile isBlank = c :: rest from h] at hhead

/-- White space is dropped once and for all. -/
@[simp] theorem trimmed_trimmed (cs : List Char) : trimmed (trimmed cs) = trimmed cs := by
  rw [trimmed_eq_self_iff]
  constructor
  · cases hstart : dropBlank cs with
    | nil =>
      rw [trimmed, hstart]
      rfl
    | cons c rest =>
      have hc := isBlank_of_dropBlank hstart
      have htrimmed : trimmed cs = c :: dropBlankEnd rest := by
        rw [trimmed, hstart]
        exact dropBlankEnd_append hc [] rest
      rw [htrimmed]
      exact hc
  · rw [trimmed, dropBlankEnd, List.getLast?_reverse]
    exact head?_dropWhile_isBlank _

@[simp] theorem trim_trim (text : String) : trim (trim text) = trim text := by
  rw [trim_eq_self_iff, toList_trim, trimmed_trimmed]

/-- Two texts without white space around them, joined by a character that is none. -/
theorem trimmed_append_cons {c : Char} (hc : isBlank c = false) {xs ys : List Char}
    (hxs : trimmed xs = xs) (hys : trimmed ys = ys) :
    trimmed (xs ++ c :: ys) = xs ++ c :: ys := by
  rw [trimmed_eq_self_iff] at hxs hys ⊢
  obtain ⟨hstart, -⟩ := hxs
  obtain ⟨-, hend⟩ := hys
  constructor
  · cases xs with
    | nil => simpa using hc
    | cons x xs => exact hstart
  · rw [List.getLast?_append]
    cases hlast : ys.getLast? with
    | none => simp [List.getLast?_cons, hlast, hc]
    | some last => simpa [List.getLast?_cons, hlast] using hend

/-- White space around a text does not count. -/
theorem trimmed_surrounded {front back : List Char} (hfront : ∀ c ∈ front, isBlank c)
    (hback : ∀ c ∈ back, isBlank c) (cs : List Char) :
    trimmed (front ++ cs ++ back) = trimmed cs := by
  have hstart : dropBlank (front ++ cs ++ back) = dropBlank (cs ++ back) := by
    rw [List.append_assoc]
    exact List.dropWhile_append_of_pos hfront
  have hend (xs : List Char) : dropBlankEnd (xs ++ back) = dropBlankEnd xs := by
    rw [dropBlankEnd, List.reverse_append,
      List.dropWhile_append_of_pos (by simpa using hback), dropBlankEnd]
  rw [trimmed, hstart, dropBlank, List.dropWhile_append]
  split
  · next hnothing =>
    have hblank : dropBlank cs = [] := List.isEmpty_iff.1 hnothing
    have hnone : (back ++ []).dropWhile isBlank = [] := List.dropWhile_append_of_pos hback
    rw [List.append_nil] at hnone
    rw [hnone, trimmed, hblank]
  · exact hend (dropBlank cs)

theorem mem_of_mem_dropBlankEnd {c : Char} {cs : List Char} (h : c ∈ dropBlankEnd cs) : c ∈ cs :=
  List.mem_reverse.1 ((List.dropWhile_subset _) (List.mem_reverse.1 h))

end AttributeShell.Text
