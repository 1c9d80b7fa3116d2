/-!
Positions in a text are counted in bytes of its UTF-8 form. A position that falls inside a
character, or past the end, is no boundary and cuts nothing.
-/

namespace AttributeShell.Text

/-- The number of bytes of the UTF-8 form. -/
def byteLength : List Char → Nat
  | [] => 0
  | c :: cs => c.utf8Size + byteLength cs

/-- The characters before a byte position, if it is a boundary. -/
def takeBytes : List Char → Nat → Option (List Char)
  | _, 0 => some []
  | [], _ + 1 => none
  | c :: cs, n + 1 =>
    if c.utf8Size ≤ n + 1 then (takeBytes cs (n + 1 - c.utf8Size)).map (c :: ·) else none

/-- The characters from a byte position on, if it is a boundary. -/
def dropBytes : List Char → Nat → Option (List Char)
  | cs, 0 => some cs
  | [], _ + 1 => none
  | c :: cs, n + 1 => if c.utf8Size ≤ n + 1 then dropBytes cs (n + 1 - c.utf8Size) else none

/-- The part of a text before a byte position, if it is a boundary. -/
def before? (text : String) (position : Nat) : Option String :=
  (takeBytes text.toList position).map String.ofList

/-- The part of a text from a byte position on, if it is a boundary. -/
def from? (text : String) (position : Nat) : Option String :=
  (dropBytes text.toList position).map String.ofList

/-- The part of a text between two byte positions, if both are boundaries and the first does not lie
behind the second. -/
def between? (text : String) (start stop : Nat) : Option String :=
  (before? text stop).bind (from? · start)

/-- The text can be cut at that position. -/
def IsBoundary (text : String) (position : Nat) : Prop :=
  ∃ start rest, before? text position = some start ∧ from? text position = some rest

def size (text : String) : Nat := byteLength text.toList

@[simp] theorem byteLength_nil : byteLength [] = 0 := rfl

@[simp] theorem byteLength_cons (c : Char) (cs : List Char) :
    byteLength (c :: cs) = c.utf8Size + byteLength cs := rfl

@[simp] theorem byteLength_append (xs ys : List Char) :
    byteLength (xs ++ ys) = byteLength xs + byteLength ys := by
  induction xs with
  | nil => simp
  | cons c cs ih => simp [ih, Nat.add_assoc]

@[simp] theorem size_empty : size "" = 0 := rfl

@[simp] theorem size_append (s t : String) : size (s ++ t) = size s + size t := by
  simp [size]

@[simp] theorem size_push (s : String) (c : Char) : size (s.push c) = size s + c.utf8Size := by
  simp [size]

@[simp] theorem takeBytes_zero (cs : List Char) : takeBytes cs 0 = some [] := by
  cases cs <;> rfl

@[simp] theorem dropBytes_zero (cs : List Char) : dropBytes cs 0 = some cs := by
  cases cs <;> rfl

/-- The end of the first part is a boundary, and cuts the whole there. -/
theorem takeBytes_append (xs ys : List Char) : takeBytes (xs ++ ys) (byteLength xs) = some xs := by
  induction xs with
  | nil => simp
  | cons c cs ih =>
    have hc := Char.utf8Size_pos c
    obtain ⟨n, hn⟩ : ∃ n, c.utf8Size + byteLength cs = n + 1 :=
      ⟨c.utf8Size + byteLength cs - 1, by omega⟩
    have hle : c.utf8Size ≤ n + 1 := by omega
    have hrest : n + 1 - c.utf8Size = byteLength cs := by omega
    simp [hn, takeBytes, hle, hrest, ih]

@[simp] theorem before?_append (s t : String) : before? (s ++ t) (size s) = some s := by
  simp [before?, size, takeBytes_append]

@[simp] theorem before?_size (text : String) : before? text (size text) = some text := by
  simpa using before?_append text ""

/-- The end of the first part is a boundary, and leaves the second part. -/
theorem dropBytes_append (xs ys : List Char) : dropBytes (xs ++ ys) (byteLength xs) = some ys := by
  induction xs with
  | nil => simp
  | cons c cs ih =>
    have hc := Char.utf8Size_pos c
    obtain ⟨n, hn⟩ : ∃ n, c.utf8Size + byteLength cs = n + 1 :=
      ⟨c.utf8Size + byteLength cs - 1, by omega⟩
    have hle : c.utf8Size ≤ n + 1 := by omega
    have hrest : n + 1 - c.utf8Size = byteLength cs := by omega
    simp [hn, dropBytes, hle, hrest, ih]

@[simp] theorem from?_append (s t : String) : from? (s ++ t) (size s) = some t := by
  simp [from?, size, dropBytes_append]

@[simp] theorem from?_size (text : String) : from? text (size text) = some "" := by
  simpa using from?_append text ""

/-- A character that stands before the end of a beginning belongs to the beginning. -/
theorem exists_eq_append_of_byteLength_lt {before rest first behind : List Char} {c : Char}
    (h : before ++ c :: rest = first ++ behind)
    (hlt : byteLength before < byteLength first) :
    ∃ more, first = before ++ c :: more := by
  obtain ⟨cut, rfl, hcut⟩ | ⟨cut, rfl, -⟩ := List.append_eq_append_iff.1 h
  · cases cut with
    | nil =>
      rw [List.append_nil] at hlt
      exact absurd hlt (Nat.lt_irrefl _)
    | cons x more =>
      obtain ⟨rfl, -⟩ := List.cons.inj hcut
      exact ⟨more, rfl⟩
  · rw [byteLength_append] at hlt
    omega

/-- A cut gives back the text: the part before it, of that many bytes, and the part after it. -/
theorem eq_append_of_takeBytes {cs xs : List Char} {n : Nat} (h : takeBytes cs n = some xs) :
    byteLength xs = n ∧ ∃ ys, dropBytes cs n = some ys ∧ cs = xs ++ ys := by
  induction cs generalizing n xs with
  | nil => cases n <;> simp_all [takeBytes]
  | cons c cs ih =>
    cases n with
    | zero => simp_all
    | succ n =>
      by_cases hle : c.utf8Size ≤ n + 1
      · simp only [takeBytes, hle, if_true, Option.map_eq_some_iff] at h
        obtain ⟨rest, hrest, rfl⟩ := h
        obtain ⟨hlen, ys, hys, hcs⟩ := ih hrest
        exact ⟨by simp [hlen]; omega, ys, by simp [dropBytes, hle, hys], by simp [← hcs]⟩
      · simp [takeBytes, hle] at h

theorem eq_append_of_before? {text start : String} {position : Nat}
    (h : before? text position = some start) :
    size start = position ∧ ∃ rest, text = start ++ rest := by
  obtain ⟨cs, hcs, rfl⟩ := Option.map_eq_some_iff.1 h
  obtain ⟨hsize, rest, -, htext⟩ := eq_append_of_takeBytes hcs
  exact ⟨by simpa [size] using hsize, String.ofList rest, by simp [← String.toList_inj, htext]⟩

theorem isBoundary_append (s t : String) : IsBoundary (s ++ t) (size s) :=
  ⟨s, t, before?_append s t, from?_append s t⟩

theorem isBoundary_of_before? {text start : String} {position : Nat}
    (h : before? text position = some start) : IsBoundary text position := by
  obtain ⟨rfl, rest, rfl⟩ := eq_append_of_before? h
  exact isBoundary_append start rest

/-- What stands from a boundary on, and what stands before it. -/
theorem eq_append_of_dropBytes {cs ys : List Char} {n : Nat} (h : dropBytes cs n = some ys) :
    ∃ xs, cs = xs ++ ys ∧ byteLength xs = n := by
  induction cs generalizing n with
  | nil => cases n <;> simp_all [dropBytes]
  | cons c cs ih =>
    cases n with
    | zero => simp_all
    | succ n =>
      rw [dropBytes] at h
      split at h
      · next hle =>
        obtain ⟨xs, rfl, hlen⟩ := ih h
        exact ⟨c :: xs, rfl, by rw [byteLength_cons, hlen]; omega⟩
      · cases h

theorem eq_append_of_from? {text rest : String} {position : Nat}
    (h : from? text position = some rest) :
    ∃ start, text = start ++ rest ∧ size start = position := by
  obtain ⟨cs, hcs, rfl⟩ := Option.map_eq_some_iff.1 h
  obtain ⟨xs, htext, hlen⟩ := eq_append_of_dropBytes hcs
  exact ⟨String.ofList xs, by simp [← String.toList_inj, htext], by simpa [size] using hlen⟩

@[simp] theorem between?_size (text : String) (start : Nat) :
    between? text start (size text) = from? text start := by
  rw [between?, before?_size, Option.bind_some]

/-- A beginning of a text is cut as the text itself. -/
theorem between?_of_before? {text start : String} {position : Nat}
    (h : before? text position = some start) (first : Nat) :
    between? text first position = from? start first := by
  rw [between?, h, Option.bind_some]

theorem between?_eq_some_iff {text middle : String} {start stop : Nat} :
    between? text start stop = some middle ↔
      ∃ before after, text = before ++ middle ++ after ∧ size before = start ∧
        size (before ++ middle) = stop := by
  constructor
  · intro h
    obtain ⟨upto, hupto, hmiddle⟩ := Option.bind_eq_some_iff.1 h
    obtain ⟨hstop, after, rfl⟩ := eq_append_of_before? hupto
    obtain ⟨before, rfl, hstart⟩ := eq_append_of_from? hmiddle
    exact ⟨before, after, rfl, hstart, hstop⟩
  · rintro ⟨before, after, rfl, rfl, rfl⟩
    rw [between?_of_before? (before?_append (before ++ middle) after), from?_append]

/-- A part of a text starts and stops at boundaries. -/
theorem isBoundary_of_between? {text middle : String} {start stop : Nat}
    (h : between? text start stop = some middle) :
    start ≤ stop ∧ IsBoundary text start ∧ IsBoundary text stop := by
  obtain ⟨before, after, rfl, rfl, rfl⟩ := between?_eq_some_iff.1 h
  refine ⟨by simp, ?_, isBoundary_append (before ++ middle) after⟩
  rw [String.append_assoc]
  exact isBoundary_append before (middle ++ after)

/-- Where a beginning of a text can be cut, the text can be cut alike. -/
theorem before?_of_before? {text start first : String} {position cut : Nat}
    (h : before? text position = some start) (hcut : before? start cut = some first) :
    before? text cut = some first := by
  obtain ⟨-, rest, rfl⟩ := eq_append_of_before? h
  obtain ⟨rfl, more, rfl⟩ := eq_append_of_before? hcut
  rw [String.append_assoc, before?_append]

end AttributeShell.Text
