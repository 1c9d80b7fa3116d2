import AttributeShell.Path.Basic
import AttributeShell.Proofs.Automaton.Trace
import Mathlib.Tactic.SplitIfs

/-!
The names of a path come in three forms, and the same names can be written in more than one of
them: `many ["a"]` lists the names of `one "a"`, but is another value. Pushing names makes canonical
values alone, in which the number of names decides the form. So whether there are names can be seen
from the form, and canonical values that list the same names are equal (`pushed_exact`). A reading
does nothing with its names but push one, so that paths which show the same are equal as well.
-/

namespace AttributeShell

namespace Segments

/-- A list is kept only for two names or more. -/
def Canonical : Segments → Prop
  | empty => True
  | one _ => True
  | many names => 2 ≤ names.length

/-- Names pushed one after the other, beginning with none. -/
def pushed (names : List String) : Segments := names.foldl push empty

variable {segments first second : Segments}

theorem isEmpty_iff : segments.isEmpty = true ↔ segments = empty := by
  cases segments <;> simp [isEmpty]

/-! ### The number of names decides the form -/

namespace Canonical

theorem eq_empty_iff (h : segments.Canonical) : segments = empty ↔ segments.length = 0 := by
  cases segments with
  | empty => simp [length, toList]
  | one name => simp [length, toList]
  | many names =>
    have hlength : 2 ≤ names.length := h
    simp only [length, toList, reduceCtorEq, false_iff]
    omega

theorem exists_eq_one_iff (h : segments.Canonical) :
    (∃ name, segments = one name) ↔ segments.length = 1 := by
  cases segments with
  | empty => simp [length, toList]
  | one name => simp [length, toList]
  | many names =>
    have hlength : 2 ≤ names.length := h
    simp only [length, toList, reduceCtorEq, exists_false, false_iff]
    omega

theorem exists_eq_many_iff (h : segments.Canonical) :
    (∃ names, segments = many names) ↔ 2 ≤ segments.length := by
  cases segments with
  | empty => simp [length, toList]
  | one name => simp [length, toList]
  | many names => exact ⟨fun _ => h, fun _ => ⟨names, rfl⟩⟩

/-- Canonical values are told apart by their names. -/
theorem toList_inj (hfirst : first.Canonical) (hsecond : second.Canonical) :
    first.toList = second.toList ↔ first = second := by
  refine ⟨fun h => ?_, congrArg toList⟩
  cases first with
  | empty => exact (hsecond.eq_empty_iff.2 (by rw [length, ← h]; rfl)).symm
  | one name =>
    obtain ⟨other, rfl⟩ := hsecond.exists_eq_one_iff.2 (by rw [length, ← h]; rfl)
    exact congrArg one (List.singleton_inj.1 h)
  | many names =>
    obtain ⟨others, rfl⟩ := hsecond.exists_eq_many_iff.2 (by rw [length, ← h]; exact hfirst)
    exact congrArg many h

end Canonical

/-- Other values are not. -/
example : (many ["a"]).toList = (one "a").toList ∧ many ["a"] ≠ one "a" := by decide

/-! ### Pushing names -/

theorem canonical_empty : empty.Canonical := trivial

theorem Canonical.push (h : segments.Canonical) (name : String) :
    (segments.push name).Canonical := by
  cases segments with
  | empty => trivial
  | one first => exact Nat.le_refl 2
  | many names =>
    have hlength : 2 ≤ names.length := h
    show 2 ≤ (names ++ [name]).length
    rw [List.length_append]
    omega

theorem Canonical.foldl_push (h : segments.Canonical) (names : List String) :
    (names.foldl Segments.push segments).Canonical := by
  induction names generalizing segments with
  | nil => exact h
  | cons name names ih => exact ih (h.push name)

theorem toList_foldl_push (segments : Segments) (names : List String) :
    (names.foldl push segments).toList = segments.toList ++ names := by
  induction names generalizing segments with
  | nil => simp
  | cons name names ih =>
    rw [List.foldl_cons, ih, toList_push, List.append_assoc, List.singleton_append]

theorem canonical_pushed (names : List String) : (pushed names).Canonical :=
  canonical_empty.foldl_push names

@[simp] theorem toList_pushed (names : List String) : (pushed names).toList = names :=
  toList_foldl_push empty names

@[simp] theorem length_pushed (names : List String) : (pushed names).length = names.length := by
  rw [length, toList_pushed]

end Segments

/-! ### The names of a path that is read -/

/-- What an event does to the names: one is pushed, or they stay. -/
theorem Reading.segments_observe (event : Automaton.Event Mode) (reading : Reading) :
    (observe event reading).1.segments = reading.segments ∨
      ∃ name, (observe event reading).1.segments = reading.segments.push name := by
  obtain ⟨kind, state, offset, character, atEnd⟩ := event
  cases kind with
  | enter =>
    simp only [observe]
    -- A name is missing, or is closed, or none has to stand there.
    split_ifs
    · exact .inl rfl
    · exact .inr ⟨_, rfl⟩
    · exact .inl rfl
  | leave =>
    simp only [observe]
    split_ifs <;> exact .inl rfl
  | character => exact .inl rfl
  | halt => exact .inl rfl

theorem Reading.canonical_observe (event : Automaton.Event Mode) (reading : Reading)
    (h : reading.segments.Canonical) : (observe event reading).1.segments.Canonical := by
  obtain hkept | ⟨name, hpushed⟩ := segments_observe event reading
  · rwa [hkept]
  · rw [hpushed]
    exact h.push name

namespace AttributePath

variable {text otherText : String} {path other : AttributePath}

theorem canonical_of_parse (h : parse text = .ok path) : path.segments.Canonical := by
  have hstart : ({} : Reading).segments.Canonical := Segments.canonical_empty
  have hrun := Automaton.run_keeps Mode.state Reading.observe Reading.canonical_observe patience
    .initial hstart text
  rw [parse] at h
  generalize Automaton.run patience Mode.state .initial Reading.observe {} text = ended at h hrun
  obtain ⟨reading, ending⟩ := ended
  cases ending with
  | failed error => cases h
  | returned =>
    cases h
    exact hrun
  | exhausted =>
    cases h
    exact hrun

/-- Two paths that are read are equal if what they show is. -/
theorem eq_iff_of_parse (h : parse text = .ok path) (hother : parse otherText = .ok other) :
    path = other ↔
      path.segments.toList = other.segments.toList ∧ path.fragment = other.fragment ∧
      path.position = other.position ∧ path.insertionOffset = other.insertionOffset ∧
      path.haltedAt = other.haltedAt := by
  rw [(canonical_of_parse h).toList_inj (canonical_of_parse hother)]
  cases path
  cases other
  rw [AttributePath.mk.injEq]

end AttributePath

namespace Segments

/-- Names that are pushed one after the other are a plain list. The list shows exactly the names
that were pushed, in order; the three forms occur for no name, for one, and for two or more; and
values are equal exactly if their lists are. So two paths that are read are equal exactly if their
names, and all else that they show, are equal. -/
theorem pushed_exact :
    (∀ names : List String,
      (pushed names).toList = names ∧ (pushed names).length = names.length ∧
      ((pushed names).isEmpty = true ↔ names = []) ∧
      (pushed names = empty ↔ names.length = 0) ∧
      ((∃ name, pushed names = one name) ↔ names.length = 1) ∧
      ((∃ all, pushed names = many all) ↔ 2 ≤ names.length)) ∧
    (∀ names others : List String,
      (pushed names == pushed others) = ((pushed names).toList == (pushed others).toList)) ∧
    ∀ text otherText path other,
      AttributePath.parse text = .ok path → AttributePath.parse otherText = .ok other →
      ((path == other) = true ↔
        path.segments.toList = other.segments.toList ∧ path.fragment = other.fragment ∧
        path.position = other.position ∧ path.insertionOffset = other.insertionOffset ∧
        path.haltedAt = other.haltedAt) := by
  refine ⟨fun names => ?_, fun names others => ?_, fun text otherText path other h hother => ?_⟩
  · have hcanonical := canonical_pushed names
    have hempty := hcanonical.eq_empty_iff
    have hone := hcanonical.exists_eq_one_iff
    have hmany := hcanonical.exists_eq_many_iff
    rw [length_pushed] at hempty hone hmany
    have hisEmpty : (pushed names).isEmpty = true ↔ names = [] := by
      rw [isEmpty_iff, hempty, List.length_eq_zero_iff]
    exact ⟨toList_pushed names, length_pushed names, hisEmpty, hempty, hone, hmany⟩
  · rw [Bool.eq_iff_iff, beq_iff_eq, beq_iff_eq,
      (canonical_pushed names).toList_inj (canonical_pushed others)]
  · rw [beq_iff_eq]
    exact AttributePath.eq_iff_of_parse h hother

/-- Where an index stood does not show in a path that goes on behind it, where a dot stood does. -/
theorem pushed_exact_index :
    ∃ path other third,
      AttributePath.parse "a.b[1].c" = .ok path ∧ AttributePath.parse "a[1].b.c" = .ok other ∧
      AttributePath.parse "abc[1].c" = .ok third ∧ path.segments = pushed ["a", "b"] ∧
      (path == other) = true ∧ (path == third) = false := by
  have hpath : AttributePath.parse "a.b[1].c" = .ok ⟨.many ["a", "b"], "c", .name, 7, none⟩ := rfl
  have hother : AttributePath.parse "a[1].b.c" = .ok ⟨.many ["a", "b"], "c", .name, 7, none⟩ := rfl
  have hthird : AttributePath.parse "abc[1].c" = .ok ⟨.one "abc", "c", .name, 7, none⟩ := rfl
  obtain ⟨-, -, hequal⟩ := pushed_exact
  refine ⟨_, _, _, hpath, hother, hthird, rfl, ?_, ?_⟩
  · exact (hequal _ _ _ _ hpath hother).2 ⟨rfl, rfl, rfl, rfl, rfl⟩
  · rw [← Bool.not_eq_true, hequal _ _ _ _ hpath hthird]
    decide

end Segments

end AttributeShell
