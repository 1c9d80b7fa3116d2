import AttributeShell.Completion

/-!
What is offered at the end of a path. Behind a fragment these are the names that continue it and the
separator of the attribute that it names, if it names one; the place of a completion enters into
nothing but the offset.
-/

namespace AttributeShell

/-- The same candidates further on in a line. -/
def Completion.shift (distance : Nat) (completion : Completion) : Completion :=
  { completion with offset := completion.offset + distance }

/-- Only objects and lists are continued, by a dot or by an opening bracket. -/
theorem Attribute.eq_of_separator? {attr : Attribute} {separator : String}
    (h : attr.separator? = some separator) : separator = "." ∨ separator = "[" := by
  obtain ⟨type, access, description⟩ := attr
  cases type with
  | primitive kind => cases h
  | container outer value =>
    cases outer with
    | object => exact .inl (Option.some.inj h).symm
    | list => exact .inr (Option.some.inj h).symm
    | property => cases h

namespace Tree

variable {writableOnly : Bool} {tree : Tree} {fragment name : String} {offset : Nat}

theorem visible?_eq_some {attr : Attribute} :
    tree.visible? writableOnly name = some attr ↔
      tree.get? name = some attr ∧ attr.isVisible writableOnly := by
  simp [visible?, Option.filter_eq_some_iff]

theorem mem_visibleNames :
    name ∈ tree.visibleNames writableOnly ↔ (tree.visible? writableOnly name).isSome := by
  simp only [visibleNames, List.mem_filter, and_iff_right_iff_imp, Option.isSome_iff_exists]
  rintro ⟨attr, hattr⟩
  exact NameMap.get?_isSome.1 (by simp [(visible?_eq_some.1 hattr).1])

/-- The visible names that continue a fragment. -/
def continuations (writableOnly : Bool) (tree : Tree) (fragment : String) : List String :=
  (tree.visibleNames writableOnly).filter fun name =>
    Text.startsWith name fragment && !(!fragment.isEmpty && name == fragment)

/-- The separator of the visible attribute that a fragment names. -/
def ending? (writableOnly : Bool) (tree : Tree) (fragment : String) : Option String :=
  (if fragment.isEmpty then none else tree.visible? writableOnly fragment).bind
    Attribute.separator?

theorem mem_continuations :
    name ∈ tree.continuations writableOnly fragment ↔
      (tree.visible? writableOnly name).isSome ∧ fragment.toList <+: name.toList ∧
        (fragment = "" ∨ name ≠ fragment) := by
  simp [continuations, mem_visibleNames, Text.startsWith_iff]

theorem ending?_eq_some {separator : String} :
    tree.ending? writableOnly fragment = some separator ↔
      fragment ≠ "" ∧ ∃ attr, tree.visible? writableOnly fragment = some attr ∧
        attr.separator? = some separator := by
  by_cases hempty : fragment = "" <;> simp [ending?, hempty, Option.bind_eq_some_iff]

theorem completeName_eq (fragment : String) (offset : Nat) :
    tree.completeName writableOnly fragment offset =
      match tree.ending? writableOnly fragment with
      | none => ⟨tree.continuations writableOnly fragment, offset⟩
      | some separator =>
        ⟨(tree.continuations writableOnly fragment ++ [separator]).mergeSort (· ≤ ·),
          if (tree.continuations writableOnly fragment).isEmpty then offset + Text.size fragment
          else offset⟩ := rfl

theorem mem_candidates_completeName {candidate : String} :
    candidate ∈ (tree.completeName writableOnly fragment offset).candidates ↔
      candidate ∈ tree.continuations writableOnly fragment ∨
        tree.ending? writableOnly fragment = some candidate := by
  rw [completeName_eq]
  cases tree.ending? writableOnly fragment <;> simp [eq_comm]

theorem offset_completeName (h : name ∈ tree.continuations writableOnly fragment) :
    (tree.completeName writableOnly fragment offset).offset = offset := by
  have hsome : (tree.continuations writableOnly fragment).isEmpty = false := by
    simpa using List.ne_nil_of_mem h
  rw [completeName_eq]
  cases tree.ending? writableOnly fragment <;> simp [hsome]

/-- Before anything is typed all visible names are offered. -/
@[simp] theorem completeName_empty :
    tree.completeName writableOnly "" offset = ⟨tree.visibleNames writableOnly, offset⟩ := by
  have hall : tree.continuations writableOnly "" = tree.visibleNames writableOnly := by
    simp [continuations]
  rw [completeName_eq, hall]
  rfl

theorem completeName_shift (fragment : String) (offset distance : Nat) :
    tree.completeName writableOnly fragment (offset + distance) =
      (tree.completeName writableOnly fragment offset).shift distance := by
  rw [completeName_eq, completeName_eq]
  cases tree.ending? writableOnly fragment with
  | none => rfl
  | some separator =>
    by_cases hnames : (tree.continuations writableOnly fragment).isEmpty <;>
      simp [Completion.shift, hnames, Nat.add_right_comm]

/-- The place of a completion decides the offset and nothing else. -/
theorem offered_shift {own whole : AttributePath} {distance : Nat}
    (hposition : whole.position = own.position) (hfragment : whole.fragment = own.fragment)
    (hplace : whole.insertionOffset = own.insertionOffset + distance) :
    tree.offered writableOnly whole = (tree.offered writableOnly own).shift distance := by
  rw [offered, offered, hposition, hfragment, hplace]
  cases own.position with
  | name => exact completeName_shift own.fragment own.insertionOffset distance
  | afterDot => rfl
  | openBracket => rfl
  | listIndex => rfl
  | closeBracket => rfl

end Tree

end AttributeShell
