import AttributeShell.Proofs.Completion.Descent
import AttributeShell.Proofs.Path.Extent

/-!
What a path resolves to. If one of its closed names is not that of a visible attribute with
attributes below it, to nothing; otherwise to candidates in strictly ascending order, which are
exactly those that the end of the path calls for, and to the place where they go. The separator that
may stand among them is no name that continues the fragment, as it does not start like a name
(`Tree.resolve_exact`).
-/

namespace AttributeShell

namespace Tree

variable {writableOnly : Bool} {tree reached : Tree} {path : AttributePath}

/-- The name is that of a visible attribute. -/
def Shows (writableOnly : Bool) (tree : Tree) (name : String) : Prop :=
  ∃ attr, tree.get? name = some attr ∧ attr.isVisible writableOnly

/-- The separator is that of the visible attribute that the fragment of a path names. -/
def Hints (writableOnly : Bool) (tree : Tree) (path : AttributePath) (separator : String) : Prop :=
  path.position = .name ∧ path.fragment ≠ "" ∧
    ∃ attr, tree.get? path.fragment = some attr ∧ attr.isVisible writableOnly ∧
      attr.separator? = some separator

/-- What the end of a path calls for, in the tree to which its closed names lead. -/
def CallsFor (writableOnly : Bool) (tree : Tree) (path : AttributePath) (candidate : String) :
    Prop :=
  match path.position with
  | .afterDot => tree.Shows writableOnly candidate
  | .openBracket | .listIndex => False
  | .closeBracket => candidate = "." ∨ candidate = "="
  | .name =>
    if path.fragment = "" then tree.Shows writableOnly candidate
    else
      tree.Shows writableOnly candidate ∧ path.fragment.toList <+: candidate.toList ∧
          candidate ≠ path.fragment ∨
        tree.Hints writableOnly path candidate

/-- On the way down along some names one is met that is not the name of a visible attribute with
attributes below it. -/
def Ends (writableOnly : Bool) (tree : Tree) (names : List String) : Prop :=
  ∃ before name after reached, names = before ++ name :: after ∧
    tree.Leads writableOnly before reached ∧
    ∀ attr, reached.get? name = some attr → attr.isVisible writableOnly → attr.nested? = none

/-! ### Paths that lead nowhere -/

theorem below?_eq_none {name : String} :
    tree.below? writableOnly name = none ↔
      ∀ attr, tree.get? name = some attr → attr.isVisible writableOnly → attr.nested? = none := by
  rw [below?, Option.bind_eq_none_iff]
  simp only [visible?_eq_some, and_imp]

theorem descend_eq_none_iff_ends {names : List String} :
    tree.descend writableOnly names = none ↔ tree.Ends writableOnly names := by
  constructor
  · intro h
    induction names generalizing tree with
    | nil => cases h
    | cons name names ih =>
      rw [descend_cons] at h
      cases hbelow : tree.below? writableOnly name with
      | none => exact ⟨[], name, names, tree, rfl, .here, below?_eq_none.1 hbelow⟩
      | some below =>
        rw [hbelow, Option.bind_some] at h
        obtain ⟨before, last, after, reached, rfl, hleads, hlast⟩ := ih h
        obtain ⟨attr, hget, hvisible, hnested⟩ := below?_eq_some.1 hbelow
        exact ⟨name :: before, last, after, reached, rfl, .down hget hvisible hnested hleads, hlast⟩
  · rintro ⟨before, name, after, reached, rfl, hleads, hlast⟩
    rw [descend_append, descend_eq_some_iff.2 hleads, Option.bind_some, descend_cons,
      below?_eq_none.2 hlast, Option.bind_none]

/-! ### The candidates -/

theorem mem_visibleNames_iff_shows {name : String} :
    name ∈ tree.visibleNames writableOnly ↔ tree.Shows writableOnly name := by
  simp [mem_visibleNames, Option.isSome_iff_exists, visible?_eq_some, Shows]

theorem hints_iff_ending? {separator : String} (hposition : path.position = .name) :
    tree.Hints writableOnly path separator ↔
      tree.ending? writableOnly path.fragment = some separator := by
  simp [Hints, hposition, ending?_eq_some, visible?_eq_some, and_assoc]

theorem mem_candidates_offered {candidate : String} :
    candidate ∈ (reached.offered writableOnly path).candidates ↔
      reached.CallsFor writableOnly path candidate := by
  rw [offered, CallsFor]
  cases hposition : path.position with
  | name =>
    by_cases hempty : path.fragment = ""
    · simp [hempty, mem_visibleNames_iff_shows]
    · simp only [hempty, if_false, mem_candidates_completeName, hints_iff_ending? hposition,
        mem_continuations, ← mem_visibleNames, mem_visibleNames_iff_shows, false_or]
  | afterDot => exact mem_visibleNames_iff_shows
  | openBracket => simp
  | listIndex => simp
  | closeBracket => simp

theorem pairwise_visibleNames : (tree.visibleNames writableOnly).Pairwise (· < ·) :=
  tree.ordered.filter _

theorem pairwise_continuations (fragment : String) :
    (tree.continuations writableOnly fragment).Pairwise (· < ·) :=
  pairwise_visibleNames.filter _

/-- Names that start like a name are apart from the separator that is offered with them. -/
theorem notMem_continuations {fragment separator : String} (hname : IsName fragment.toList)
    (hending : tree.ending? writableOnly fragment = some separator) :
    separator ∉ tree.continuations writableOnly fragment := by
  intro hmem
  obtain ⟨-, hstart, -⟩ := mem_continuations.1 hmem
  obtain ⟨-, attr, -, hattr⟩ := ending?_eq_some.1 hending
  obtain ⟨c, cs, hfragment⟩ := List.exists_cons_of_ne_nil hname.1
  have hc : isNameCharacter c := hname.2 c (by rw [hfragment]; exact List.mem_cons_self)
  rw [hfragment] at hstart
  obtain ⟨rest, hrest⟩ := hstart
  obtain rfl | rfl := Attribute.eq_of_separator? hattr
  · obtain rfl : c = '.' := (List.cons.inj hrest).1
    simp at hc
  · obtain rfl : c = '[' := (List.cons.inj hrest).1
    simp at hc

/-- Sorting what has no repetition puts it in strictly ascending order. -/
theorem pairwise_lt_mergeSort {names : List String} (h : names.Nodup) :
    (names.mergeSort (· ≤ ·)).Pairwise (· < ·) := by
  have hsorted : (names.mergeSort (· ≤ ·)).Pairwise fun a b => decide (a ≤ b) = true :=
    List.pairwise_mergeSort
      (fun a b c hab hbc => by
        rw [decide_eq_true_eq] at hab hbc ⊢
        exact String.le_trans hab hbc)
      (fun a b => by simpa using String.le_total a b) names
  have hdistinct : (names.mergeSort (· ≤ ·)).Nodup := (List.mergeSort_perm _ _).nodup_iff.2 h
  exact hsorted.imp₂ (fun a b hle hne => Std.lt_of_le_of_ne (of_decide_eq_true hle) hne) hdistinct

theorem pairwise_completeName {fragment : String} {offset : Nat}
    (hname : fragment ≠ "" → IsName fragment.toList) :
    (tree.completeName writableOnly fragment offset).candidates.Pairwise (· < ·) := by
  rw [completeName_eq]
  cases hending : tree.ending? writableOnly fragment with
  | none => exact pairwise_continuations fragment
  | some separator =>
    have hne : fragment ≠ "" := (ending?_eq_some.1 hending).1
    refine pairwise_lt_mergeSort ?_
    have hnames : (tree.continuations writableOnly fragment).Nodup :=
      (pairwise_continuations fragment).imp Std.ne_of_lt
    have hapart := notMem_continuations (hname hne) hending
    exact (List.perm_append_singleton separator _).nodup_iff.2 (List.nodup_cons.2 ⟨hapart, hnames⟩)

theorem pairwise_offered {text : String} (hparse : AttributePath.parse text = .ok path) :
    (reached.offered writableOnly path).candidates.Pairwise (· < ·) := by
  rw [offered]
  cases hposition : path.position with
  | name => exact pairwise_completeName (AttributePath.isName_fragment hparse hposition)
  | afterDot => exact pairwise_visibleNames
  | openBracket => exact .nil
  | listIndex => exact .nil
  | closeBracket =>
    change [".", "="].Pairwise (· < ·)
    decide

/-! ### The offset -/

theorem offset_offered_of_alone {separator : String}
    (hints : reached.Hints writableOnly path separator)
    (halone : (reached.offered writableOnly path).candidates = [separator]) :
    (reached.offered writableOnly path).offset =
      path.insertionOffset + Text.size path.fragment := by
  have hposition := hints.1
  rw [hints_iff_ending? hposition] at hints
  simp only [offered, hposition, completeName_eq, hints] at halone ⊢
  have hnames : reached.continuations writableOnly path.fragment = [] := by
    have hlength := congrArg List.length halone
    simpa using hlength
  simp [hnames]

theorem offset_offered_of_not_alone
    (hothers : ∀ separator, reached.Hints writableOnly path separator →
      (reached.offered writableOnly path).candidates ≠ [separator]) :
    (reached.offered writableOnly path).offset = path.insertionOffset := by
  cases hposition : path.position with
  | name =>
    cases hending : reached.ending? writableOnly path.fragment with
    | none => simp [offered, hposition, completeName_eq, hending]
    | some separator =>
      have hother := hothers separator ((hints_iff_ending? hposition).2 hending)
      simp only [offered, hposition, completeName_eq, hending] at hother ⊢
      have hnames : reached.continuations writableOnly path.fragment ≠ [] := by
        intro hnames
        simp [hnames] at hother
      simp [hnames]
  | afterDot => simp [offered, hposition]
  | openBracket => simp [offered, hposition]
  | listIndex => simp [offered, hposition]
  | closeBracket => simp [offered, hposition]

end Tree

end AttributeShell
