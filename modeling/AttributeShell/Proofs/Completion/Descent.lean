import AttributeShell.Proofs.Completion.Offer
import AttributeShell.Proofs.Path.Complete

/-!
The way down a tree along names: each step goes through a visible attribute that has attributes
below it. `descend` finds the way if there is one (`descend_eq_some_iff`), and goes along joined
names as along the first ones and then along the others (`descend_append`).
-/

namespace AttributeShell

@[simp] theorem Attribute.isVisible_false (attr : Attribute) : attr.isVisible false = true := rfl

@[simp] theorem Attribute.isVisible_true (attr : Attribute) :
    attr.isVisible true = attr.isWritable := by
  simp [isVisible]

namespace Tree

variable {writableOnly : Bool} {tree below target : Tree} {name : String} {names : List String}

@[simp] theorem visible?_false : tree.visible? false name = tree.get? name := by
  cases hget : tree.get? name <;> simp [visible?, hget]

theorem below?_eq_some :
    tree.below? writableOnly name = some below ↔
      ∃ attr, tree.get? name = some attr ∧ attr.isVisible writableOnly ∧
        attr.nested? = some below := by
  simp [below?, Option.bind_eq_some_iff, visible?_eq_some, and_assoc]

@[simp] theorem descend_nil : tree.descend writableOnly [] = some tree := rfl

theorem descend_cons :
    tree.descend writableOnly (name :: names) =
      (tree.below? writableOnly name).bind (·.descend writableOnly names) := by
  simp [descend, List.foldlM_cons]

theorem descend_append (more : List String) :
    tree.descend writableOnly (names ++ more) =
      (tree.descend writableOnly names).bind (·.descend writableOnly more) := by
  simp [descend, List.foldlM_append]

/-- Names lead from a tree down to another one, through visible attributes. -/
inductive Leads (writableOnly : Bool) : Tree → List String → Tree → Prop where
  | here {tree : Tree} : Leads writableOnly tree [] tree
  | down {tree below target : Tree} {name : String} {names : List String} {attr : Attribute} :
      tree.get? name = some attr → attr.isVisible writableOnly → attr.nested? = some below →
      Leads writableOnly below names target → Leads writableOnly tree (name :: names) target

theorem descend_eq_some_iff :
    tree.descend writableOnly names = some target ↔ tree.Leads writableOnly names target := by
  constructor
  · intro h
    induction names generalizing tree with
    | nil =>
      cases h
      exact .here
    | cons name names ih =>
      rw [descend_cons, Option.bind_eq_some_iff] at h
      obtain ⟨below, hbelow, hrest⟩ := h
      obtain ⟨attr, hget, hvisible, hnested⟩ := below?_eq_some.1 hbelow
      exact .down hget hvisible hnested (ih hrest)
  · intro h
    induction h with
    | here => rfl
    | down hget hvisible hnested _ ih =>
      rw [descend_cons, below?_eq_some.2 ⟨_, hget, hvisible, hnested⟩, Option.bind_some, ih]

theorem descend_eq_none_iff :
    tree.descend writableOnly names = none ↔ ∀ target, ¬ tree.Leads writableOnly names target := by
  simp [Option.eq_none_iff_forall_ne_some, descend_eq_some_iff]

/-- An attribute is looked up in the tree to which the names before its own lead. -/
theorem lookup_append_singleton (tree : Tree) (names : List String) (name : String) :
    tree.lookup (names ++ [name]) = (tree.descend false names).bind (·.get? name) := by
  induction names generalizing tree with
  | nil => rfl
  | cons first names ih =>
    obtain ⟨next, rest, hrest⟩ : ∃ next rest, names ++ [name] = next :: rest :=
      List.exists_cons_of_ne_nil (by simp)
    rw [List.cons_append, hrest, lookup, ← hrest, descend_cons, below?, visible?_false]
    cases hget : tree.get? first with
    | none => rfl
    | some attr =>
      cases hnested : attr.nested? with
      | none => simp [hnested]
      | some below => simp [hnested, ih]

theorem Leads.of_true (h : tree.Leads true names target) :
    tree.Leads writableOnly names target := by
  induction h with
  | here => exact .here
  | down hget hvisible hnested _ ih =>
    rw [Attribute.isVisible_true] at hvisible
    exact .down hget (by simp [Attribute.isVisible, hvisible]) hnested ih

end Tree

/-! ### The path before the end of a line -/

/-- The path of a text that has been read to its end. -/
def Scanned.whole? : Scanned → Option AttributePath
  | going reading => some reading.close.toPath
  | halted _ | failed _ => none

/-- At its end a line can be completed if it is a path to its end. -/
theorem AttributePath.before?_size (line : String) :
    before? line (Text.size line) = (Reading.advance {} line.toList 0).whole? := by
  simp only [before?, Text.before?_size, Option.bind_eq_bind, Option.bind_some, parse_eq]
  cases hadvance : Reading.advance {} line.toList 0 with
  | going reading =>
    have hrunning := (Reading.fits_advance Reading.fits_empty hadvance).running
    simp [Scanned.path, Scanned.whole?, isHalted, Reading.toPath, hrunning]
  | halted reading =>
    have hhalted := Reading.isHalted_of_advance hadvance
    simp [Scanned.path, Scanned.whole?, isHalted, Reading.toPath, Option.isSome_iff_ne_none,
      hhalted]
  | failed error => rfl

end AttributeShell
