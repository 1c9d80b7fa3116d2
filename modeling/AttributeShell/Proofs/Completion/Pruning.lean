import AttributeShell.Proofs.Completion.Descent

/-!
Completion of what can be written does not see what is read-only. Removing the read-only attributes
from a tree, at every depth, changes nothing of it (`resolve_true_eq`): each step down and each
list of names is the same, and so is the offset, which depends on whether anything else is offered.
-/

namespace AttributeShell

namespace NameMap

universe u

variable {α : Type u}

/-- Keeps some of the values, with their names. -/
def filter (p : α → Bool) (map : NameMap α) : NameMap α where
  names := map.names.filter fun name => (map.get? name).any p
  ordered := map.ordered.filter _
  value name := map.value ⟨name.val, (List.mem_filter.1 name.property).1⟩

theorem names_filter (p : α → Bool) (map : NameMap α) :
    (map.filter p).names = map.names.filter fun name => (map.get? name).any p := rfl

@[simp] theorem get?_filter (p : α → Bool) (map : NameMap α) (name : String) :
    (map.filter p).get? name = (map.get? name).filter p := by
  by_cases hmem : name ∈ map.names
  · have hget : map.get? name = some (map.value ⟨name, hmem⟩) := by simp [get?, hmem]
    by_cases hp : p (map.value ⟨name, hmem⟩)
    · rw [hget, Option.filter_some, if_pos hp]
      simp [get?, filter, hmem, hp]
    · rw [hget, Option.filter_some, if_neg hp]
      simp [get?, filter, hmem, hp]
  · simp [get?, filter, hmem]

end NameMap

mutual

/-- The attribute without the read-only attributes below it. -/
def Attribute.prune : Attribute → Attribute
  | .mk type access description => .mk type.prune access description
termination_by structural attr => attr

def AttributeType.prune : AttributeType → AttributeType
  | .primitive kind => .primitive kind
  | .container outer value => .container outer value.prune
termination_by structural type => type

def ValueType.prune : ValueType → ValueType
  | .unspecified => .unspecified
  | .primitive kind => .primitive kind
  | .complex tree => .complex (pruneTree tree)
termination_by structural value => value

def pruneTree : NameMap Attribute → NameMap Attribute
  | ⟨names, ordered, value⟩ =>
    NameMap.filter Attribute.isWritable ⟨names, ordered, fun name => (value name).prune⟩
termination_by structural tree => tree

end

/-- The tree without its read-only attributes, at every depth. -/
def Tree.prune (tree : Tree) : Tree := pruneTree tree

namespace Attribute

@[simp] theorem isWritable_prune (attr : Attribute) : attr.prune.isWritable = attr.isWritable := by
  cases attr
  rfl

@[simp] theorem separator?_prune (attr : Attribute) : attr.prune.separator? = attr.separator? := by
  obtain ⟨type, access, description⟩ := attr
  cases type <;> rfl

@[simp] theorem nested?_prune (attr : Attribute) :
    attr.prune.nested? = attr.nested?.map Tree.prune := by
  obtain ⟨type, access, description⟩ := attr
  cases type with
  | primitive kind => rfl
  | container outer value => cases value <;> rfl

end Attribute

namespace Tree

variable {tree other : Tree}

theorem prune_eq (tree : Tree) :
    tree.prune = (tree.mapValues Attribute.prune).filter Attribute.isWritable := by
  cases tree
  rfl

/-! ### Each step sees the same -/

@[simp] theorem get?_prune (name : String) :
    tree.prune.get? name = (tree.visible? true name).map Attribute.prune := by
  rw [prune_eq, NameMap.get?_filter, NameMap.get?_mapValues, visible?]
  cases tree.get? name with
  | none => rfl
  | some attr => by_cases hwritable : attr.isWritable <;> simp [Option.filter_some, hwritable]

@[simp] theorem visibleNames_prune :
    tree.prune.visibleNames false = tree.visibleNames true := by
  -- In the pruned tree everything is shown, so that its names are compared with the filtered ones.
  have hshown : ∀ name ∈ tree.prune.names, (tree.prune.visible? false name).isSome := by
    intro name hmem
    rwa [visible?_false, NameMap.get?_isSome]
  rw [visibleNames, List.filter_eq_self.2 hshown, visibleNames, prune_eq, NameMap.names_filter]
  refine List.filter_congr fun name _ => ?_
  rw [visible?, NameMap.get?_mapValues]
  cases tree.get? name with
  | none => rfl
  | some attr => by_cases hwritable : attr.isWritable <;> simp [Option.filter_some, hwritable]

theorem below?_prune (name : String) :
    tree.prune.below? false name = (tree.below? true name).map prune := by
  rw [below?, below?, visible?_false, get?_prune]
  cases tree.visible? true name <;> simp

theorem descend_prune (names : List String) :
    tree.prune.descend false names = (tree.descend true names).map prune := by
  induction names generalizing tree with
  | nil => rfl
  | cons name names ih =>
    rw [descend_cons, descend_cons, below?_prune]
    cases tree.below? true name with
    | none => rfl
    | some below => exact ih

theorem continuations_prune (fragment : String) :
    tree.prune.continuations false fragment = tree.continuations true fragment := by
  rw [continuations, continuations, visibleNames_prune]

theorem ending?_prune (fragment : String) :
    tree.prune.ending? false fragment = tree.ending? true fragment := by
  rw [ending?, ending?, visible?_false, get?_prune]
  split_ifs
  · rfl
  · cases tree.visible? true fragment <;> simp

theorem offered_prune (path : AttributePath) :
    tree.prune.offered false path = tree.offered true path := by
  rw [offered, offered]
  cases path.position with
  | name => simp only [completeName_eq, continuations_prune, ending?_prune]
  | afterDot => simp only [visibleNames_prune]
  | openBracket => rfl
  | listIndex => rfl
  | closeBracket => rfl

/-- Completion of what can be written is completion in the tree without what is read-only. -/
theorem resolve_true_eq (path : AttributePath) :
    tree.resolve true path = tree.prune.resolve false path := by
  rw [resolve, resolve, descend_prune]
  cases tree.descend true path.segments.toList with
  | none => rfl
  | some below => simp [offered_prune]

theorem complete_true_eq (line : String) (position : Nat) :
    tree.complete true line position = tree.prune.complete false line position := by
  simp only [complete, funext resolve_true_eq]

/-- Putting in a read-only attribute, if not in the place of another one, changes nothing. -/
theorem prune_insert {name : String} {attr : Attribute} (hname : tree.get? name = none)
    (hattr : attr.isWritable = false) : prune (tree.insert name attr) = tree.prune := by
  refine NameMap.eq_of_get? fun other => ?_
  rw [get?_prune, get?_prune, visible?, visible?, NameMap.get?_insert]
  split_ifs with hother
  · simp [hother, hname, hattr, Option.filter_some]
  · rfl

/-! ### Nothing read-only is shown -/

def NamesWritable (tree : Tree) (names : List String) : Prop :=
  ∃ attr, tree.lookup names = some attr ∧ attr.isWritable

theorem namesWritable_append {names : List String} {name : String} {below : Tree}
    {attr : Attribute} (hleads : tree.Leads true names below)
    (hvisible : below.visible? true name = some attr) : tree.NamesWritable (names ++ [name]) := by
  obtain ⟨hget, hwritable⟩ := visible?_eq_some.1 hvisible
  refine ⟨attr, ?_, by rwa [Attribute.isVisible_true] at hwritable⟩
  rw [lookup_append_singleton, descend_eq_some_iff.2 hleads.of_true, Option.bind_some, hget]

/-- The way down goes through attributes that can be written. -/
theorem namesWritable_of_leads {before after : List String} {name : String} {below : Tree}
    (h : tree.Leads true (before ++ name :: after) below) :
    tree.NamesWritable (before ++ [name]) := by
  have hdescend := descend_eq_some_iff.2 h
  rw [descend_append, Option.bind_eq_some_iff] at hdescend
  obtain ⟨middle, hbefore, hrest⟩ := hdescend
  rw [descend_cons, Option.bind_eq_some_iff] at hrest
  obtain ⟨next, hnext, -⟩ := hrest
  obtain ⟨attr, hget, hvisible, -⟩ := below?_eq_some.1 hnext
  exact namesWritable_append (descend_eq_some_iff.1 hbefore) (visible?_eq_some.2 ⟨hget, hvisible⟩)

/-- What a candidate can be when only what can be written is completed: an attribute that can be
written, the separator of one that has been typed in full, or what may follow an index. -/
inductive WritableCandidate (tree : Tree) (path : AttributePath) (candidate : String) : Prop where
  | name : tree.NamesWritable (path.segments.toList ++ [candidate]) →
      WritableCandidate tree path candidate
  | separator : path.position = .name → candidate = "." ∨ candidate = "[" →
      tree.NamesWritable (path.segments.toList ++ [path.fragment]) →
      WritableCandidate tree path candidate
  | afterIndex : path.position = .closeBracket → candidate = "." ∨ candidate = "=" →
      WritableCandidate tree path candidate

theorem writableCandidate_of_leads {path : AttributePath} {below : Tree} {candidate : String}
    (hleads : tree.Leads true path.segments.toList below)
    (h : candidate ∈ (below.offered true path).candidates) :
    tree.WritableCandidate path candidate := by
  have hname (hvisible : (below.visible? true candidate).isSome) :
      tree.WritableCandidate path candidate := by
    obtain ⟨attr, hattr⟩ := Option.isSome_iff_exists.1 hvisible
    exact .name (namesWritable_append hleads hattr)
  rw [offered] at h
  cases hposition : path.position with
  | name =>
    rw [hposition] at h
    obtain hmem | hending := mem_candidates_completeName.1 h
    · exact hname (mem_continuations.1 hmem).1
    · obtain ⟨-, attr, hvisible, hseparator⟩ := ending?_eq_some.1 hending
      exact .separator hposition (Attribute.eq_of_separator? hseparator)
        (namesWritable_append hleads hvisible)
  | afterDot =>
    rw [hposition] at h
    exact hname (mem_visibleNames.1 h)
  | openBracket =>
    rw [hposition] at h
    cases h
  | listIndex =>
    rw [hposition] at h
    cases h
  | closeBracket =>
    rw [hposition] at h
    exact .afterIndex hposition (by simpa using h)

/-- Completion of what can be written is blind to what is read-only. It is completion in the tree
without it, so that two trees that differ in nothing else are completed alike, for every line and
position; and it neither goes through a read-only attribute nor offers one. -/
theorem resolve_blind (tree : Tree) (path : AttributePath) :
    tree.resolve true path = tree.prune.resolve false path ∧
    (∀ other : Tree, other.prune = tree.prune → ∀ line position,
      other.complete true line position = tree.complete true line position) ∧
    ∀ completion, tree.resolve true path = some completion →
      (∀ before name after, path.segments.toList = before ++ name :: after →
        tree.NamesWritable (before ++ [name])) ∧
      ∀ candidate ∈ completion.candidates, tree.WritableCandidate path candidate := by
  refine ⟨resolve_true_eq path, fun other hother line position => ?_, fun completion h => ?_⟩
  · rw [complete_true_eq, complete_true_eq, hother]
  · obtain ⟨below, hdescend, rfl⟩ := Option.map_eq_some_iff.1 h
    have hleads := descend_eq_some_iff.1 hdescend
    refine ⟨fun before name after hnames => ?_, fun candidate hcandidate => ?_⟩
    · rw [hnames] at hleads
      exact namesWritable_of_leads hleads
    · exact writableCandidate_of_leads hleads hcandidate

/-- A read-only attribute beside one that can be written. -/
theorem resolve_blind_beside :
    ∃ (tree other : Tree) (path : AttributePath) (completion : Completion),
      AttributePath.parse "a" = .ok path ∧ other.prune = tree.prune ∧
      (other.get? "ab").isSome ∧ tree.get? "ab" = none ∧
      other.complete true "a" 1 = tree.complete true "a" 1 ∧
      tree.resolve true path = some completion ∧
      ∀ candidate ∈ completion.candidates, tree.WritableCandidate path candidate := by
  let attr : Attribute := .mk (.container .object (.complex ∅)) .readWrite none
  let hidden : Attribute := .mk (.primitive .string) .readOnly none
  let tree : Tree := (∅ : Tree).insert "a" attr
  let other : Tree := tree.insert "ab" hidden
  let path : AttributePath := ⟨.empty, "a", .name, 0, none⟩
  have hother : other.prune = tree.prune := prune_insert rfl rfl
  have hblind := resolve_blind tree path
  exact ⟨tree, other, path, tree.completeName true "a" 0, rfl, hother, rfl, rfl,
    hblind.2.1 other hother "a" 1, rfl, (hblind.2.2 _ rfl).2⟩

end Tree

end AttributeShell
