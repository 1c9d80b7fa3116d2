import AttributeShell.Proofs.Completion.Descent
import AttributeShell.Proofs.Path.Join

/-!
Completion below a complete path. A line that goes on behind a complete path and a dot is completed
as what follows the dot is completed in the tree to which the path leads, further on in the line. A
path that leads nowhere leaves nothing to complete.
-/

namespace AttributeShell

/-- A path goes on below some names as another one does by itself, further on in the line. -/
structure AttributePath.Continues (names : List String) (distance : Nat)
    (own whole : AttributePath) : Prop where
  segments : whole.segments.toList = names ++ own.segments.toList
  offered (writableOnly : Bool) (tree : Tree) :
    tree.offered writableOnly whole = (tree.offered writableOnly own).shift distance

section Readings

variable {names : List String} {distance : Nat}

theorem Behind.continues {own whole : Reading} (h : Behind names distance own whole) :
    AttributePath.Continues names distance own.close.toPath whole.close.toPath := by
  have hjoined := h.close.joinedBehind
  exact ⟨hjoined.segments, fun writableOnly tree =>
    Tree.offered_shift hjoined.position hjoined.fragment hjoined.insertionOffset⟩

/-- Right behind the dot everything is offered that is offered before anything is typed. -/
theorem Dotted.continues {reading : Reading} (h : Dotted names distance reading) :
    AttributePath.Continues names distance ({} : Reading).close.toPath reading.close.toPath := by
  have hclose : reading.close = reading := by simp [Reading.close, h.mode]
  refine ⟨?_, fun writableOnly tree => ?_⟩
  · simpa [Reading.toPath] using h.segments
  · have hwhole : tree.offered writableOnly reading.close.toPath =
        ⟨tree.visibleNames writableOnly, distance⟩ := by
      simp [hclose, Reading.toPath, Tree.offered, h.mode, Position.ofMode, h.place]
    have hown : tree.offered writableOnly ({} : Reading).close.toPath =
        ⟨tree.visibleNames writableOnly, 0⟩ := Tree.completeName_empty
    rw [hwhole, hown, Completion.shift, Nat.zero_add]

theorem EndsBehind.whole? {own whole : Scanned} (h : EndsBehind names distance own whole) :
    Option.Rel (AttributePath.Continues names distance) own.whole? whole.whole? := by
  cases h with
  | going hread => exact .some hread.continues
  | halted hread => exact .none
  | failed => exact .none

end Readings

/-- What follows a complete path and a dot is a path as it is by itself, or is none. -/
theorem AttributePath.before?_joined {a : String} {path : AttributePath}
    (hparse : parse a = .ok path) (hcomplete : path.IsComplete) (b : String) :
    Option.Rel (Continues path.names (Text.size a + 1)) (before? b (Text.size b))
      (before? (a ++ "." ++ b) (Text.size (a ++ "." ++ b))) := by
  obtain ⟨dotted, hdotted, hadvance⟩ := exists_dotted hparse hcomplete
  rw [before?_size, before?_size, hadvance]
  cases b.toList with
  | nil => exact .some hdotted.continues
  | cons c cs =>
    by_cases hc : isPathCharacter c
    · exact (hdotted.advance_behind hc cs).whole?
    -- A character that stands in no path ends both at once, whatever follows it.
    · rw [Bool.not_eq_true] at hc
      rw [Reading.advance_eq_halted (.inl rfl) hc, Reading.advance_eq_halted (.inr hdotted.mode) hc]
      exact .none

namespace Tree

variable {writableOnly : Bool} {tree : Tree}

theorem resolve_continues {names : List String} {distance : Nat} {own whole : AttributePath}
    (h : AttributePath.Continues names distance own whole) :
    tree.resolve writableOnly whole =
      (tree.descend writableOnly names).bind fun below =>
        (below.resolve writableOnly own).map (·.shift distance) := by
  rw [resolve, h.segments, descend_append]
  cases tree.descend writableOnly names with
  | none => rfl
  | some below => simp [resolve, h.offered, Function.comp_def]

theorem complete_eq_bind {a : String} {path : AttributePath}
    (hparse : AttributePath.parse a = .ok path) (hcomplete : path.IsComplete) (b : String) :
    tree.complete writableOnly (a ++ "." ++ b) (Text.size (a ++ "." ++ b)) =
      (tree.descend writableOnly path.names).bind fun below =>
        (below.complete writableOnly b (Text.size b)).map (·.shift (Text.size a + 1)) := by
  have hjoined := AttributePath.before?_joined hparse hcomplete b
  simp only [complete]
  generalize AttributePath.before? b _ = own at hjoined
  generalize AttributePath.before? (a ++ "." ++ b) _ = whole at hjoined
  cases hjoined with
  | some h => exact resolve_continues h
  | none => cases tree.descend writableOnly path.names <;> rfl

/-- Completion is compositional. Where a complete path leads to a tree, what follows it and a dot is
completed as by itself in that tree, with the same candidates at an offset that many bytes further
on; where it leads nowhere, nothing is completed behind it. -/
theorem complete_joined {a : String} {path : AttributePath}
    (hparse : AttributePath.parse a = .ok path) (hcomplete : path.IsComplete)
    (writableOnly : Bool) (tree : Tree) (b : String) :
    (∀ below, tree.Leads writableOnly path.names below →
      tree.complete writableOnly (a ++ "." ++ b) (Text.size (a ++ "." ++ b)) =
        (below.complete writableOnly b (Text.size b)).map (·.shift (Text.size a + 1))) ∧
    ((∀ below, ¬ tree.Leads writableOnly path.names below) →
      tree.complete writableOnly (a ++ "." ++ b) (Text.size (a ++ "." ++ b)) = none) := by
  refine ⟨fun below hleads => ?_, fun hnowhere => ?_⟩
  · rw [complete_eq_bind hparse hcomplete b, descend_eq_some_iff.2 hleads, Option.bind_some]
  · rw [complete_eq_bind hparse hcomplete b, descend_eq_none_iff.2 hnowhere, Option.bind_none]

/-- An index and a dot in front of a name that is being typed, in a tree that has the list and in
one that has nothing. -/
theorem complete_joined_index :
    ∃ (tree below : Tree) (path : AttributePath),
      AttributePath.parse "a[0]" = .ok path ∧ path.IsComplete ∧
      tree.Leads false path.names below ∧ below.complete false "b" 1 = some ⟨["bar"], 0⟩ ∧
      tree.complete false "a[0].b" 6 = some ⟨["bar"], 5⟩ ∧
      (∀ target, ¬ (∅ : Tree).Leads false path.names target) ∧
      (∅ : Tree).complete false "a[0].b" 6 = none := by
  let below : Tree := (∅ : Tree).insert "bar" .undefined
  let attr : Attribute := .mk (.container .list (.complex below)) .readWrite none
  let tree : Tree := (∅ : Tree).insert "a" attr
  have hparse : AttributePath.parse "a[0]" = .ok ⟨.one "a", "", .closeBracket, 4, none⟩ := rfl
  have hcomplete : AttributePath.IsComplete ⟨.one "a", "", .closeBracket, 4, none⟩ :=
    ⟨rfl, .inr rfl⟩
  have hleads : tree.Leads false ["a"] below := .down rfl rfl rfl .here
  have hbelow : below.complete false "b" 1 = some ⟨["bar"], 0⟩ := by decide
  have hnowhere : ∀ target, ¬ (∅ : Tree).Leads false ["a"] target := by
    intro target h
    cases h with
    | down hget => cases hget
  have hjoined := (complete_joined hparse hcomplete false tree "b").1 below hleads
  have hnothing := (complete_joined hparse hcomplete false ∅ "b").2 hnowhere
  exact ⟨tree, below, _, hparse, hcomplete, hleads, hbelow,
    hjoined.trans (congrArg (Option.map (·.shift 5)) hbelow), hnowhere, hnothing⟩

end Tree

end AttributeShell
