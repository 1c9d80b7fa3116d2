import AttributeShell.Address
import AttributeShell.Schema.Attribute

/-!
Where the attributes of a resource come from. A source has a state of its own, which a fetch may
change; it is told the time, so that its answers may depend on it.
-/

namespace AttributeShell

/-- What is known at an address: attributes, or nothing. -/
abbrev Answer := Except SchemaError (Option Tree)

/-- Answers fetches at a point in time, and can be told to forget what it keeps. -/
structure Source (σ : Type) where
  fetch : Nat → Address → σ → Answer × σ
  invalidate : σ → σ

namespace Source

variable {σ : Type}

/-- Fixed trees, whatever the state. -/
def fixed (trees : Address → Option Tree) : Source σ where
  fetch _ address state := (.ok (trees address), state)
  invalidate state := state

/-- The tree of an address in a list; of two entries for one address the later counts. -/
def treeIn (trees : List (Address × Tree)) (address : Address) : Option Tree :=
  (trees.reverse.find? (·.1 = address)).map (·.2)

/-- A state with the number of calls that came through to it. -/
structure Counted (σ : Type) where
  inner : σ
  fetches : Nat := 0
  invalidations : Nat := 0

/-- Counts the calls to a source. -/
def counted (source : Source σ) : Source (Counted σ) where
  fetch now address state :=
    let (answer, inner) := source.fetch now address state.inner
    (answer, { state with inner, fetches := state.fetches + 1 })
  invalidate state :=
    { state with inner := source.invalidate state.inner, invalidations := state.invalidations + 1 }

end Source

end AttributeShell
