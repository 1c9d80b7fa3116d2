import AttributeShell.Source.Basic

/-!
Keeping the answers of a source for a while. An answer is good for less than its lifetime after it
was fetched; errors are not kept.
-/

namespace AttributeShell

/-- An answer that was fetched at some time. -/
structure CacheEntry where
  tree : Option Tree
  fetchedAt : Nat

/-- The state of a source, with the answers kept of it. -/
structure Cached (σ : Type) where
  inner : σ
  entries : Address → Option CacheEntry

namespace Cached

variable {σ : Type}

def ofInner (inner : σ) : Cached σ := ⟨inner, fun _ => none⟩

/-- The answer kept for an address, if it is still good. -/
def fresh? (cached : Cached σ) (lifetime now : Nat) (address : Address) : Option (Option Tree) :=
  match cached.entries address with
  | some entry => if now - entry.fetchedAt < lifetime then some entry.tree else none
  | none => none

def keep (cached : Cached σ) (now : Nat) (address : Address) (tree : Option Tree) : Cached σ :=
  { cached with
    entries := fun other =>
      if other = address then some ⟨tree, now⟩ else cached.entries other }

/-- Keeps an answer, unless it is an error. -/
def learn (cached : Cached σ) (now : Nat) (address : Address) : Answer → Cached σ
  | .ok tree => cached.keep now address tree
  | .error _ => cached

@[simp] theorem inner_learn (cached : Cached σ) (now : Nat) (address : Address)
    (answer : Answer) : (cached.learn now address answer).inner = cached.inner := by
  cases answer <;> rfl

theorem entries_learn_of_ne {address other : Address} (hapart : other ≠ address)
    (cached : Cached σ) (now : Nat) (answer : Answer) :
    (cached.learn now address answer).entries other = cached.entries other := by
  cases answer with
  | ok tree => simp [learn, keep, hapart]
  | error error => rfl

end Cached

namespace Source

variable {σ : Type}

/-- Fetches through the answers that are kept, and asks the source only if none is still good. The
clock is read when the fetch is made, and again when the source has answered. -/
def fetchThrough (source : Source σ) (lifetime asked answered : Nat) (address : Address)
    (state : Cached σ) : Answer × Cached σ :=
  match state.fresh? lifetime asked address with
  | some tree => (.ok tree, state)
  | none =>
    let (answer, inner) := source.fetch answered address state.inner
    (answer, { state with inner }.learn answered address answer)

/-- A source that asks another one only if no answer of it is still good. It is told a single time
for each fetch. -/
def cached (source : Source σ) (lifetime : Nat) : Source (Cached σ) where
  fetch now := source.fetchThrough lifetime now now
  invalidate state := .ofInner (source.invalidate state.inner)

theorem cached_fetch (source : Source σ) (lifetime now : Nat) :
    (source.cached lifetime).fetch now = source.fetchThrough lifetime now now := rfl

theorem fetchThrough_of_fresh {source : Source σ} {lifetime asked answered : Nat}
    {address : Address} {cached : Cached σ} {tree : Option Tree}
    (hfresh : cached.fresh? lifetime asked address = some tree) :
    source.fetchThrough lifetime asked answered address cached = (.ok tree, cached) := by
  simp only [fetchThrough, hfresh]

theorem fetchThrough_of_stale {source : Source σ} {lifetime asked answered : Nat}
    {address : Address} {cached : Cached σ} {answer : Answer} {inner : σ}
    (hstale : cached.fresh? lifetime asked address = none)
    (hknown : source.fetch answered address cached.inner = (answer, inner)) :
    source.fetchThrough lifetime asked answered address cached =
      (answer, { cached with inner }.learn answered address answer) := by
  simp only [fetchThrough, hstale, hknown]

end Source

end AttributeShell
