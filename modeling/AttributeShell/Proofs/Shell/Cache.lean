import AttributeShell.Proofs.Shell.Mirror
import AttributeShell.Source.Cache
import AttributeShell.Source.Snapshot

/-!
A cache does not show. In front of a source whose answers do not change it keeps nothing but true
answers, so that it mirrors the source however long an answer is kept and whatever the clock says:
`mirrors_cached`. With what is known of two shells over such sources, a session over a cached
snapshot goes like a session over the snapshot itself.
-/

namespace AttributeShell

namespace Source

variable {σ : Type}

/-- A source that reads the time of each fetch off a clock, which counts the fetches. -/
def onClock (source : Source σ) (clock : Nat → Nat) : Source (σ × Nat) where
  fetch _ address state :=
    let (answer, inner) := source.fetch (clock state.2) address state.1
    (answer, (inner, state.2 + 1))
  invalidate state := (source.invalidate state.1, state.2)

/-- What a source answers out of a state, at the beginning of time. -/
def answer (source : Source σ) (state : σ) (address : Address) : Answer :=
  (source.fetch 0 address state).1

/-- A source in a state that nothing changes, so that it always answers the same. -/
structure Steady (source : Source σ) (state : σ) : Prop where
  fetch : ∀ now address, source.fetch now address state = (source.answer state address, state)
  invalidate : source.invalidate state = state

/-- A file with a snapshot in it answers the same for as long as nobody writes to it, be it readable
or not. -/
theorem steady_snapshot (path : String) (files : Files) : (snapshot path).Steady files where
  fetch now address := by
    simp only [answer, snapshot]
    cases Snapshot.load files path with
    | ok content => rfl
    | error error => rfl
  invalidate := rfl

theorem Steady.counted_fetch {source : Source σ} {state : σ} (hsteady : source.Steady state)
    {counted : Counted σ} (hinside : counted.inner = state) (now : Nat) (address : Address) :
    source.counted.fetch now address counted =
      (source.answer state address, { counted with fetches := counted.fetches + 1 }) := by
  subst hinside
  simp only [Source.counted, hsteady.fetch]

/-- How a cache in front of a steady source and the source alone stand to each other when the same
was asked of both: all that is kept is true, and the cache asked no more often. -/
structure Shadows (source : Source σ) (state : σ) (cached : Cached (Counted σ))
    (alone : Counted σ) : Prop where
  behind : cached.inner.inner = state
  beside : alone.inner = state
  kept : ∀ address entry, cached.entries address = some entry →
    source.answer state address = .ok entry.tree
  fetches : cached.inner.fetches ≤ alone.fetches
  invalidations : cached.inner.invalidations = alone.invalidations

namespace Shadows

variable {source : Source σ} {state : σ} {cached : Cached (Counted σ)} {alone : Counted σ}

theorem start (source : Source σ) (state : σ) :
    Shadows source state (.ofInner { inner := state }) { inner := state } where
  behind := rfl
  beside := rfl
  kept _ _ hentered := nomatch hentered
  fetches := Nat.le_refl 0
  invalidations := rfl

/-- What is still good is true. -/
theorem answer_of_fresh (hshadows : Shadows source state cached alone) {lifetime now : Nat}
    {address : Address} {tree : Option Tree}
    (hfresh : cached.fresh? lifetime now address = some tree) :
    source.answer state address = .ok tree := by
  unfold Cached.fresh? at hfresh
  split at hfresh
  · next entry hentered =>
    split at hfresh
    · obtain rfl := Option.some.inj hfresh
      exact hshadows.kept address entry hentered
    · cases hfresh
  · cases hfresh

/-- The source alone is asked, and the cache knows the answer. -/
theorem hit (hshadows : Shadows source state cached alone) :
    Shadows source state cached { alone with fetches := alone.fetches + 1 } :=
  { hshadows with fetches := Nat.le_succ_of_le hshadows.fetches }

/-- Both are asked. -/
theorem miss (hshadows : Shadows source state cached alone) :
    Shadows source state
      { cached with inner := { cached.inner with fetches := cached.inner.fetches + 1 } }
      { alone with fetches := alone.fetches + 1 } :=
  { hshadows with fetches := Nat.succ_le_succ hshadows.fetches }

/-- What is true may be kept. -/
theorem keep (hshadows : Shadows source state cached alone) (now : Nat) {address : Address}
    {tree : Option Tree} (hknown : source.answer state address = .ok tree) :
    Shadows source state (cached.keep now address tree) alone := by
  refine { hshadows with kept := fun other entry hentered => ?_ }
  unfold Cached.keep at hentered
  dsimp only at hentered
  split at hentered
  · next hsame =>
    obtain rfl := Option.some.inj hentered
    rw [hsame]
    exact hknown
  · exact hshadows.kept other entry hentered

/-- A fetch through the cache answers as the source does, and leaves nothing untrue behind. -/
theorem fetch_cached (hshadows : Shadows source state cached alone)
    (hsteady : source.Steady state) (lifetime now : Nat) (address : Address) :
    ∃ next,
      (source.counted.cached lifetime).fetch now address cached =
        (source.answer state address, next) ∧
      Shadows source state next { alone with fetches := alone.fetches + 1 } := by
  have hasked := hsteady.counted_fetch hshadows.behind now address
  rw [cached_fetch]
  cases hfresh : cached.fresh? lifetime now address with
  | some tree =>
    rw [hshadows.answer_of_fresh hfresh]
    exact ⟨_, fetchThrough_of_fresh hfresh, hshadows.hit⟩
  | none =>
    refine ⟨_, fetchThrough_of_stale hfresh hasked, ?_⟩
    cases hknown : source.answer state address with
    | error error => exact hshadows.miss
    | ok tree => exact hshadows.miss.keep now hknown

theorem invalidate (hshadows : Shadows source state cached alone)
    (hsteady : source.Steady state) (lifetime : Nat) :
    Shadows source state ((source.counted.cached lifetime).invalidate cached)
      (source.counted.invalidate alone) where
  behind := (congrArg source.invalidate hshadows.behind).trans hsteady.invalidate
  beside := (congrArg source.invalidate hshadows.beside).trans hsteady.invalidate
  kept _ _ hentered := nomatch hentered
  fetches := hshadows.fetches
  invalidations := congrArg (· + 1) hshadows.invalidations

end Shadows

/-- A cache in front of a steady source mirrors it, at whatever times it is asked. -/
theorem Steady.mirrors_cached {source : Source σ} {state : σ}
    (hsteady : source.Steady state) (lifetime : Nat) :
    (source.counted.cached lifetime).Mirrors source.counted (Shadows source state) where
  answer hshadows now now' address := by
    obtain ⟨next, hfetched, -⟩ := hshadows.fetch_cached hsteady lifetime now address
    rw [hfetched, hsteady.counted_fetch hshadows.beside]
  fetch hshadows now now' address := by
    obtain ⟨next, hfetched, hshadows'⟩ := hshadows.fetch_cached hsteady lifetime now address
    rw [hfetched, hsteady.counted_fetch hshadows.beside]
    exact hshadows'
  invalidate hshadows := hshadows.invalidate hsteady lifetime

/-- A source that mirrors another one at any time does so by any clock. -/
theorem Mirrors.onClock {τ : Type} {left : Source σ} {right : Source τ} {related : σ → τ → Prop}
    (hmirrors : left.Mirrors right related) (clock : Nat → Nat) :
    (left.onClock clock).Mirrors right (fun s t => related s.1 t) where
  answer {s _} hrelated _ now' address := hmirrors.answer hrelated (clock s.2) now' address
  fetch {s _} hrelated _ now' address := hmirrors.fetch hrelated (clock s.2) now' address
  invalidate hrelated := hmirrors.invalidate hrelated

end Source

/-- A cache in front of a snapshot that stays as it is does not show. Whatever the file holds, for
however long answers are kept and whatever time each fetch reads off the clock, a session takes the
same steps to the same outcomes, and stands the same behind each of them, as one that asks the
snapshot itself. Only the number of fetches may differ, and the cache makes no more of them. -/
theorem Shell.takes_cached (path : String) (files : Files) (session : Session) (lifetime : Nat)
    (clock : Nat → Nat) (steps : List (Nat × Step)) :
    let alone := (Source.snapshot path).counted
    let cached := (alone.cached lifetime).onClock clock
    let direct := Shell.takes alone steps ⟨session, { inner := files }⟩
    let through := Shell.takes cached steps ⟨session, .ofInner { inner := files }, 0⟩
    through.1 = direct.1 ∧ through.2.session = direct.2.session ∧
      through.2.source.1.inner.inner = files ∧ direct.2.source.inner = files ∧
      through.2.source.1.inner.invalidations = direct.2.source.invalidations ∧
      through.2.source.1.inner.fetches ≤ direct.2.source.fetches := by
  have habreast : Abreast (fun s t => Source.Shadows (Source.snapshot path) files s.1 t)
      (⟨session, .ofInner { inner := files }, 0⟩ : Shell (Cached (Source.Counted Files) × Nat))
      ⟨session, { inner := files }⟩ :=
    ⟨rfl, .start _ files⟩
  have hmirrors := ((Source.steady_snapshot path files).mirrors_cached lifetime).onClock clock
  obtain ⟨outcomes, s, t, hs, ht, habreast'⟩ := hmirrors.takes_alike habreast steps
  have hshadows := habreast'.source
  simp only [hs, ht]
  exact ⟨trivial, habreast'.session, hshadows.behind, hshadows.beside, hshadows.invalidations,
    hshadows.fetches⟩

end AttributeShell
