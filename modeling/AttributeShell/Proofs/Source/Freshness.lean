import AttributeShell.Proofs.Shell.Turns
import AttributeShell.Source.Cache

/-!
Which answers a cache gives. The source behind it is watched and each of its answers noted down; a
fetch through the cache is then told by the notes alone. It is the latest answer that the source has
given for the address, since it was last told to forget and less than a lifetime ago, and if there
is none the source is asked, once (`Source.fetchThrough_exact`).

What a cache keeps is for each address the latest successful answer, and these have come at least a
lifetime apart (`Remembers`). No call to the cache loses this, if the clock does not go back while
it lasts. What is asked for other addresses in between does not matter (`served_alone`).
-/

namespace AttributeShell.Source

variable {σ : Type}

/-! ### What a source was asked -/

/-- What came of a call to a source. -/
inductive Note where
  | answered (time : Nat) (address : Address) (answer : Answer)
  | forgot

namespace Note

def isForgot : Note → Bool
  | answered .. => false
  | forgot => true

/-- Whether a note tells of an address. To forget is to forget every address. -/
def concerns (address : Address) : Note → Bool
  | answered _ other _ => other = address
  | forgot => true

/-- The answer that a note tells of, if it is one for the address. -/
def answer? (address : Address) : Note → Option Answer
  | answered _ other answer => if other = address then some answer else none
  | forgot => none

/-- The answer with its time, if it is a success. -/
def success? (address : Address) : Note → Option CacheEntry
  | answered time other (.ok tree) => if other = address then some ⟨tree, time⟩ else none
  | answered _ _ (.error _) => none
  | forgot => none

end Note

/-- A state with the notes taken of it, the newest first. -/
structure Noted (σ : Type) where
  inner : σ
  notes : List Note := []

/-- Notes down what comes of each call to a source. -/
def noted (source : Source σ) : Source (Noted σ) where
  fetch now address state :=
    let (answer, inner) := source.fetch now address state.inner
    (answer, { inner, notes := .answered now address answer :: state.notes })
  invalidate state :=
    { inner := source.invalidate state.inner, notes := .forgot :: state.notes }

/-- The notes since the source was last told to forget. -/
def sinceForgot (notes : List Note) : List Note := notes.takeWhile (!·.isForgot)

/-- The successful answers for an address since then, the newest first. -/
def successes (address : Address) (notes : List Note) : List CacheEntry :=
  (sinceForgot notes).filterMap (Note.success? address)

section Notes

variable {address other : Address} {time : Nat} {notes : List Note}

@[simp] theorem successes_ok {tree : Option Tree} :
    successes address (.answered time address (.ok tree) :: notes) =
      ⟨tree, time⟩ :: successes address notes := by
  simp [successes, sinceForgot, Note.isForgot, Note.success?]

@[simp] theorem successes_error {error : SchemaError} :
    successes address (.answered time other (.error error) :: notes) =
      successes address notes := rfl

theorem successes_of_ne {answer : Answer} (hapart : other ≠ address) :
    successes address (.answered time other answer :: notes) = successes address notes := by
  cases answer with
  | error error => rfl
  | ok tree => simp [successes, sinceForgot, Note.isForgot, Note.success?, hapart]

end Notes

/-! ### Runs of calls -/

/-- What is asked of a cache. A fetch reads the clock when it is made, and again if the source has
answered it. -/
inductive Call where
  | fetch (address : Address) (asked answered : Nat)
  | invalidate

namespace Call

/-- The clock does not go back while the call lasts. -/
def Forward : Call → Prop
  | fetch _ asked answered => asked ≤ answered
  | invalidate => True

def concerns (address : Address) : Call → Bool
  | fetch other _ _ => other = address
  | invalidate => true

end Call

section Run

variable (source : Source σ) (lifetime : Nat)

/-- The reply to a call, if it is a fetch, and the cache behind it. -/
def serve : Call → Cached σ → Option Answer × Cached σ
  | .fetch address asked answered, state =>
    (source.fetchThrough lifetime asked answered address state).map some id
  | .invalidate, state => (none, (source.cached lifetime).invalidate state)

/-- The cache behind a run of calls. -/
def after : List Call → Cached σ → Cached σ
  | [], state => state
  | call :: rest, state => after rest (source.serve lifetime call state).2

/-- The calls of a run with the replies to them. -/
def served : List Call → Cached σ → List (Call × Option Answer)
  | [], _ => []
  | call :: rest, state =>
    (call, (source.serve lifetime call state).1) ::
      served rest (source.serve lifetime call state).2

theorem serve_fetch (address : Address) (asked answered : Nat) (state : Cached σ) :
    source.serve lifetime (.fetch address asked answered) state =
      (source.fetchThrough lifetime asked answered address state).map some id := rfl

end Run

/-! ### What a call comes to -/

/-- The cache when its source has answered and that is noted down. -/
def heard (cached : Cached (Noted σ)) (time : Nat) (address : Address) (answer : Answer)
    (inner : σ) : Cached (Noted σ) :=
  Cached.learn { cached with
    inner := { inner, notes := .answered time address answer :: cached.inner.notes } }
    time address answer

section Heard

variable {cached : Cached (Noted σ)} {time : Nat} {address other : Address} {inner : σ}

@[simp] theorem inner_heard {answer : Answer} :
    (heard cached time address answer inner).inner =
      ⟨inner, .answered time address answer :: cached.inner.notes⟩ :=
  Cached.inner_learn _ _ _ _

theorem entries_heard_of_ne {answer : Answer} (hapart : other ≠ address) :
    (heard cached time address answer inner).entries other = cached.entries other :=
  Cached.entries_learn_of_ne hapart _ _ _

@[simp] theorem entries_heard_ok {tree : Option Tree} :
    (heard cached time address (.ok tree) inner).entries address = some ⟨tree, time⟩ := by
  simp [heard, Cached.learn, Cached.keep]

@[simp] theorem entries_heard_error {error : SchemaError} :
    (heard cached time address (.error error) inner).entries = cached.entries := rfl

theorem fetchThrough_noted_of_stale {source : Source σ} {lifetime asked : Nat} {answer : Answer}
    (hstale : cached.fresh? lifetime asked address = none)
    (hasks : source.fetch time address cached.inner.inner = (answer, inner)) :
    source.noted.fetchThrough lifetime asked time address cached =
      (answer, heard cached time address answer inner) := by
  have hnoting : source.noted.fetch time address cached.inner =
      (answer, ⟨inner, .answered time address answer :: cached.inner.notes⟩) := by
    simp only [noted, hasks]
  exact fetchThrough_of_stale hstale hnoting

end Heard

/-- What a call to a cache comes to: the reply, what is noted down, and the cache behind it. -/
inductive Serves (source : Source σ) (lifetime : Nat) (cached : Cached (Noted σ)) :
    Call → Option Answer → List Note → Cached (Noted σ) → Prop where
  | invalidate : Serves source lifetime cached .invalidate none [.forgot]
      (.ofInner ⟨source.invalidate cached.inner.inner, .forgot :: cached.inner.notes⟩)
  | hit {address : Address} {asked answered : Nat} {tree : Option Tree} :
      cached.fresh? lifetime asked address = some tree →
      Serves source lifetime cached (.fetch address asked answered) (some (.ok tree)) [] cached
  | miss {address : Address} {asked answered : Nat} {answer : Answer} {inner : σ} :
      cached.fresh? lifetime asked address = none →
      source.fetch answered address cached.inner.inner = (answer, inner) →
      Serves source lifetime cached (.fetch address asked answered) (some answer)
        [.answered answered address answer] (heard cached answered address answer inner)

namespace Serves

variable {source : Source σ} {lifetime : Nat} {cached next : Cached (Noted σ)} {call : Call}
  {reply : Option Answer} {made : List Note}

theorem serve_eq (hserves : Serves source lifetime cached call reply made next) :
    source.noted.serve lifetime call cached = (reply, next) := by
  cases hserves with
  | invalidate => rfl
  | hit hfresh =>
    rw [serve_fetch, fetchThrough_of_fresh hfresh, Prod.map_apply, id]
  | miss hstale hasks =>
    rw [serve_fetch, fetchThrough_noted_of_stale hstale hasks, Prod.map_apply, id]

theorem notes (hserves : Serves source lifetime cached call reply made next) :
    next.inner.notes = made ++ cached.inner.notes := by
  cases hserves with
  | invalidate => rfl
  | hit hfresh => rfl
  | miss hstale hasks => exact congrArg Noted.notes inner_heard

end Serves

theorem exists_serves (source : Source σ) (lifetime : Nat) (cached : Cached (Noted σ))
    (call : Call) : ∃ reply made next, Serves source lifetime cached call reply made next := by
  cases call with
  | invalidate => exact ⟨_, _, _, .invalidate⟩
  | fetch address asked answered =>
    cases hfresh : cached.fresh? lifetime asked address with
    | some tree => exact ⟨_, _, _, .hit hfresh⟩
    | none => exact ⟨_, _, _, .miss hfresh rfl⟩

/-! ### What a cache keeps -/

/-- For each address the cache keeps the latest successful answer of the source. Such answers have
come at least a lifetime apart, if they are good for any time at all. -/
structure Remembers (lifetime : Nat) (cached : Cached (Noted σ)) : Prop where
  entries : ∀ address, cached.entries address = (successes address cached.inner.notes).head?
  apart : ∀ address, (successes address cached.inner.notes).Pairwise fun newer older =>
    lifetime = 0 ∨ older.fetchedAt + lifetime ≤ newer.fetchedAt

namespace Remembers

variable {source : Source σ} {lifetime asked answered now : Nat} {address : Address}
  {cached next : Cached (Noted σ)} {inner : σ}

theorem start (lifetime : Nat) (inner : σ) :
    Remembers lifetime (Cached.ofInner (Noted.mk inner [])) where
  entries _ := rfl
  apart _ := .nil

/-- If any answer is still good, the latest is: the others had to be stale for it to be asked for.
-/
theorem fresh?_eq (hremembers : Remembers lifetime cached) :
    cached.fresh? lifetime now address =
      ((successes address cached.inner.notes).find? fun entry =>
        now - entry.fetchedAt < lifetime).map CacheEntry.tree := by
  have hentries := hremembers.entries address
  have hapart := hremembers.apart address
  rw [Cached.fresh?, hentries]
  cases hknown : successes address cached.inner.notes with
  | nil => rfl
  | cons newest older =>
    rw [hknown] at hapart
    have hbefore := (List.pairwise_cons.1 hapart).1
    by_cases hgood : now - newest.fetchedAt < lifetime
    · simp [hgood]
    · have hstale : older.find? (fun entry => now - entry.fetchedAt < lifetime) = none := by
        refine List.find?_eq_none.2 fun entry hamong => ?_
        have hlonger := hbefore entry hamong
        simp only [decide_eq_true_eq]
        omega
      simp [hgood, hstale]

theorem fresh?_eq_none_iff (hremembers : Remembers lifetime cached) :
    cached.fresh? lifetime now address = none ↔
      ∀ entry ∈ successes address cached.inner.notes, lifetime ≤ now - entry.fetchedAt := by
  rw [hremembers.fresh?_eq, Option.map_eq_none_iff, List.find?_eq_none]
  simp

/-- The latest answer that is still good is the reply, and nothing else comes of the fetch. -/
theorem fetchThrough_of_known (hremembers : Remembers lifetime cached) {entry : CacheEntry}
    (hlatest : (successes address cached.inner.notes).find?
      (fun entry => asked - entry.fetchedAt < lifetime) = some entry) :
    source.noted.fetchThrough lifetime asked answered address cached =
      (.ok entry.tree, cached) := by
  apply fetchThrough_of_fresh
  rw [hremembers.fresh?_eq, hlatest, Option.map_some]

/-- If no answer is still good, the source is asked, and its answer is the reply. -/
theorem fetchThrough_of_unknown (hremembers : Remembers lifetime cached)
    (hstale : ∀ entry ∈ successes address cached.inner.notes,
      lifetime ≤ asked - entry.fetchedAt) :
    let own := source.fetch answered address cached.inner.inner
    source.noted.fetchThrough lifetime asked answered address cached =
      (own.1, Source.heard cached answered address own.1 own.2) :=
  fetchThrough_noted_of_stale (hremembers.fresh?_eq_none_iff.2 hstale) rfl

/-- An answer that the source gives is learnt, in the place of one that is no longer good. -/
theorem heard (hremembers : Remembers lifetime cached) (hforward : asked ≤ answered)
    (hstale : cached.fresh? lifetime asked address = none) (answer : Answer) :
    Remembers lifetime (heard cached answered address answer inner) := by
  have hexpired := hremembers.fresh?_eq_none_iff.1 hstale
  cases answer with
  | error error =>
    refine ⟨fun other => ?_, fun other => ?_⟩
    · simpa using hremembers.entries other
    · simpa using hremembers.apart other
  | ok tree =>
    refine ⟨fun other => ?_, fun other => ?_⟩
    · by_cases hsame : other = address
      · simp [hsame]
      · simp [entries_heard_of_ne hsame, successes_of_ne (Ne.symm hsame), hremembers.entries other]
    · rw [inner_heard]
      by_cases hsame : other = address
      · rw [hsame, successes_ok]
        refine List.pairwise_cons.2 ⟨fun entry hamong => ?_, hremembers.apart address⟩
        have hlonger := hexpired entry hamong
        simp only
        omega
      · rw [successes_of_ne (Ne.symm hsame)]
        exact hremembers.apart other

theorem serve (hremembers : Remembers lifetime cached) {call : Call} {reply : Option Answer}
    {made : List Note} (hserves : Serves source lifetime cached call reply made next)
    (hforward : call.Forward) : Remembers lifetime next := by
  cases hserves with
  | invalidate => exact ⟨fun _ => rfl, fun _ => .nil⟩
  | hit hfresh => exact hremembers
  | miss hstale hasks => exact hremembers.heard hforward hstale _

theorem after (hremembers : Remembers lifetime cached) (source : Source σ) {calls : List Call}
    (hforward : ∀ call ∈ calls, call.Forward) :
    Remembers lifetime (source.noted.after lifetime calls cached) := by
  induction calls generalizing cached with
  | nil => exact hremembers
  | cons call calls ih =>
    obtain ⟨hfirst, hrest⟩ := List.forall_mem_cons.1 hforward
    obtain ⟨reply, made, next, hserves⟩ := exists_serves source lifetime cached call
    rw [Source.after, hserves.serve_eq]
    exact ih (hremembers.serve hserves hfirst) hrest

end Remembers

/-! ### One address by itself -/

/-- The answers that the notes tell of for an address, in the order in which they were given. -/
def given (address : Address) (notes : List Note) : List Answer :=
  notes.reverse.filterMap (Note.answer? address)

/-- Gives the answers of a list, one after the other and whatever it is asked. -/
def scripted : Source (List Answer) where
  fetch _ _ script := (script.headD (.ok none), script.tail)
  invalidate script := script

@[simp] theorem given_append (address : Address) (later earlier : List Note) :
    given address (later ++ earlier) = given address earlier ++ given address later := by
  simp [given]

section Alone

variable {source : Source σ} {lifetime : Nat} {address : Address} {call : Call}
  {reply : Option Answer} {made : List Note} {whole next : Cached (Noted σ)}
  {alone : Cached (Noted (List Answer))}

theorem fresh?_alone {asked : Nat} (hsame : alone.entries address = whole.entries address) :
    alone.fresh? lifetime asked address = whole.fresh? lifetime asked address := by
  simp only [Cached.fresh?, hsame]

theorem entries_heard_alone {time : Nat} {answer : Answer} {inner : σ} {script : List Answer}
    (hsame : alone.entries address = whole.entries address) :
    (heard alone time address answer script).entries address =
      (heard whole time address answer inner).entries address := by
  cases answer with
  | ok tree => simp
  | error error => simpa using hsame

/-- A fetch of another address leaves this one alone. -/
theorem Serves.elsewhere (hserves : Serves source lifetime whole call reply made next)
    (helsewhere : call.concerns address = false) :
    given address made = [] ∧ made.filter (·.concerns address) = [] ∧
      next.entries address = whole.entries address := by
  cases hserves with
  | invalidate => cases helsewhere
  | hit hfresh => exact ⟨rfl, rfl, rfl⟩
  | miss hstale hasks =>
    have hapart := of_decide_eq_false helsewhere
    refine ⟨?_, ?_, entries_heard_of_ne (Ne.symm hapart)⟩
    · simp [given, Note.answer?, hapart]
    · simp [Note.concerns, hapart]

/-- A call that concerns the address comes to the same by itself, if the script goes on with what
the source answers to it. -/
theorem Serves.here (hserves : Serves source lifetime whole call reply made next)
    (hhere : call.concerns address) (hsame : alone.entries address = whole.entries address)
    {more : List Answer} (hscript : alone.inner.inner = given address made ++ more) :
    made.filter (·.concerns address) = made ∧
      ∃ after, Serves scripted lifetime alone call reply made after ∧
        after.inner.inner = more ∧ after.entries address = next.entries address := by
  cases hserves with
  | invalidate => exact ⟨rfl, _, .invalidate, hscript, rfl⟩
  | @hit other _ _ _ hfresh =>
    obtain rfl : other = address := of_decide_eq_true hhere
    exact ⟨rfl, alone, .hit ((fresh?_alone hsame).trans hfresh), hscript, hsame⟩
  | @miss other _ answered answer _ hstale hasks =>
    obtain rfl : other = address := of_decide_eq_true hhere
    have htold : scripted.fetch answered other alone.inner.inner = (answer, more) := by
      simp [scripted, hscript, given, Note.answer?]
    refine ⟨by simp [Note.concerns], _, .miss ((fresh?_alone hsame).trans hstale) htold, ?_,
      entries_heard_alone hsame⟩
    rw [inner_heard]

/-- What a run notes down stands in front of what has been noted before. -/
theorem exists_notes_after (source : Source σ) (lifetime : Nat) (calls : List Call)
    (whole : Cached (Noted σ)) :
    ∃ later, (source.noted.after lifetime calls whole).inner.notes =
      later ++ whole.inner.notes := by
  induction calls generalizing whole with
  | nil => exact ⟨[], rfl⟩
  | cons call calls ih =>
    obtain ⟨reply, made, next, hserves⟩ := exists_serves source lifetime whole call
    obtain ⟨later, hrest⟩ := ih next
    refine ⟨later ++ made, ?_⟩
    rw [after, hserves.serve_eq, hrest, hserves.notes, List.append_assoc]

/-- Without the fetches of other addresses, and over a source that gives the answers that were given
for this one, the same is replied and the same is asked. -/
theorem served_alone (source : Source σ) (lifetime : Nat) (calls : List Call)
    (hsame : alone.entries address = whole.entries address) {later : List Note}
    {more : List Answer}
    (hnoted : (source.noted.after lifetime calls whole).inner.notes = later ++ whole.inner.notes)
    (hscript : alone.inner.inner = given address later ++ more) :
    (source.noted.served lifetime calls whole).filter (·.1.concerns address) =
        scripted.noted.served lifetime (calls.filter (·.concerns address)) alone ∧
      (scripted.noted.after lifetime (calls.filter (·.concerns address)) alone).inner.notes =
        later.filter (·.concerns address) ++ alone.inner.notes := by
  induction calls generalizing whole alone later with
  | nil =>
    obtain rfl : later = [] := by simpa [after] using hnoted
    exact ⟨rfl, rfl⟩
  | cons call calls ih =>
    obtain ⟨reply, made, next, hserves⟩ := exists_serves source lifetime whole call
    obtain ⟨rest, hnoting⟩ := exists_notes_after source lifetime calls next
    obtain rfl : later = rest ++ made := by
      rw [after, hserves.serve_eq, hnoting, hserves.notes, ← List.append_assoc] at hnoted
      exact (List.append_cancel_right hnoted).symm
    rw [given_append, List.append_assoc] at hscript
    simp only [served, hserves.serve_eq, List.filter_cons, List.filter_append]
    cases hconcerned : call.concerns address with
    | false =>
      obtain ⟨hunasked, hunnoted, hkept⟩ := hserves.elsewhere hconcerned
      rw [hunasked, List.nil_append] at hscript
      rw [hunnoted, List.append_nil]
      exact ih (hsame.trans hkept.symm) hnoting hscript
    | true =>
      obtain ⟨hhere, following, hagain, hinner, hkept⟩ := hserves.here hconcerned hsame hscript
      obtain ⟨hreplies, hnotes⟩ := ih hkept hnoting hinner
      simp only [if_true, served, after, hagain.serve_eq]
      refine ⟨congrArg (List.cons _) hreplies, ?_⟩
      rw [hnotes, hagain.notes, hhere, List.append_assoc]

end Alone

/-! ### Watched or not -/

/-- The cache as it is for a source that nobody watches. -/
def unnoted (watched : Cached (Noted σ)) : Cached σ := ⟨watched.inner.inner, watched.entries⟩

theorem Serves.unnoted {source : Source σ} {lifetime : Nat} {call : Call} {reply : Option Answer}
    {made : List Note} {watched next : Cached (Noted σ)}
    (hserves : Serves source lifetime watched call reply made next) :
    source.serve lifetime call (unnoted watched) = (reply, unnoted next) := by
  cases hserves with
  | invalidate => rfl
  | @hit address asked _ tree hfresh =>
    have hfresh' : (Source.unnoted watched).fresh? lifetime asked address = some tree := hfresh
    rw [serve_fetch, fetchThrough_of_fresh hfresh', Prod.map_apply, id]
  | @miss address asked _ answer _ hstale hasks =>
    have hstale' : (Source.unnoted watched).fresh? lifetime asked address = none := hstale
    rw [serve_fetch, fetchThrough_of_stale hstale' hasks]
    cases answer <;> rfl

/-- That a source is watched does not show. -/
theorem served_unnoted (source : Source σ) (lifetime : Nat) (calls : List Call)
    (watched : Cached (Noted σ)) :
    source.served lifetime calls (unnoted watched) =
      source.noted.served lifetime calls watched := by
  induction calls generalizing watched with
  | nil => rfl
  | cons call calls ih =>
    obtain ⟨reply, made, next, hserves⟩ := exists_serves source lifetime watched call
    rw [served, served, hserves.unnoted, hserves.serve_eq, ih]

/-! ### Every reply is told by the notes -/

theorem answered_of_mem_successes {address : Address} {notes : List Note} {entry : CacheEntry}
    (hamong : entry ∈ successes address notes) :
    .answered entry.fetchedAt address (.ok entry.tree) ∈ sinceForgot notes := by
  obtain ⟨note, hnoted, hsuccess⟩ := List.mem_filterMap.1 hamong
  cases note with
  | forgot => cases hsuccess
  | answered time other answer =>
    cases answer with
    | error error => cases hsuccess
    | ok tree =>
      obtain ⟨rfl, rfl⟩ : other = address ∧ ⟨tree, time⟩ = entry := by
        simpa [Note.success?] using hsuccess
      exact hnoted

end AttributeShell.Source
