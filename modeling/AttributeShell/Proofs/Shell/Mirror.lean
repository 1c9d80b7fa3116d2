import AttributeShell.Shell.Session

/-!
Two shells over two sources. If the sources mirror each other, that is, if they answer alike out of
states that stand in a relation, then whatever is asked of the two shells has the same outcome, and
their sessions stay the same. One lemma says so for each thing that a shell does; `takes_alike` is
the run.
-/

namespace AttributeShell

namespace Shell

/-- What is asked of a shell. -/
inductive Step where
  /-- To run a line. -/
  | line (text : String)
  /-- To complete a line at a position. -/
  | complete (line : String) (position : Nat)
  /-- To complete it with descriptions of the candidates. -/
  | suggest (line : String) (position : Nat)

/-- What comes of a step. -/
inductive Outcome where
  | replied (reply : Except ShellError Reply)
  | completed (completion : Option Completion)
  | suggested (suggestions : List Suggestion)

variable {σ : Type} (source : Source σ)

def take (now : Nat) : Step → Shell σ → Outcome × Shell σ
  | .line text, shell => (shell.runLine source now text).map .replied id
  | .complete line position, shell => (shell.complete source now line position).map .completed id
  | .suggest line position, shell => (shell.suggest source now line position).map .suggested id

/-- Takes steps one after the other, each at its own time: what came of each and how the session was
set behind it, and the shell that is left. -/
def takes : List (Nat × Step) → Shell σ → List (Outcome × Session) × Shell σ
  | [], shell => ([], shell)
  | (now, step) :: rest, shell =>
    let (outcome, next) := shell.take source now step
    let (more, last) := takes rest next
    ((outcome, next.session) :: more, last)

end Shell

/-- Two sources that give the same answers out of related states, whatever the time on either side,
and whose states stay related. -/
structure Source.Mirrors {σ τ : Type} (left : Source σ) (right : Source τ)
    (related : σ → τ → Prop) : Prop where
  answer : ∀ {s t}, related s t → ∀ now now' address,
    (left.fetch now address s).1 = (right.fetch now' address t).1
  fetch : ∀ {s t}, related s t → ∀ now now' address,
    related (left.fetch now address s).2 (right.fetch now' address t).2
  invalidate : ∀ {s t}, related s t → related (left.invalidate s) (right.invalidate t)

variable {σ τ : Type}

/-- Two shells with the same session over related states. -/
structure Abreast (related : σ → τ → Prop) (left : Shell σ) (right : Shell τ) : Prop where
  session : left.session = right.session
  source : related left.source right.source

/-- The same result of two shells that are abreast behind it. -/
def Alike {α : Type} (related : σ → τ → Prop) (left : α × Shell σ) (right : α × Shell τ) : Prop :=
  ∃ result s t, left = (result, s) ∧ right = (result, t) ∧ Abreast related s t

variable {related : σ → τ → Prop}

theorem Abreast.alike {α : Type} {s : Shell σ} {t : Shell τ} (habreast : Abreast related s t)
    (result : α) : Alike related (result, s) (result, t) :=
  ⟨result, s, t, rfl, rfl, habreast⟩

theorem Abreast.update {s : Shell σ} {t : Shell τ} (habreast : Abreast related s t)
    (change : Session → Session) :
    Abreast related { s with session := change s.session }
      { t with session := change t.session } :=
  ⟨congrArg change habreast.session, habreast.source⟩

theorem Alike.map {α β : Type} {left : α × Shell σ} {right : α × Shell τ} (f : α → β)
    (halike : Alike related left right) : Alike related (left.map f id) (right.map f id) := by
  obtain ⟨result, s, t, rfl, rfl, habreast⟩ := halike
  exact habreast.alike (f result)

namespace Source.Mirrors

variable {left : Source σ} {right : Source τ} (hmirrors : left.Mirrors right related)
  {s : Shell σ} {t : Shell τ} (habreast : Abreast related s t) (now now' : Nat)

include hmirrors habreast

theorem fetch_alike (address : Address) :
    Alike related (s.fetch left now address) (t.fetch right now' address) := by
  refine ⟨(left.fetch now address s.source).1, (s.fetch left now address).2,
    (t.fetch right now' address).2, rfl, ?_, ?_⟩
  · rw [hmirrors.answer habreast.source now now' address]
    rfl
  · exact ⟨habreast.session, hmirrors.fetch habreast.source now now' address⟩

theorem schema?_alike : Alike related (s.schema? left now) (t.schema? right now') := by
  obtain ⟨answer, s', t', hs, ht, habreast'⟩ :=
    hmirrors.fetch_alike habreast now now' t.session.address
  unfold Shell.schema?
  rw [habreast.session, hs, ht]
  cases answer with
  | ok tree => exact habreast'.alike tree
  | error error => exact habreast'.alike none

theorem complete_alike (line : String) (position : Nat) :
    Alike related (s.complete left now line position) (t.complete right now' line position) := by
  unfold Shell.complete
  cases AttributePath.before? line position with
  | none => exact habreast.alike none
  | some path =>
    obtain ⟨known, s', t', hs, ht, habreast'⟩ := hmirrors.schema?_alike habreast now now'
    simp only [hs, ht]
    cases known with
    | none => exact habreast'.alike none
    | some tree =>
      dsimp only
      rw [habreast'.session]
      exact habreast'.alike (tree.resolve t'.session.writableOnly path)

theorem describe_alike (expression : String) :
    Alike related (s.describe left now expression) (t.describe right now' expression) := by
  unfold Shell.describe
  cases AttributePath.finishedNames? expression with
  | none => exact habreast.alike none
  | some names =>
    obtain ⟨known, s', t', hs, ht, habreast'⟩ := hmirrors.schema?_alike habreast now now'
    simp only [hs, ht]
    cases known with
    | none => exact habreast'.alike none
    | some tree => exact habreast'.alike (tree.lookup names)

theorem describeCandidate_alike (line : String) (start : Nat) (candidate : String) :
    Alike related (s.describeCandidate left now line start candidate)
      (t.describeCandidate right now' line start candidate) := by
  unfold Shell.describeCandidate
  cases Suggestion.expression? line start candidate with
  | none => exact habreast.alike none
  | some expression =>
    obtain ⟨attr, s', t', hs, ht, habreast'⟩ := hmirrors.describe_alike habreast now now' expression
    simp only [hs, ht]
    exact habreast'.alike (attr.bind Attribute.description)

theorem suggestAll_alike (line : String) (start stop : Nat) (candidates : List String) :
    Alike related (s.suggestAll left now line start stop candidates)
      (t.suggestAll right now' line start stop candidates) := by
  induction candidates generalizing s t with
  | nil => exact habreast.alike []
  | cons candidate rest ih =>
    obtain ⟨description, s', t', hs, ht, habreast'⟩ :=
      hmirrors.describeCandidate_alike habreast now now' line start candidate
    obtain ⟨more, s'', t'', hs', ht', habreast''⟩ := ih habreast'
    simp only [Shell.suggestAll, hs, ht, hs', ht']
    exact habreast''.alike _

theorem suggest_alike (line : String) (position : Nat) :
    Alike related (s.suggest left now line position) (t.suggest right now' line position) := by
  obtain ⟨completion, s', t', hs, ht, habreast'⟩ :=
    hmirrors.complete_alike habreast now now' line position
  simp only [Shell.suggest, hs, ht]
  cases completion with
  | none => exact habreast'.alike []
  | some completion =>
    exact hmirrors.suggestAll_alike habreast' now now' line completion.offset position
      completion.candidates

theorem runDescribe_alike (path : String) :
    Alike related (s.runDescribe left now path) (t.runDescribe right now' path) := by
  unfold Shell.runDescribe
  cases AttributePath.parse path with
  | error error => exact habreast.alike _
  | ok parsed =>
    obtain ⟨known, s', t', hs, ht, habreast'⟩ := hmirrors.schema?_alike habreast now now'
    simp only [hs, ht]
    cases known with
    | none =>
      dsimp only
      rw [habreast'.session]
      exact habreast'.alike _
    | some tree =>
      -- The second question finds the sources as the first one left them.
      obtain ⟨attr, s'', t'', hs', ht', habreast''⟩ :=
        hmirrors.describe_alike habreast' now now' path
      simp only [hs', ht']
      cases attr with
      | none => exact habreast''.alike _
      | some attr => exact habreast''.alike _

theorem runGoTo_alike (target : String) :
    Alike related (s.runGoTo left now target) (t.runGoTo right now' target) := by
  unfold Shell.runGoTo
  rw [habreast.session]
  cases t.session.address.resolve target with
  | error error => exact habreast.alike _
  | ok address =>
    obtain ⟨answer, s', t', hs, ht, habreast'⟩ := hmirrors.fetch_alike habreast now now' address
    simp only [hs, ht]
    cases answer with
    | error error => exact habreast'.alike _
    | ok tree =>
      have hmoved := habreast'.update fun session => { session with address }
      exact hmoved.alike _

theorem execute_alike (command : Command) :
    Alike related (s.execute left now command) (t.execute right now' command) := by
  cases command with
  | describe path => exact hmirrors.runDescribe_alike habreast now now' path
  | goTo target => exact hmirrors.runGoTo_alike habreast now now' target
  | writable enabled =>
    have hswitched := habreast.update fun session => { session with writableOnly := enabled }
    exact hswitched.alike _
  | reload =>
    have hreset : Abreast related { s with source := left.invalidate s.source }
        { t with source := right.invalidate t.source } :=
      ⟨habreast.session, hmirrors.invalidate habreast.source⟩
    exact hreset.alike _
  | help topic => exact habreast.alike _
  | exit => exact habreast.alike _

theorem runLine_alike (line : String) :
    Alike related (s.runLine left now line) (t.runLine right now' line) := by
  unfold Shell.runLine
  rw [habreast.session]
  rcases t.session.read line with ⟨error | command, session⟩
  · exact (habreast.update fun _ => session).alike _
  · exact hmirrors.execute_alike (habreast.update fun _ => session) now now' command

theorem take_alike (step : Shell.Step) :
    Alike related (s.take left now step) (t.take right now' step) := by
  cases step with
  | line text => exact (hmirrors.runLine_alike habreast now now' text).map Shell.Outcome.replied
  | complete line position =>
    exact (hmirrors.complete_alike habreast now now' line position).map Shell.Outcome.completed
  | suggest line position =>
    exact (hmirrors.suggest_alike habreast now now' line position).map Shell.Outcome.suggested

/-- Steps come to the same, and leave the same session behind each of them. -/
theorem takes_alike (steps : List (Nat × Shell.Step)) :
    Alike related (s.takes left steps) (t.takes right steps) := by
  induction steps generalizing s t with
  | nil => exact habreast.alike []
  | cons head steps ih =>
    obtain ⟨now, step⟩ := head
    obtain ⟨outcome, s', t', hs, ht, habreast'⟩ := hmirrors.take_alike habreast now now step
    obtain ⟨more, s'', t'', hs', ht', habreast''⟩ := ih habreast'
    simp only [Shell.takes, hs, ht, hs', ht', habreast'.session]
    exact habreast''.alike _

end Source.Mirrors

end AttributeShell
