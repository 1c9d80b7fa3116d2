import AttributeShell.Shell.Session

/-!
What a run of lines makes of a session. One turn can do four things to it, and only a command that
succeeds changes where the session is or what it hides: `moves_turn`. From these a whole run is
accounted for by the commands that succeeded in it, whatever the source answers to the fetches in
between: `accounts_turns`.
-/

namespace AttributeShell

namespace Command

/-- Where a command leads. -/
def target? : Command → Option String
  | goTo target => some target
  | _ => none

/-- What a command sets the switch to that hides or shows what is read-only. -/
def switch? : Command → Option Bool
  | writable enabled => some enabled
  | _ => none

@[simp] theorem target?_goTo (target : String) : (goTo target).target? = some target := rfl

@[simp] theorem switch?_writable (enabled : Bool) : (writable enabled).switch? = some enabled := rfl

theorem parse_blank {line : String} (hblank : (Text.trim line).isEmpty = true) :
    parse line = .error (.invalidCommand .empty) := by
  simp only [parse, hblank, ↓reduceIte]

theorem full_of_parse {line : String} {command : Command} (hparsed : parse line = .ok command) :
    (Text.trim line).isEmpty = false := by
  cases hblank : (Text.trim line).isEmpty with
  | false => rfl
  | true =>
    rw [parse_blank hblank] at hparsed
    cases hparsed

end Command

/-- A line, and what the shell replied to it, if anything. -/
structure Turn where
  line : String
  reply : Option (Except ShellError Reply)

/-- The command of a turn, if it succeeded. -/
def Turn.accepted? (turn : Turn) : Option Command :=
  match Command.parse turn.line, turn.reply with
  | .ok command, some (.ok _) => some command
  | _, _ => none

theorem Turn.accepted?_eq_some_iff {turn : Turn} {command : Command} :
    turn.accepted? = some command ↔
      Command.parse turn.line = .ok command ∧ ∃ reply, turn.reply = some (.ok reply) := by
  constructor
  · intro h
    unfold accepted? at h
    split at h
    · next hparsed hreplied =>
      obtain rfl := Option.some.inj h
      exact ⟨hparsed, _, hreplied⟩
    · cases h
  · rintro ⟨hparsed, reply, hreplied⟩
    simp only [accepted?, hparsed, hreplied]

/-- What a turn may do to a session. -/
inductive Moves : Session → Turn → Session → Prop
  | goes {session : Session} {turn : Turn} {target : String} {address : Address}
      (haccepted : turn.accepted? = some (.goTo target))
      (hresolved : session.address.resolve target = .ok address) :
      Moves session turn { session with address }
  | switches {session : Session} {turn : Turn} {enabled : Bool}
      (haccepted : turn.accepted? = some (.writable enabled)) :
      Moves session turn { session with writableOnly := enabled }
  | ends {session : Session} {turn : Turn} (hsilent : turn.reply = none)
      (hparsed : Command.parse turn.line = .ok .exit) :
      Moves session turn { session with running := false }
  | stays {session : Session} {turn : Turn}
      (hidle : ∀ command, turn.accepted? = some command →
        command.target? = none ∧ command.switch? = none)
      (hgoesOn : session.running = true → Command.parse turn.line ≠ .ok .exit) :
      Moves session turn session

namespace Moves

variable {session next : Session} {turn : Turn}

/-- A turn in which no command was accepted goes nowhere. -/
theorem of_refused (hrefused : ∀ reply, turn.reply ≠ some (.ok reply))
    (hgoesOn : session.running = true → Command.parse turn.line ≠ .ok .exit) :
    Moves session turn session := by
  refine .stays (fun command haccepted => ?_) hgoesOn
  obtain ⟨-, reply, hreplied⟩ := Turn.accepted?_eq_some_iff.1 haccepted
  exact absurd hreplied (hrefused reply)

/-- The line that ends the session is the only thing that changes whether it runs. -/
theorem running_iff (hmoves : Moves session turn next) :
    next.running = true ↔ session.running = true ∧ Command.parse turn.line ≠ .ok .exit := by
  cases hmoves with
  | goes haccepted hresolved => simp [(Turn.accepted?_eq_some_iff.1 haccepted).1]
  | switches haccepted => simp [(Turn.accepted?_eq_some_iff.1 haccepted).1]
  | ends hsilent hparsed => simp [hparsed]
  | stays hidle hgoesOn => exact ⟨fun hrunning => ⟨hrunning, hgoesOn hrunning⟩, And.left⟩

theorem eq_of_error {error : ShellError} (hmoves : Moves session turn next)
    (hreplied : turn.reply = some (.error error)) : next = session := by
  have hrefused (command : Command) : turn.accepted? ≠ some command := by
    intro haccepted
    obtain ⟨-, reply, hgranted⟩ := Turn.accepted?_eq_some_iff.1 haccepted
    rw [hreplied] at hgranted
    cases hgranted
  cases hmoves with
  | goes haccepted hresolved => exact absurd haccepted (hrefused _)
  | switches haccepted => exact absurd haccepted (hrefused _)
  | ends hsilent hparsed =>
    rw [hreplied] at hsilent
    cases hsilent
  | stays hidle hgoesOn => rfl

end Moves

/-- What the commands that succeeded make of a session: its address comes of their targets one after
the other, and its switch is the one that was set last. -/
structure Accounts (start : Session) (commands : List Command) (final : Session) : Prop where
  address :
    (commands.filterMap Command.target?).foldlM Address.resolve start.address = .ok final.address
  writableOnly :
    final.writableOnly = (commands.filterMap Command.switch?).getLast?.getD start.writableOnly
  colors : final.colors = start.colors

theorem Accounts.nil (session : Session) : Accounts session [] session := ⟨rfl, rfl, rfl⟩

/-- A turn goes in front of the turns that come after it. -/
theorem Accounts.cons {start next final : Session} {turn : Turn} {turns : List Turn}
    (hmoves : Moves start turn next)
    (hlater : Accounts next (turns.filterMap Turn.accepted?) final) :
    Accounts start ((turn :: turns).filterMap Turn.accepted?) final := by
  obtain ⟨haddress, hwritableOnly, hcolors⟩ := hlater
  cases hmoves with
  | goes haccepted hresolved =>
    rw [List.filterMap_cons_some haccepted]
    refine ⟨?_, hwritableOnly, hcolors⟩
    rw [List.filterMap_cons_some (Command.target?_goTo _), List.foldlM_cons, hresolved]
    exact haddress
  | switches haccepted =>
    rw [List.filterMap_cons_some haccepted]
    refine ⟨haddress, ?_, hcolors⟩
    rw [List.filterMap_cons_some (Command.switch?_writable _), List.getLast?_cons]
    exact hwritableOnly
  | ends hsilent hparsed =>
    have hrefused : turn.accepted? = none := by simp [Turn.accepted?, hsilent]
    rw [List.filterMap_cons_none hrefused]
    exact ⟨haddress, hwritableOnly, hcolors⟩
  | stays hidle hgoesOn =>
    cases haccepted : turn.accepted? with
    | none =>
      rw [List.filterMap_cons_none haccepted]
      exact ⟨haddress, hwritableOnly, hcolors⟩
    | some command =>
      obtain ⟨hunmoved, hunset⟩ := hidle command haccepted
      rw [List.filterMap_cons_some haccepted]
      refine ⟨?_, ?_, hcolors⟩
      · rw [List.filterMap_cons_none hunmoved]
        exact haddress
      · rw [List.filterMap_cons_none hunset]
        exact hwritableOnly

namespace Shell

variable {σ : Type} (source : Source σ)

/-! ### Asking the source

Whatever the source answers, a question to it leaves the session as it is. -/

section Asking

variable (now : Nat)

@[simp] theorem fetch_session (address : Address) (shell : Shell σ) :
    (shell.fetch source now address).2.session = shell.session := rfl

@[simp] theorem schema?_session (shell : Shell σ) :
    (shell.schema? source now).2.session = shell.session := by
  have hasked := fetch_session source now shell.session.address shell
  unfold schema?
  rcases h : shell.fetch source now shell.session.address with ⟨_ | _, after⟩
  all_goals
    rw [h] at hasked
    exact hasked

@[simp] theorem describe_session (expression : String) (shell : Shell σ) :
    (shell.describe source now expression).2.session = shell.session := by
  have hasked := schema?_session source now shell
  unfold describe
  split
  · rfl
  · rcases h : shell.schema? source now with ⟨_ | _, after⟩
    all_goals
      rw [h] at hasked
      exact hasked

@[simp] theorem runDescribe_session (path : String) (shell : Shell σ) :
    (shell.runDescribe source now path).2.session = shell.session := by
  have hasked := schema?_session source now shell
  unfold runDescribe
  split
  · rfl
  · rcases h : shell.schema? source now with ⟨_ | _, after⟩
    · rw [h] at hasked
      exact hasked
    · -- The description asks once more, of the shell that the first question left.
      rw [h] at hasked
      have hdescribed := describe_session source now path after
      dsimp only
      rcases h' : after.describe source now path with ⟨_ | _, last⟩
      all_goals
        rw [h'] at hdescribed
        exact hdescribed.trans hasked

end Asking

/-! ### Commands -/

section Commands

variable (now : Nat) {shell : Shell σ}

/-- A target that leads to an address is gone to, if the source does not fail there. -/
theorem runGoTo_of_ok {target : String} {address : Address} {tree : Option Tree}
    (hresolved : shell.session.address.resolve target = .ok address)
    (hfetched : (source.fetch now address shell.source).1 = .ok tree) :
    (∃ reply, (shell.runGoTo source now target).1 = .ok reply) ∧
      (shell.runGoTo source now target).2.session = { shell.session with address } := by
  rcases hasked : source.fetch now address shell.source with ⟨answer, state⟩
  rw [hasked] at hfetched
  obtain rfl : answer = .ok tree := hfetched
  simp only [runGoTo, hresolved, fetch, hasked]
  exact ⟨⟨_, rfl⟩, trivial⟩

/-- Going somewhere succeeds exactly if the target leads to an address and the source does not fail
there. -/
theorem runGoTo_ok_iff {target : String} :
    (∃ reply, (shell.runGoTo source now target).1 = .ok reply) ↔
      ∃ address tree, shell.session.address.resolve target = .ok address ∧
        (source.fetch now address shell.source).1 = .ok tree := by
  constructor
  · rintro ⟨reply, haccepted⟩
    rcases hresolved : shell.session.address.resolve target with error | address
    · simp only [runGoTo, hresolved] at haccepted
      cases haccepted
    · rcases hasked : source.fetch now address shell.source with ⟨error | tree, state⟩
      · simp only [runGoTo, hresolved, fetch, hasked] at haccepted
        cases haccepted
      · exact ⟨address, tree, rfl, congrArg Prod.fst hasked⟩
  · rintro ⟨address, tree, hresolved, hfetched⟩
    exact (runGoTo_of_ok source now hresolved hfetched).1

theorem runGoTo_of_error {target : String} {error : ShellError}
    (hrefused : (shell.runGoTo source now target).1 = .error error) :
    (shell.runGoTo source now target).2.session = shell.session := by
  rcases hresolved : shell.session.address.resolve target with _ | address
  · simp only [runGoTo, hresolved]
  · rcases hasked : source.fetch now address shell.source with ⟨_ | tree, state⟩
    · simp only [runGoTo, hresolved, fetch, hasked]
    · simp only [runGoTo, hresolved, fetch, hasked] at hrefused
      cases hrefused

/-- Only going somewhere and the switch change a session. -/
theorem execute_session {command : Command} (hunmoved : command.target? = none)
    (hunset : command.switch? = none) :
    (shell.execute source now command).2.session = shell.session := by
  cases command with
  | describe path => exact runDescribe_session source now path shell
  | goTo target => cases hunmoved
  | writable enabled => cases hunset
  | reload => rfl
  | help topic => rfl
  | exit => rfl

end Commands

/-! ### One turn -/

section OneTurn

variable (now : Nat) {shell : Shell σ} {line : String}

theorem turn_stopped (hstopped : shell.session.running = false) :
    shell.turn source now line = (none, shell) := by
  simp only [turn, hstopped, Bool.not_false, Bool.true_or, ↓reduceIte]

theorem turn_blank (hblank : (Text.trim line).isEmpty = true) :
    shell.turn source now line = (none, shell) := by
  simp only [turn, hblank, Bool.or_true, ↓reduceIte]

theorem turn_refused (hrunning : shell.session.running = true)
    (hfull : (Text.trim line).isEmpty = false) {error : ParseError}
    (hparsed : Command.parse line = .error error) :
    shell.turn source now line = (some (.error (.parse error)), shell) := by
  simp only [turn, hrunning, hfull, Session.read, hparsed, Bool.not_true, Bool.or_false,
    Bool.false_eq_true, ↓reduceIte]

theorem turn_exit (hrunning : shell.session.running = true)
    (hparsed : Command.parse line = .ok .exit) :
    shell.turn source now line =
      (none, { shell with session := { shell.session with running := false } }) := by
  simp only [turn, hrunning, Command.full_of_parse hparsed, Session.read, hparsed, Bool.not_true,
    Bool.or_false, Bool.false_eq_true, ↓reduceIte]

theorem turn_command (hrunning : shell.session.running = true) {command : Command}
    (hparsed : Command.parse line = .ok command) (hgoesOn : command ≠ .exit) :
    shell.turn source now line =
      (some (shell.execute source now command).1, (shell.execute source now command).2) := by
  cases command with
  | exit => exact absurd rfl hgoesOn
  | _ =>
    simp only [turn, hrunning, Command.full_of_parse hparsed, Session.read, hparsed, Bool.not_true,
      Bool.or_false, Bool.false_eq_true, ↓reduceIte]

/-- A line that cannot be read as a command changes nothing, whether it is blank or wrong. -/
theorem turn_unread {error : ParseError} (hparsed : Command.parse line = .error error) :
    (shell.turn source now line).2 = shell := by
  cases hrunning : shell.session.running with
  | false => rw [turn_stopped source now hrunning]
  | true =>
    cases hblank : (Text.trim line).isEmpty with
    | true => rw [turn_blank source now hblank]
    | false => rw [turn_refused source now hrunning hblank hparsed]

theorem moves_execute {command : Command} (hparsed : Command.parse line = .ok command)
    (hgoesOn : command ≠ .exit) :
    Moves shell.session ⟨line, some (shell.execute source now command).1⟩
      (shell.execute source now command).2.session := by
  cases command with
  | goTo target =>
    rcases hreplied : (shell.runGoTo source now target).1 with error | reply
    · have hkept := runGoTo_of_error source now hreplied
      simp only [execute, hreplied, hkept]
      exact .of_refused (by simp) (by simp [hparsed])
    · obtain ⟨address, tree, hresolved, hfetched⟩ := (runGoTo_ok_iff source now).1 ⟨reply, hreplied⟩
      have hgone := (runGoTo_of_ok source now hresolved hfetched).2
      simp only [execute, hreplied, hgone]
      exact .goes (Turn.accepted?_eq_some_iff.2 ⟨hparsed, reply, rfl⟩) hresolved
  | writable enabled => exact .switches (Turn.accepted?_eq_some_iff.2 ⟨hparsed, _, rfl⟩)
  | exit => exact absurd rfl hgoesOn
  | describe path | reload | help topic =>
    rw [execute_session source now rfl rfl]
    refine .stays (fun command haccepted => ?_) (by simp [hparsed])
    obtain ⟨hread, -⟩ := Turn.accepted?_eq_some_iff.1 haccepted
    obtain rfl := Except.ok.inj (hparsed.symm.trans hread)
    exact ⟨rfl, rfl⟩

/-- The four things a turn can do to a session. -/
theorem moves_turn (shell : Shell σ) (line : String) :
    Moves shell.session ⟨line, (shell.turn source now line).1⟩
      (shell.turn source now line).2.session := by
  cases hrunning : shell.session.running with
  | false =>
    rw [turn_stopped source now hrunning]
    exact .of_refused (by simp) (by simp [hrunning])
  | true =>
    rcases hparsed : Command.parse line with error | command
    · rw [turn_unread source now hparsed]
      exact .stays (by simp [Turn.accepted?, hparsed]) (by simp [hparsed])
    · by_cases hlast : command = .exit
      · subst hlast
        rw [turn_exit source now hrunning hparsed]
        exact .ends rfl hparsed
      · rw [turn_command source now hrunning hparsed hlast]
        exact moves_execute source now hparsed hlast

/-- A command succeeds exactly if the shell still runs, the line says so, and its execution
succeeds. -/
theorem accepted?_turn_iff {command : Command} (hgoesOn : command ≠ .exit) :
    (Turn.mk line (shell.turn source now line).1).accepted? = some command ↔
      shell.session.running = true ∧ Command.parse line = .ok command ∧
        ∃ reply, (shell.execute source now command).1 = .ok reply := by
  rw [Turn.accepted?_eq_some_iff]
  cases hrunning : shell.session.running with
  | false => simp [turn_stopped source now hrunning]
  | true =>
    rw [and_iff_right rfl]
    refine and_congr_right fun hparsed => ?_
    rw [turn_command source now hrunning hparsed hgoesOn]
    simp only [Option.some.injEq]

end OneTurn

/-! ### A run of lines -/

/-- The shell behind a run of lines, each at its own time. -/
def after : List (Nat × String) → Shell σ → Shell σ
  | [], shell => shell
  | (now, line) :: rest, shell => after rest (shell.turn source now line).2

/-- The turns that a run of lines takes. -/
def turns : List (Nat × String) → Shell σ → List Turn
  | [], _ => []
  | (now, line) :: rest, shell =>
    ⟨line, (shell.turn source now line).1⟩ :: turns rest (shell.turn source now line).2

theorem after_append (before rest : List (Nat × String)) (shell : Shell σ) :
    shell.after source (before ++ rest) = (shell.after source before).after source rest := by
  induction before generalizing shell with
  | nil => rfl
  | cons head before ih => exact ih _

theorem turns_append (before rest : List (Nat × String)) (shell : Shell σ) :
    shell.turns source (before ++ rest) =
      shell.turns source before ++ (shell.after source before).turns source rest := by
  induction before generalizing shell with
  | nil => rfl
  | cons head before ih => exact congrArg (List.cons _) (ih _)

/-- Once it has stopped, a shell neither replies nor changes. -/
theorem run_stopped (lines : List (Nat × String)) (shell : Shell σ)
    (hstopped : shell.session.running = false) :
    shell.turns source lines = lines.map (fun line => ⟨line.2, none⟩) ∧
      shell.after source lines = shell := by
  induction lines with
  | nil => exact ⟨rfl, rfl⟩
  | cons head lines ih =>
    obtain ⟨now, line⟩ := head
    simp only [turns, after, turn_stopped source now hstopped, List.map_cons]
    exact ⟨congrArg (List.cons _) ih.1, ih.2⟩

/-- The line that ends the session is the last that does anything. -/
theorem run_ended (now : Nat) {line : String} (rest : List (Nat × String)) {shell : Shell σ}
    (hrunning : shell.session.running = true) (hparsed : Command.parse line = .ok .exit) :
    shell.turns source ((now, line) :: rest) =
        ((now, line) :: rest).map (fun line => ⟨line.2, none⟩) ∧
      shell.after source ((now, line) :: rest) =
        { shell with session := { shell.session with running := false } } := by
  simp only [turns, after, turn_exit source now hrunning hparsed, List.map_cons]
  obtain ⟨hsilent, hkept⟩ :=
    run_stopped source rest { shell with session := { shell.session with running := false } } rfl
  exact ⟨congrArg (List.cons _) hsilent, hkept⟩

theorem accounts_turns (lines : List (Nat × String)) (shell : Shell σ) :
    Accounts shell.session ((shell.turns source lines).filterMap Turn.accepted?)
      (shell.after source lines).session := by
  induction lines generalizing shell with
  | nil => exact .nil _
  | cons head lines ih => exact .cons (moves_turn source head.1 shell head.2) (ih _)

theorem running_after_iff (lines : List (Nat × String)) (shell : Shell σ) :
    (shell.after source lines).session.running = true ↔
      shell.session.running = true ∧ ∀ line ∈ lines, Command.parse line.2 ≠ .ok .exit := by
  induction lines generalizing shell with
  | nil => simp [after]
  | cons head lines ih =>
    rw [after, ih, (moves_turn source head.1 shell head.2).running_iff, List.forall_mem_cons,
      and_assoc]

/-- Only commands that succeed change a session. Whatever the source answers, the targets that were
gone to lead from the first address to the last, and the switch is the one that was set last.
Setting it always succeeds while the shell runs, and going somewhere does if the target leads to an
address on which the source does not fail. A line that is refused changes nothing, and the first one
that ends the session is the last that does anything. -/
theorem session_changes_by_success (start : Shell σ) (hrunning : start.session.running = true) :
    (∀ lines : List (Nat × String),
      Accounts start.session ((start.turns source lines).filterMap Turn.accepted?)
          (start.after source lines).session ∧
        ((start.after source lines).session.running = true ↔
          ∀ line ∈ lines, Command.parse line.2 ≠ .ok .exit)) ∧
    ∀ (before : List (Nat × String)) (now : Nat) (line : String) (rest : List (Nat × String)),
      let there := start.after source before
      let turn : Turn := ⟨line, (there.turn source now line).1⟩
      let next := (there.turn source now line).2
      (∀ target, turn.accepted? = some (.goTo target) ↔
        there.session.running = true ∧ Command.parse line = .ok (.goTo target) ∧
          ∃ address tree, there.session.address.resolve target = .ok address ∧
            (source.fetch now address there.source).1 = .ok tree) ∧
      (∀ enabled, turn.accepted? = some (.writable enabled) ↔
        there.session.running = true ∧ Command.parse line = .ok (.writable enabled)) ∧
      ((∃ error, Command.parse line = .error error) ∨ (∃ error, turn.reply = some (.error error)) →
        next.session = there.session) ∧
      ((∀ line ∈ before, Command.parse line.2 ≠ .ok .exit) → Command.parse line = .ok .exit →
        start.turns source (before ++ (now, line) :: rest) =
            start.turns source before ++ ((now, line) :: rest).map (fun line => ⟨line.2, none⟩) ∧
          start.after source (before ++ (now, line) :: rest) =
            { there with session := { there.session with running := false } }) := by
  refine ⟨fun lines => ⟨accounts_turns source lines start, ?_⟩, fun before now line rest => ?_⟩
  · rw [running_after_iff]
    exact and_iff_right hrunning
  · intro there turn next
    refine ⟨fun target => ?_, fun enabled => ?_, ?_, fun hgoingOn hparsed => ?_⟩
    · rw [← runGoTo_ok_iff source now]
      exact accepted?_turn_iff source now (by simp)
    · rw [accepted?_turn_iff source now (by simp)]
      exact and_congr_right fun _ => and_iff_left ⟨_, rfl⟩
    · rintro (⟨error, hparsed⟩ | ⟨error, hreplied⟩)
      · exact congrArg Shell.session (turn_unread source now hparsed)
      · exact (moves_turn source now there line).eq_of_error hreplied
    · obtain ⟨hsilent, hkept⟩ := run_ended source now rest
        ((running_after_iff source before start).2 ⟨hrunning, hgoingOn⟩) hparsed
      rw [turns_append, after_append]
      exact ⟨congrArg _ hsilent, hkept⟩

end Shell

/-- A source that describes nothing and fails on every other fetch. -/
def Source.wavering : Source Nat where
  fetch _ _ count := (if count % 2 = 0 then .ok none else .error .missingWildcard, count + 1)
  invalidate count := count

/-- A run in which the source fails on one target, another is no address, and two lines stand behind
the one that ends the session. -/
theorem Shell.session_changes_by_success_wavering :
    let start : Shell Nat := ⟨{ address := .root }, 0⟩
    let before := [(0, "cd a=b"), (1, "cd c=d"), (1, "cd c"), (2, "writable on"), (2, "cd e=f/.."),
      (3, " "), (3, "writable maybe")]
    let rest := [(4, "cd /"), (4, "writable off")]
    let accepted := [Command.goTo "a=b", .writable true, .goTo "e=f/.."]
    (start.turns .wavering before).filterMap Turn.accepted? = accepted ∧
      Accounts start.session accepted (start.after .wavering before).session ∧
      (start.after .wavering before).session = ⟨⟨[⟨"a", "b"⟩]⟩, true, true, true⟩ ∧
      (start.after .wavering (before ++ (4, "exit") :: rest)).session =
        ⟨⟨[⟨"a", "b"⟩]⟩, true, true, false⟩ := by
  intro start before rest accepted
  have hgranted : (start.turns .wavering before).filterMap Turn.accepted? = accepted := by
    decide +kernel
  have hleft : (start.after .wavering before).session = ⟨⟨[⟨"a", "b"⟩]⟩, true, true, true⟩ := by
    decide +kernel
  obtain ⟨hwhole, hparts⟩ := Shell.session_changes_by_success .wavering start rfl
  obtain ⟨haccount, hruns⟩ := hwhole before
  obtain ⟨-, -, -, hended⟩ := hparts before 4 "exit" rest
  refine ⟨hgranted, hgranted ▸ haccount, hleft, ?_⟩
  rw [(hended (hruns.1 (by rw [hleft])) rfl).2, hleft]

end AttributeShell
