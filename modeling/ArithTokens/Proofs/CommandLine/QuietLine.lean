import ArithTokens.Proofs.CommandLine.Quiet

/-!
# Command lines without their logging options

A command line asks for the same with its logging options and **without** them.

* `echoes_readOption` reads one argument without them, and `echoes_readAfter` and `echoes_readTop`
  all the arguments of a level;
* `echoes_parse` reads the whole line, and `parse_of_quietLine` compares two lines that are the same
  without them.
-/

namespace ArithTokens.CommandLine

/-! ## One argument -/

open Reading (Shadows)

variable {level : Level} {command : CommandName} {reading quiet : Reading} {argument : String}
  {rest rest' : List String}

/-- Whether an argument of a shape is an option. -/
def Shape.isOption : Shape → Bool
  | .long _ | .short _ => true
  | .divider | .word => false

theorem isOption_cases (isOption : (Shape.of argument).isOption = true) :
    (∃ body, Shape.of argument = .long body) ∨ ∃ letters, Shape.of argument = .short letters := by
  cases shape : Shape.of argument with
  | long body => exact Or.inl ⟨body, rfl⟩
  | short letters => exact Or.inr ⟨letters, rfl⟩
  | divider | word =>
    rw [shape] at isOption
    cases isOption

/-- Reads an argument that is an option. -/
def readOption (level : Level) (reading : Reading) (argument : String) : Except Halt Reading :=
  match Shape.of argument with
  | .long body => reading.readLong level body
  | .short letters => reading.readShort level letters
  | .divider | .word => .error .usage

theorem shape_letters {c : Char} (letter : c ≠ '-') (letters : List Char) :
    Shape.of (String.ofList ('-' :: c :: letters)) = .short (c :: letters) := by
  simp [Shape.of, letter]

theorem ne_nil_of_short {letters : List Char} (shape : Shape.of argument = .short letters) :
    letters ≠ [] := by
  rintro rfl
  unfold Shape.of at shape
  split at shape <;> simp_all

/-- A second dash is the letter of no option. -/
theorem readShort_dash (level : Level) (reading : Reading) (letters : List Char) :
    reading.readShort level ('-' :: letters) = .error .usage := by
  have unknown : level.options.find? (·.short? == some '-') = none := by
    rcases level with _ | _ | _ | _ | _ <;> rfl
  rw [Reading.readShort, unknown]

theorem any_long {body : List Char} :
    [Opt.verbose, .noColor].any (·.long.toList == body) = true ↔
      ∃ option : Opt, option.logs = true ∧ option.long.toList = body := by
  simp only [List.any_eq_true, List.mem_cons, List.not_mem_nil, or_false, beq_iff_eq]
  constructor
  · rintro ⟨option, rfl | rfl, named⟩ <;> exact ⟨_, rfl, named⟩
  · rintro ⟨option, logs, named⟩
    refine ⟨option, ?_, named⟩
    cases option <;> first | exact Or.inl rfl | exact Or.inr rfl | cases logs

/-- **An option**: there is nothing left of it, or an option, or it is an error of usage. -/
theorem echoes_readOption (level : Level) (isOption : (Shape.of argument).isOption = true)
    (shadows : Shadows quiet reading) :
    let Q := fun a b => Shadows b a ∧ a.awaits = level.awaits argument
    readOption level reading argument = .error .usage ∨
    level.quiet argument = [] ∧ Echoes Q (readOption level reading argument) (.ok quiet) ∨
    ∃ left, level.quiet argument = [left] ∧ (Shape.of left).isOption = true ∧
      Echoes Q (readOption level reading argument) (readOption level quiet left) := by
  intro Q
  rcases isOption_cases isOption with ⟨body, shape⟩ | ⟨letters, shape⟩
  · by_cases logging : ∃ option : Opt, option.logs = true ∧ option.long.toList = body
    · have quiet_nil : level.quiet argument = [] := by
        simp only [Level.quiet, shape, any_long.mpr logging, if_true]
      obtain ⟨option, logs, rfl⟩ := logging
      refine Or.inr (Or.inl ⟨quiet_nil, ?_⟩)
      simp only [Q, readOption, shape, Level.awaits, Reading.find?_long_of_logs logs,
        Option.any_some, Reading.takesValue_of_logs logs]
      exact Reading.echoes_readLong_logs shadows logs
    · have kept : level.quiet argument = [argument] := by
        simp only [Level.quiet, shape, mt any_long.mp logging, Bool.false_eq_true, if_false]
      refine Or.inr (Or.inr ⟨argument, kept, by rw [shape]; rfl, ?_⟩)
      simp only [Q, readOption, shape, Level.awaits]
      refine Reading.echoes_readLong shadows fun option named => ?_
      exact Bool.eq_false_iff.mpr fun logs => logging ⟨option, logs, named⟩
  · have filled := ne_nil_of_short shape
    have echoes : Echoes Q (readOption level reading argument)
        (quiet.readShort level (level.quietLetters letters)) := by
      simp only [Q, readOption, shape, Level.awaits]
      exact Reading.echoes_readShort shadows fun nil => absurd nil filled
    cases left : level.quietLetters letters with
    | nil =>
      rw [left] at echoes
      exact Or.inr (Or.inl ⟨by simp [Level.quiet, shape, left], echoes⟩)
    | cons c letters' =>
      rw [left] at echoes
      by_cases dash : c = '-'
      · subst dash
        rw [readShort_dash] at echoes
        exact Or.inl echoes.eq_usage
      · have shape' := shape_letters dash letters'
        refine Or.inr (Or.inr ⟨String.ofList ('-' :: c :: letters'), ?_, by rw [shape']; rfl, ?_⟩)
        · simp only [Level.quiet, shape, left]
        · simpa only [readOption, shape'] using echoes

/-- **One option and what follows it**, for whatever reads an option and then goes on. -/
theorem echoes_option {α : Type} {R : α → α → Prop} {go : Reading → List String → Except Halt α}
    (first : ∀ reading argument rest, (Shape.of argument).isOption = true →
      go reading (argument :: rest) =
        readOption level reading argument >>= fun reading => go reading rest)
    (isOption : (Shape.of argument).isOption = true) (shadows : Shadows quiet reading)
    (next : ∀ a b, Shadows b a → a.awaits = level.awaits argument →
      Echoes R (go a rest) (go b rest')) :
    Echoes R (go reading (argument :: rest)) (go quiet (level.quiet argument ++ rest')) := by
  rw [first _ _ _ isOption]
  obtain failed | ⟨nil, echoes⟩ | ⟨left, kept, isOption', echoes⟩ :=
    echoes_readOption level isOption shadows
  · rw [failed]
    exact .usage _
  · rw [nil]
    exact echoes.bind fun a b related => next a b related.1 related.2
  · rw [kept, List.singleton_append, first _ _ _ isOption']
    exact echoes.bind fun a b related => next a b related.1 related.2

theorem echoes_readWords (shadows : Shadows quiet reading) (words : List String) :
    Echoes (fun a b => Shadows b a) (readWords level reading words)
      (readWords level quiet words) := by
  induction words generalizing reading quiet with
  | nil => exact .ok shadows
  | cons word rest ih =>
    exact (Reading.echoes_readWord shadows word).bind fun a b related => ih related.1

/-- A reading waits for nothing, or for the value of one option. -/
theorem awaits_cases (reading : Reading) :
    reading.awaits = false ∨ ∃ option, reading.pending = some (option, none) := by
  unfold Reading.awaits
  split
  · exact Or.inr ⟨_, by assumption⟩
  · exact Or.inl rfl

/-- **A value that follows its option.** -/
theorem shadows_value {option : Opt} (shadows : Shadows quiet reading)
    (waits : reading.pending = some (option, none)) (value : String) :
    quiet.pending = some (option, none) ∧
      Shadows { quiet with pending := some (option, some value) }
        { reading with pending := some (option, some value) } := by
  rcases shadows.hushed with rfl | ⟨settled, -⟩
  · exact ⟨waits, by simpa using shadows.plain _ waits, Or.inl rfl⟩
  · rw [settled] at waits
    cases waits

/-! ## After the command -/

theorem readAfter_option (reading : Reading) (argument : String) (rest : List String)
    (isOption : (Shape.of argument).isOption = true) :
    readAfter command reading (argument :: rest) =
      readOption (.after command) reading argument >>= fun reading =>
        readAfter command reading rest := by
  rcases isOption_cases isOption with ⟨body, shape⟩ | ⟨letters, shape⟩ <;>
    rw [readAfter, readOption, shape]

theorem readAfter_word (shape : Shape.of argument = .word) (free : reading.awaits = false) :
    readAfter command reading (argument :: rest) =
      reading.readWord (.after command) argument >>= fun reading =>
        readAfter command reading rest := by
  rw [readAfter, shape]
  dsimp only
  split
  · rename_i waits
    rw [Reading.awaits_of_pending waits] at free
    cases free
  · rfl

theorem echoes_readAfter (shadows : Shadows quiet reading) (arguments : List String) :
    Echoes (fun a b => Shadows b a) (readAfter command reading arguments)
      (readAfter command quiet (command.quiet arguments)) := by
  induction arguments generalizing reading quiet with
  | nil => exact .ok shadows
  | cons argument rest ih =>
    cases shape : Shape.of argument with
    | long | short =>
      rw [CommandName.quiet, shape, if_neg (by simp)]
      exact echoes_option readAfter_option (by rw [shape]; rfl) shadows fun a b shadows _ =>
        ih shadows
    | divider =>
      rw [CommandName.quiet, shape, if_pos rfl, readAfter, readAfter, shape]
      exact echoes_readWords shadows rest
    | word =>
      have kept : Level.quiet (.after command) argument = [argument] := by
        simp only [Level.quiet, shape]
      rw [CommandName.quiet, shape, if_neg (by simp), kept, List.singleton_append]
      rcases awaits_cases reading with free | ⟨option, waits⟩
      · rw [readAfter_word shape free, readAfter_word shape (shadows.awaits_eq.trans free)]
        exact (Reading.echoes_readWord shadows argument).bind fun a b related => ih related.1
      · obtain ⟨waits', shadows'⟩ := shadows_value shadows waits argument
        simp only [readAfter, shape, waits, waits']
        exact ih shadows'

/-! ## Before the command -/

theorem readTop_option (reading : Reading) (argument : String) (rest : List String)
    (isOption : (Shape.of argument).isOption = true) :
    readTop reading (argument :: rest) =
      readOption .top reading argument >>= fun reading => readTop reading rest := by
  rcases isOption_cases isOption with ⟨body, shape⟩ | ⟨letters, shape⟩ <;>
    rw [readTop, readOption, shape]

theorem readTop_word (shape : Shape.of argument = .word) (free : reading.awaits = false) :
    readTop reading (argument :: rest) =
      match (Named.ofName? argument : Option CommandName) with
      | some command => .ok (reading, some (command, rest))
      | none => if argument = "help" then .error .help else .error .usage := by
  rw [readTop, shape]
  dsimp only
  split
  · rename_i waits
    rw [Reading.awaits_of_pending waits] at free
    cases free
  · rfl

/-- Whether the reading of a line up to its command is that of the same line without logging
options. -/
def ShadowsTop (quiet reading : Reading × Option (CommandName × List String)) : Prop :=
  Shadows quiet.1 reading.1 ∧
    quiet.2 = reading.2.map fun found => (found.1, found.1.quiet found.2)

theorem echoes_readTop (shadows : Shadows quiet reading) (arguments : List String) :
    Echoes (fun a b => ShadowsTop b a) (readTop reading arguments)
      (readTop quiet (quietFrom reading.awaits arguments)) := by
  induction arguments generalizing reading quiet with
  | nil => exact .ok ⟨shadows, rfl⟩
  | cons argument rest ih =>
    rw [quietFrom]
    cases shape : Shape.of argument with
    | long | short =>
      refine echoes_option readTop_option (by rw [shape]; rfl) shadows fun a b shadows awaits => ?_
      rw [← awaits]
      exact ih shadows
    | divider =>
      dsimp only
      rw [readTop, readTop, shape]
      exact (echoes_readWords shadows rest).bind fun a b shadows => .ok ⟨shadows, rfl⟩
    | word =>
      dsimp only
      rcases awaits_cases reading with free | ⟨option, waits⟩
      · rw [free, if_neg Bool.false_ne_true, readTop_word shape free]
        cases named : (Named.ofName? argument : Option CommandName) with
        | some command =>
          dsimp only
          rw [readTop_word shape (shadows.awaits_eq.trans free), named]
          exact .ok ⟨shadows, rfl⟩
        | none =>
          dsimp only
          rw [readTop_word shape (shadows.awaits_eq.trans free), named]
          dsimp only
          split
          · exact .halt _
          · exact .usage _
      · obtain ⟨waits', shadows'⟩ := shadows_value shadows waits argument
        simp only [Reading.awaits_of_pending waits, if_true, readTop, shape, waits, waits']
        exact ih shadows'

/-! ## The whole line -/

variable {environment environment' : Environment} {arguments arguments' : List String}

/-- Without logging options, their variables need not be set to anything. -/
theorem echoes_check (environment : Environment) (reading : Reading) :
    Echoes (fun _ _ => True) (environment.check reading)
      (Environment.check { config := environment.config } reading.hush) := by
  cases allowed : environment.check reading with
  | error halt =>
    obtain rfl : halt = .usage := by
      unfold Environment.check at allowed
      split at allowed <;> cases allowed
      rfl
    exact .usage _
  | ok =>
    obtain ⟨-, -, config⟩ := check_eq_ok allowed
    have given : reading.hush.has .config = reading.has .config := Reading.has_hush rfl
    have allowed' : Environment.check { config := environment.config } reading.hush = .ok () := by
      simp [Environment.check, Environment.isFlag, given, config]
    rw [allowed']
    exact .ok trivial

theorem taskOf_hush (reading : Reading) (command : CommandName) :
    taskOf reading.hush command = taskOf reading command := by
  have words : reading.hush.words = reading.words := rfl
  have value : ∀ {option : Opt}, option.logs = false →
      reading.hush.value? option = reading.value? option := Reading.value?_hush
  have has : ∀ {option : Opt}, option.logs = false →
      reading.hush.has option = reading.has option := Reading.has_hush
  have flags : outputFlags reading.hush = outputFlags reading := by
    rw [outputFlags, value rfl, has rfl, value rfl, outputFlags]
  cases command with
  | tokenize => rw [taskOf, value rfl, flags, words, taskOf]
  | repl => rw [taskOf, flags, taskOf]
  | demo => rfl
  | init => rw [taskOf, value rfl, has rfl, taskOf]

/-- **A command line asks for the same as without its logging options**, if it is not an error of
usage. -/
theorem echoes_parse (environment : Environment) (arguments : List String) :
    Echoes (fun a b => b.config = a.config ∧ b.task = a.task) (parse environment arguments)
      (parse { config := environment.config } (quietLine arguments)) := by
  have blank : Shadows (Reading.hush {}) {} := Reading.shadows_hush rfl
  refine (echoes_readTop blank arguments).bind fun a b related => ?_
  obtain ⟨top, found⟩ := a
  obtain ⟨top', found'⟩ := b
  obtain ⟨shadows, rfl⟩ : Shadows top' top ∧ _ := related
  cases found with
  | none => exact .usage _
  | some found =>
    obtain ⟨name, rest⟩ := found
    refine (echoes_readAfter blank rest).bind fun after after' shadows' => ?_
    refine (Reading.echoes_resolve shadows').bind fun after after' related => ?_
    obtain ⟨rfl, -⟩ := related
    refine (echoes_check environment after).bind fun _ _ _ => ?_
    rw [taskOf_hush]
    cases taskOf after name with
    | error halt => exact .halt halt
    | ok task =>
      refine (Reading.echoes_resolve shadows).bind fun top top' related => ?_
      obtain ⟨rfl, -⟩ := related
      refine (echoes_check environment top).bind fun _ _ _ => .ok ⟨?_, rfl⟩
      have value : ∀ reading : Reading, reading.hush.value? .config = reading.value? .config :=
        fun _ => Reading.value?_hush rfl
      simp only [value]

/-- **Two command lines that differ only in logging options**, and are no errors of usage, stop with
the same or ask for the same. -/
theorem parse_of_quietLine (config : environment'.config = environment.config)
    (quiet : quietLine arguments' = quietLine arguments)
    (read : parse environment arguments ≠ .error .usage)
    (read' : parse environment' arguments' ≠ .error .usage) :
    (∃ halt, parse environment arguments = .error halt ∧
      parse environment' arguments' = .error halt) ∨
    ∃ invocation invocation', parse environment arguments = .ok invocation ∧
      parse environment' arguments' = .ok invocation' ∧
      invocation'.config = invocation.config ∧ invocation'.task = invocation.task := by
  have echoes := echoes_parse environment arguments
  have echoes' := echoes_parse environment' arguments'
  rw [config, quiet] at echoes'
  generalize parse environment arguments = first at echoes read ⊢
  generalize parse environment' arguments' = second at echoes' read' ⊢
  generalize parse _ (quietLine arguments) = plain at echoes echoes'
  cases echoes with
  | usage => exact absurd rfl read
  | halt halt =>
    cases echoes' with
    | usage => exact absurd rfl read'
    | halt => exact Or.inl ⟨halt, rfl, rfl⟩
  | ok related =>
    cases echoes' with
    | usage => exact absurd rfl read'
    | ok related' =>
      exact Or.inr ⟨_, _, rfl, rfl, related'.1.symm.trans related.1, related'.2.symm.trans related.2⟩

end ArithTokens.CommandLine
