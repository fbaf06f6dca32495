import ArithTokens.Proofs.CommandLine.Parse
import Mathlib.Data.List.Nodup

/-!
# Command lines in full

Every invocation can be asked for by a command line in which **all of it is spelled out**
(`Invocation.line`): each option stands in one argument with its value, shared options stand both
before the command and after it, and an expression stands after two dashes alone.

* `readLong_body` reads one option, and `read_options` any number of different ones;
* `lookup_shared`, `lookup_task_own` and `lookup_task_shared` find the options of a line again;
* `parse_line` reads the whole line back, in any environment that the invocation goes with.
-/

namespace ArithTokens.CommandLine

/-! ## The line of an invocation -/

/-- An option that is given, with its value, as one argument. -/
def Opt.argument (given : Opt × String) : String :=
  if given.1.takesValue then "--" ++ given.1.long ++ "=" ++ given.2 else "--" ++ given.1.long

/-- An option without a value, if it is given. -/
def Opt.flag (option : Opt) (given : Bool) : List (Opt × String) :=
  if given then [(option, "")] else []

/-- An option with its value, if it is given. -/
def Opt.valued (option : Opt) (value : Option String) : List (Opt × String) :=
  (value.map fun value => (option, value)).toList

/-- The options that an invocation shares with all others. -/
def Invocation.shared (invocation : Invocation) : List (Opt × String) :=
  Opt.flag .verbose invocation.verbose ++ Opt.flag .noColor invocation.noColor ++
    Opt.valued .config invocation.config

/-- The options that say how tokens are read and written. -/
def OutputFlags.given (flags : OutputFlags) : List (Opt × String) :=
  Opt.valued .format (flags.format.map Named.name) ++ Opt.flag .spans flags.spans ++
    Opt.valued .overflow (flags.overflow.map Named.name)

namespace Task

/-- The options that belong to a command. -/
def given : Task → List (Opt × String)
  | .tokenize _ file flags => Opt.valued .file file ++ flags.given
  | .repl flags => flags.given
  | .demo => []
  | .init path force => Opt.valued .path path ++ Opt.flag .force force

/-- The command. -/
def command : Task → CommandName
  | .tokenize .. => .tokenize
  | .repl _ => .repl
  | .demo => .demo
  | .init .. => .init

/-- The arguments of a command that are no options. -/
def words : Task → List String
  | .tokenize expr _ _ => expr.toList
  | _ => []

end Task

namespace Invocation

/-- All options of an invocation, as they stand after the command. -/
def given (invocation : Invocation) : List (Opt × String) :=
  invocation.shared ++ invocation.task.given

/-- What stands after the command. -/
def rest (invocation : Invocation) : List String :=
  invocation.given.map Opt.argument ++
    if invocation.task.words = [] then [] else "--" :: invocation.task.words

/-- **The command line in full** of an invocation. -/
def line (invocation : Invocation) : List String :=
  invocation.shared.map Opt.argument ++ Named.name invocation.task.command :: invocation.rest

example : line ⟨true, false, none, .tokenize (some "-1") none { format := some .json }⟩ =
    ["--verbose", "tokenize", "--verbose", "--format=json", "--", "-1"] := by
  decide

end Invocation

variable {reading : Reading} {level : Level} {command : CommandName} {given : Opt × String}

/-! ## Reading one option -/

/-- Whether an option and its value can be given and ask for nothing else. -/
structure Opt.Fits (given : Opt × String) : Prop where
  help : given.1 ≠ .help
  version : given.1 ≠ .version
  accepts : given.1.accepts given.2 = true
  bare : given.1.takesValue = false → given.2 = ""

theorem Opt.long_inj {option other : Opt} (same : option.long = other.long) : option = other := by
  cases option <;> cases other <;> first | rfl | exact absurd same (by decide)

theorem Opt.long_ne_nil (option : Opt) : option.long.toList ≠ [] := by
  cases option <;> decide

theorem Opt.long_plain (option : Opt) : ∀ c ∈ option.long.toList, (c != '=') = true := by
  have plain : option.long.toList.all (· != '=') = true := by cases option <;> rfl
  exact List.all_eq_true.mp plain

theorem find?_long {option : Opt} {options : List Opt} (mem : option ∈ options) :
    options.find? (·.long == option.long) = some option := by
  induction options with
  | nil => cases mem
  | cons other options ih =>
    by_cases same : other = option
    · subst same
      simp
    · have differ : other.long ≠ option.long := fun long => same (Opt.long_inj long)
      rw [List.find?_cons_of_neg (by simpa using differ)]
      exact ih (List.mem_of_ne_of_mem (Ne.symm same) mem)

/-- What stands behind the two dashes of an option. -/
def Opt.body (given : Opt × String) : List Char :=
  given.1.long.toList ++ if given.1.takesValue then '=' :: given.2.toList else []

theorem shape_argument (given : Opt × String) :
    Shape.of (Opt.argument given) = .long (Opt.body given) := by
  have chars : (Opt.argument given).toList = '-' :: '-' :: Opt.body given := by
    unfold Opt.argument Opt.body
    split <;> simp
  obtain ⟨c, cs, body⟩ := List.exists_cons_of_ne_nil
    (List.append_ne_nil_of_left_ne_nil given.1.long_ne_nil
      (if given.1.takesValue then '=' :: given.2.toList else []))
  rw [← Opt.body] at body
  rw [Shape.of, chars, body]
  rfl

/-- **An option that stands in one argument is read off it**, if it was not read before. -/
theorem readLong_body (fits : Opt.Fits given) (mem : given.1 ∈ level.options)
    (settled : reading.pending = none) (fresh : reading.has given.1 = false) :
    reading.readLong level (Opt.body given) =
      .ok { reading with given := reading.given ++ [given] } := by
  obtain ⟨option, value⟩ := given
  have plain := option.long_plain
  have resolved : reading.resolve = .ok reading := by rw [Reading.resolve, settled]
  have settle : reading.settle option value =
      .ok { reading with given := reading.given ++ [(option, value)] } := by
    rw [Reading.settle, fresh, fits.accepts]
    rfl
  simp only [Reading.readLong, Opt.body]
  rw [List.takeWhile_append_of_pos plain, List.dropWhile_append_of_pos plain]
  cases takes : option.takesValue with
  | true =>
    have met : reading.meetOption option (some value) = reading.settle option value := by
      rw [Reading.meetOption, resolved]
      rfl
    simp [find?_long mem, takes, met, settle]
  | false =>
    obtain rfl := fits.bare takes
    have met : reading.meetFlag level option = reading.settle option "" := by
      rw [Reading.meetFlag, resolved]
      cases option with
      | help => exact absurd rfl fits.help
      | version => exact absurd rfl fits.version
      | _ => rfl
    simp [find?_long mem, takes, met, settle]

/-! ## Reading all options -/

/-- Whether some options can be given at a level, each of them once. -/
structure Opt.AllFit (level : Level) (options : List (Opt × String)) : Prop where
  fits : ∀ given ∈ options, Opt.Fits given ∧ given.1 ∈ level.options
  once : (options.map Prod.fst).Nodup

section AllFit

variable {options : List (Opt × String)}

/-- The first of some options is new to a reading, and the others are new to what it is read into. -/
theorem Opt.AllFit.step (all : Opt.AllFit level (given :: options))
    (fresh : ∀ given' ∈ given :: options, reading.has given'.1 = false) :
    reading.has given.1 = false ∧ Opt.AllFit level options ∧ ∀ given' ∈ options,
      Reading.has { reading with given := reading.given ++ [given] } given'.1 = false := by
  obtain ⟨fits, once⟩ := all
  rw [List.map_cons, List.nodup_cons] at once
  refine ⟨fresh given List.mem_cons_self,
    ⟨fun other mem => fits other (List.mem_cons_of_mem given mem), once.2⟩, ?_⟩
  intro other mem
  have old := fresh other (List.mem_cons_of_mem given mem)
  have differ : other.1 ≠ given.1 := fun same => once.1 (same ▸ List.mem_map_of_mem mem)
  rw [Reading.has, Option.isSome_eq_false_iff, Option.isNone_iff_eq_none] at old ⊢
  rw [List.lookup_append, old]
  simpa [List.lookup_cons] using differ

/-- **Options that fit are read one by one**, by whatever reads one option and then goes on. -/
theorem read_options {α : Type} {go : Reading → List String → Except Halt α}
    (first : ∀ reading given rest, go reading (Opt.argument given :: rest) =
      reading.readLong level (Opt.body given) >>= fun reading => go reading rest)
    (all : Opt.AllFit level options) (settled : reading.pending = none)
    (fresh : ∀ given ∈ options, reading.has given.1 = false) (rest : List String) :
    go reading (options.map Opt.argument ++ rest) =
      go { reading with given := reading.given ++ options } rest := by
  induction options generalizing reading with
  | nil => simp
  | cons given options ih =>
    obtain ⟨new, others, fresh'⟩ := all.step fresh
    obtain ⟨fits, mem⟩ := all.fits given List.mem_cons_self
    have settled' : Reading.pending { reading with given := reading.given ++ [given] } = none :=
      settled
    rw [List.map_cons, List.cons_append, first, readLong_body fits mem settled new]
    refine (ih others settled' fresh').trans ?_
    rw [List.append_assoc, List.singleton_append]

/-- Before the command. -/
theorem readTop_options (all : Opt.AllFit .top options) (rest : List String) :
    readTop {} (options.map Opt.argument ++ rest) = readTop { given := options } rest := by
  refine read_options (fun reading given rest => ?_) all rfl (fun _ _ => rfl) rest
  rw [readTop, shape_argument]

/-- After the command. -/
theorem readAfter_options (all : Opt.AllFit (.after command) options) (rest : List String) :
    readAfter command {} (options.map Opt.argument ++ rest) =
      readAfter command { given := options } rest := by
  refine read_options (fun reading given rest => ?_) all rfl (fun _ _ => rfl) rest
  rw [readAfter, shape_argument]

end AllFit

/-! ## The options of a line -/

theorem mem_flag {option : Opt} {on : Bool} (mem : given ∈ Opt.flag option on) :
    given = (option, "") := by
  unfold Opt.flag at mem
  split at mem
  · exact List.mem_singleton.mp mem
  · cases mem

theorem mem_valued {option : Opt} {value : Option String} (mem : given ∈ Opt.valued option value) :
    ∃ text, value = some text ∧ given = (option, text) := by
  cases value with
  | none => cases mem
  | some text => exact ⟨text, rfl, List.mem_singleton.mp mem⟩

theorem sublist_flag (option : Opt) (on : Bool) :
    ((Opt.flag option on).map Prod.fst).Sublist [option] := by
  cases on <;> simp [Opt.flag]

theorem sublist_valued (option : Opt) (value : Option String) :
    ((Opt.valued option value).map Prod.fst).Sublist [option] := by
  cases value <;> simp [Opt.valued]

theorem fits_flag {option : Opt} {on : Bool} (mem : given ∈ Opt.flag option on)
    (plain : Opt.Fits (option, "")) : Opt.Fits given := by
  rwa [mem_flag mem]

/-- A path fits unless it is empty. -/
theorem fits_path {option : Opt} {path : Option String} (mem : given ∈ Opt.valued option path)
    (filled : path ≠ some "") (takes : option = .config ∨ option = .file ∨ option = .path) :
    Opt.Fits given := by
  obtain ⟨text, rfl, rfl⟩ := mem_valued mem
  have filled : (text != "") = true := by simpa using filled
  rcases takes with rfl | rfl | rfl <;> exact ⟨nofun, nofun, filled, nofun⟩

theorem fits_shared {environment : Environment} {invocation : Invocation}
    (fits : invocation.Fits environment) : ∀ given ∈ invocation.shared, Opt.Fits given := by
  intro given mem
  simp only [Invocation.shared, List.mem_append] at mem
  rcases mem with (mem | mem) | mem
  · exact fits_flag mem ⟨nofun, nofun, rfl, fun _ => rfl⟩
  · exact fits_flag mem ⟨nofun, nofun, rfl, fun _ => rfl⟩
  · exact fits_path mem fits.named (Or.inl rfl)

/-- Every value of a choice is accepted by its name. -/
theorem fits_outputFlags (flags : OutputFlags) : ∀ given ∈ flags.given, Opt.Fits given := by
  intro given mem
  simp only [OutputFlags.given, List.mem_append] at mem
  rcases mem with (mem | mem) | mem
  · obtain ⟨name, found, rfl⟩ := mem_valued mem
    obtain ⟨format, -, rfl⟩ := Option.map_eq_some_iff.mp found
    cases format <;> exact ⟨nofun, nofun, by decide, nofun⟩
  · exact fits_flag mem ⟨nofun, nofun, rfl, fun _ => rfl⟩
  · obtain ⟨name, found, rfl⟩ := mem_valued mem
    obtain ⟨overflow, -, rfl⟩ := Option.map_eq_some_iff.mp found
    cases overflow <;> exact ⟨nofun, nofun, by decide, nofun⟩

theorem fits_task {task : Task} (fits : task.Fits) : ∀ given ∈ task.given, Opt.Fits given := by
  intro given mem
  cases task with
  | tokenize expr file flags =>
    rcases List.mem_append.mp mem with mem | mem
    · exact fits_path mem fits.2 (Or.inr (Or.inl rfl))
    · exact fits_outputFlags flags given mem
  | repl flags => exact fits_outputFlags flags given mem
  | demo => cases mem
  | init path force =>
    rcases List.mem_append.mp mem with mem | mem
    · exact fits_path mem fits (Or.inr (Or.inr rfl))
    · exact fits_flag mem ⟨nofun, nofun, rfl, fun _ => rfl⟩

/-- The options of a command that are not shared. -/
def CommandName.own : CommandName → List Opt
  | .tokenize => [.file, .format, .spans, .overflow]
  | .repl => [.format, .spans, .overflow]
  | .demo => []
  | .init => [.path, .force]

theorem sublist_shared (invocation : Invocation) :
    (invocation.shared.map Prod.fst).Sublist [.verbose, .noColor, .config] := by
  simp only [Invocation.shared, List.map_append]
  exact ((sublist_flag _ _).append (sublist_flag _ _)).append (sublist_valued _ _)

theorem sublist_task (task : Task) : (task.given.map Prod.fst).Sublist task.command.own := by
  have flags : ∀ flags : OutputFlags,
      (flags.given.map Prod.fst).Sublist [.format, .spans, .overflow] := by
    intro flags
    simp only [OutputFlags.given, List.map_append]
    exact ((sublist_valued _ _).append (sublist_flag _ _)).append (sublist_valued _ _)
  cases task with
  | tokenize expr file output =>
    simp only [Task.given, List.map_append]
    exact (sublist_valued .file file).append (flags output)
  | repl output => exact flags output
  | demo => exact .slnil
  | init path force =>
    simp only [Task.given, List.map_append]
    exact (sublist_valued _ _).append (sublist_flag _ _)

theorem Opt.allFit_of_sublist {options : List (Opt × String)} {all : List Opt}
    (fits : ∀ given ∈ options, Opt.Fits given) (sub : (options.map Prod.fst).Sublist all)
    (known : ∀ option ∈ all, option ∈ level.options) (once : all.Nodup) :
    Opt.AllFit level options :=
  ⟨fun given mem => ⟨fits given mem, known _ (sub.subset (List.mem_map_of_mem mem))⟩,
    once.sublist sub⟩

variable {environment : Environment} {invocation : Invocation}

theorem allFit_shared (fits : invocation.Fits environment) :
    Opt.AllFit .top invocation.shared :=
  Opt.allFit_of_sublist (fits_shared fits) (sublist_shared invocation) (by decide) (by decide)

theorem allFit_given (fits : invocation.Fits environment) :
    Opt.AllFit (.after invocation.task.command) invocation.given := by
  have sub : (invocation.given.map Prod.fst).Sublist
      ([.verbose, .noColor, .config] ++ invocation.task.command.own) := by
    rw [Invocation.given, List.map_append]
    exact (sublist_shared invocation).append (sublist_task invocation.task)
  have all : ∀ given ∈ invocation.given, Opt.Fits given := by
    intro given mem
    exact (List.mem_append.mp mem).elim (fits_shared fits given) (fits_task fits.task given)
  refine Opt.allFit_of_sublist all sub ?_ ?_
  · cases invocation.task.command <;> decide
  · cases invocation.task.command <;> decide

/-! ## Finding the options of a line -/

@[simp]
theorem lookup_flag_append (option other : Opt) (on : Bool) (rest : List (Opt × String)) :
    (Opt.flag option on ++ rest).lookup other =
      if other = option ∧ on = true then some "" else rest.lookup other := by
  cases on with
  | false => simp [Opt.flag]
  | true =>
    by_cases same : other = option
    · simp [Opt.flag, same]
    · have miss : (other == option) = false := by simpa using same
      simp [Opt.flag, same, List.lookup_cons, miss]

@[simp]
theorem lookup_valued_append (option other : Opt) (value : Option String)
    (rest : List (Opt × String)) :
    (Opt.valued option value ++ rest).lookup other =
      if other = option then value.or (rest.lookup other) else rest.lookup other := by
  cases value with
  | none => simp [Opt.valued]
  | some text =>
    by_cases same : other = option
    · simp [Opt.valued, same]
    · have miss : (other == option) = false := by simpa using same
      simp [Opt.valued, same, List.lookup_cons, miss]

@[simp]
theorem lookup_flag (option other : Opt) (on : Bool) :
    (Opt.flag option on).lookup other = if other = option ∧ on = true then some "" else none := by
  rw [← List.append_nil (Opt.flag option on), lookup_flag_append]
  rfl

@[simp]
theorem lookup_valued (option other : Opt) (value : Option String) :
    (Opt.valued option value).lookup other = if other = option then value else none := by
  rw [← List.append_nil (Opt.valued option value), lookup_valued_append, List.lookup_nil,
    Option.or_none]

/-- What is found among the shared options, and behind them. -/
theorem lookup_shared (invocation : Invocation) (rest : List (Opt × String)) (option : Opt) :
    (invocation.shared ++ rest).lookup option =
      if option = .verbose ∧ invocation.verbose = true then some ""
      else if option = .noColor ∧ invocation.noColor = true then some ""
      else if option = .config then invocation.config.or (rest.lookup option)
      else rest.lookup option := by
  simp only [Invocation.shared, List.append_assoc, lookup_flag_append, lookup_valued_append]

/-- A command has no shared option of its own. -/
theorem lookup_task_shared (task : Task) {option : Opt} (shared : option ∈ Level.shared) :
    task.given.lookup option = none := by
  have apart : ∀ command : CommandName, ∀ other ∈ command.own, other ∉ Level.shared := by
    intro command
    cases command <;> decide
  rw [List.lookup_eq_none_iff]
  intro given mem
  have own := (sublist_task task).subset (List.mem_map_of_mem mem)
  have differ : option ≠ given.1 := by
    rintro rfl
    exact apart task.command given.1 own shared
  simpa using differ

/-- Among all options of a line those of the command are found as among its own. -/
theorem lookup_task_own (invocation : Invocation) {option : Opt} (own : option ∉ Level.shared) :
    invocation.given.lookup option = invocation.task.given.lookup option := by
  simp only [Level.shared, List.mem_cons, not_or] at own
  rw [Invocation.given, lookup_shared, if_neg (fun on => own.1 on.1),
    if_neg (fun on => own.2.2.1 on.1), if_neg own.2.1]

/-! ## The whole line -/

/-- The reading of all options of an invocation and of its words. -/
def Invocation.asRead (invocation : Invocation) : Reading :=
  { given := invocation.given, words := invocation.task.words }

theorem ofName?_name (command : CommandName) : Named.ofName? (Named.name command) = some command := by
  cases command <;> decide

theorem readAfter_words (task : Task) (given : List (Opt × String)) :
    readAfter task.command { given } (if task.words = [] then [] else "--" :: task.words) =
      .ok { given, words := task.words } := by
  cases task with
  | tokenize expr file flags =>
    cases expr with
    | none => rfl
    | some text => rfl
  | repl | demo | init => rfl

theorem readTop_line (fits : invocation.Fits environment) :
    readTop {} invocation.line =
      .ok ({ given := invocation.shared }, some (invocation.task.command, invocation.rest)) := by
  have word : Shape.of (Named.name invocation.task.command) = .word := by
    cases invocation.task.command <;> decide
  rw [Invocation.line, readTop_options (allFit_shared fits), readTop, word]
  simp only [ofName?_name]

theorem readAfter_line (fits : invocation.Fits environment) :
    readAfter invocation.task.command {} invocation.rest = .ok invocation.asRead := by
  rw [Invocation.rest, readAfter_options (allFit_given fits)]
  exact readAfter_words invocation.task invocation.given

theorem ofName?_format (format : Format) : Named.ofName? (Named.name format) = some format := by
  cases format <;> decide

theorem ofName?_overflow (overflow : Overflow) :
    Named.ofName? (Named.name overflow) = some overflow := by
  cases overflow <;> decide

/-- What says how tokens are read and written is read back. -/
theorem outputFlags_eq {flags : OutputFlags}
    (format : reading.value? .format = flags.format.map Named.name)
    (spans : reading.has .spans = flags.spans)
    (overflow : reading.value? .overflow = flags.overflow.map Named.name) :
    outputFlags reading = flags := by
  have formats : (Named.ofName? ∘ Named.name : Format → Option Format) = some :=
    funext ofName?_format
  have overflows : (Named.ofName? ∘ Named.name : Overflow → Option Overflow) = some :=
    funext ofName?_overflow
  rw [outputFlags, format, spans, overflow, Option.bind_map, Option.bind_map, formats, overflows,
    Option.bind_fun_some, Option.bind_fun_some]

/-- The options of a command are read back. -/
theorem taskOf_asRead (fits : invocation.task.Fits) :
    taskOf invocation.asRead invocation.task.command = .ok invocation.task := by
  have value : ∀ option ∉ Level.shared,
      invocation.asRead.value? option = invocation.task.given.lookup option :=
    fun option own => lookup_task_own invocation own
  have has : ∀ option ∉ Level.shared,
      invocation.asRead.has option = (invocation.task.given.lookup option).isSome :=
    fun option own => congrArg Option.isSome (lookup_task_own invocation own)
  have output : ∀ flags : OutputFlags, (∀ option ∈ [Opt.format, .spans, .overflow],
      invocation.task.given.lookup option = flags.given.lookup option) →
      outputFlags invocation.asRead = flags := by
    intro flags same
    refine outputFlags_eq ?_ ?_ ?_
    · rw [value _ (by decide), same _ (by decide)]
      simp [OutputFlags.given]
    · rw [has _ (by decide), same _ (by decide)]
      cases on : flags.spans <;> simp [OutputFlags.given, on]
    · rw [value _ (by decide), same _ (by decide)]
      simp [OutputFlags.given]
  cases task : invocation.task with
  | tokenize expr file flags =>
    rw [task] at fits
    have named : invocation.asRead.value? .file = file := by
      rw [value _ (by decide), task]
      simp [Task.given, OutputFlags.given]
    have words : invocation.asRead.words.head? = expr := by
      rw [Invocation.asRead, task]
      simp [Task.words]
    have apart : (expr.isSome && file.isSome) = false := by
      rcases fits.1 with rfl | rfl <;> simp
    have flags : outputFlags invocation.asRead = flags := by
      refine output flags fun option mem => ?_
      have other : option ≠ .file := by
        rintro rfl
        exact absurd mem (by decide)
      rw [task, Task.given, lookup_valued_append, if_neg other]
    rw [Task.command, taskOf, words, named, apart, flags]
    rfl
  | repl flags =>
    have flags : outputFlags invocation.asRead = flags := output flags fun option _ => by rw [task]; rfl
    rw [Task.command, taskOf, flags]
  | demo => rfl
  | init path force =>
    have named : invocation.asRead.value? .path = path := by
      rw [value _ (by decide), task]
      simp [Task.given]
    have forced : invocation.asRead.has .force = force := by
      rw [has _ (by decide), task]
      cases force <;> simp [Task.given]
    rw [Task.command, taskOf, named, forced]

/-- Whether a reading holds the shared options of an invocation, and is settled. -/
structure Shows (invocation : Invocation) (reading : Reading) : Prop where
  verbose : reading.has .verbose = invocation.verbose
  noColor : reading.has .noColor = invocation.noColor
  config : reading.value? .config = invocation.config
  settled : reading.pending = none

theorem shows_shared (invocation : Invocation) {rest : List (Opt × String)} (words : List String)
    (free : ∀ option ∈ Level.shared, rest.lookup option = none) :
    Shows invocation { given := invocation.shared ++ rest, words } := by
  have verbose : rest.lookup .verbose = none := free _ (by decide)
  have noColor : rest.lookup .noColor = none := free _ (by decide)
  have config : rest.lookup .config = none := free _ (by decide)
  refine ⟨?_, ?_, ?_, rfl⟩
  · cases on : invocation.verbose <;> simp [Reading.has, lookup_shared, on, verbose]
  · cases on : invocation.noColor <;> simp [Reading.has, lookup_shared, on, noColor]
  · simp [Reading.value?, lookup_shared, config]

theorem check_of_shows (fits : invocation.Fits environment) (shown : Shows invocation reading) :
    environment.check reading = .ok () := by
  have flag : ∀ {on setting}, (on = false → setting = none ∨ setting = some "false") →
      (on || Environment.isFlag setting) = true := by
    intro on setting off
    cases on with
    | true => rfl
    | false => rcases off rfl with rfl | rfl <;> rfl
  have config : (reading.has .config || environment.config != some "") = true := by
    rw [Reading.has, ← Reading.value?, shown.config]
    cases named : invocation.config with
    | none => simp [fits.unnamed named]
    | some name => rfl
  rw [Environment.check, shown.verbose, shown.noColor, flag fits.quiet, flag fits.colored, config]
  rfl

theorem ofReadings_of_shows (fits : invocation.Fits environment) {after top : Reading}
    (shown : Shows invocation after) (shown' : Shows invocation top) :
    Invocation.ofReadings environment after top invocation.task = invocation := by
  have flag : ∀ {on setting}, (on = false → setting = none ∨ setting = some "false") →
      (on || on || setting == some "true") = on := by
    intro on setting off
    cases on with
    | true => rfl
    | false => rcases off rfl with rfl | rfl <;> rfl
  have config : (invocation.config.or invocation.config).or environment.config = invocation.config := by
    cases named : invocation.config with
    | none => simp [fits.unnamed named]
    | some name => rfl
  rw [Invocation.ofReadings, isOn, isOn, shown.verbose, shown'.verbose, shown.noColor, shown'.noColor,
    shown.config, shown'.config, flag fits.quiet, flag fits.colored, config]

/-- **The line of an invocation asks for the invocation.** -/
theorem parse_line (fits : invocation.Fits environment) :
    parse environment invocation.line = .ok invocation := by
  have after : Shows invocation invocation.asRead :=
    shows_shared invocation _ fun _ => lookup_task_shared invocation.task
  have top : Shows invocation { given := invocation.shared } := by
    have shown := shows_shared invocation [] (fun _ _ => List.lookup_nil)
    rwa [List.append_nil] at shown
  have resolved : ∀ {reading : Reading}, Shows invocation reading →
      reading.resolve = .ok reading := by
    intro reading shown
    rw [Reading.resolve, shown.settled]
  rw [parse, readTop_line fits]
  simp only [bind, Except.bind, readAfter_line fits, resolved after, resolved top,
    check_of_shows fits after, check_of_shows fits top, taskOf_asRead fits.task]
  exact congrArg Except.ok (ofReadings_of_shows fits after top)

end ArithTokens.CommandLine
