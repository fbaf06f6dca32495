import ArithTokens.CommandLine.Parse
import Mathlib.Data.List.Basic

/-!
# What a command line can ask for

* the options that are read **accept** their values, step by step of the reading
  (`accepted_readTop`, `accepted_readAfter`);
* `parse_eq_ok` takes apart what was read, level by level;
* `fits_of_parse` is what holds of every invocation that is read: the values of its options can be
  given, and it goes with the environment;
* `parse_config` names the configuration by the environment instead of the command line.
-/

namespace ArithTokens.CommandLine

/-! ## What is read is accepted -/

/-- Whether what comes of a step, if it does not stop the reading, has a property. -/
def Ensures {α : Type} (P : α → Prop) (result : Except Halt α) : Prop := ∀ a, result = .ok a → P a

section Ensures

variable {α β : Type} {P : α → Prop} {Q : β → Prop}

theorem ensures_ok {a : α} (holds : P a) : Ensures P (.ok a) := by
  intro b same
  rwa [← Except.ok.inj same]

theorem ensures_error (halt : Halt) : Ensures P (.error halt) := by
  intro a same
  cases same

theorem ensures_bind {first : Except Halt α} {next : α → Except Halt β} (left : Ensures P first)
    (right : ∀ a, P a → Ensures Q (next a)) : Ensures Q (first >>= next) := by
  cases first with
  | error halt => exact ensures_error halt
  | ok a => exact right a (left a rfl)

end Ensures

namespace Reading

/-- Whether all options that are given accept their values. -/
def Accepted (reading : Reading) : Prop := ∀ entry ∈ reading.given, entry.1.accepts entry.2 = true

variable {reading : Reading} {level : Level}

theorem accepted_settle (accepted : reading.Accepted) (option : Opt) (value : String) :
    Ensures Accepted (reading.settle option value) := by
  unfold settle
  split
  · exact ensures_error .usage
  · rename_i fine
    have fits : option.accepts value = true := by simp_all
    refine ensures_ok fun entry mem => ?_
    rcases List.mem_append.mp mem with mem | mem
    · exact accepted entry mem
    · rwa [List.mem_singleton.mp mem]

theorem accepted_resolve (accepted : reading.Accepted) : Ensures Accepted reading.resolve := by
  unfold resolve
  split
  · exact ensures_ok accepted
  · exact ensures_error .usage
  · exact accepted_settle (by exact accepted) _ _

theorem accepted_meetFlag (accepted : reading.Accepted) (option : Opt) :
    Ensures Accepted (reading.meetFlag level option) := by
  refine ensures_bind (accepted_resolve accepted) fun reading accepted => ?_
  split
  · exact ensures_error _
  · exact ensures_error _
  · exact accepted_settle accepted _ _

theorem accepted_meetOption (accepted : reading.Accepted) (option : Opt)
    (attached : Option String) : Ensures Accepted (reading.meetOption option attached) := by
  refine ensures_bind (accepted_resolve accepted) fun reading accepted => ?_
  cases attached with
  | some value => exact accepted_settle accepted option value
  | none => exact ensures_ok accepted

theorem accepted_readLong (accepted : reading.Accepted) (body : List Char) :
    Ensures Accepted (reading.readLong level body) := by
  unfold readLong
  extract_lets name attached
  split
  · exact ensures_error _
  · split
    · exact accepted_meetOption accepted _ _
    · split
      · exact ensures_error _
      · exact accepted_meetFlag accepted _

theorem accepted_readShort (accepted : reading.Accepted) (letters : List Char) :
    Ensures Accepted (reading.readShort level letters) := by
  induction letters generalizing reading with
  | nil => exact ensures_ok accepted
  | cons c rest ih =>
    unfold readShort
    split
    · exact ensures_error _
    · split
      · split <;> exact accepted_meetOption accepted _ _
      · exact ensures_bind (accepted_meetFlag accepted _) fun reading accepted => ih accepted

theorem accepted_readWord (accepted : reading.Accepted) (word : String) :
    Ensures Accepted (reading.readWord level word) := by
  refine ensures_bind (accepted_resolve accepted) fun reading accepted => ?_
  split
  · exact ensures_ok accepted
  · exact ensures_error _

end Reading

open Reading (Accepted)

variable {reading : Reading} {level : Level} {command : CommandName}

theorem accepted_readWords (accepted : reading.Accepted) (words : List String) :
    Ensures Accepted (readWords level reading words) := by
  induction words generalizing reading with
  | nil => exact ensures_ok accepted
  | cons word rest ih =>
    exact ensures_bind (Reading.accepted_readWord accepted word) fun reading accepted => ih accepted

theorem accepted_readAfter (accepted : reading.Accepted) (arguments : List String) :
    Ensures Accepted (readAfter command reading arguments) := by
  induction arguments generalizing reading with
  | nil => exact ensures_ok accepted
  | cons argument rest ih =>
    unfold readAfter
    split
    · exact accepted_readWords accepted rest
    · exact ensures_bind (Reading.accepted_readLong accepted _) fun reading accepted => ih accepted
    · exact ensures_bind (Reading.accepted_readShort accepted _) fun reading accepted => ih accepted
    · split
      · exact ih (by exact accepted)
      · exact ensures_bind (Reading.accepted_readWord accepted _) fun reading accepted => ih accepted

theorem accepted_readTop (accepted : reading.Accepted) (arguments : List String) :
    Ensures (fun found => found.1.Accepted) (readTop reading arguments) := by
  induction arguments generalizing reading with
  | nil => exact ensures_ok accepted
  | cons argument rest ih =>
    unfold readTop
    split
    · exact ensures_bind (accepted_readWords accepted rest) fun reading accepted =>
        ensures_ok accepted
    · exact ensures_bind (Reading.accepted_readLong accepted _) fun reading accepted => ih accepted
    · exact ensures_bind (Reading.accepted_readShort accepted _) fun reading accepted => ih accepted
    · split
      · exact ih (by exact accepted)
      · split
        · exact ensures_ok accepted
        · split <;> exact ensures_error _

/-! ## What is asked for -/

variable {environment : Environment} {arguments : List String} {invocation : Invocation}

theorem bind_eq_ok {α β : Type} {first : Except Halt α} {next : α → Except Halt β} {b : β}
    (done : first >>= next = .ok b) : ∃ a, first = .ok a ∧ next a = .ok b := by
  cases first with
  | error halt => cases done
  | ok a => exact ⟨a, rfl, done⟩

/-- Whether a yes or no is on, by the options of the two levels or by the environment. -/
def isOn (after top : Reading) (option : Opt) (setting : Option String) : Bool :=
  after.has option || top.has option || setting == some "true"

/-- The invocation of what was read at the two levels. -/
def Invocation.ofReadings (environment : Environment) (after top : Reading) (task : Task) :
    Invocation where
  verbose := isOn after top .verbose environment.verbose
  noColor := isOn after top .noColor environment.noColor
  config := ((after.value? .config).or (top.value? .config)).or environment.config
  task

/-- **What was read** of a command line that asks for something: the options of both levels, which
their environment allows, and the command. Any other environment that allows them has the same
options and the same command. -/
theorem parse_eq_ok (parsed : parse environment arguments = .ok invocation) :
    ∃ name after top task, after.Accepted ∧ top.Accepted ∧ environment.check after = .ok () ∧
      environment.check top = .ok () ∧ taskOf after name = .ok task ∧
      invocation = .ofReadings environment after top task ∧
      ∀ environment' : Environment, environment'.check after = .ok () →
        environment'.check top = .ok () →
        parse environment' arguments = .ok (.ofReadings environment' after top task) := by
  have blank : Reading.Accepted {} := fun entry mem => absurd mem List.not_mem_nil
  obtain ⟨⟨top, found⟩, readTop, parsed⟩ := bind_eq_ok parsed
  rcases found with _ | ⟨name, rest⟩
  · cases parsed
  obtain ⟨after, readAfter, parsed⟩ := bind_eq_ok parsed
  obtain ⟨settled, resolved, parsed⟩ := bind_eq_ok parsed
  obtain ⟨⟨⟩, allowed, parsed⟩ := bind_eq_ok parsed
  obtain ⟨task, asked, parsed⟩ := bind_eq_ok parsed
  obtain ⟨settled', resolved', parsed⟩ := bind_eq_ok parsed
  obtain ⟨⟨⟩, allowed', parsed⟩ := bind_eq_ok parsed
  have accepted := Reading.accepted_resolve (accepted_readAfter blank rest _ readAfter) _ resolved
  have accepted' := Reading.accepted_resolve (accepted_readTop blank arguments _ readTop) _ resolved'
  refine ⟨name, settled, settled', task, accepted, accepted', allowed, allowed', asked,
    (Except.ok.inj parsed).symm, fun environment' check check' => ?_⟩
  simp only [parse, bind, Except.bind, readTop, readAfter, resolved, check, asked, resolved', check']
  rfl

/-- Whether the values of a command's own options can be given. -/
def Task.Fits : Task → Prop
  | .tokenize expr file _ => (expr = none ∨ file = none) ∧ file ≠ some ""
  | .repl _ | .demo => True
  | .init path _ => path ≠ some ""

/-- Whether an invocation can be asked for in an environment. -/
structure Invocation.Fits (environment : Environment) (invocation : Invocation) : Prop where
  /-- The environment cannot be told to be quiet. -/
  quiet : invocation.verbose = false →
    environment.verbose = none ∨ environment.verbose = some "false"
  colored : invocation.noColor = false →
    environment.noColor = none ∨ environment.noColor = some "false"
  named : invocation.config ≠ some ""
  unnamed : invocation.config = none → environment.config = none
  task : invocation.task.Fits

theorem value?_ne_empty (accepted : reading.Accepted) {option : Opt}
    (strict : option.accepts "" = false) : reading.value? option ≠ some "" := by
  intro given
  obtain ⟨before, behind, entries, -⟩ := List.lookup_eq_some_iff.mp given
  have accepts := accepted (option, "") (by simp [entries])
  rw [strict] at accepts
  cases accepts

theorem check_eq_ok (allowed : environment.check reading = .ok ()) :
    (reading.has .verbose || Environment.isFlag environment.verbose) = true ∧
      (reading.has .noColor || Environment.isFlag environment.noColor) = true ∧
      (reading.has .config || environment.config != some "") = true := by
  unfold Environment.check at allowed
  split at allowed
  · rename_i fine
    simpa only [Bool.and_eq_true, and_assoc] using fine
  · cases allowed

/-- A yes or no that is off is not set in the environment, or it is set to no. -/
theorem off_cases {after top : Reading} {option : Opt} {setting : Option String}
    (allowed : (after.has option || Environment.isFlag setting) = true)
    (off : isOn after top option setting = false) : setting = none ∨ setting = some "false" := by
  simp only [isOn, Bool.or_eq_false_iff] at off
  rw [off.1.1, Bool.false_or] at allowed
  unfold Environment.isFlag at allowed
  split at allowed
  · exact Or.inl rfl
  · exact absurd off.2 (by decide)
  · exact Or.inr rfl
  · cases allowed

theorem fits_taskOf (accepted : reading.Accepted) {task : Task}
    (asked : taskOf reading command = .ok task) : task.Fits := by
  cases command with
  | tokenize =>
    simp only [taskOf] at asked
    split at asked
    · cases asked
    · rename_i apart
      obtain rfl := Except.ok.inj asked
      refine ⟨?_, value?_ne_empty accepted rfl⟩
      simpa [or_iff_not_imp_left] using apart
  | repl | demo =>
    obtain rfl := Except.ok.inj asked
    trivial
  | init =>
    obtain rfl := Except.ok.inj asked
    exact value?_ne_empty accepted rfl

theorem fits_of_parse (parsed : parse environment arguments = .ok invocation) :
    invocation.Fits environment := by
  obtain ⟨name, after, top, task, accepted, accepted', allowed, allowed', asked, rfl, -⟩ :=
    parse_eq_ok parsed
  obtain ⟨verbose, noColor, config⟩ := check_eq_ok allowed
  refine ⟨off_cases verbose, off_cases noColor, ?_, ?_, fits_taskOf accepted asked⟩
  · intro named
    rcases Option.or_eq_some_iff.mp named with given | ⟨missing, named⟩
    · rcases Option.or_eq_some_iff.mp given with given | ⟨-, given⟩
      · exact value?_ne_empty accepted rfl given
      · exact value?_ne_empty accepted' rfl given
    · have free : after.has .config = false := by
        rw [Reading.has, ← Reading.value?, (Option.or_eq_none_iff.mp missing).1]
        rfl
      rw [free, named] at config
      exact absurd config (by decide)
  · intro unnamed
    exact (Option.or_eq_none_iff.mp unnamed).2

/-- **The variable of the environment stands for the option**: it names the configuration where no
option does, and may name any. -/
theorem parse_config (parsed : parse environment arguments = .ok invocation) :
    ∃ named : Option String, invocation.config = named.or environment.config ∧
      ∀ config, config ≠ some "" → parse { environment with config } arguments =
        .ok { invocation with config := named.or config } := by
  obtain ⟨name, after, top, task, -, -, allowed, allowed', asked, rfl, again⟩ := parse_eq_ok parsed
  refine ⟨(after.value? .config).or (top.value? .config), rfl, fun config filled => ?_⟩
  have check : ∀ {reading : Reading}, environment.check reading = .ok () →
      Environment.check { environment with config } reading = .ok () := by
    intro reading allowed
    obtain ⟨verbose, noColor, -⟩ := check_eq_ok allowed
    have filled : (config != some "") = true := by simpa using filled
    rw [Environment.check, verbose, noColor, filled, Bool.or_true]
    rfl
  exact again _ (check allowed) (check allowed')

end ArithTokens.CommandLine
