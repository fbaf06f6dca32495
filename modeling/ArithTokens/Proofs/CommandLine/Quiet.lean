import ArithTokens.Proofs.CommandLine.Line
import Mathlib.Data.List.TakeWhile

/-!
# Arguments without their logging options

Two options say only what is logged and how. A command line may be read **without** them.

* `quietLine` leaves them out of a command line, wherever they stand: in arguments of their own or
  among the letters of others, before the command and after it. What stands there as the value of
  an option, or behind two dashes alone, is left alone;
* `Reading.Shadows` compares the readings of both lines while they are read, and `Echoes` what comes
  of them. The line with the options may be an error of usage where the other is none;
* `echoes_readLong` and `echoes_readShort` follow the reading of one argument, option by option.
-/

namespace ArithTokens.CommandLine

/-! ## Leaving options out -/

/-- Whether an option says only what is logged and how. -/
def Opt.logs : Opt → Bool
  | .verbose | .noColor => true
  | _ => false

namespace Level

/-- The option of a letter. -/
def ofLetter? (level : Level) (c : Char) : Option Opt :=
  level.options.find? (·.short? == some c)

/-- The letters of an argument without those of logging options. Behind the letter of an option that
takes a value there are no more options. -/
def quietLetters (level : Level) : List Char → List Char
  | [] => []
  | c :: rest =>
    match level.ofLetter? c with
    | none => c :: rest
    | some option =>
      if option.takesValue then c :: rest
      else if option.logs then level.quietLetters rest
      else c :: level.quietLetters rest

/-- An argument without logging options; there may be nothing left of it. -/
def quiet (level : Level) (argument : String) : List String :=
  match Shape.of argument with
  | .long body => if [Opt.verbose, .noColor].any (·.long.toList == body) then [] else [argument]
  | .short letters =>
    match level.quietLetters letters with
    | [] => []
    | left => [String.ofList ('-' :: left)]
  | .divider | .word => [argument]

/-- Whether letters end with an option whose value is the next argument. -/
def awaitsLetters (level : Level) : List Char → Bool
  | [] => false
  | c :: rest =>
    match level.ofLetter? c with
    | none => false
    | some option => if option.takesValue then rest.isEmpty else level.awaitsLetters rest

/-- Whether an argument ends with an option whose value is the next argument. -/
def awaits (level : Level) (argument : String) : Bool :=
  match Shape.of argument with
  | .long body => (level.options.find? (·.long.toList == body)).any Opt.takesValue
  | .short letters => level.awaitsLetters letters
  | .divider | .word => false

end Level

/-- The arguments after a command without logging options. -/
def CommandName.quiet (command : CommandName) : List String → List String
  | [] => []
  | argument :: rest =>
    if Shape.of argument = .divider then argument :: rest
    else Level.quiet (.after command) argument ++ command.quiet rest

/-- The arguments up to the command and after it without logging options, where an option before
them may have **awaited** the first of them as its value. -/
def quietFrom : Bool → List String → List String
  | _, [] => []
  | awaited, argument :: rest =>
    match Shape.of argument with
    | .divider => argument :: rest
    | .word =>
      if awaited then argument :: quietFrom false rest
      else
        match (Named.ofName? argument : Option CommandName) with
        | some command => argument :: command.quiet rest
        | none => argument :: rest
    | _ => Level.top.quiet argument ++ quietFrom (Level.top.awaits argument) rest

/-- **A command line without its logging options.** -/
def quietLine (arguments : List String) : List String := quietFrom false arguments

example : quietLine ["--no-color", "-vc", "init", "tokenize", "-vsf", "-v", "-fv", "--", "-v"] =
    ["-c", "init", "tokenize", "-sf", "-fv", "--", "-v"] := by
  decide

/-! ## Results that echo each other -/

/-- Whether two readings come to the same: to the same halt, or to results in a relation. Nothing is
said where the first is an error of usage. -/
inductive Echoes {α β : Type} (R : α → β → Prop) : Except Halt α → Except Halt β → Prop where
  | usage (other : Except Halt β) : Echoes R (.error .usage) other
  | halt (halt : Halt) : Echoes R (.error halt) (.error halt)
  | ok {a : α} {b : β} (related : R a b) : Echoes R (.ok a) (.ok b)

section Echoes

variable {α β γ δ : Type} {R : α → β → Prop} {S : γ → δ → Prop} {first : Except Halt α}
  {other : Except Halt β}

theorem Echoes.bind {next : α → Except Halt γ} {next' : β → Except Halt δ}
    (echoes : Echoes R first other) (step : ∀ a b, R a b → Echoes S (next a) (next' b)) :
    Echoes S (first >>= next) (other >>= next') := by
  cases echoes with
  | usage other => exact .usage _
  | halt halt => exact .halt halt
  | ok related => exact step _ _ related

/-- Where the second is an error of usage, the first is one, too. -/
theorem Echoes.eq_usage (echoes : Echoes R first (.error .usage)) : first = .error .usage := by
  cases echoes with
  | usage other => rfl
  | halt halt => rfl

end Echoes

/-! ## Readings without logging options -/

namespace Reading

variable {reading quiet : Reading} {level : Level} {option : Opt} {value : String}

/-- A reading without its logging options. -/
def hush (reading : Reading) : Reading :=
  { reading with given := reading.given.filter fun entry => !entry.1.logs }

/-- Whether a reading waits for the value of an option. -/
def awaits (reading : Reading) : Bool :=
  match reading.pending with
  | some (_, none) => true
  | _ => false

/-- Whether a reading is that of the same arguments **without logging options**. It may have an
option before it that the other settled when it met a logging option. -/
structure Shadows (quiet reading : Reading) : Prop where
  /-- A logging option has no value to wait for. -/
  plain : ∀ entry ∈ reading.pending, entry.1.logs = false
  hushed : quiet = reading.hush ∨ reading.pending = none ∧ quiet.resolve = .ok reading.hush

theorem awaits_of_pending (waits : reading.pending = some (option, none)) :
    reading.awaits = true := by
  rw [awaits, waits]

theorem awaits_of_settled (settled : reading.pending = none) : reading.awaits = false := by
  rw [awaits, settled]

theorem shadows_hush (settled : reading.pending = none) : Shadows reading.hush reading :=
  ⟨by simp [settled], Or.inl rfl⟩

theorem value?_hush (plain : option.logs = false) :
    reading.hush.value? option = reading.value? option := by
  rw [value?, value?, hush]
  induction reading.given with
  | nil => rfl
  | cons entry given ih =>
    obtain ⟨other, value⟩ := entry
    by_cases same : option = other
    · subst same
      simp [plain]
    · have miss : (option == other) = false := by simpa using same
      cases logs : other.logs <;> simp [logs, List.lookup_cons, miss, ih]

theorem has_hush (plain : option.logs = false) :
    reading.hush.has option = reading.has option :=
  congrArg Option.isSome (value?_hush plain)

theorem Shadows.awaits_eq (shadows : Shadows quiet reading) : quiet.awaits = reading.awaits := by
  rcases shadows.hushed with rfl | ⟨settled, resolved⟩
  · rfl
  · rw [awaits_of_settled settled, awaits]
    split
    · rename_i option waits
      rw [resolve, waits] at resolved
      cases resolved
    · rfl

/-! ### Steps -/

/-- An option is settled with and without the logging options, or with them it is an error. -/
theorem settle_cases (reading : Reading) (plain : option.logs = false) (value : String) :
    reading.settle option value = .error .usage ∨
      ∃ a, reading.settle option value = .ok a ∧ reading.hush.settle option value = .ok a.hush ∧
        a.pending = reading.pending := by
  rw [settle, settle, has_hush plain]
  split
  · exact Or.inl rfl
  · exact Or.inr ⟨_, rfl, by simp [hush, plain], rfl⟩

/-- A logging option is settled without a trace, or it is an error. -/
theorem settle_cases_logs (reading : Reading) (logs : option.logs = true) (value : String) :
    reading.settle option value = .error .usage ∨
      ∃ a, reading.settle option value = .ok a ∧ a.hush = reading.hush ∧
        a.pending = reading.pending := by
  rw [settle]
  split
  · exact Or.inl rfl
  · exact Or.inr ⟨_, rfl, by simp [hush, logs], rfl⟩

theorem echoes_settle (settled : reading.pending = none) (plain : option.logs = false)
    (value : String) :
    Echoes (fun a b => Shadows b a ∧ a.awaits = false) (reading.settle option value)
      (reading.hush.settle option value) := by
  rcases reading.settle_cases plain value with failed | ⟨a, settle, settle', same⟩
  · rw [failed]
    exact .usage _
  · rw [settled] at same
    rw [settle, settle']
    exact .ok ⟨shadows_hush same, awaits_of_settled same⟩

/-- Settling the option met last brings both readings to the same, or it is an error. -/
theorem resolve_cases (shadows : Shadows quiet reading) :
    reading.resolve = .error .usage ∨
      ∃ a, reading.resolve = .ok a ∧ quiet.resolve = .ok a.hush ∧ a.pending = none := by
  rcases shadows.hushed with rfl | ⟨settled, resolved⟩
  · have same : reading.hush.pending = reading.pending := rfl
    rw [resolve, resolve, same]
    rcases pending : reading.pending with _ | ⟨option, _ | value⟩
    · exact Or.inr ⟨reading, rfl, rfl, pending⟩
    · exact Or.inl rfl
    · exact settle_cases { reading with pending := none } (shadows.plain _ pending) value
  · rw [resolve, settled]
    exact Or.inr ⟨reading, rfl, resolved, settled⟩

theorem echoes_resolve (shadows : Shadows quiet reading) :
    Echoes (fun a b => b = a.hush ∧ a.pending = none) reading.resolve quiet.resolve := by
  rcases resolve_cases shadows with failed | ⟨a, resolved, resolved', settled⟩
  · rw [failed]
    exact .usage _
  · rw [resolved, resolved']
    exact .ok ⟨rfl, settled⟩

theorem echoes_meetFlag (shadows : Shadows quiet reading) (plain : option.logs = false) :
    Echoes (fun a b => Shadows b a ∧ a.awaits = false) (reading.meetFlag level option)
      (quiet.meetFlag level option) := by
  refine (echoes_resolve shadows).bind fun a b related => ?_
  obtain ⟨rfl, settled⟩ := related
  cases option with
  | version => exact .halt _
  | help => exact .halt _
  | _ => exact echoes_settle settled plain ""

/-- **A logging option** leaves the reading without it where it is. -/
theorem echoes_meetFlag_logs (shadows : Shadows quiet reading) (logs : option.logs = true) :
    Echoes (fun a b => Shadows b a ∧ a.awaits = false) (reading.meetFlag level option)
      (.ok quiet) := by
  have met : reading.meetFlag level option =
      reading.resolve >>= fun settled => settled.settle option "" := by
    cases option with
    | verbose | noColor => rfl
    | _ => cases logs
  rw [met]
  rcases resolve_cases shadows with failed | ⟨a, resolved, resolved', settled⟩
  · rw [failed]
    exact .usage _
  · rw [resolved]
    change Echoes _ (a.settle option "") _
    rcases a.settle_cases_logs logs "" with failed | ⟨b, settle, same, pending⟩
    · rw [failed]
      exact .usage _
    · rw [settled] at pending
      rw [settle]
      exact .ok ⟨⟨by simp [pending], Or.inr ⟨pending, by rw [resolved', same]⟩⟩,
        awaits_of_settled pending⟩

theorem echoes_meetOption (shadows : Shadows quiet reading) (takes : option.takesValue = true)
    (attached : Option String) :
    Echoes (fun a b => Shadows b a ∧ a.awaits = attached.isNone)
      (reading.meetOption option attached) (quiet.meetOption option attached) := by
  have plain : option.logs = false := by
    cases option <;> first | rfl | cases takes
  refine (echoes_resolve shadows).bind fun a b related => ?_
  obtain ⟨rfl, settled⟩ := related
  cases attached with
  | none => exact .ok ⟨⟨by simp [plain], Or.inl rfl⟩, rfl⟩
  | some value => exact echoes_settle settled plain value

/-! ### Arguments -/

variable {body letters rest : List Char} {argument : String}

/-- **Two dashes without a value**: the option is the one of that name. -/
theorem readLong_bare (bare : ∀ c ∈ body, (c != '=') = true) (reading : Reading) :
    reading.readLong level body =
      match level.options.find? (·.long.toList == body) with
      | none => .error .usage
      | some option =>
        if option.takesValue then reading.meetOption option none
        else reading.meetFlag level option := by
  have named : (fun option : Opt => option.long == String.ofList body) =
      fun option => option.long.toList == body := by
    funext option
    rw [Bool.eq_iff_iff, beq_iff_eq, beq_iff_eq, ← String.toList_inj, String.toList_ofList]
  rw [readLong, List.takeWhile_eq_self_iff.mpr bare, List.dropWhile_eq_nil_iff.mpr bare, named]
  rfl

/-- **Two dashes with a value**, which must be for an option that takes one. -/
theorem readLong_valued (valued : ¬∀ c ∈ body, (c != '=') = true) (level : Level) :
    ∃ name value, ∀ reading : Reading, reading.readLong level body =
      match level.options.find? (·.long == name) with
      | none => .error .usage
      | some option =>
        if option.takesValue then reading.meetOption option (some value) else .error .usage := by
  cases left : body.dropWhile (· != '=') with
  | nil => exact absurd (List.dropWhile_eq_nil_iff.mp left) valued
  | cons c value =>
    refine ⟨String.ofList (body.takeWhile (· != '=')), String.ofList value, fun reading => ?_⟩
    rw [readLong, left]
    rfl

theorem find?_long_of_logs (logs : option.logs = true) (level : Level) :
    level.options.find? (·.long.toList == option.long.toList) = some option := by
  cases option with
  | verbose | noColor => rcases level with _ | _ | _ | _ | _ <;> decide
  | _ => cases logs

theorem takesValue_of_logs (logs : option.logs = true) : option.takesValue = false := by
  cases option <;> first | rfl | cases logs

theorem echoes_readLong_logs (shadows : Shadows quiet reading) (logs : option.logs = true) :
    Echoes (fun a b => Shadows b a ∧ a.awaits = false)
      (reading.readLong level option.long.toList) (.ok quiet) := by
  rw [readLong_bare option.long_plain, find?_long_of_logs logs]
  simpa [takesValue_of_logs logs] using echoes_meetFlag_logs shadows logs

theorem echoes_readLong (shadows : Shadows quiet reading)
    (plain : ∀ option : Opt, option.long.toList = body → option.logs = false) :
    Echoes
      (fun a b => Shadows b a ∧
        a.awaits = (level.options.find? (·.long.toList == body)).any Opt.takesValue)
      (reading.readLong level body) (quiet.readLong level body) := by
  by_cases bare : ∀ c ∈ body, (c != '=') = true
  · rw [readLong_bare bare, readLong_bare bare]
    cases found : level.options.find? (·.long.toList == body) with
    | none => exact .usage _
    | some option =>
      have named : option.long.toList = body := by simpa using List.find?_some found
      dsimp only [Option.any_some]
      cases takes : option.takesValue with
      | true => exact echoes_meetOption shadows takes none
      | false => exact echoes_meetFlag shadows (plain option named)
  · have unnamed : level.options.find? (·.long.toList == body) = none := by
      refine List.find?_eq_none.mpr fun option _ named => bare ?_
      rw [← beq_iff_eq.mp named]
      exact option.long_plain
    obtain ⟨name, value, read⟩ := readLong_valued bare level
    rw [unnamed, read, read]
    cases level.options.find? (·.long == name) with
    | none => exact .usage _
    | some option =>
      dsimp only
      cases takes : option.takesValue with
      | true => exact echoes_meetOption shadows takes (some value)
      | false => exact .usage _

/-- **The letter of an option that takes a value** ends the letters. -/
theorem readShort_takes {c : Char} (letter : level.ofLetter? c = some option)
    (takes : option.takesValue = true) (rest : List Char) :
    ∃ attached : Option String, attached.isNone = rest.isEmpty ∧ ∀ reading : Reading,
      reading.readShort level (c :: rest) = reading.meetOption option attached := by
  have found : level.options.find? (·.short? == some c) = some option := letter
  rcases rest with _ | ⟨d, value⟩
  · exact ⟨none, rfl, fun reading => by simp [readShort, found, takes]⟩
  · by_cases equals : d = '='
    · subst equals
      exact ⟨some (String.ofList value), rfl, fun reading => by simp [readShort, found, takes]⟩
    · exact ⟨some (String.ofList (d :: value)), rfl, fun reading => by
        simp [readShort, found, takes, equals]⟩

theorem readShort_plain {c : Char} (letter : level.ofLetter? c = some option)
    (takes : option.takesValue = false) (rest : List Char) (reading : Reading) :
    reading.readShort level (c :: rest) =
      reading.meetFlag level option >>= fun reading => reading.readShort level rest := by
  rw [readShort, ← Level.ofLetter?, letter]
  dsimp only
  rw [takes]
  rfl

/-- **Letters**, without those of logging options. -/
theorem echoes_readShort (shadows : Shadows quiet reading)
    (free : letters = [] → reading.awaits = false) :
    Echoes (fun a b => Shadows b a ∧ a.awaits = level.awaitsLetters letters)
      (reading.readShort level letters) (quiet.readShort level (level.quietLetters letters)) := by
  induction letters generalizing reading quiet with
  | nil => exact .ok ⟨shadows, free rfl⟩
  | cons c rest ih =>
    rw [Level.quietLetters, Level.awaitsLetters]
    cases letter : level.ofLetter? c with
    | none =>
      rw [readShort, ← Level.ofLetter?, letter]
      exact .usage _
    | some option =>
      dsimp only
      cases takes : option.takesValue with
      | true =>
        obtain ⟨attached, bare, read⟩ := readShort_takes letter takes rest
        simp only [read, if_true, ← bare]
        exact echoes_meetOption shadows takes attached
      | false =>
        rw [readShort_plain letter takes]
        cases logs : option.logs with
        | true =>
          exact (echoes_meetFlag_logs shadows logs).bind fun a b related =>
            ih related.1 fun _ => related.2
        | false =>
          simp only [Bool.false_eq_true, if_false]
          rw [readShort_plain letter takes]
          exact (echoes_meetFlag shadows logs).bind fun a b related =>
            ih related.1 fun _ => related.2

theorem echoes_readWord (shadows : Shadows quiet reading) (word : String) :
    Echoes (fun a b => Shadows b a ∧ a.awaits = false) (reading.readWord level word)
      (quiet.readWord level word) := by
  refine (echoes_resolve shadows).bind fun a b related => ?_
  obtain ⟨rfl, settled⟩ := related
  have words : a.hush.words = a.words := rfl
  rw [words]
  split
  · have settled' : Reading.pending { a with words := a.words ++ [word] } = none := settled
    exact .ok ⟨shadows_hush settled', awaits_of_settled settled'⟩
  · exact .usage _

end Reading

end ArithTokens.CommandLine
