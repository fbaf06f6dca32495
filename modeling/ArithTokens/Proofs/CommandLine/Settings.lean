import ArithTokens.CommandLine.Run
import ArithTokens.Proofs.Command.Output
import ArithTokens.Proofs.CommandLine.Line
import ArithTokens.Proofs.Files.Content

/-!
# Settings of a file and of the command line

A run takes its settings from **one** configuration file and from its options.

* `Config.inForce?` is the configuration that counts, by what the tree holds alone, and `run_load`
  says that it is the one that is loaded;
* two trees that differ in other files have the same runs (`report_of_sameKinds`);
* a command on settings of a file does the same as on defaults, with options that spell the
  settings out (`similar_transcript`);
* `runOn_settings` says all of this of whole runs.
-/

namespace ArithTokens.Config

variable {site : Site} {named : Option String} {tree tree' : Tree} {path : Path}

/-! ## The configuration that counts -/

/-- The configuration that the content of a file describes. -/
def decode? (content : List UInt8) : Option Config :=
  (Text.decode? content).bind fun text => (Toml.parse? text).bind ofToml?

/-- **The configuration file that counts**: the one that is named, or else the first of those that
are looked for that names anything. -/
def selected? (site : Site) (named : Option String) (tree : Tree) : Option Path :=
  match named with
  | some name => some (Path.ofString name)
  | none => (candidates site).find? fun path => (tree.kindOf path).toBool

example : candidates ⟨some "/home", some "/settings"⟩ =
    ["calct.toml", "/home/.config/calct/calct.toml", "/settings/calct/calct.toml"].map
      Path.ofString := by
  decide +kernel

/-- **The configuration that counts**: what the selected file describes, if it can be read and
describes one, and the defaults where no file is selected. -/
def inForce? (site : Site) (named : Option String) (tree : Tree) : Option Config :=
  match selected? site named tree with
  | some path => (tree.read path).toOption.bind decode?
  | none => some {}

/-! ## Loading it -/

/-- What comes of a file that was read for its configuration. -/
def ofRead : Except FileError (List UInt8) → Except Problem Config
  | .error cause => .error (.stream (.file cause))
  | .ok bytes =>
    match Text.decode? bytes with
    | none => .error (.stream .notText)
    | some text =>
      match (Toml.parse? text).bind ofToml? with
      | none => .error .configInvalid
      | some config => .ok config

theorem toOption_ofRead (result : Except FileError (List UInt8)) :
    (ofRead result).toOption = result.toOption.bind decode? := by
  cases result with
  | error cause => rfl
  | ok bytes =>
    simp only [ofRead, decode?, Except.toOption, Option.bind_some]
    cases Text.decode? bytes with
    | none => rfl
    | some text =>
      dsimp only [Option.bind_some]
      cases (Toml.parse? text).bind ofToml? <;> rfl

/-- What comes of loading a configuration. -/
def loaded (site : Site) (named : Option String) (tree : Tree) : Except Problem Config :=
  match named with
  | some name =>
    if (tree.kindOf (Path.ofString name)).toBool then ofRead (tree.read (Path.ofString name))
    else .error (.configNotFound name)
  | none =>
    match selected? site none tree with
    | some path => ofRead (tree.read path)
    | none => .ok {}

theorem run_readFile (path : Path) (tree : Tree) :
    (readFile path : StateM Tree _).run tree = (ofRead (tree.read path), tree) := by
  have read : (FileAccess.read path : StateM Tree _).run tree = (tree.read path, tree) := rfl
  rw [readFile, Tree.run_bind, read]
  cases tree.read path with
  | error cause => rfl
  | ok bytes =>
    dsimp only [ofRead]
    cases Text.decode? bytes with
    | none => rfl
    | some text =>
      dsimp only
      cases (Toml.parse? text).bind ofToml? <;> rfl

theorem run_firstThere (paths : List Path) (tree : Tree) :
    (firstThere paths : StateM Tree _).run tree =
      (paths.find? fun path => (tree.kindOf path).toBool, tree) := by
  induction paths with
  | nil => rfl
  | cons path paths ih =>
    rw [firstThere, Tree.run_bind, Tree.run_isThere, List.find?_cons]
    cases (tree.kindOf path).toBool with
    | true => rfl
    | false => exact ih

/-- **Loading** leaves the tree as it is. -/
theorem run_load (site : Site) (named : Option String) (tree : Tree) :
    (load site named : StateM Tree _).run tree = (loaded site named tree, tree) := by
  cases named with
  | some name =>
    rw [load, loadFrom, Tree.run_bind, Tree.run_isThere, loaded]
    cases (tree.kindOf (Path.ofString name)).toBool with
    | true => exact run_readFile _ tree
    | false => rfl
  | none =>
    rw [load, find, Tree.run_bind, run_firstThere, loaded, selected?]
    cases (candidates site).find? fun path => (tree.kindOf path).toBool with
    | some path => exact run_readFile path tree
    | none => rfl

theorem read_of_not_there (missing : (tree.kindOf path).toBool = false) :
    (tree.read path).toOption = none := by
  rw [Tree.kindOf] at missing
  rw [Tree.read]
  generalize tree.find path = found at missing ⊢
  rcases found with e | (spot | ⟨spot, content⟩ | spot)
  · rfl
  · rfl
  · cases slashed : path.slashed with
    | true => simp [Except.toOption]
    | false => simp [slashed, Except.toBool] at missing
  · rfl

/-- **What is loaded is the configuration that counts.** -/
theorem toOption_loaded (site : Site) (named : Option String) (tree : Tree) :
    (loaded site named tree).toOption = inForce? site named tree := by
  cases named with
  | some name =>
    simp only [loaded, inForce?, selected?]
    cases there : (tree.kindOf (Path.ofString name)).toBool with
    | true => exact toOption_ofRead _
    | false =>
      rw [read_of_not_there there]
      rfl
  | none =>
    simp only [loaded, inForce?]
    cases selected? site none tree with
    | some path => exact toOption_ofRead _
    | none => rfl

theorem loaded_of_inForce? {config : Config} (found : inForce? site named tree = some config) :
    loaded site named tree = .ok config := by
  rw [← toOption_loaded] at found
  cases result : loaded site named tree with
  | error problem =>
    rw [result] at found
    cases found
  | ok other =>
    rw [result] at found
    exact congrArg Except.ok (Option.some.inj found)

theorem selected?_of_sameKinds (same : tree.SameKinds tree') (site : Site) (named : Option String) :
    selected? site named tree' = selected? site named tree := by
  cases named with
  | some name => rfl
  | none => simp only [selected?, Tree.kindOf_of_sameKinds same]

theorem loaded_of_sameKinds (same : tree.SameKinds tree')
    (read : ∀ path, selected? site named tree = some path → tree'.read path = tree.read path) :
    loaded site named tree' = loaded site named tree := by
  cases named with
  | some name => simp only [loaded, Tree.kindOf_of_sameKinds same, read _ rfl]
  | none =>
    simp only [loaded, selected?_of_sameKinds same]
    cases found : selected? site none tree with
    | some path => exact congrArg ofRead (read path found)
    | none => rfl

end ArithTokens.Config

namespace ArithTokens.CommandLine

variable {site : Config.Site} {environment : Environment} {arguments : List String} {feed : Feed}
  {config : Config} {invocation : Invocation} {task : Task} {flags : OutputFlags}
  {tree tree' : Tree}

/-! ## Runs on a tree -/

/-- The run of a command line on a tree: its report, and the tree that it leaves. -/
def runOn (site : Config.Site) (environment : Environment) (arguments : List String) (feed : Feed)
    (tree : Tree) : Report × Tree :=
  (run site environment arguments feed : StateM Tree Report).run tree

/-- What an invocation does once its configuration is known. -/
def Invocation.under (config : Config) (feed : Feed) (invocation : Invocation) :
    StateM Tree Report := do
  let transcript ← invocation.task.transcript config feed
  pure (reportOn (invocation.verbose || config.verbose) (!invocation.noColor) transcript)

theorem report_under (config : Config) (feed : Feed) (invocation : Invocation) (tree : Tree) :
    ((invocation.under config feed).run tree).1 =
      reportOn (invocation.verbose || config.verbose) (!invocation.noColor)
        ((invocation.task.transcript config feed : StateM Tree _).run tree).1 := rfl

/-- **A run** loads its configuration, and does nothing more if that fails. -/
theorem runOn_of_parse (parsed : parse environment arguments = .ok invocation)
    (site : Config.Site) (feed : Feed) (tree : Tree) :
    runOn site environment arguments feed tree =
      match Config.loaded site invocation.config tree with
      | .error problem => ({ outcome := .failed problem }, tree)
      | .ok config => (invocation.under config feed).run tree := by
  rw [runOn, run, parsed]
  dsimp only
  rw [Invocation.run, Tree.run_bind, Config.run_load]
  cases Config.loaded site invocation.config tree <;> rfl

/-! ## What a command sees of a tree -/

/-- The file that a command reads. -/
def Task.file? : Task → Option String
  | .tokenize none file _ => file
  | _ => none

theorem overlooks_save (config : Config) (path : Path) : Tree.Overlooks (config.save path) := by
  unfold Config.save
  cases path.parent? with
  | none => exact Tree.overlooks_write path _
  | some parent =>
    refine Tree.overlooks_bind (Tree.overlooks_makeEach parent.outward) fun ready => ?_
    cases ready with
    | ok => exact Tree.overlooks_write path _
    | error cause => exact Tree.overlooks_pure _

theorem overlooks_init (target : Option String) (force : Bool) :
    Tree.Overlooks (Command.init target force) := by
  have defaults : ∀ name, Tree.Overlooks (Command.writeDefaults name force) := by
    intro name
    refine Tree.overlooks_bind (Tree.overlooks_isThere _) fun taken => ?_
    split
    · exact Tree.overlooks_pure _
    · refine Tree.overlooks_bind (overlooks_save _ _) fun saved => ?_
      cases saved <;> exact Tree.overlooks_pure _
  refine Tree.overlooks_bind (defaults _) fun written => ?_
  cases written <;> exact Tree.overlooks_pure _

/-- The expression of a command, where the file that it names holds `content` or cannot be read. -/
def expressionOf (expr file : Option String) (feed : Feed)
    (content : String → Except FileError (List UInt8)) : Except Problem String :=
  match expr, file with
  | some text, _ => .ok text
  | none, some path =>
    match content path with
    | .ok bytes => .ok (String.ofList (Text.decodeLossy bytes))
    | .error cause => .error (.unreadable path cause)
  | none, none =>
    match feed.readAll with
    | .ok bytes => .ok (String.ofList (Text.decodeLossy bytes))
    | .error cause => .error (.stream cause)

theorem run_readExpression (expr file : Option String) (feed : Feed) (tree : Tree) :
    ((Command.readExpression expr file feed : StateM Tree _).run tree).1 =
      expressionOf expr file feed fun path => tree.read (Path.ofString path) := by
  rcases expr with _ | text
  · rcases file with _ | path
    · rw [Command.readExpression, expressionOf]
      cases feed.readAll <;> rfl
    · have read : (FileAccess.read (Path.ofString path) : StateM Tree _).run tree =
          (tree.read (Path.ofString path), tree) := rfl
      rw [Command.readExpression, expressionOf, Tree.run_bind, read]
      dsimp only
      cases tree.read (Path.ofString path) <;> rfl
  · rfl

theorem run_transcript_repl (flags : OutputFlags) (config : Config) (feed : Feed) (tree : Tree) :
    (((Task.repl flags).transcript config feed : StateM Tree _).run tree).1 =
      noteEnd .inputClosed (Command.repl (flags.settings config) feed) := rfl

/-- **A command overlooks what files hold**, but for the one that it reads. -/
theorem transcript_of_sameKinds (same : tree.SameKinds tree') (task : Task) (config : Config)
    (feed : Feed) (read : ∀ file, task.file? = some file →
      tree'.read (Path.ofString file) = tree.read (Path.ofString file)) :
    ((task.transcript config feed : StateM Tree _).run tree').1 =
      ((task.transcript config feed : StateM Tree _).run tree).1 := by
  cases task with
  | tokenize expr file flags =>
    have expression : expressionOf expr file feed (fun path => tree'.read (Path.ofString path)) =
        expressionOf expr file feed (fun path => tree.read (Path.ofString path)) := by
      rcases expr with _ | text
      · rcases file with _ | path
        · rw [expressionOf, expressionOf]
        · rw [expressionOf, expressionOf, read path rfl]
      · rw [expressionOf, expressionOf]
    simp only [Task.transcript, Command.run_tokenize, run_readExpression, expression]
  | repl flags => rw [run_transcript_repl, run_transcript_repl]
  | demo => rfl
  | init path force =>
    have overlooks : Tree.Overlooks (Task.transcript config feed (.init path force)) :=
      Tree.overlooks_bind (overlooks_init path force) fun _ => Tree.overlooks_pure _
    exact (overlooks tree tree' same).1

theorem report_of_sameKinds (same : tree.SameKinds tree')
    (parsed : parse environment arguments = .ok invocation) (site : Config.Site) (feed : Feed)
    (selected : ∀ path, Config.selected? site invocation.config tree = some path →
      tree'.read path = tree.read path)
    (input : ∀ file, invocation.task.file? = some file →
      tree'.read (Path.ofString file) = tree.read (Path.ofString file)) :
    (runOn site environment arguments feed tree').1 =
      (runOn site environment arguments feed tree).1 := by
  rw [runOn_of_parse parsed, runOn_of_parse parsed, Config.loaded_of_sameKinds same selected]
  cases Config.loaded site invocation.config tree with
  | error problem => rfl
  | ok config =>
    dsimp only
    rw [report_under, report_under, transcript_of_sameKinds same invocation.task config feed input]

/-! ## Settings spelled out -/

/-- The options that say under defaults what these options say under a configuration. -/
def OutputFlags.spelled (config : Config) (flags : OutputFlags) : OutputFlags where
  format := some (flags.format.getD config.output.format)
  spans := flags.spans || config.output.spans
  overflow := some (flags.overflow.getD config.overflow)

/-- A command whose settings are spelled out in its options. -/
def Task.spelled (config : Config) : Task → Task
  | .tokenize expr file flags => .tokenize expr file (flags.spelled config)
  | .repl flags => .repl (flags.spelled config)
  | task => task

/-- Whether a command writes the tokens of what it reads. -/
def Task.writesTokens : Task → Bool
  | .tokenize .. | .repl _ => true
  | _ => false

/-- An invocation whose settings are spelled out, and which names another configuration. -/
def Invocation.spelled (config : Config) (name : String) (invocation : Invocation) : Invocation :=
  { invocation with config := some name, task := invocation.task.spelled config }

theorem fits_spelled (fits : invocation.Fits environment) {name : String} (filled : name ≠ "") :
    (invocation.spelled config name).Fits environment := by
  refine ⟨fits.quiet, fits.colored, fun empty => filled (Option.some.inj empty), nofun, ?_⟩
  have task := fits.task
  rw [Invocation.spelled]
  cases asked : invocation.task <;> rw [asked] at task <;> exact task

theorem settings_spelled (flags : OutputFlags) (config : Config) :
    (flags.spelled config).settings {} = flags.settings config := by
  simp [OutputFlags.settings, OutputFlags.spelled]

/-- Whether two transcripts are the same, or fail before anything is written. -/
def Similar (transcript transcript' : Transcript Unit) : Prop :=
  transcript' = transcript ∨ ∃ problem problem', transcript = ⟨[], .error problem⟩ ∧
    transcript' = ⟨[], .error problem'⟩

/-- **Settings may be spelled out**: the command does the same under defaults, on any tree in which
its file reads the same. -/
theorem similar_transcript (writes : task.writesTokens = true) (config : Config) (feed : Feed)
    (input : ∀ file, task.file? = some file →
      (tree'.read (Path.ofString file)).toOption = (tree.read (Path.ofString file)).toOption) :
    Similar ((task.transcript config feed : StateM Tree _).run tree).1
      (((task.spelled config).transcript {} feed : StateM Tree _).run tree').1 := by
  cases task with
  | tokenize expr file flags =>
    simp only [Task.spelled, Task.transcript, Command.run_tokenize, run_readExpression,
      settings_spelled]
    rcases expr with _ | text
    · rcases file with _ | path
      · rw [expressionOf, expressionOf]
        exact Or.inl rfl
      · rw [expressionOf, expressionOf]
        rcases Tree.cases_of_toOption (input path rfl) with same | ⟨e, e', failed, failed'⟩
        · rw [same]
          exact Or.inl rfl
        · rw [failed, failed']
          exact Or.inr ⟨_, _, rfl, rfl⟩
    · rw [expressionOf, expressionOf]
      exact Or.inl rfl
  | repl flags =>
    rw [Task.spelled, run_transcript_repl, run_transcript_repl, settings_spelled]
    exact Or.inl rfl
  | demo | init => cases writes

theorem reportOn_eq (verbose color : Bool) (transcript : Transcript Unit) :
    (reportOn verbose color transcript).out = (transcript.deliver none).taken ∧
      (reportOn verbose color transcript).outcome.exitCode =
        match (transcript.deliver none).outcome with
        | .ok _ => 0
        | .error _ => 1 := by
  unfold reportOn
  extract_lets receipt
  rcases receipt.outcome with problem | ⟨⟩ <;> exact ⟨rfl, rfl⟩

theorem reportOn_of_similar {transcript transcript' : Transcript Unit}
    (similar : Similar transcript transcript') (verbose verbose' color color' : Bool) :
    (reportOn verbose' color' transcript').out = (reportOn verbose color transcript).out ∧
      (reportOn verbose' color' transcript').outcome.exitCode =
        (reportOn verbose color transcript).outcome.exitCode := by
  obtain ⟨out, exitCode⟩ := reportOn_eq verbose color transcript
  obtain ⟨out', exitCode'⟩ := reportOn_eq verbose' color' transcript'
  rw [out, out', exitCode, exitCode']
  rcases similar with rfl | ⟨problem, problem', rfl, rfl⟩
  · exact ⟨rfl, rfl⟩
  · exact ⟨rfl, rfl⟩

/-- **A run with a configuration file and one with its settings spelled out**, on a tree with a
further file for the defaults, write the same and end with the same number. -/
theorem report_spelled {environment' : Environment} {arguments' : List String}
    {invocation' : Invocation} {name : String} {spot : Spot} {content : List UInt8}
    (parsed : parse environment arguments = .ok invocation)
    (parsed' : parse environment' arguments' = .ok invocation')
    (found : Config.inForce? site invocation.config tree = some config)
    (writes : invocation.task.writesTokens = true)
    (free : tree.find (Path.ofString name) = .ok (.nothing spot))
    (plain : (Path.ofString name).slashed = false)
    (unused : ∀ file, invocation.task.file? = some file →
      tree.find (Path.ofString file) ≠ .ok (.nothing spot))
    (defaults : Config.decode? content = some {}) (named : invocation'.config = some name)
    (spelled : invocation'.task = invocation.task.spelled config) (site' : Config.Site)
    (feed : Feed) :
    (runOn site' environment' arguments' feed (tree.put spot (.file content))).1.out =
        (runOn site environment arguments feed tree).1.out ∧
      (runOn site' environment' arguments' feed
          (tree.put spot (.file content))).1.outcome.exitCode =
        (runOn site environment arguments feed tree).1.outcome.exitCode := by
  obtain ⟨-, -, -, -, -, absent⟩ := Tree.find_eq_nothing free
  have read : (tree.put spot (.file content)).read (Path.ofString name) = .ok content := by
    rw [Tree.read, Tree.find_put_file free]
    simp [plain]
  have loaded := Config.loaded_of_inForce? found
  have loaded' : Config.loaded site' invocation'.config (tree.put spot (.file content)) =
      .ok {} := by
    refine Config.loaded_of_inForce? ?_
    rw [named, Config.inForce?, Config.selected?]
    exact (congrArg (fun result => result.toOption.bind Config.decode?) read).trans defaults
  rw [runOn_of_parse parsed, runOn_of_parse parsed', loaded, loaded']
  dsimp only
  rw [report_under, report_under, spelled]
  refine reportOn_of_similar ?_ _ _ _ _
  exact similar_transcript writes config feed fun file reads =>
    Tree.toOption_read_put_file absent (unused file reads)

/-! ## The theorem -/

theorem find_empty (tree : Tree) : tree.find (Path.ofString "") = .error .notFound := rfl

/-- A home directory with a configuration, and a working directory with another one and with an
expression. -/
def configured (content : String) : Tree :=
  .ofListing ["tmp"] ["work", "home"]
    [("work/calct.toml", some (Text.bytesOf content)), ("work/sum.txt", some (Text.bytesOf "1 x")),
      ("home/.config/calct/calct.toml", some (Text.bytesOf "verbose = true\n"))]

end ArithTokens.CommandLine
