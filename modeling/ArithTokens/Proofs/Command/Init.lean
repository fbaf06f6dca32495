import ArithTokens.Command.Init
import ArithTokens.Proofs.Files.Making

/-!
# Default configurations and the files that are there

Without force the default configuration is written only where the target names nothing **before**
the directories that lead to it are made.

* `initOn_cases` is what one command does to a tree: it adds directories, and then it may put the
  defaults where the target leads by then;
* `initOn_file` compares the two moments: a file is kept unless the target comes back from a
  directory that was not there;
* `initEach_keeps_files` says so of any number of commands, one after the other.
-/

namespace ArithTokens.Tree

variable {tree built : Tree} {here spot : Spot} {content : List UInt8} {path : Path}

/-! ## Writing -/

theorem closed_write (closed : tree.Closed) (path : Path) (content : List UInt8) :
    (tree.write path content).2.Closed := by
  rcases write_cases tree path content with
    ⟨cause, failed⟩ | ⟨here, last, approached, -, -, free, put⟩
  · rwa [failed]
  · obtain ⟨-, walked, -⟩ := approach_eq_named approached
    rw [put]
    exact closed.put (closed.walk (closed.origin path) walked) free _

/-- A file that a path leads to is there. -/
theorem kindOf_of_approach {last : String} (target : tree.approach path = .ok (.named here last))
    (slashed : path.slashed = false) (short : Text.byteSize last.toList ≤ longestName)
    (file : tree.node? (here ++ [last]) = some (.file content)) :
    tree.kindOf path = .ok .file := by
  simp [kindOf, find, target, Target.found, entry?, Nat.not_lt.mpr short, file, slashed]

end ArithTokens.Tree

namespace ArithTokens.Command

variable {tree : Tree} {spot : Spot} {content : List UInt8}

/-- The path of a target. -/
def targetPath (target : Option String) : Path := Path.ofString (target.getD Config.fileName)

/-- The content of the file that is written. -/
def defaults : List UInt8 := Text.bytesOf (Config.toToml {})

/-- The tree after the default configuration was asked for without force. -/
def initOn (tree : Tree) (target : Option String) : Tree :=
  ((init target false : StateM Tree _).run tree).2

/-- The tree after the default configuration was asked for at some targets, one after the other. -/
def initEach (tree : Tree) (targets : List (Option String)) : Tree := targets.foldl initOn tree

/-! ## One command -/

/-- **Saving a configuration** makes directories on the way to the file, and unless that fails it
writes the file. -/
theorem save_cases (config : Config) (path : Path) (tree : Tree) :
    ∃ built, tree.Grows built ∧ (∀ spot, tree.KeptOrNew built path spot) ∧
      ((∃ cause, (config.save path : StateM Tree _).run tree = (.error cause, built)) ∨
        (config.save path : StateM Tree _).run tree =
          built.write path (Text.bytesOf config.toToml)) := by
  unfold Config.save
  rcases holder : path.parent? with _ | parent
  · exact ⟨tree, .refl tree, fun _ => Or.inl rfl, Or.inr rfl⟩
  · have paves := Tree.paves_makeDirectories parent tree
    refine ⟨_, paves.grows, fun spot => (paves.keeps spot).imp_right fun new =>
      ⟨parent, holder, new⟩, ?_⟩
    dsimp only
    rw [Tree.run_bind]
    rcases (FileAccess.makeDirectories parent : StateM Tree _).run tree with ⟨cause | _, built⟩
    · exact Or.inl ⟨cause, rfl⟩
    · exact Or.inr rfl

/-- The run of one command: its transcript, and the tree that it leaves. -/
def runInit (tree : Tree) (target : Option String) (force : Bool) : Transcript String × Tree :=
  (init target force : StateM Tree _).run tree

theorem runInit_eq (tree : Tree) (target : Option String) (force : Bool) :
    runInit tree target force =
      if (tree.kindOf (targetPath target)).toBool && !force then
        (⟨[], .error (.targetExists (target.getD Config.fileName))⟩, tree)
      else
        match (Config.save {} (targetPath target) : StateM Tree _).run tree with
        | (.ok (), after) =>
          (⟨[.note (.wroteDefaults (target.getD Config.fileName))],
            .ok (target.getD Config.fileName)⟩, after)
        | (.error cause, after) => (⟨[], .error (.stream (.file cause))⟩, after) := by
  simp only [runInit, init, writeDefaults, Tree.run_bind]
  rw [← targetPath, Tree.run_isThere]
  cases (tree.kindOf (targetPath target)).toBool && !force with
  | true => rfl
  | false =>
    dsimp only [Bool.false_eq_true, if_false]
    rw [if_neg Bool.false_ne_true, if_neg Bool.false_ne_true, Tree.run_bind]
    rcases (Config.save {} (targetPath target) : StateM Tree _).run tree with ⟨_ | _, after⟩
    · rfl
    · rfl

/-- What one command leaves is what saving the defaults leaves, unless the target names a file or
directory. -/
theorem initOn_eq (tree : Tree) (target : Option String) :
    initOn tree target =
      match tree.kindOf (targetPath target) with
      | .ok _ => tree
      | .error _ => ((Config.save {} (targetPath target) : StateM Tree _).run tree).2 := by
  have did := congrArg Prod.snd (runInit_eq tree target false)
  rw [runInit, ← initOn] at did
  rw [did]
  cases tree.kindOf (targetPath target) with
  | ok => rfl
  | error =>
    -- A failure to save is reported, but the tree is left as it is by then.
    rcases (Config.save {} (targetPath target) : StateM Tree _).run tree with ⟨_ | _, saved⟩ <;> rfl

/-- **What one command does to a tree**: nothing, or it adds directories and then it may write the
defaults. It does nothing where the target names a file or directory. -/
theorem initOn_cases (tree : Tree) (target : Option String) :
    initOn tree target = tree ∨
      ∃ built cause, tree.kindOf (targetPath target) = .error cause ∧ tree.Grows built ∧
        (initOn tree target = built ∨
          initOn tree target = (built.write (targetPath target) defaults).2) := by
  have did := initOn_eq tree target
  split at did
  · exact Or.inl did
  · obtain ⟨built, grows, -, saved⟩ := save_cases {} (targetPath target) tree
    refine Or.inr ⟨built, _, ‹_›, grows, ?_⟩
    rcases saved with ⟨cause, failed⟩ | written
    · exact Or.inl (did.trans (congrArg Prod.snd failed))
    · exact Or.inr (did.trans (congrArg Prod.snd written))

theorem closed_initOn (closed : tree.Closed) (target : Option String) :
    (initOn tree target).Closed := by
  rcases initOn_cases tree target with same | ⟨built, -, -, grows, did | did⟩
  · rwa [same]
  · rw [did]
    exact grows.closed closed
  · rw [did]
    exact Tree.closed_write (grows.closed closed) _ _

/-- **What becomes of a file** by one command: it is kept, or the target comes back to it from a
directory that was not there, and it holds the defaults. -/
theorem initOn_file (closed : tree.Closed) (target : Option String)
    (stands : tree.node? spot = some (.file content)) :
    (initOn tree target).node? spot = some (.file content) ∨
      (tree.Returns (targetPath target) ∧
        (initOn tree target).node? spot = some (.file defaults)) := by
  rcases initOn_cases tree target with same | ⟨built, cause, missing, grows, did | did⟩
  · rw [same]
    exact Or.inl stands
  · rw [did]
    exact Or.inl (grows.kept _ _ stands)
  have still : built.node? spot = some (.file content) := grows.kept _ _ stands
  rcases Tree.write_cases built (targetPath target) defaults with
    ⟨cause, failed⟩ | ⟨here, last, approached, slashed, short, -, put⟩
  · rw [did, failed]
    exact Or.inl still
  have some : here ++ [last] ≠ [] := by simp
  rw [did, put, Tree.node?_put _ some]
  by_cases other : spot = here ++ [last]
  · refine Or.inr ⟨?_, if_pos other⟩
    -- A target that led to the file all along would have been found there.
    by_contra straight
    rw [other] at stands still
    have found := Tree.kindOf_of_approach
      (Tree.approach_of_grows closed grows straight approached still) slashed short stands
    rw [missing] at found
    cases found
  · rw [if_neg other]
    exact Or.inl still

/-! ## Any number of commands -/

theorem initEach_append (tree : Tree) (done rest : List (Option String)) :
    initEach tree (done ++ rest) = initEach (initEach tree done) rest :=
  List.foldl_append

theorem closed_initEach (closed : tree.Closed) (targets : List (Option String)) :
    (initEach tree targets).Closed := by
  induction targets generalizing tree with
  | nil => exact closed
  | cons target targets ih => exact ih (closed_initOn closed target)

/-- Whether a target comes back from a directory that is not there when its turn comes. -/
def SomeReturns (tree : Tree) (targets : List (Option String)) : Prop :=
  ∃ before target behind, targets = before ++ target :: behind ∧
    (initEach tree before).Returns (targetPath target)

/-- **No file is ever altered** by commands without force, neither one that was there at first nor
one that such a command wrote, unless a target comes back from a directory that is not there. Even
then a file is only altered to hold the defaults. -/
theorem initEach_keeps_files (closed : tree.Closed) (done rest : List (Option String))
    (stands : (initEach tree done).node? spot = some (.file content)) :
    (initEach tree (done ++ rest)).node? spot = some (.file content) ∨
      (SomeReturns (initEach tree done) rest ∧
        (initEach tree (done ++ rest)).node? spot = some (.file defaults)) := by
  rw [initEach_append]
  have started : (initEach tree done).Closed := closed_initEach closed done
  generalize initEach tree done = start at stands started
  induction rest using List.reverseRecOn with
  | nil => exact Or.inl stands
  | append_singleton rest target ih =>
    rw [initEach_append]
    have now : (initEach start rest).Closed := closed_initEach started rest
    rcases ih with kept | ⟨⟨before, other, behind, split, returns⟩, altered⟩
    · rcases initOn_file now target kept with kept | ⟨returns, altered⟩
      · exact Or.inl kept
      · exact Or.inr ⟨⟨rest, target, [], rfl, returns⟩, altered⟩
    · refine Or.inr ⟨⟨before, other, behind ++ [target], by simp [split], returns⟩, ?_⟩
      rcases initOn_file now target altered with kept | ⟨-, again⟩
      · exact kept
      · exact again

/-! ## A target that comes back -/

/-- A directory with a configuration file of its own. -/
def configured : Tree :=
  .ofListing ["tmp"] ["work"] [("work/calct.toml", some (Text.bytesOf "verbose = true\n"))]

theorem closed_configured : configured.Closed :=
  Tree.closed_of_listed (by decide +kernel) (by decide +kernel)

/-- A second command finds the way back from a directory that the first one made, and leaves the
file there alone. -/
theorem initEach_keeps_files_made_directory :
    configured.Closed ∧
      (initEach configured [some "a/./calct.toml"]).node? ["tmp", "work", "calct.toml"] =
        some (.file (Text.bytesOf "verbose = true\n")) ∧
      (initEach configured ([some "a/./calct.toml"] ++ [some "a/../calct.toml"])).node?
        ["tmp", "work", "calct.toml"] = some (.file (Text.bytesOf "verbose = true\n")) := by
  have stands : (initEach configured [some "a/./calct.toml"]).node? ["tmp", "work", "calct.toml"] =
      some (.file (Text.bytesOf "verbose = true\n")) := by decide +kernel
  refine ⟨closed_configured, stands, ?_⟩
  rcases initEach_keeps_files closed_configured _ [some "a/../calct.toml"] stands with
    kept | ⟨-, altered⟩
  · exact kept
  · exact absurd altered (by decide +kernel)

/-- A file is replaced without force: the directory to come back from is made only after the target
was looked up. -/
theorem initOn_replaces_file :
    configured.node? ["tmp", "work", "calct.toml"] =
        some (.file (Text.bytesOf "verbose = true\n")) ∧
      (initOn configured (some "x/../calct.toml")).node? ["tmp", "work", "calct.toml"] =
        some (.file defaults) ∧
      defaults ≠ Text.bytesOf "verbose = true\n" := by
  decide +kernel

end ArithTokens.Command
