import ArithTokens.Proofs.Command.Init
import ArithTokens.Proofs.CommandLine.Settings

/-!
# What a default configuration leaves behind

The default configuration is asked for at a target, and a run of the command touches a tree at the
target and on the way to it only.

* `decode?_defaults` says that the file that is written describes the defaults;
* `save_ok` and `save_error` are what saving a configuration leaves, as it succeeds or fails;
* `init_footprint` is the footprint of a whole run, which may end at **any of its steps**.
-/

namespace ArithTokens.Command

variable {tree after : Tree} {path : Path} {config : Config}

/-- The file that is written describes the defaults. -/
theorem decode?_defaults : Config.decode? defaults = some {} := by decide +kernel

/-! ## Saving a configuration -/

/-- **Saving that fails** leaves nothing but new directories on the way. -/
theorem save_error {cause : FileError}
    (failed : (config.save path : StateM Tree _).run tree = (.error cause, after)) :
    after.working = tree.working ∧ ∀ spot, tree.KeptOrNew after path spot := by
  obtain ⟨built, grows, kept, ⟨cause, stopped⟩ | written⟩ := save_cases config path tree
  · obtain ⟨-, rfl⟩ := Prod.mk.inj (failed.symm.trans stopped)
    exact ⟨grows.working, kept⟩
  rcases Tree.write_cases built path (Text.bytesOf config.toToml) with
    ⟨cause, refused⟩ | ⟨here, last, -, -, -, -, put⟩
  · obtain ⟨-, rfl⟩ := Prod.mk.inj (failed.symm.trans (written.trans refused))
    exact ⟨grows.working, kept⟩
  · cases failed.symm.trans (written.trans put)

/-- **Saving that succeeds** leaves a file where the path leads, and otherwise nothing but new
directories on the way. -/
theorem save_ok (saved : (config.save path : StateM Tree _).run tree = (.ok (), after)) :
    after.working = tree.working ∧ path.slashed = false ∧
      ∃ file, after.find path = .ok (.file file (Text.bytesOf config.toToml)) ∧
        tree.node? file ≠ some .directory ∧
        ∀ spot, spot ≠ file → tree.KeptOrNew after path spot := by
  obtain ⟨built, grows, kept, ⟨cause, stopped⟩ | written⟩ := save_cases config path tree
  · cases saved.symm.trans stopped
  rcases Tree.write_cases built path (Text.bytesOf config.toToml) with
    ⟨cause, refused⟩ | ⟨here, last, approached, slashed, short, free, put⟩
  · cases saved.symm.trans (written.trans refused)
  obtain ⟨-, rfl⟩ := Prod.mk.inj (saved.symm.trans (written.trans put))
  have below : here ++ [last] ≠ [] := by simp
  refine ⟨grows.working, slashed, here ++ [last],
    Tree.find_put_named approached short free _, fun directory => free (grows.kept _ _ directory),
    fun spot other => ?_⟩
  rcases kept spot with same | ⟨parent, holder, new⟩
  · left
    rw [Tree.node?_put _ below, if_neg other, same]
  · exact Or.inr ⟨parent, holder, new.kept (Tree.node?_put_directory free _)⟩

/-! ## The run of a command -/

/-- A file that a path leads to is loaded. -/
theorem run_loadFrom {file : Spot} {content : List UInt8} (name : String)
    (found : after.find (Path.ofString name) = .ok (.file file content))
    (slashed : (Path.ofString name).slashed = false)
    (describes : Config.decode? content = some config) :
    (Config.loadFrom name : StateM Tree _).run after = (.ok config, after) := by
  have read : after.read (Path.ofString name) = .ok content := by
    simp [Tree.read, found, slashed]
  have counts : Config.inForce? {} (some name) after = some config := by
    simp only [Config.inForce?, Config.selected?, read]
    exact describes
  rw [← Config.loaded_of_inForce? counts]
  exact Config.run_load {} (some name) after

/-- **The footprint of one command.** On any tree, at any target, with or without force, the working
directory stays. A command that succeeds gives the name of its target, and the defaults are then
loaded from there; apart from this file, which took the place of no directory, nothing changed but
for new directories on the way. A command that fails left nothing but such directories, and one
that fails since the target is there left the tree as it was. -/
theorem init_footprint (tree : Tree) (target : Option String) (force : Bool) :
    let path := targetPath target
    let after := (runInit tree target force).2
    after.working = tree.working ∧
    (∀ name, (runInit tree target force).1.outcome = .ok name →
      name = target.getD Config.fileName ∧
      (Config.loadFrom name : StateM Tree _).run after = (.ok {}, after) ∧
      ∃ file, after.find path = .ok (.file file defaults) ∧
        tree.node? file ≠ some .directory ∧ ∀ spot, spot ≠ file → tree.KeptOrNew after path spot) ∧
    (∀ problem, (runInit tree target force).1.outcome = .error problem →
      ∀ spot, tree.KeptOrNew after path spot) ∧
    ∀ name, (runInit tree target force).1.outcome = .error (.targetExists name) → after = tree := by
  intro path after
  have did : runInit tree target force = _ := runInit_eq tree target force
  split at did
  · -- The target is there, and nothing is done.
    have same : after = tree := congrArg Prod.snd did
    rw [did, same]
    exact ⟨rfl, nofun, fun _ _ _ => Or.inl rfl, fun _ _ => rfl⟩
  rcases saved : (Config.save {} path : StateM Tree _).run tree with ⟨cause | _, saved'⟩
  · rw [saved] at did
    have same : after = saved' := congrArg Prod.snd did
    obtain ⟨working, kept⟩ := save_error saved
    rw [did, same]
    exact ⟨working, nofun, fun _ _ => kept, nofun⟩
  · rw [saved] at did
    have same : after = saved' := congrArg Prod.snd did
    obtain ⟨working, slashed, file, found, free, kept⟩ := save_ok saved
    rw [did, same]
    refine ⟨working, ?_, nofun, nofun⟩
    rintro name named
    obtain rfl := Except.ok.inj named
    exact ⟨rfl, run_loadFrom _ found slashed decode?_defaults, file, found, free, kept⟩

/-- The defaults are loaded from a target in a directory that was not there. -/
theorem init_footprint_made_directory :
    (runInit configured (some "a/b.toml") false).1.outcome = .ok "a/b.toml" ∧
      (Config.loadFrom "a/b.toml" : StateM Tree _).run
          (runInit configured (some "a/b.toml") false).2 =
        (.ok {}, (runInit configured (some "a/b.toml") false).2) := by
  have made : (runInit configured (some "a/b.toml") false).1.outcome = .ok "a/b.toml" := by
    decide +kernel
  obtain ⟨-, succeeds, -⟩ := init_footprint configured (some "a/b.toml") false
  obtain ⟨-, loads, -⟩ := succeeds _ made
  exact ⟨made, loads⟩

-- A directory is made before a file is met where a directory is needed.
example :
    (runInit configured (some "a/../calct.toml/b.toml") true).1.outcome =
        .error (.stream (.file .alreadyExists)) ∧
      configured.node? ["tmp", "work", "a"] = none ∧
      (runInit configured (some "a/../calct.toml/b.toml") true).2.node? ["tmp", "work", "a"] =
        some .directory := by
  decide +kernel

end ArithTokens.Command
