import ArithTokens.Proofs.Files.Growth

/-!
# What the content of a file cannot change

Paths are followed by what stands where, a directory or a file, and not by what a file holds.

* `SameKinds` says that two trees differ at most in what their files hold, and `Overlooks` that an
  operation does the same to both. All operations but reading are such (`overlooks_write` and the
  others);
* `read_of_sameKinds` reads the same from both where the file that a path leads to is the same;
* a **file that is added** to a tree is only seen by paths that lead to it
  (`toOption_read_put_file`).
-/

namespace ArithTokens

/-- What a node is. -/
def Node.kind : Node → FileKind
  | .directory => .directory
  | .file _ => .file

namespace Tree

variable {tree tree' : Tree} {here spot : Spot} {node : Node} {content : List UInt8} {path : Path}

/-- What is no directory stands below the root. -/
theorem ne_root {node? : Option Node} (stands : tree.node? spot = node?)
    (other : node? ≠ some .directory) : spot ≠ [] := by
  rintro rfl
  exact other stands.symm

/-- Nothing can be put in the place of the root. -/
theorem node?_put_root (tree : Tree) (node : Node) (there : Spot) :
    (tree.put [] node).node? there = tree.node? there := by
  by_cases root : there = []
  · rw [root]
    rfl
  · have miss : (there == []) = false := by simpa using root
    rw [node?, node?, put, List.lookup_cons, miss, lookup_filter_ne _ root]

/-! ## Trees that differ in the contents of files -/

/-- **Whether two trees differ at most in what their files hold.** -/
structure SameKinds (tree tree' : Tree) : Prop where
  working : tree'.working = tree.working
  kinds : ∀ spot, (tree'.node? spot).map Node.kind = (tree.node? spot).map Node.kind

namespace SameKinds

/-- The same may be put at the same spot of both. -/
theorem put (same : tree.SameKinds tree') (spot : Spot) (node : Node) :
    (tree.put spot node).SameKinds (tree'.put spot node) := by
  refine ⟨same.working, fun there => ?_⟩
  by_cases root : spot = []
  · subst root
    rw [node?_put_root, node?_put_root]
    exact same.kinds there
  rw [node?_put _ root, node?_put _ root]
  split
  · rfl
  · exact same.kinds there

/-- What stands at a spot of one tree stands at the spot of the other, or both are files. -/
theorem node?_cases (same : tree.SameKinds tree') (spot : Spot) :
    tree'.node? spot = tree.node? spot ∨ ∃ content content',
      tree.node? spot = some (.file content) ∧ tree'.node? spot = some (.file content') := by
  have kinds := same.kinds spot
  generalize tree.node? spot = node, tree'.node? spot = node' at kinds ⊢
  rcases node with _ | _ | content <;> rcases node' with _ | _ | content' <;>
    first
    | exact Or.inl rfl
    | exact Or.inr ⟨content, content', rfl, rfl⟩
    | cases kinds

end SameKinds

/-- Giving a file another content. -/
theorem sameKinds_put (file : tree.node? spot = some (.file content)) (content' : List UInt8) :
    tree.SameKinds (tree.put spot (.file content')) := by
  have below : spot ≠ [] := ne_root file nofun
  refine ⟨rfl, fun there => ?_⟩
  rw [node?_put _ below]
  split
  · subst there
    rw [file]
    rfl
  · rfl

/-! ## Following paths -/

theorem enter_of_sameKinds (same : tree.SameKinds tree') (here : Spot) (name : String) :
    tree'.enter here name = tree.enter here name := by
  unfold enter entry?
  rcases same.node?_cases (here ++ [name]) with stands | ⟨content, content', file, file'⟩
  · rw [stands]
  · rw [file, file']
    split_ifs <;> rfl

theorem walk_of_sameKinds (same : tree.SameKinds tree') (here : Spot) (names : List String) :
    tree'.walk here names = tree.walk here names := by
  induction names generalizing here with
  | nil => rfl
  | cons name names ih =>
    rw [walk, walk, enter_of_sameKinds same]
    cases tree.enter here name with
    | ok there => exact ih there
    | error e => rfl

theorem approach_of_sameKinds (same : tree.SameKinds tree') (path : Path) :
    tree'.approach path = tree.approach path :=
  approach_congr same.working (walk_of_sameKinds same _ _)

theorem found_of_sameKinds (same : tree.SameKinds tree') (target : Target) :
    target.found tree' = target.found tree ∨ ∃ spot content content',
      target.found tree = .ok (.file spot content) ∧
        target.found tree' = .ok (.file spot content') ∧
        tree.node? spot = some (.file content) ∧ tree'.node? spot = some (.file content') := by
  cases target with
  | directory spot => exact Or.inl rfl
  | named here name =>
    simp only [Target.found, entry?]
    by_cases long : longestName < Text.byteSize name.toList
    · rw [if_pos long, if_pos long]
      exact Or.inl rfl
    rw [if_neg long, if_neg long]
    rcases same.node?_cases (here ++ [name]) with stands | ⟨content, content', file, file'⟩
    · rw [stands]
      exact Or.inl rfl
    · refine Or.inr ⟨here ++ [name], content, content', ?_, ?_, file, file'⟩
      · rw [file]
      · rw [file']

/-- **A path leads to the same in both trees**, or to a file that may hold something else. -/
theorem find_of_sameKinds (same : tree.SameKinds tree') (path : Path) :
    tree'.find path = tree.find path ∨ ∃ spot content content',
      tree.find path = .ok (.file spot content) ∧ tree'.find path = .ok (.file spot content') ∧
        tree.node? spot = some (.file content) ∧ tree'.node? spot = some (.file content') := by
  rw [find, find, approach_of_sameKinds same]
  cases tree.approach path with
  | error e => exact Or.inl rfl
  | ok target => exact found_of_sameKinds same target

theorem kindOf_of_sameKinds (same : tree.SameKinds tree') (path : Path) :
    tree'.kindOf path = tree.kindOf path := by
  rw [kindOf, kindOf]
  rcases find_of_sameKinds same path with found | ⟨spot, content, content', found, found', -, -⟩
  · rw [found]
  · rw [found, found']

/-- **What is read is the same** if the file that the path leads to holds the same in both. -/
theorem read_of_sameKinds (same : tree.SameKinds tree')
    (holds : ∀ spot content, tree.find path = .ok (.file spot content) →
      tree'.node? spot = tree.node? spot) : tree'.read path = tree.read path := by
  rw [read, read]
  rcases find_of_sameKinds same path with found | ⟨spot, content, content', found, found', file, file'⟩
  · rw [found]
  · have one := holds spot content found
    rw [file, file', Option.some.injEq, Node.file.injEq] at one
    rw [found, found', one]

/-- A file that is given another content is read the same by paths that do not lead to it. -/
theorem read_put_file (file : tree.node? spot = some (.file content)) (content' : List UInt8)
    (elsewhere : tree.find path ≠ .ok (.file spot content)) :
    (tree.put spot (.file content')).read path = tree.read path := by
  have below : spot ≠ [] := ne_root file nofun
  refine read_of_sameKinds (sameKinds_put file content') fun there held found => ?_
  rw [node?_put _ below]
  refine if_neg ?_
  rintro rfl
  have stands := node?_of_find found
  rw [file, Option.some.injEq, Node.file.injEq] at stands
  exact elsewhere (stands ▸ found)

/-! ## A file that is put where a path leads -/

/-- A file that is put where a path leads is found there. -/
theorem find_put_named {last : String} (approached : tree.approach path = .ok (.named here last))
    (short : Text.byteSize last.toList ≤ longestName)
    (free : tree.node? (here ++ [last]) ≠ some .directory) (content : List UInt8) :
    (tree.put (here ++ [last]) (.file content)).find path =
      .ok (.file (here ++ [last]) content) := by
  have below : here ++ [last] ≠ [] := by simp
  obtain ⟨-, walked, -⟩ := approach_eq_named approached
  have walks := walk_of_kept (node?_put_directory free (.file content)) walked
  have still : (tree.put (here ++ [last]) (.file content)).approach path = tree.approach path :=
    approach_congr rfl (walks.trans walked.symm)
  rw [find, still, approached]
  simp only [Target.found, entry?]
  rw [if_neg (by omega), node?_put _ below, if_pos rfl]

/-! ## Operations that overlook contents -/

/-- Whether an operation gives the same, and leaves the same, on trees that differ in the contents
of files. -/
def Overlooks {β : Type} (operation : StateM Tree β) : Prop :=
  ∀ tree tree' : Tree, tree.SameKinds tree' → (operation.run tree').1 = (operation.run tree).1 ∧
    (operation.run tree).2.SameKinds (operation.run tree').2

section Overlooks

variable {β γ : Type}

theorem overlooks_pure (b : β) : Overlooks (pure b) := fun _ _ same => ⟨rfl, same⟩

theorem overlooks_bind {first : StateM Tree β} {next : β → StateM Tree γ} (left : Overlooks first)
    (right : ∀ b, Overlooks (next b)) : Overlooks (first >>= next) := by
  intro tree tree' same
  obtain ⟨result, after⟩ := left tree tree' same
  rw [run_bind, run_bind, result]
  exact right _ _ _ after

theorem overlooks_kindOf (path : Path) : Overlooks (FileAccess.kindOf path) :=
  fun _ _ same => ⟨kindOf_of_sameKinds same path, same⟩

theorem overlooks_isThere (path : Path) : Overlooks (FileAccess.isThere path) := by
  refine overlooks_bind (overlooks_kindOf path) fun kind => ?_
  split <;> exact overlooks_pure _

theorem overlooks_isDirectory (path : Path) : Overlooks (FileAccess.isDirectory path) := by
  refine overlooks_bind (overlooks_kindOf path) fun kind => ?_
  split <;> exact overlooks_pure _

theorem overlooks_makeDirectory (path : Path) : Overlooks (FileAccess.makeDirectory path) := by
  intro tree tree' same
  have did : ∀ tree : Tree,
      (FileAccess.makeDirectory path : StateM Tree _).run tree = tree.makeDirectory path :=
    fun _ => rfl
  rw [did, did, makeDirectory, makeDirectory]
  rcases find_of_sameKinds same path with found | ⟨spot, content, content', found, found', -, -⟩
  · rw [found]
    split
    · exact ⟨rfl, same⟩
    · exact ⟨rfl, same.put _ .directory⟩
    · exact ⟨rfl, same⟩
  · rw [found, found']
    exact ⟨rfl, same⟩

theorem overlooks_write (path : Path) (content : List UInt8) :
    Overlooks (FileAccess.write path content) := by
  intro tree tree' same
  have did : ∀ tree : Tree,
      (FileAccess.write path content : StateM Tree _).run tree = tree.write path content :=
    fun _ => rfl
  rw [did, did, write, write, approach_of_sameKinds same]
  cases tree.approach path with
  | error e => exact ⟨rfl, same⟩
  | ok target =>
    by_cases slashed : path.slashed
    · simp only [slashed, if_true]
      exact ⟨trivial, same⟩
    · simp only [slashed]
      rcases found_of_sameKinds same target with found | ⟨spot, old, old', found, found', -, -⟩
      · rw [found]
        rcases target.found tree with e | (spot | ⟨spot, old⟩ | spot)
        · exact ⟨rfl, same⟩
        · exact ⟨rfl, same⟩
        · exact ⟨rfl, same.put spot _⟩
        · exact ⟨rfl, same.put spot _⟩
      · rw [found, found']
        exact ⟨rfl, same.put spot _⟩

theorem overlooks_ensureDirectory (path : Path) : Overlooks (FileAccess.ensureDirectory path) := by
  refine overlooks_bind (overlooks_makeDirectory path) fun made => ?_
  cases made with
  | ok => exact overlooks_pure _
  | error e =>
    refine overlooks_bind (overlooks_isDirectory path) fun there => ?_
    cases there <;> exact overlooks_pure _

theorem overlooks_makeEach (paths : List Path) : Overlooks (FileAccess.makeEach paths) := by
  induction paths with
  | nil => exact overlooks_pure _
  | cons path holders ih =>
    refine overlooks_bind (overlooks_ensureDirectory path) fun made => ?_
    split
    · refine overlooks_bind ih fun ready => ?_
      cases ready with
      | ok => exact overlooks_ensureDirectory path
      | error e => exact overlooks_pure _
    · exact overlooks_pure _

end Overlooks

/-! ## A file that is added -/

section Added

/-- Two results are the same, or both are failures. -/
theorem cases_of_toOption {α : Type} {x y : Except FileError α} (same : x.toOption = y.toOption) :
    x = y ∨ ∃ e e', x = .error e ∧ y = .error e' := by
  cases x with
  | error e =>
    cases y with
    | error e' => exact Or.inr ⟨e, e', rfl, rfl⟩
    | ok b => cases same
  | ok a =>
    cases y with
    | error e' => cases same
    | ok b => exact Or.inl (congrArg Except.ok (Option.some.inj same))

variable {content : List UInt8}

/-- A name that is missing leads no further as the name of a file. -/
theorem toOption_enter_put_file (free : tree.node? spot = none) (here : Spot) (name : String) :
    ((tree.put spot (.file content)).enter here name).toOption =
      (tree.enter here name).toOption := by
  have below : spot ≠ [] := ne_root free nofun
  unfold enter entry?
  rw [node?_put _ below]
  by_cases same : here ++ [name] = spot
  · rw [if_pos same, same, free]
    split_ifs <;> rfl
  · rw [if_neg same]

theorem toOption_walk_put_file (free : tree.node? spot = none) (here : Spot)
    (names : List String) :
    ((tree.put spot (.file content)).walk here names).toOption =
      (tree.walk here names).toOption := by
  induction names generalizing here with
  | nil => rfl
  | cons name names ih =>
    rw [walk, walk]
    rcases cases_of_toOption (toOption_enter_put_file free here name) with
      entered | ⟨e, e', failed, failed'⟩
    · rw [entered]
      cases tree.enter here name with
      | ok there => exact ih there
      | error e => rfl
    · rw [failed, failed']
      rfl

theorem toOption_approach_put_file (free : tree.node? spot = none) (path : Path) :
    ((tree.put spot (.file content)).approach path).toOption = (tree.approach path).toOption := by
  have working : (tree.put spot (.file content)).working = tree.working := rfl
  rcases cases_of_toOption (toOption_walk_put_file free (tree.origin path) path.parts.dropLast) with
    walked | ⟨e, e', failed, failed'⟩
  · rw [approach_congr working walked]
  · rw [approach, approach, working, ← origin, failed, failed']
    split
    · rfl
    split
    · rfl
    split <;> rfl

theorem found_put_file (free : tree.node? spot = none) (target : Target) :
    target.found (tree.put spot (.file content)) = target.found tree ∨
      target.found tree = .ok (.nothing spot) := by
  have below : spot ≠ [] := ne_root free nofun
  cases target with
  | directory => exact Or.inl rfl
  | named here last =>
    simp only [Target.found, entry?, node?_put _ below]
    by_cases long : longestName < Text.byteSize last.toList
    · rw [if_pos long, if_pos long]
      exact Or.inl rfl
    rw [if_neg long, if_neg long]
    by_cases same : here ++ [last] = spot
    · rw [same, free]
      exact Or.inr rfl
    · rw [if_neg same]
      exact Or.inl rfl

/-- **A file that is added** is read only by paths that lead to it. -/
theorem toOption_read_put_file (free : tree.node? spot = none)
    (elsewhere : tree.find path ≠ .ok (.nothing spot)) :
    ((tree.put spot (.file content)).read path).toOption = (tree.read path).toOption := by
  rw [read, read, find, find]
  rw [find] at elsewhere
  rcases cases_of_toOption (toOption_approach_put_file free path) with
    approached | ⟨e, e', failed, failed'⟩
  · rw [approached]
    cases target : tree.approach path with
    | error e => rfl
    | ok target' =>
      rw [target] at elsewhere
      have found : target'.found (tree.put spot (.file content)) = _ ∨ _ :=
        found_put_file free target'
      rcases found with same | nothing
      · dsimp only
        rw [same]
      · exact absurd nothing elsewhere
  · rw [failed, failed']
    rfl

/-- Where nothing was found, the file that is added is found. -/
theorem find_put_file (free : tree.find path = .ok (.nothing spot)) :
    (tree.put spot (.file content)).find path = .ok (.file spot content) := by
  obtain ⟨here, last, approached, rfl, short, none⟩ := find_eq_nothing free
  exact find_put_named approached short (by simp [none]) content

end Added

end Tree

end ArithTokens
