import ArithTokens.Files.Tree
import Mathlib.Data.List.Induction

/-!
# Trees that grow

Making directories only adds to a tree: what stands in it stays, and no file comes of it.

* a tree is **closed** if all that stands in it is held by directories;
* `Grows` says that one tree is another with directories added, and `run_makeEach` that making
  directories is a row of single steps;
* `approach_of_grows` is what a grown tree tells of the smaller one: a file that is found in it was
  found before, but for paths that **come back** from a directory that was not there (`Returns`).
-/

namespace ArithTokens.Tree

variable {tree tree' tree'' : Tree} {here there spot : Spot} {names : List String} {node : Node}
  {content : List UInt8} {path : Path}

/-! ## Closed trees -/

/-- Whether all that stands in a tree is held by directories, and the working directory is one. -/
structure Closed (tree : Tree) : Prop where
  holder : ∀ here name, tree.node? (here ++ [name]) ≠ none → tree.node? here = some .directory
  working : tree.node? tree.working = some .directory

/-- Whether a tree is closed shows in what it lists. -/
theorem closed_of_listed
    (holders : ∀ entry ∈ tree.nodes, tree.node? entry.1.dropLast = some .directory)
    (working : tree.node? tree.working = some .directory) : tree.Closed := by
  refine ⟨fun here name stands => ?_, working⟩
  obtain ⟨node, found⟩ := Option.ne_none_iff_exists'.mp stands
  rw [node?, if_neg (by simp)] at found
  obtain ⟨before, behind, nodes, -⟩ := List.lookup_eq_some_iff.mp found
  have listed := holders (here ++ [name], node) (by simp [nodes])
  rwa [List.dropLast_concat] at listed

/-- All that leads to a spot is a directory. -/
theorem Closed.above (closed : tree.Closed) {more : Spot} (some : more ≠ [])
    (stands : tree.node? (here ++ more) ≠ none) : tree.node? here = .some .directory := by
  induction more using List.reverseRecOn with
  | nil => exact absurd rfl some
  | append_singleton more name ih =>
    rw [← List.append_assoc] at stands
    have holder := closed.holder _ _ stands
    rcases more with _ | ⟨first, more⟩
    · rwa [List.append_nil] at holder
    · exact ih (List.cons_ne_nil first more) (by simp [holder])

theorem Closed.dropLast (closed : tree.Closed) (directory : tree.node? here = some .directory) :
    tree.node? here.dropLast = some .directory := by
  rcases List.eq_nil_or_concat here with rfl | ⟨outer, name, rfl⟩
  · rfl
  · rw [List.concat_eq_append] at directory ⊢
    rw [List.dropLast_concat]
    exact closed.holder outer name (by simp [directory])

/-! ## Putting a node -/

theorem lookup_filter_ne (nodes : List (Spot × Node)) (ne : there ≠ spot) :
    (nodes.filter (·.1 != spot)).lookup there = nodes.lookup there := by
  induction nodes with
  | nil => rfl
  | cons entry nodes ih =>
    obtain ⟨s, node⟩ := entry
    by_cases same : s = spot
    · have miss : (there == spot) = false := by simpa using ne
      rw [List.filter_cons_of_neg (by simp [same]), ih, List.lookup_cons, same, miss]
    · rw [List.filter_cons_of_pos (by simpa using same), List.lookup_cons, List.lookup_cons, ih]

/-- Only the spot where a node is put changes. -/
theorem node?_put (tree : Tree) (some : spot ≠ []) (node : Node) (there : Spot) :
    (tree.put spot node).node? there = if there = spot then .some node else tree.node? there := by
  by_cases same : there = spot
  · subst same
    simp [node?, put, some]
  · have miss : (there == spot) = false := by simpa using same
    rw [if_neg same, node?, node?, put, List.lookup_cons, miss, lookup_filter_ne _ same]

/-- Directories stay where a node is put in the place of none. -/
theorem node?_put_directory (free : tree.node? spot ≠ some .directory) (node : Node)
    (there : Spot) (directory : tree.node? there = some .directory) :
    (tree.put spot node).node? there = some .directory := by
  have below : spot ≠ [] := by
    rintro rfl
    exact free rfl
  have apart : there ≠ spot := by
    rintro rfl
    exact free directory
  rwa [node?_put _ below, if_neg apart]

/-- A tree stays closed if a node is put into a directory where nothing stood, or a file. -/
theorem Closed.put (closed : tree.Closed) {name : String}
    (directory : tree.node? here = some .directory)
    (free : tree.node? (here ++ [name]) ≠ some .directory) (node : Node) :
    (tree.put (here ++ [name]) node).Closed := by
  have some : here ++ [name] ≠ [] := by simp
  constructor
  · intro outer last stands
    rw [node?_put _ some] at stands ⊢
    by_cases same : outer ++ [last] = here ++ [name]
    · obtain ⟨rfl, -⟩ := List.append_inj' same rfl
      rwa [if_neg (by simp)]
    · rw [if_neg same] at stands
      have holder := closed.holder outer last stands
      have apart : outer ≠ here ++ [name] := fun same => free (same ▸ holder)
      rwa [if_neg apart]
  · have apart : tree.working ≠ here ++ [name] := fun same => free (same ▸ closed.working)
    rw [node?_put _ some]
    exact (if_neg apart).trans closed.working

/-! ## Following paths -/

/-- Where a path starts. -/
def origin (tree : Tree) (path : Path) : Spot := if path.absolute then [] else tree.working

theorem Closed.origin (closed : tree.Closed) (path : Path) :
    tree.node? (tree.origin path) = some .directory := by
  rw [Tree.origin]
  split
  · rfl
  · exact closed.working

theorem enter_eq_ok {name : String} (entered : tree.enter here name = .ok there) :
    (name = "." ∧ there = here) ∨ (name = ".." ∧ there = here.dropLast) ∨
      (there = here ++ [name] ∧ tree.node? there = some .directory) := by
  unfold enter entry? at entered
  split at entered
  · exact Or.inl ⟨‹_›, (Except.ok.inj entered).symm⟩
  split at entered
  · exact Or.inr (Or.inl ⟨‹_›, (Except.ok.inj entered).symm⟩)
  split at entered
  · cases entered
  · rename_i found
    split at found
    · cases found
    · obtain rfl := Except.ok.inj entered
      exact Or.inr (Or.inr ⟨rfl, Except.ok.inj found⟩)
  · cases entered
  · cases entered

theorem walk_append (tree : Tree) (here : Spot) (names more : List String) :
    tree.walk here (names ++ more) =
      match tree.walk here names with
      | .ok there => tree.walk there more
      | .error e => .error e := by
  induction names generalizing here with
  | nil => rfl
  | cons name names ih =>
    rw [List.cons_append, walk, walk]
    cases tree.enter here name with
    | ok there => exact ih there
    | error e => rfl

theorem walk_cons_eq_ok {name : String} (walked : tree.walk here (name :: names) = .ok there) :
    ∃ next, tree.enter here name = .ok next ∧ tree.walk next names = .ok there := by
  rw [walk] at walked
  split at walked
  · exact ⟨_, ‹_›, walked⟩
  · cases walked

/-- Where directories stay, names lead on as before. -/
theorem enter_of_kept {name : String}
    (kept : ∀ spot, tree.node? spot = some .directory → tree'.node? spot = some .directory)
    (entered : tree.enter here name = .ok there) : tree'.enter here name = .ok there := by
  unfold enter entry? at *
  by_cases dot : name = "."
  · rwa [if_pos dot] at entered ⊢
  rw [if_neg dot] at entered ⊢
  by_cases dots : name = ".."
  · rwa [if_pos dots] at entered ⊢
  rw [if_neg dots] at entered ⊢
  by_cases long : longestName < Text.byteSize name.toList
  · simp [long] at entered
  simp only [long, if_false] at entered ⊢
  rcases stands : tree.node? (here ++ [name]) with _ | _ | content <;> rw [stands] at entered
  · cases entered
  · rwa [kept _ stands]
  · cases entered

theorem walk_of_kept
    (kept : ∀ spot, tree.node? spot = some .directory → tree'.node? spot = some .directory)
    (walked : tree.walk here names = .ok there) : tree'.walk here names = .ok there := by
  induction names generalizing here with
  | nil => exact walked
  | cons name names ih =>
    obtain ⟨next, entered, walked⟩ := walk_cons_eq_ok walked
    rw [walk, enter_of_kept kept entered]
    exact ih walked

/-- In a closed tree, a walk from a directory ends at a directory. -/
theorem Closed.walk (closed : tree.Closed) (directory : tree.node? here = some .directory)
    (walked : tree.walk here names = .ok there) : tree.node? there = some .directory := by
  induction names generalizing here with
  | nil =>
    obtain rfl := Except.ok.inj walked
    exact directory
  | cons name names ih =>
    obtain ⟨next, entered, walked⟩ := walk_cons_eq_ok walked
    refine ih ?_ walked
    rcases enter_eq_ok entered with ⟨-, rfl⟩ | ⟨-, rfl⟩ | ⟨-, found⟩
    · exact directory
    · exact closed.dropLast directory
    · exact found

/-- A walk that never goes up stays inside the directory where it starts. -/
theorem walk_inside (up : ".." ∉ names) (walked : tree.walk here names = .ok there) :
    ∃ more, there = here ++ more := by
  induction names generalizing here with
  | nil => exact ⟨[], (Except.ok.inj walked).symm.trans (List.append_nil here).symm⟩
  | cons name names ih =>
    obtain ⟨next, entered, walked⟩ := walk_cons_eq_ok walked
    rw [List.mem_cons, not_or] at up
    obtain ⟨more, rfl⟩ := ih up.2 walked
    rcases enter_eq_ok entered with ⟨-, rfl⟩ | ⟨rfl, -⟩ | ⟨rfl, -⟩
    · exact ⟨more, rfl⟩
    · exact absurd rfl up.1
    · exact ⟨name :: more, by rw [List.append_assoc, List.singleton_append]⟩

theorem approach_eq_named {last : String} (target : tree.approach path = .ok (.named here last)) :
    path.parts = path.parts.dropLast ++ [last] ∧
      tree.walk (tree.origin path) path.parts.dropLast = .ok here ∧ last ≠ "." ∧ last ≠ ".." := by
  unfold approach at target
  split at target
  · cases target
  split at target
  · cases target
  split at target
  · split at target <;> cases target
  rename_i name found
  split at target
  · cases target
  rename_i walked
  split at target
  · cases target
  rename_i dot
  split at target
  · cases target
  rename_i dots
  cases target
  refine ⟨?_, walked, dot, dots⟩
  obtain ⟨outer, parts⟩ := List.getLast?_eq_some_iff.mp found
  rw [parts, List.dropLast_concat]

/-- What a path leads to is a directory, or what stands at its last name, or that nothing does. -/
theorem find_cases {found : Found} (leads : tree.find path = .ok found) :
    (∃ spot, found = .directory spot) ∨ ∃ here last, tree.approach path = .ok (.named here last) ∧
      Text.byteSize last.toList ≤ longestName ∧
      ((tree.node? (here ++ [last]) = none ∧ found = .nothing (here ++ [last])) ∨
        ∃ content, tree.node? (here ++ [last]) = some (.file content) ∧
          found = .file (here ++ [last]) content) := by
  rw [find] at leads
  split at leads
  · cases leads
  rename_i target approached
  cases target with
  | directory spot => exact Or.inl ⟨spot, (Except.ok.inj leads).symm⟩
  | named here last =>
    rw [Target.found, entry?] at leads
    by_cases long : longestName < Text.byteSize last.toList
    · rw [if_pos long] at leads
      cases leads
    rw [if_neg long] at leads
    rcases stands : tree.node? (here ++ [last]) with _ | _ | content <;> rw [stands] at leads <;>
      obtain rfl := Except.ok.inj leads
    · exact Or.inr ⟨here, last, approached, by omega, Or.inl ⟨stands, rfl⟩⟩
    · exact Or.inl ⟨_, rfl⟩
    · exact Or.inr ⟨here, last, approached, by omega, Or.inr ⟨content, stands, rfl⟩⟩

/-- A path that leads to nothing ends at a name that is missing. -/
theorem find_eq_nothing (leads : tree.find path = .ok (.nothing spot)) :
    ∃ here last, tree.approach path = .ok (.named here last) ∧ spot = here ++ [last] ∧
      Text.byteSize last.toList ≤ longestName ∧ tree.node? spot = none := by
  rcases find_cases leads with ⟨_, found⟩ | ⟨here, last, approached, short, found⟩
  · cases found
  · rcases found with ⟨free, found⟩ | ⟨content, -, found⟩
    · cases found
      exact ⟨here, last, approached, rfl, short, free⟩
    · cases found

/-- A path that leads to a file leads to what stands at its spot. -/
theorem node?_of_find (leads : tree.find path = .ok (.file spot content)) :
    tree.node? spot = some (.file content) := by
  rcases find_cases leads with ⟨_, found⟩ | ⟨here, last, -, -, found⟩
  · cases found
  · rcases found with ⟨-, found⟩ | ⟨content, stands, found⟩
    · cases found
    · cases found
      exact stands

/-- Trees in which the way to a path is the same approach it alike. -/
theorem approach_congr (working : tree'.working = tree.working)
    (walks : tree'.walk (tree.origin path) path.parts.dropLast =
      tree.walk (tree.origin path) path.parts.dropLast) :
    tree'.approach path = tree.approach path := by
  rw [Tree.origin] at walks
  rw [approach, approach, working, walks]

/-! ## Growing -/

/-- Whether a tree is another one with directories added. -/
structure Grows (tree tree' : Tree) : Prop where
  working : tree'.working = tree.working
  /-- What stands in the smaller tree stands in the other. -/
  kept : ∀ spot node, tree.node? spot = some node → tree'.node? spot = some node
  /-- No file is added. -/
  made : ∀ spot content, tree'.node? spot = some (.file content) →
    tree.node? spot = some (.file content)
  closed : tree.Closed → tree'.Closed

namespace Grows

theorem refl (tree : Tree) : tree.Grows tree :=
  ⟨rfl, fun _ _ stands => stands, fun _ _ stands => stands, fun closed => closed⟩

theorem trans (grows : tree.Grows tree') (more : tree'.Grows tree'') : tree.Grows tree'' :=
  ⟨more.working.trans grows.working, fun _ _ stands => more.kept _ _ (grows.kept _ _ stands),
    fun _ _ stands => grows.made _ _ (more.made _ _ stands),
    fun closed => more.closed (grows.closed closed)⟩

/-- A directory is added in another one. -/
theorem put {name : String} (directory : tree.Closed → tree.node? here = some .directory)
    (free : tree.node? (here ++ [name]) = none) :
    tree.Grows (tree.put (here ++ [name]) .directory) := by
  have some : here ++ [name] ≠ [] := by simp
  refine ⟨rfl, fun there node stands => ?_, fun there content stands => ?_, fun closed => ?_⟩
  · have apart : there ≠ here ++ [name] := by
      rintro rfl
      rw [free] at stands
      cases stands
    rwa [node?_put _ some, if_neg apart]
  · rw [node?_put _ some] at stands
    split at stands
    · cases stands
    · exact stands
  · exact closed.put (directory closed) (by simp [free]) .directory

end Grows

/-- Making a directory adds one directory or nothing. -/
theorem grows_makeDirectory (tree : Tree) (path : Path) :
    tree.Grows (tree.makeDirectory path).2 := by
  rw [makeDirectory]
  split
  · exact .refl tree
  · rename_i spot found
    obtain ⟨here, last, approached, rfl, -, free⟩ := find_eq_nothing found
    obtain ⟨-, walked, -⟩ := approach_eq_named approached
    exact .put (fun closed => closed.walk (closed.origin path) walked) free
  · exact .refl tree

/-! ## Making directories -/

theorem run_bind {β γ : Type} (first : StateM Tree β) (next : β → StateM Tree γ) (tree : Tree) :
    (first >>= next).run tree = (next (first.run tree).1).run (first.run tree).2 := rfl

theorem run_isThere (path : Path) (tree : Tree) :
    (FileAccess.isThere path : StateM Tree Bool).run tree = ((tree.kindOf path).toBool, tree) := by
  have kind : (FileAccess.kindOf path : StateM Tree _).run tree = (tree.kindOf path, tree) := rfl
  rw [FileAccess.isThere, run_bind, kind]
  cases tree.kindOf path <;> rfl

theorem run_isDirectory (path : Path) (tree : Tree) :
    ((FileAccess.isDirectory path : StateM Tree Bool).run tree).2 = tree := by
  have kind : (FileAccess.kindOf path : StateM Tree _).run tree = (tree.kindOf path, tree) := rfl
  rw [FileAccess.isDirectory, run_bind, kind]
  rcases tree.kindOf path with e | _ | _ <;> rfl

/-- Whether a directory was there already, the tree is that of the attempt to make it. -/
theorem run_ensureDirectory (path : Path) (tree : Tree) :
    ((FileAccess.ensureDirectory path : StateM Tree _).run tree).2 =
      (tree.makeDirectory path).2 := by
  have make : (FileAccess.makeDirectory path : StateM Tree _).run tree =
      tree.makeDirectory path := rfl
  rw [FileAccess.ensureDirectory, run_bind, make]
  rcases tree.makeDirectory path with ⟨e | _, made⟩
  · dsimp only
    rw [run_bind]
    cases found : ((FileAccess.isDirectory path : StateM Tree Bool).run made).1 <;>
      exact run_isDirectory path made
  · rfl

/-- **Making directories is a row of single steps**: a relation between a tree and what one step
leaves of it is one between the tree and what all steps leave, if it is reflexive and transitive. -/
theorem run_makeEach {R : Tree → Tree → Prop} (refl : ∀ tree, R tree tree)
    (trans : ∀ {tree tree' tree''}, R tree tree' → R tree' tree'' → R tree tree'')
    {paths : List Path} (step : ∀ path ∈ paths, ∀ tree : Tree, R tree (tree.makeDirectory path).2)
    (tree : Tree) : R tree ((FileAccess.makeEach paths : StateM Tree _).run tree).2 := by
  induction paths generalizing tree with
  | nil => exact refl tree
  | cons path holders ih =>
    have one : ∀ tree : Tree,
        R tree ((FileAccess.ensureDirectory path : StateM Tree _).run tree).2 := fun tree =>
      run_ensureDirectory path tree ▸ step path List.mem_cons_self tree
    have others := ih fun path mem => step path (List.mem_cons_of_mem _ mem)
    rw [FileAccess.makeEach, run_bind]
    refine trans (one tree) ?_
    split
    · rw [run_bind]
      refine trans (others _) ?_
      split
      · exact one _
      · exact refl _
    · exact refl _

/-! ## What is found in a grown tree -/

/-- Whether a path comes back by a double dot from a directory that is not there. -/
def Returns (tree : Tree) (path : Path) : Prop :=
  ∃ before behind, path.parts = before ++ ".." :: behind ∧
    tree.walk (tree.origin path) before = .error .notFound

theorem enter_of_grows (grows : tree.Grows tree') {name : String}
    (entered : tree'.enter here name = .ok there) :
    tree.enter here name = .ok there ∨
      (tree.enter here name = .error .notFound ∧ tree.node? there = none) := by
  unfold enter entry? at *
  by_cases dot : name = "."
  · rw [if_pos dot] at entered
    exact Or.inl ((if_pos dot).trans entered)
  rw [if_neg dot] at entered ⊢
  by_cases dots : name = ".."
  · rw [if_pos dots] at entered
    exact Or.inl ((if_pos dots).trans entered)
  rw [if_neg dots] at entered ⊢
  by_cases long : longestName < Text.byteSize name.toList
  · simp [long] at entered
  simp only [long, if_false] at entered ⊢
  rcases stands : tree.node? (here ++ [name]) with _ | node
  · right
    rcases added : tree'.node? (here ++ [name]) with _ | node
    · simp [added] at entered
    cases node with
    | directory =>
      simp only [added, Except.ok.injEq] at entered
      exact ⟨rfl, entered ▸ stands⟩
    | file content => simp [added] at entered
  · left
    rw [grows.kept _ _ stands] at entered
    exact entered

/-- A walk in a grown tree is one in the smaller tree, up to the first directory that was added. -/
theorem walk_of_grows (grows : tree.Grows tree') (walked : tree'.walk here names = .ok there) :
    tree.walk here names = .ok there ∨
      ∃ before name behind mid, names = before ++ name :: behind ∧
        tree.walk here (before ++ [name]) = .error .notFound ∧
        tree.node? mid = none ∧ tree'.walk mid behind = .ok there := by
  induction names generalizing here with
  | nil => exact Or.inl walked
  | cons name names ih =>
    obtain ⟨next, entered, walked⟩ := walk_cons_eq_ok walked
    rcases enter_of_grows grows entered with entered | ⟨missing, free⟩
    · rcases ih walked with walked | ⟨before, name', behind, mid, rfl, stopped, free, rest⟩
      · left
        rw [walk, entered]
        exact walked
      · refine Or.inr ⟨name :: before, name', behind, mid, rfl, ?_, free, rest⟩
        rw [List.cons_append, walk, entered]
        exact stopped
    · refine Or.inr ⟨[], name, names, next, rfl, ?_, free, walked⟩
      rw [List.nil_append, walk, missing]

/-- **A file that a path leads to in a grown tree** is where the path led before, unless the path
comes back from a directory that was not there. -/
theorem approach_of_grows (closed : tree.Closed) (grows : tree.Grows tree')
    (straight : ¬ tree.Returns path) {last : String}
    (target : tree'.approach path = .ok (.named here last))
    (file : tree'.node? (here ++ [last]) = some (.file content)) :
    tree.approach path = .ok (.named here last) := by
  obtain ⟨parts, walked, -⟩ := approach_eq_named target
  have start : tree'.origin path = tree.origin path := by rw [origin, origin, grows.working]
  rw [start] at walked
  rcases walk_of_grows grows walked with same | ⟨before, name, behind, mid, split, stopped, free, rest⟩
  · rw [← target, approach_congr grows.working (walked.trans same.symm)]
  · -- Past an added directory the path does not go up, so that the file would stand inside it.
    have up : ".." ∉ behind := by
      intro mem
      obtain ⟨s, t, rfl⟩ := List.append_of_mem mem
      refine straight ⟨before ++ [name] ++ s, t ++ [last], ?_, by rw [walk_append, stopped]⟩
      rw [parts, split]
      simp
    obtain ⟨more, rfl⟩ := walk_inside up rest
    have stands := grows.made _ _ file
    rw [List.append_assoc] at stands
    have holder := closed.above (by simp) (show tree.node? (mid ++ (more ++ [last])) ≠ none by
      simp [stands])
    rw [free] at holder
    cases holder

end ArithTokens.Tree
