import ArithTokens.Proofs.Files.Content

/-!
# Making the way to a file

A file is written behind the directories that lead to it, and those that are missing are made first.

* all paths that lead to a path are made of its first parts (`mem_outward`);
* `NewOnWay` says that a directory is new and that such first parts lead to it, and `Paves` that
  nothing but that is new;
* `write_cases` is what a write does: it fails and changes nothing, or it puts one file.
-/

namespace ArithTokens.Path

variable {path holder : Path} {first : String} {before rest : List String}

/-! ## The paths that lead to a path -/

theorem absolute_cons (first : String) (rest : List String) :
    absolute ⟨first :: rest⟩ = (first == "" && !rest.isEmpty) := by
  unfold absolute
  split
  · rename_i stretches
    cases stretches
    rfl
  · rename_i relative
    by_cases root : first = ""
    · subst root
      cases rest with
      | nil => rfl
      | cons stretch rest => exact absurd rfl (relative stretch rest)
    · simp [root]

/-- A path that leads to another one starts where that one does, and is made of its first parts. -/
theorem mem_leading (mem : holder ∈ leading first before) :
    holder.absolute = (first == "") ∧
      holder.parts <+: (first :: before.reverse).filter (· != "") := by
  induction before with
  | nil =>
    rw [leading] at mem
    split at mem
    · rename_i root
      obtain rfl := List.mem_singleton.mp mem
      subst root
      exact ⟨rfl, List.nil_prefix⟩
    · rename_i named
      obtain rfl := List.mem_singleton.mp mem
      exact ⟨by simp [absolute_cons, named], List.prefix_refl _⟩
  | cons stretch before ih =>
    have further : (first :: before.reverse).filter (· != "") <+:
        (first :: (stretch :: before).reverse).filter (· != "") := by
      rw [List.reverse_cons, ← List.cons_append, List.filter_append]
      exact List.prefix_append _ _
    rw [leading] at mem
    split at mem
    · obtain ⟨start, parts⟩ := ih mem
      exact ⟨start, parts.trans further⟩
    · rcases List.mem_cons.mp mem with rfl | mem
      · exact ⟨by simp [absolute_cons], List.prefix_refl _⟩
      · obtain ⟨start, parts⟩ := ih mem
        exact ⟨start, parts.trans further⟩

/-- **All paths that lead to a path** start where it starts and are made of its first parts. -/
theorem mem_outward (mem : holder ∈ path.outward) :
    holder.absolute = path.absolute ∧ holder.parts <+: path.parts := by
  obtain ⟨stretches⟩ := path
  unfold outward at mem
  split at mem
  · cases mem
  · cases mem
  · rename_i first rest empty same
    obtain rfl : stretches = first :: rest := same
    obtain ⟨start, parts⟩ := mem_leading mem
    rw [List.reverse_reverse] at parts
    refine ⟨?_, parts⟩
    rw [start, absolute_cons]
    by_cases root : first = ""
    · have further : rest ≠ [] := by
        rintro rfl
        exact empty root rfl
      simp [root, further]
    · simp [root]

end ArithTokens.Path

namespace ArithTokens.Tree

variable {tree tree' tree'' : Tree} {here there spot : Spot} {names : List String}
  {content : List UInt8} {path way : Path}

/-! ## Directories on the way -/

/-- Whether a directory is new, and the first parts of a path lead to it. -/
structure NewOnWay (tree tree' : Tree) (way : Path) (spot : Spot) : Prop where
  missing : tree.node? spot = none
  made : tree'.node? spot = some .directory
  leads : ∃ before, before <+: way.parts ∧ tree'.walk (tree.origin way) before = .ok spot

/-- A directory that is new stays so where no directory is removed. -/
theorem NewOnWay.kept (new : tree.NewOnWay tree' way spot)
    (kept : ∀ spot, tree'.node? spot = some .directory → tree''.node? spot = some .directory) :
    tree.NewOnWay tree'' way spot := by
  obtain ⟨missing, made, before, front, walked⟩ := new
  exact ⟨missing, kept spot made, before, front, walk_of_kept kept walked⟩

/-- **Whether a tree is another one with directories added on the way of a path.** -/
structure Paves (way : Path) (tree tree' : Tree) : Prop where
  grows : tree.Grows tree'
  keeps : ∀ spot, tree'.node? spot = tree.node? spot ∨ tree.NewOnWay tree' way spot

namespace Paves

theorem refl (way : Path) (tree : Tree) : Paves way tree tree := ⟨.refl tree, fun _ => Or.inl rfl⟩

theorem trans (paves : Paves way tree tree') (more : Paves way tree' tree'') :
    Paves way tree tree'' := by
  refine ⟨paves.grows.trans more.grows, fun spot => ?_⟩
  rcases more.keeps spot with same | ⟨missing, made, before, front, walked⟩
  · rw [same]
    exact (paves.keeps spot).imp_right fun new =>
      new.kept fun spot => more.grows.kept spot .directory
  · -- What is missing later on was missing before.
    have start : tree'.origin way = tree.origin way := by
      rw [origin, origin, paves.grows.working]
    have free : tree.node? spot = none := by
      rcases stands : tree.node? spot with _ | node
      · rfl
      · rw [paves.grows.kept _ _ stands] at missing
        cases missing
    exact Or.inr ⟨free, made, before, front, start ▸ walked⟩

end Paves

/-- One directory on the way is made. -/
theorem paves_makeDirectory (start : path.absolute = way.absolute)
    (front : path.parts <+: way.parts) (tree : Tree) :
    Paves way tree (tree.makeDirectory path).2 := by
  refine ⟨grows_makeDirectory tree path, fun spot => ?_⟩
  have grows := grows_makeDirectory tree path
  rw [makeDirectory] at grows ⊢
  split
  · exact Or.inl rfl
  · rename_i made found
    rw [found] at grows
    obtain ⟨here, last, approached, rfl, short, free⟩ := find_eq_nothing found
    have below : here ++ [last] ≠ [] := by simp
    by_cases other : spot = here ++ [last]
    · obtain ⟨parts, walked, dot, dots⟩ := approach_eq_named approached
      have stands : (tree.put (here ++ [last]) .directory).node? (here ++ [last]) =
          some .directory := by rw [node?_put _ below, if_pos rfl]
      subst other
      refine Or.inr ⟨free, stands, path.parts, front, ?_⟩
      have origin : tree.origin way = tree.origin path := by rw [origin, origin, start]
      have walked := walk_of_kept (fun spot => grows.kept spot .directory) walked
      rw [origin, parts, walk_append, walked]
      dsimp only
      rw [walk, enter, if_neg dot, if_neg dots, entry?, if_neg (by omega), stands]
      rfl
    · left
      dsimp only
      rw [node?_put _ below, if_neg other]
  · exact Or.inl rfl

/-- **Making a directory and those that lead to it** adds nothing but directories on its way. -/
theorem paves_makeDirectories (way : Path) (tree : Tree) :
    Paves way tree ((FileAccess.makeDirectories way : StateM Tree _).run tree).2 := by
  refine run_makeEach (Paves.refl way) Paves.trans (fun path mem tree => ?_) tree
  obtain ⟨start, front⟩ := Path.mem_outward mem
  exact paves_makeDirectory start front tree

/-- **Whether a spot is kept** as it is, but for a directory that is new on the way to a path. -/
def KeptOrNew (tree tree' : Tree) (path : Path) (spot : Spot) : Prop :=
  tree'.node? spot = tree.node? spot ∨
    ∃ parent, path.parent? = some parent ∧ tree.NewOnWay tree' parent spot

/-! ## Writing -/

/-- **What writing does**: it fails and leaves the tree as it is, or it puts a file where the path
leads, in a directory and in the place of no other directory. -/
theorem write_cases (tree : Tree) (path : Path) (content : List UInt8) :
    (∃ cause, tree.write path content = (.error cause, tree)) ∨
      ∃ here last, tree.approach path = .ok (.named here last) ∧ path.slashed = false ∧
        Text.byteSize last.toList ≤ longestName ∧
        tree.node? (here ++ [last]) ≠ some .directory ∧
        tree.write path content = (.ok (), tree.put (here ++ [last]) (.file content)) := by
  rw [write]
  split
  · exact Or.inl ⟨_, rfl⟩
  rename_i target approached
  by_cases slashed : path.slashed
  · rw [if_pos slashed]
    exact Or.inl ⟨_, rfl⟩
  rw [if_neg slashed]
  cases target with
  | directory => exact Or.inl ⟨_, rfl⟩
  | named here last =>
    simp only [Target.found, entry?]
    by_cases long : longestName < Text.byteSize last.toList
    · rw [if_pos long]
      exact Or.inl ⟨_, rfl⟩
    rw [if_neg long]
    rcases stands : tree.node? (here ++ [last]) with _ | _ | old
    · exact Or.inr ⟨here, last, approached, by simpa using slashed, by omega, by simp [stands], rfl⟩
    · exact Or.inl ⟨_, rfl⟩
    · exact Or.inr ⟨here, last, approached, by simpa using slashed, by omega, by simp [stands], rfl⟩

end ArithTokens.Tree
