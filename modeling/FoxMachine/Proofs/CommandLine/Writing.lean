import FoxMachine.CommandLine.FileTree

namespace FoxMachine

/-!
Writing into a tree of files. A write that succeeds makes the file it names hold the bytes, and
makes, changes or removes no file at any other place. Paths to other files still lead to them.
-/

namespace FileTree

variable {tree tree' : FileTree} {place other : List String} {path : String} {node : FileNode}
  {bytes : List UInt8}

theorem lookup_filter_of_ne (hne : other ≠ place) (entries : List (List String × FileNode)) :
    (entries.filter (·.1 != place)).lookup other = entries.lookup other := by
  induction entries with
  | nil => rfl
  | cons entry entries ih =>
      obtain ⟨at', node⟩ := entry
      rw [List.filter_cons]
      by_cases hat : at' = place
      · have hother : (other == at') = false := beq_false_of_ne (hat ▸ hne)
        rw [if_neg (by simpa using hat), ih, List.lookup_cons, hother]
      · rw [if_pos (by simpa using hat), List.lookup_cons, List.lookup_cons, ih]

theorem lookup_put_self (tree : FileTree) (place : List String) (node : FileNode) :
    (tree.put place node).entries.lookup place = some node := by
  simp [put]

theorem lookup_put_of_ne (hne : other ≠ place) (tree : FileTree) (node : FileNode) :
    (tree.put place node).entries.lookup other = tree.entries.lookup other := by
  have hother : (other == place) = false := beq_false_of_ne hne
  rw [put, List.lookup_cons, hother, lookup_filter_of_ne hne]

theorem nodeAt?_put_self (tree : FileTree) (place : List String) (node : FileNode) :
    (tree.put place node).nodeAt? place = some node := by
  rw [nodeAt?, lookup_put_self]

theorem nodeAt?_eq_file_iff :
    tree.nodeAt? place = some (.file bytes) ↔ tree.entries.lookup place = some (.file bytes) := by
  unfold nodeAt?
  cases tree.entries.lookup place with
  | some node => rfl
  | none =>
      dsimp only
      split <;> simp

theorem nodeAt?_put_eq_file_iff (hne : other ≠ place) :
    (tree.put place node).nodeAt? other = some (.file bytes) ↔
      tree.nodeAt? other = some (.file bytes) := by
  rw [nodeAt?_eq_file_iff, nodeAt?_eq_file_iff, lookup_put_of_ne hne]

theorem any_entries_put (h : tree.entries.any (fun entry => other.isPrefixOf entry.1) = true) :
    (tree.put place node).entries.any (fun entry => other.isPrefixOf entry.1) = true := by
  obtain ⟨entry, hentry, hleads⟩ := List.any_eq_true.mp h
  rw [List.any_eq_true]
  by_cases hplace : entry.1 = place
  · exact ⟨(place, node), List.mem_cons_self, by rwa [← hplace]⟩
  · refine ⟨entry, List.mem_cons_of_mem _ (List.mem_filter.mpr ⟨hentry, ?_⟩), hleads⟩
    simpa using hplace

theorem nodeAt?_put_of_ne {node' : FileNode} (hne : other ≠ place)
    (h : tree.nodeAt? other = some node') : (tree.put place node).nodeAt? other = some node' := by
  unfold nodeAt? at h ⊢
  rw [lookup_put_of_ne hne]
  cases hlookup : tree.entries.lookup other with
  | some found =>
      rw [hlookup] at h
      exact h
  | none =>
      rw [hlookup] at h
      simp only [Option.ite_none_right_eq_some, Bool.or_eq_true] at h ⊢
      obtain ⟨hleads, hnode⟩ := h
      exact ⟨hleads.imp_right any_entries_put, hnode⟩

theorem follow_put {start : List String} {name : String}
    (hplace : tree.nodeAt? place ≠ some .directory) (h : tree.follow start name = .ok other) :
    (tree.put place node).follow start name = .ok other := by
  unfold follow at h ⊢
  cases hnode : tree.nodeAt? start with
  | none => simp [hnode] at h
  | some found =>
      cases found with
      | file bytes => simp [hnode] at h
      | directory =>
          have hne : start ≠ place := by
            rintro rfl
            exact hplace hnode
          rw [nodeAt?_put_of_ne hne hnode]
          rw [hnode] at h
          exact h

theorem foldlM_follow_put (hplace : tree.nodeAt? place ≠ some .directory) (names : List String)
    {start : List String} (h : names.foldlM tree.follow start = .ok other) :
    names.foldlM (tree.put place node).follow start = .ok other := by
  induction names generalizing start with
  | nil => exact h
  | cons name names ih =>
      rw [List.foldlM_cons] at h ⊢
      cases hfollow : tree.follow start name with
      | error fault =>
          rw [hfollow] at h
          contradiction
      | ok next =>
          rw [hfollow] at h
          rw [follow_put hplace hfollow]
          exact ih h

theorem resolve_put (hplace : tree.nodeAt? place ≠ some .directory)
    (h : tree.resolve path = .ok other) : (tree.put place node).resolve path = .ok other :=
  foldlM_follow_put hplace (Path.names path) h

theorem read_eq_ok_iff :
    tree.read path = .ok bytes ↔
      ∃ place, tree.resolve path = .ok place ∧ tree.nodeAt? place = some (.file bytes) ∧
        Path.wantsDirectory path = false := by
  unfold read find
  cases tree.resolve path with
  | error fault => simp [bind, Except.bind]
  | ok place =>
      simp only [bind, Except.bind, Except.ok.injEq, exists_eq_left']
      cases tree.nodeAt? place with
      | none => simp
      | some node =>
          cases node with
          | directory => simp
          | file found => cases Path.wantsDirectory path <;> simp

theorem write_eq_ok_iff :
    tree.write path bytes = .ok tree' ↔
      ∃ place, tree.resolve path = .ok place ∧ tree.nodeAt? place ≠ some .directory ∧
        Path.wantsDirectory path = false ∧ tree' = tree.put place (.file bytes) := by
  unfold write
  cases tree.resolve path with
  | error fault => simp [bind, Except.bind]
  | ok place =>
      simp only [bind, Except.bind, Except.ok.injEq, exists_eq_left']
      cases tree.nodeAt? place with
      | none => cases Path.wantsDirectory path <;> simp [eq_comm]
      | some node =>
          cases node with
          | directory => simp
          | file found => cases Path.wantsDirectory path <;> simp [eq_comm]

/-- Two trees whose files are the same, but for the one that a path leads to. -/
structure DiffersAt (tree : FileTree) (path : String) (tree' : FileTree) : Prop where
  file : ∃ place, tree.resolve path = .ok place ∧ ∀ other ≠ place, ∀ bytes,
    tree'.nodeAt? other = some (.file bytes) ↔ tree.nodeAt? other = some (.file bytes)
  read : ∀ path', tree.resolve path' ≠ tree.resolve path → ∀ bytes,
    tree.read path' = .ok bytes → tree'.read path' = .ok bytes

theorem read_of_write (h : tree.write path bytes = .ok tree') : tree'.read path = .ok bytes := by
  obtain ⟨place, hresolve, hplace, hwants, rfl⟩ := write_eq_ok_iff.mp h
  exact read_eq_ok_iff.mpr ⟨place, resolve_put hplace hresolve, nodeAt?_put_self _ _ _, hwants⟩

theorem differsAt_of_write (h : tree.write path bytes = .ok tree') : tree.DiffersAt path tree' := by
  obtain ⟨place, hresolve, hplace, -, rfl⟩ := write_eq_ok_iff.mp h
  constructor
  · exact ⟨place, hresolve, fun other hne bytes => nodeAt?_put_eq_file_iff hne⟩
  · intro path' hne bytes hread
    obtain ⟨other, hother, hfile, hwants⟩ := read_eq_ok_iff.mp hread
    have hplaces : other ≠ place := by
      rintro rfl
      exact hne (hother.trans hresolve.symm)
    exact read_eq_ok_iff.mpr
      ⟨other, resolve_put hplace hother, nodeAt?_put_of_ne hplaces hfile, hwants⟩

end FileTree

end FoxMachine
