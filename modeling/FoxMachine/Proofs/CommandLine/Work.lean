import FoxMachine.CommandLine

namespace FoxMachine

namespace FileTree

theorem holds_of_read {tree : FileTree} {path : String} {bytes : List UInt8}
    (hread : tree.read path = .ok bytes) : tree.holds path = true := by
  unfold read at hread
  unfold holds
  cases hfind : tree.find path with
  | error fault => simp [hfind] at hread
  | ok node => rfl

end FileTree

namespace CommandLine

def runOn {α : Type} (work : Work (StateM FileTree) α) (console : Console) (tree : FileTree) :
    (Except Failure α × Console) × FileTree :=
  (work.run.run console).run tree

section Work

variable {α β : Type} {console : Console} {tree tree' : FileTree} {path : String}
  {bytes : List UInt8} {image : Image}

@[simp] theorem runOn_pure (value : α) :
    runOn (pure value) console tree = ((.ok value, console), tree) := rfl

@[simp] theorem runOn_get : runOn get console tree = ((.ok console, console), tree) := rfl

@[simp] theorem runOn_fail (failure : Failure) :
    runOn (fail failure : Work (StateM FileTree) α) console tree =
      ((.error failure, console), tree) := rfl

@[simp] theorem runOn_change (f : Console → Console) :
    runOn (change f) console tree = ((.ok (), f console), tree) := rfl

@[simp] theorem runOn_holds (path : String) :
    runOn (liftM (FileStore.holds path : StateM FileTree Bool)) console tree =
      ((.ok (tree.holds path), console), tree) := rfl

@[simp] theorem runOn_read (path : String) :
    runOn (liftM (FileStore.read path : StateM FileTree (Except FileFault (List UInt8)))) console
      tree = ((.ok (tree.read path), console), tree) := rfl

theorem runOn_lift (action : StateM FileTree α) :
    runOn (liftM action) console tree =
      ((.ok (action.run tree).1, console), (action.run tree).2) := rfl

@[simp] theorem runOn_bind (work : Work (StateM FileTree) α)
    (next : α → Work (StateM FileTree) β) :
    runOn (work >>= next) console tree =
      match runOn work console tree with
      | ((.ok value, console'), tree') => runOn (next value) console' tree'
      | ((.error failure, console'), tree') => ((.error failure, console'), tree') := by
  unfold runOn
  rw [ExceptT.run_bind, StateT.run_bind, StateT.run_bind]
  obtain ⟨⟨result, console'⟩, tree'⟩ := (work.run.run console).run tree
  cases result <;> rfl

@[simp] theorem runOn_map (f : α → β) (work : Work (StateM FileTree) α) :
    runOn (f <$> work) console tree =
      (((runOn work console tree).1.1.map f, (runOn work console tree).1.2),
        (runOn work console tree).2) := by
  rw [← bind_pure_comp, runOn_bind]
  obtain ⟨⟨result, console'⟩, tree'⟩ := runOn work console tree
  cases result <;> rfl

theorem runOn_requirePresent (hholds : tree.holds path = true) :
    runOn (requirePresent path) console tree = ((.ok (), console), tree) := by
  simp [requirePresent, hholds]

theorem runOn_readFound (hread : tree.read path = .ok bytes) :
    runOn (readFound path) console tree = ((.ok bytes, console), tree) := by
  simp [readFound, hread]

theorem runOn_loadImage (hread : tree.read path = .ok bytes)
    (hdecode : Image.decode bytes = .ok image) :
    runOn (loadImage path) console tree = ((.ok image, console), tree) := by
  simp [loadImage, runOn_requirePresent (FileTree.holds_of_read hread), runOn_readFound hread,
    hdecode]

theorem run_write (hwrite : tree.write path bytes = .ok tree') :
    (FileStore.write path bytes : StateM FileTree (Except FileFault Unit)).run tree =
      (.ok (), tree') := by
  simp only [FileStore.write, StateT.run_bind, StateT.run_get, pure_bind, hwrite]
  rfl

theorem runOn_save (hwrite : tree.write path bytes = .ok tree') :
    runOn (save path bytes) console tree = ((.ok (), console), tree') := by
  simp [save, runOn_lift, run_write hwrite]

end Work

section Command

variable (settings : Settings) (color : Bool) (keys : List Char) (command : Command)
  (tree : FileTree)

theorem prepare_eq :
    (prepare settings color keys command : StateM FileTree Stage).run tree =
      match runOn (perform settings keys command) (startConsole settings color) tree with
      | ((.ok stage, _), tree') => (stage, tree')
      | ((.error failure, console), tree') => (.ended ⟨console, some failure⟩, tree') := by
  unfold runOn
  rw [prepare, StateT.run_bind]
  obtain ⟨⟨result, console⟩, tree'⟩ :=
    ((perform settings keys command : Work (StateM FileTree) Stage).run.run
      (startConsole settings color)).run tree
  cases result <;> rfl

theorem execute_eq (limit : Nat) :
    (execute limit settings color keys command : StateM FileTree (Option Outcome)).run tree =
      match (prepare settings color keys command : StateM FileTree Stage).run tree with
      | (.ended outcome, tree') => (some outcome, tree')
      | (.ready launch, tree') =>
          ((launch.session.run? limit).map fun session => { launch with session }.finish,
            tree') := by
  rw [execute, StateT.run_bind]
  obtain ⟨stage, tree'⟩ := (prepare settings color keys command : StateM FileTree Stage).run tree
  cases stage <;> rfl

end Command

end CommandLine

end FoxMachine
