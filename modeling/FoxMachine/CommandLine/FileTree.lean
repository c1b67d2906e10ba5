import FoxMachine.Text.Basic

namespace FoxMachine

namespace Path

def names (path : String) : List String :=
  ((path.toList.splitOn '/').filter (!·.isEmpty)).map String.ofList

def isAbsolute (path : String) : Bool :=
  path.toList.head? == some '/'

/-- Whether the spelling of a path asks for a directory. -/
def wantsDirectory (path : String) : Bool :=
  path.toList.getLast? == some '/' || (names path).getLast? == some "."

/-- The name of the file that a path leads to. Dots at its end do not count; there is no name above
the root or where the path ends in the place above. -/
def fileName? (path : String) : Option String :=
  match ((names path).filter (· != ".")).getLast? with
  | some ".." => none
  | name? => name?

/-- What follows the last dot of a name. A name has no extension if it has no dot, or only one at
its start. -/
def extensionOf? (name : String) : Option String :=
  let reversed := name.toList.reverse
  match reversed.dropWhile (· != '.') with
  | [] | ['.'] => none
  | _ => some (String.ofList (reversed.takeWhile (· != '.')).reverse)

def extension? (path : String) : Option String :=
  (fileName? path).bind extensionOf?

end Path

inductive FileFault where
  | notFound
  | notDirectory
  | isDirectory
  | nameTooLong
  /-- Any other failure, in the words of the system. -/
  | failure (message : String)
deriving DecidableEq, Repr

def FileFault.message : FileFault → String
  | notFound => "No such file or directory (os error 2)"
  | notDirectory => "Not a directory (os error 20)"
  | isDirectory => "Is a directory (os error 21)"
  | nameTooLong => "File name too long (os error 36)"
  | failure message => message

class FileStore (m : Type → Type) where
  holds : String → m Bool
  read : String → m (Except FileFault (List UInt8))
  write : String → List UInt8 → m (Except FileFault Unit)

inductive FileNode where
  | directory
  | file (bytes : List UInt8)
deriving DecidableEq, Repr

/-- Entries by the names that lead to them from the root. -/
structure FileTree where
  entries : List (List String × FileNode)
  /-- Where paths start that are not absolute. -/
  here : List String
deriving DecidableEq, Repr

namespace FileTree

def longestName : Nat :=
  255

/-- The node at a place. The root and every place that leads to an entry are directories. -/
def nodeAt? (tree : FileTree) (place : List String) : Option FileNode :=
  match tree.entries.lookup place with
  | some node => some node
  | none =>
      if place.isEmpty || tree.entries.any (fun entry => place.isPrefixOf entry.1) then
        some .directory
      else none

def follow (tree : FileTree) (place : List String) (name : String) :
    Except FileFault (List String) :=
  match tree.nodeAt? place with
  | none => .error .notFound
  | some (.file _) => .error .notDirectory
  | some .directory =>
      if longestName < name.utf8ByteSize then .error .nameTooLong
      else if name == "." then .ok place
      else if name == ".." then .ok place.dropLast
      else .ok (place ++ [name])

/-- The place a path leads to. There may be nothing at it. -/
def resolve (tree : FileTree) (path : String) : Except FileFault (List String) :=
  (Path.names path).foldlM tree.follow (if Path.isAbsolute path then [] else tree.here)

def find (tree : FileTree) (path : String) : Except FileFault FileNode := do
  let place ← tree.resolve path
  match tree.nodeAt? place with
  | none => .error .notFound
  | some .directory => .ok .directory
  | some (.file bytes) =>
      if Path.wantsDirectory path then .error .notDirectory else .ok (.file bytes)

def holds (tree : FileTree) (path : String) : Bool :=
  (tree.find path).isOk

def read (tree : FileTree) (path : String) : Except FileFault (List UInt8) :=
  match tree.find path with
  | .error fault => .error fault
  | .ok .directory => .error .isDirectory
  | .ok (.file bytes) => .ok bytes

def put (tree : FileTree) (place : List String) (node : FileNode) : FileTree :=
  { tree with entries := (place, node) :: tree.entries.filter (·.1 != place) }

def write (tree : FileTree) (path : String) (bytes : List UInt8) : Except FileFault FileTree := do
  let place ← tree.resolve path
  match tree.nodeAt? place with
  | some .directory => .error .isDirectory
  | some (.file _) =>
      if Path.wantsDirectory path then .error .notDirectory else .ok (tree.put place (.file bytes))
  | none =>
      if Path.wantsDirectory path then .error .isDirectory else .ok (tree.put place (.file bytes))

/-- Adds an entry by its path from here; a path that ends in a slash makes a directory. -/
def add (tree : FileTree) (path : String) (bytes : List UInt8) : FileTree :=
  tree.put (tree.here ++ Path.names path)
    (if Path.wantsDirectory path then .directory else .file bytes)

def empty : FileTree :=
  let here := ["home"]
  ⟨[(here, .directory)], here⟩

instance : FileStore (StateM FileTree) where
  holds path := return (← get).holds path
  read path := return (← get).read path
  write path bytes := do
    match (← get).write path bytes with
    | .error fault => return .error fault
    | .ok tree =>
        set tree
        return .ok ()

end FileTree

end FoxMachine
