namespace FoxMachine

structure Terminal where
  keys : List Char
  /-- Whether text goes to the console, instead of the transcript. -/
  onConsole : Bool
  transcript : String
  writes : Nat
  /-- What makes a write fail, by its number. -/
  fault? : Nat → Option String

namespace Terminal

inductive Written where
  | kept
  | toConsole
  | lost (cause : String)
deriving DecidableEq, Repr

/-- A terminal that keeps its text and never fails. -/
def buffer (keys : String) : Terminal :=
  ⟨keys.toList, false, "", 0, fun _ => none⟩

def console (keys : List Char) : Terminal :=
  ⟨keys, true, "", 0, fun _ => none⟩

/-- The keys that bytes from an input without keys of its own stand for, one key a byte. -/
def keysOfBytes (bytes : List UInt8) : List Char :=
  bytes.map fun byte => Char.ofNat byte.toNat

def broken (cause : String) : Terminal :=
  ⟨[], false, "", 0, fun _ => some cause⟩

def write (terminal : Terminal) (text : String) : Terminal × Written :=
  let counted := { terminal with writes := terminal.writes + 1 }
  match terminal.fault? terminal.writes with
  | some cause => (counted, .lost cause)
  | none =>
      if terminal.onConsole then (counted, .toConsole)
      else ({ counted with transcript := counted.transcript ++ text }, .kept)

def readKey (terminal : Terminal) : Terminal × Option Char :=
  match terminal.keys with
  | [] => (terminal, none)
  | key :: keys => ({ terminal with keys }, some key)

/-! Handles on terminals. Several handles may share a terminal; what one of them writes or reads is
written or read for all. -/

/-- A list of handles, each given by the position of its terminal. -/
structure Handles where
  terminals : Array Terminal
  handles : Array Nat

namespace Handles

def single (terminal : Terminal) : Handles :=
  ⟨#[terminal], #[0]⟩

def size (group : Handles) : Nat :=
  group.handles.size

def add (group : Handles) (terminal : Terminal) : Handles :=
  ⟨group.terminals.push terminal, group.handles.push group.terminals.size⟩

def share (group : Handles) (handle : Nat) : Handles :=
  ⟨group.terminals, group.handles.push (group.handles[handle]?.getD group.terminals.size)⟩

def get? (group : Handles) (handle : Nat) : Option Terminal := do
  group.terminals[← group.handles[handle]?]?

def set (group : Handles) (handle : Nat) (terminal : Terminal) : Handles :=
  match group.handles[handle]? with
  | some position => { group with terminals := group.terminals.setIfInBounds position terminal }
  | none => group

end Handles

end Terminal

end FoxMachine
