import FoxMachine.Text.Basic

namespace FoxMachine

/-!
Outlines of source texts. Every line loses its comment and the blanks around it; lines of which
nothing is left are dropped. A line that starts with a colon declares a label and holds no code. The
label is anchored to the line of code that follows it.
-/

structure Line where
  text : List Char
  /-- The byte at which the text starts in the source. -/
  offset : Nat
  /-- The number of the line in the source, from one. -/
  number : Nat
deriving DecidableEq, Repr

namespace Line

def code (text : List Char) : List Char :=
  text.takeWhile (· != ';')

def clean? (number : Nat) (line : Text.Piece) : Option Line :=
  let code := Line.code line.text
  match Text.trim code with
  | [] => none
  | text =>
      some ⟨text, line.offset + Text.byteLength (code.takeWhile Text.isBlank), number⟩

/-- The name that a declaration line gives to a label. It may be empty. -/
def declared? (line : Line) : Option String :=
  match line.text with
  | ':' :: name => some (String.ofList (Text.trim name))
  | _ => none

def isDeclaration (line : Line) : Bool :=
  line.declared?.isSome

end Line

def cleanLines (source : List Char) : List Line :=
  ((Text.pieces '\n' 0 source).zipIdx 1).filterMap fun (line, number) => Line.clean? number line

structure Label where
  name : String
  /-- The number of lines of code before the declaration. -/
  line : Nat
  /-- Provisional until the label has been resolved. -/
  address : UInt16
deriving DecidableEq, Repr

structure Outline where
  lines : List Line
  labels : List Label
deriving DecidableEq, Repr

namespace Outline

/-- The number of lines of code before each line and behind the last. -/
def anchors (lines : List Line) : List Nat :=
  lines.scanl (fun count line => if line.isDeclaration then count else count + 1) 0

def ofLines (lines : List Line) : Outline where
  lines := lines.filter (! ·.isDeclaration)
  labels := (lines.zip (anchors lines)).filterMap fun (line, anchor) =>
    line.declared?.map fun name => ⟨name, anchor, anchor.toUInt16⟩

def ofSource (source : String) : Outline :=
  ofLines (cleanLines source.toList)

end Outline

end FoxMachine
