import FoxMachine.Notice
import FoxMachine.Outline
import FoxMachine.Token

namespace FoxMachine

/-!
Binding of labels to addresses, in one pass over a token stream that counts the words. A line binds
the labels that are anchored to it when it starts, in the order of the table: a label waits for
those before it, wherever they are anchored. An inline declaration binds the first label that no
inline declaration has bound, whatever its name, and what it has bound is not bound by a line any
more.
-/

def Label.bindAt (labels : Array Label) (position : Nat) (address : UInt16) : Array Label :=
  labels.modify position fun label => { label with address }

structure Binding where
  labels : Array Label
  /-- The labels for which no line has started yet, each with its position in the table. -/
  waiting : List (Label × Nat)
  /-- The number of lines that have started, which is the number of the line that starts next. -/
  started : Nat
  /-- The number of labels that inline declarations have bound. They are the first of the table. -/
  declared : Nat
  address : UInt16
  skipped : Array String

namespace Binding

def startLine (binding : Binding) : Binding :=
  let isDue : Label × Nat → Bool := fun entry => entry.1.line ≤ binding.started
  { binding with
    labels := (binding.waiting.takeWhile isDue).foldl
      (fun labels (_, position) =>
        if position < binding.declared then labels
        else Label.bindAt labels position binding.address)
      binding.labels
    waiting := binding.waiting.dropWhile isDue
    started := binding.started + 1 }

def declare (binding : Binding) (name : String) : Binding :=
  if binding.declared < binding.labels.size then
    { binding with
      labels := Label.bindAt binding.labels binding.declared binding.address
      declared := binding.declared + 1 }
  else { binding with skipped := binding.skipped.push name }

def push (binding : Binding) (token : Token) : Binding :=
  match token.kind with
  | .terminator => binding.startLine
  | .declaration name => binding.declare name
  | _ => if token.isWord then { binding with address := binding.address + 1 } else binding

def ofLabels (labels : List Label) : Binding :=
  startLine ⟨labels.toArray, labels.zipIdx, 0, 0, 0, #[]⟩

def ofTokens (tokens : List Token) (labels : List Label) : Binding :=
  tokens.foldl push (ofLabels labels)

@[simp] theorem ofTokens_nil (labels : List Label) : ofTokens [] labels = ofLabels labels := rfl

theorem ofTokens_concat (tokens : List Token) (token : Token) (labels : List Label) :
    ofTokens (tokens ++ [token]) labels = (ofTokens tokens labels).push token := by
  simp [ofTokens]

end Binding

namespace Label

/-- Gives every label its address. A label for which no line starts, and which no inline declaration
binds, keeps the address it had. -/
def resolve (tokens : List Token) (labels : List Label) : List Label :=
  (Binding.ofTokens tokens labels).labels.toList

/-- The inline declarations for which the table has no label left. -/
def skippedDeclarations (tokens : List Token) (labels : List Label) : List String :=
  (Binding.ofTokens tokens labels).skipped.toList

def resolveNotices (tokens : List Token) (labels : List Label) : List Notice :=
  (skippedDeclarations tokens labels).map .declarationSkipped ++
    (resolve tokens labels).map .labelResolved

/-- The address of the first label with a name. -/
def addressOf? (labels : List Label) (name : String) : Option UInt16 :=
  (labels.find? (·.name == name)).map (·.address)

end Label

end FoxMachine
