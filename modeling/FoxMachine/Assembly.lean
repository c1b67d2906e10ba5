import FoxMachine.Binding
import FoxMachine.Image
import FoxMachine.Report
import FoxMachine.Token

namespace FoxMachine

/-!
Emission of words. Every word token becomes a word of the image: a literal its value, a mnemonic its
code, a reference the address of the first label of that name. Strict emission fails at a mnemonic
or a label that is not known. Lenient emission never fails: it leaves such a mnemonic out, writes
zero for such a reference, and warns of both.
-/

inductive Mode where
  | strict
  | lenient
deriving DecidableEq, Repr

namespace Token

inductive Contribution where
  | nothing
  | word (value : UInt16)
  | unknownInstruction (mnemonic : String)
  | undeclaredLabel (name : String)
deriving DecidableEq, Repr

def contribution (labels : List Label) (token : Token) : Contribution :=
  match token.kind with
  | .decimal value | .hexadecimal value => .word value
  | .opcode mnemonic =>
      match Opcode.code? mnemonic with
      | some code => .word code
      | none => .unknownInstruction mnemonic
  | .label name =>
      match Label.addressOf? labels name with
      | some address => .word address
      | none => .undeclaredLabel name
  | .declaration _ | .terminator | .null => .nothing

def word? (mode : Mode) (labels : List Label) (token : Token) :
    Except SourceFault (Option UInt16) :=
  match token.contribution labels, mode with
  | .nothing, _ => .ok none
  | .word value, _ => .ok (some value)
  | .unknownInstruction mnemonic, .strict => .error (.unknownInstruction token.span mnemonic)
  | .undeclaredLabel name, .strict => .error (.undeclaredLabel token.span name)
  | .unknownInstruction _, .lenient => .ok none
  | .undeclaredLabel _, .lenient => .ok (some 0)

def warning? (labels : List Label) (token : Token) : Option Notice :=
  match token.contribution labels with
  | .unknownInstruction mnemonic => some (.instructionDropped mnemonic)
  | .undeclaredLabel name => some (.labelMissing name)
  | .nothing | .word _ => none

end Token

structure Emission where
  words : List UInt16
  notices : List Notice
deriving DecidableEq, Repr

namespace Emission

def warnings (mode : Mode) (labels : List Label) (tokens : List Token) : List Notice :=
  match mode with
  | .strict => []
  | .lenient => tokens.filterMap (Token.warning? labels)

def ofTokens (mode : Mode) (labels : List Label) (tokens : List Token) :
    Except SourceFault Emission :=
  (tokens.mapM (Token.word? mode labels)).map fun words =>
    ⟨words.filterMap id, warnings mode labels tokens⟩

def image (emission : Emission) : Image :=
  ⟨emission.words ++ Image.footer⟩

theorem words_image (emission : Emission) : emission.image.words = emission.words ++ [0x00, 0x0E] :=
  rfl

end Emission

structure Assembly where
  image : Image
  labels : List Label
  tokens : List Token
deriving DecidableEq, Repr

namespace Assembly

/-- What comes of an attempt: an assembly or the first fault, and the notices in order. -/
structure Attempt (α : Type) where
  notices : List Notice
  result : Except SourceFault α

def generate (mode : Mode) (labels : List Label) (tokens : List Token) : Attempt Assembly :=
  let labels' := Label.resolve tokens labels
  let notices := Label.resolveNotices tokens labels
  match Emission.ofTokens mode labels' tokens with
  | .error fault => ⟨notices, .error fault⟩
  | .ok emission => ⟨notices ++ emission.notices, .ok ⟨emission.image, labels', tokens⟩⟩

def assemble (mode : Mode) (source : String) : Attempt Assembly :=
  let outline := Outline.ofSource source
  let found := outline.labels.map Notice.labelFound
  match tokenStream outline.lines with
  | .error fault => ⟨found, .error fault⟩
  | .ok tokens =>
      let attempt := generate mode outline.labels tokens
      ⟨found ++ tokens.map (Notice.tokenRead ·.kind) ++ attempt.notices, attempt.result⟩

end Assembly

end FoxMachine
