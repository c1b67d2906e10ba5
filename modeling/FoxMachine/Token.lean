import FoxMachine.Numeral
import FoxMachine.Opcode
import FoxMachine.Outline
import FoxMachine.Report

namespace FoxMachine

namespace Token

inductive Kind where
  | decimal (value : UInt16)
  | hexadecimal (value : UInt16)
  | opcode (mnemonic : String)
  /-- A reference to a label, the operand of a jump. -/
  | label (name : String)
  | declaration (name : String)
  | terminator
  | null
deriving DecidableEq, Repr

namespace Kind

/-- Whether a token of this kind takes a word of the image. -/
def isWord : Kind → Bool
  | decimal _ | hexadecimal _ | opcode _ | label _ => true
  | declaration _ | terminator | null => false

def isJump : Kind → Bool
  | opcode mnemonic => Opcode.isJump mnemonic
  | _ => false

def declared? : Kind → Option String
  | declaration name => some name
  | _ => none

def text : Kind → String
  | decimal value => "Decimal: " ++ Text.decimal value
  | hexadecimal value =>
      "Hexadecimal: " ++ Text.hex value ++ " (" ++ Text.decimal value ++ ")"
  | opcode mnemonic => "Opcode: " ++ mnemonic
  | label name => "Label: " ++ name
  | declaration name => "LabelDeclaration: " ++ name
  | terminator => "Terminator"
  | null => "Null"

end Kind

end Token

structure Token where
  kind : Token.Kind
  span : Span
deriving DecidableEq, Repr

namespace Token

def terminator : Token :=
  ⟨.terminator, .nowhere⟩

def isWord (token : Token) : Bool :=
  token.kind.isWord

@[simp] theorem isWord_mk (kind : Kind) (span : Span) : (Token.mk kind span).isWord = kind.isWord :=
  rfl

/-!
Token streams. A line is cut at its spaces, and every part that is not empty becomes a token; a
terminator ends the line. What a word starting with a letter means depends on the token before it on
the same line: behind a jump it names a label, elsewhere it is a mnemonic.
-/

def literalFault (span : Span) : Literal.Fault → SourceFault
  | .malformed cause => .malformedLiteral span cause
  | .outOfRange => .literalOutOfRange span

def Kind.read (afterJump : Bool) (span : Span) (part : List Char) : Except SourceFault Kind :=
  match part with
  | '%' :: digits => ((Literal.decimal digits).map decimal).mapError (literalFault span)
  | '$' :: digits => ((Literal.hexadecimal digits).map hexadecimal).mapError (literalFault span)
  | ':' :: c :: name => .ok (declaration (String.ofList (c :: name)))
  | c :: _ =>
      if c.isAlpha then
        .ok (if afterJump then label (String.ofList part) else opcode (String.ofList part))
      else .error (.unknownToken span (String.ofList part))
  | [] => .error (.unknownToken span "")

def spanOf (piece : Text.Piece) : Span :=
  ⟨piece.offset, piece.length⟩

def read (previous? : Option Token) (piece : Text.Piece) : Except SourceFault Token :=
  (Kind.read (previous?.any (·.kind.isJump)) (spanOf piece) piece.text).map fun kind =>
    ⟨kind, spanOf piece⟩

/-- Reads one more part of a line behind the tokens read so far, of which the last comes first. -/
def readOnto (tokens : List Token) (piece : Text.Piece) : Except SourceFault (List Token) :=
  (read tokens.head? piece).map (· :: tokens)

end Token

namespace Line

def parts (line : Line) : List Text.Piece :=
  (Text.pieces ' ' line.offset line.text).filter (!·.text.isEmpty)

def tokens (line : Line) : Except SourceFault (List Token) :=
  (line.parts.foldlM Token.readOnto []).map fun tokens => (Token.terminator :: tokens).reverse

end Line

/-- The tokens of all lines. The first fault in source order stops the reading. -/
def tokenStream (lines : List Line) : Except SourceFault (List Token) :=
  (lines.mapM Line.tokens).map List.flatten

end FoxMachine
