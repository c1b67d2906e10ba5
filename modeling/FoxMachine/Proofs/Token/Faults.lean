import FoxMachine.Proofs.Emission.Words
import FoxMachine.Proofs.Literal.Spelling
import FoxMachine.Proofs.Token.Reading

namespace FoxMachine

namespace Text

def startsLiteral (text : List Char) : Bool :=
  text.head? == some '%' || text.head? == some '$'

end Text

namespace Token

theorem Kind.fault_of_read {afterJump : Bool} {span : Span} {part : List Char} {fault : SourceFault}
    (h : Kind.read afterJump span part = .error fault) :
    fault.span = span ∧
      fault.code = if Text.startsLiteral part then "lex::bad_lit" else "lex::unknown" := by
  have hliteral : ∀ cause, (literalFault span cause).span = span ∧
      (literalFault span cause).code = "lex::bad_lit" := by
    intro cause
    cases cause <;> exact ⟨rfl, rfl⟩
  unfold Kind.read at h
  split at h
  case h_1 digits =>
    cases hvalue : Literal.decimal digits <;> rw [hvalue] at h <;> cases h
    exact hliteral _
  case h_2 digits =>
    cases hvalue : Literal.hexadecimal digits <;> rw [hvalue] at h <;> cases h
    exact hliteral _
  case h_3 => contradiction
  case h_4 c rest hpercent hdollar _ =>
    split at h
    · contradiction
    · cases h
      have hstart : Text.startsLiteral (c :: rest) = false := by
        simp_all [Text.startsLiteral]
      rw [hstart]
      exact ⟨rfl, rfl⟩
  case h_5 =>
    cases h
    exact ⟨rfl, rfl⟩

variable {labels : List Label} {span : Span}

end Token

namespace Place

variable {place : Place} {labels : List Label} {fault : SourceFault}

def name (place : Place) : String :=
  String.ofList place.piece.text

def emit (labels : List Label) (place : Place) : Except SourceFault (Option UInt16) :=
  place.read >>= Token.word? .strict labels

theorem fault_of_read (h : place.read = .error fault) :
    fault.span = place.span ∧ fault.code =
      if Text.startsLiteral place.piece.text then "lex::bad_lit" else "lex::unknown" :=
  Token.Kind.fault_of_read (FirstFault.map_eq_error_iff.mp h)

end Place

end FoxMachine
