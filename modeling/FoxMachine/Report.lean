import FoxMachine.Numeral

namespace FoxMachine

structure Span where
  offset : Nat
  length : Nat
deriving DecidableEq, Repr

namespace Span

/-- The span of what stands nowhere in the source, such as the end of a line. -/
def nowhere : Span :=
  ⟨0, 0⟩

instance : Inhabited Span :=
  ⟨nowhere⟩

def stop (span : Span) : Nat :=
  span.offset + span.length

def isEmpty (span : Span) : Bool :=
  span.length == 0

@[simp] theorem stop_mk (offset length : Nat) : (Span.mk offset length).stop = offset + length :=
  rfl

end Span

inductive Severity where
  | error
deriving DecidableEq, Repr

structure Report where
  code? : Option String
  message : String
  help? : Option String
  severity? : Option Severity
  labels : List (String × Span)
  hasSource : Bool
deriving DecidableEq, Repr

/-- The number of lines of the source that are shown on either side of a faulty one. -/
def Report.contextLines : Nat :=
  8

def Report.plain (message : String) : Report :=
  ⟨none, message, none, none, [], false⟩

inductive SourceFault where
  | unknownToken (span : Span) (part : String)
  | malformedLiteral (span : Span) (cause : Numeral.Fault)
  | literalOutOfRange (span : Span)
  | unknownInstruction (span : Span) (mnemonic : String)
  | undeclaredLabel (span : Span) (name : String)
deriving DecidableEq, Repr

namespace SourceFault

def span : SourceFault → Span
  | unknownToken span _ | malformedLiteral span _ | literalOutOfRange span
  | unknownInstruction span _ | undeclaredLabel span _ => span

def code : SourceFault → String
  | unknownToken _ _ => "lex::unknown"
  | malformedLiteral _ _ | literalOutOfRange _ => "lex::bad_lit"
  | unknownInstruction _ _ => "gen::unknown_mnemonic"
  | undeclaredLabel _ _ => "gen::unresolved_label"

def message : SourceFault → String
  | unknownToken _ part => "Encountered an unknown token `" ++ part ++ "`"
  | malformedLiteral _ cause => "Encountered an invalid literal: " ++ cause.message
  | literalOutOfRange _ => "Literal does not fit in a 16-bit word"
  | unknownInstruction _ mnemonic => "Unknown instruction `" ++ mnemonic ++ "`"
  | undeclaredLabel _ name => "Reference to undeclared label `" ++ name ++ "`"

def help : SourceFault → String
  | unknownToken _ _ => "operands start with % (decimal) or $ (hex), labels are declared with :"
  | malformedLiteral _ _ | literalOutOfRange _ =>
      "ranges from -32,768 to 32,767 or 0 to 65,535 are allowed"
  | unknownInstruction _ _ =>
      "check the list of available instructions, labels can only follow JPZ, JNZ and JMP"
  | undeclaredLabel _ name => "declare the label on its own line, like `:" ++ name ++ "`"

def label : SourceFault → String
  | unknownToken _ _ => "unknown token"
  | malformedLiteral _ _ => "incorrect literal"
  | literalOutOfRange _ => "out of range"
  | unknownInstruction _ _ => "unknown mnemonic"
  | undeclaredLabel _ _ => "undeclared label"

def report (fault : SourceFault) : Report where
  code? := some fault.code
  message := fault.message
  help? := some fault.help
  severity? := some .error
  labels := [(fault.label, fault.span)]
  hasSource := true

end SourceFault

end FoxMachine
