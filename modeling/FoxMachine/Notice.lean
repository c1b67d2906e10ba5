import FoxMachine.Outline
import FoxMachine.Token

namespace FoxMachine

inductive Condition where
  | always
  | trace
deriving DecidableEq, Repr

inductive Notice where
  | labelFound (label : Label)
  | tokenRead (kind : Token.Kind)
  | declarationSkipped (name : String)
  | labelResolved (label : Label)
  | instructionDropped (mnemonic : String)
  | labelMissing (name : String)
  | imageLoaded (size : Nat)
  | unhandled (code operand pc : UInt16)
  | executed (name : String) (pc operand : UInt16)
  | characterLost (cause : String)
  | dumpLost (cause : String)
  | halted
deriving DecidableEq, Repr

namespace Notice

def condition : Notice → Condition
  | declarationSkipped _ | instructionDropped _ | labelMissing _ | unhandled _ _ _
  | characterLost _ | dumpLost _ => .always
  | labelFound _ | tokenRead _ | labelResolved _ | imageLoaded _ | executed _ _ _ | halted => .trace

def unhandledKind (code : UInt16) : String :=
  match Opcode.range code with
  | .graphics => "Unhandled graphics instruction"
  | .debug => "Unknown debug instruction"
  | .cpu => "Illegal instruction"

def text : Notice → String
  | labelFound label => label.name ++ " " ++ toString label.line
  | tokenRead kind => kind.text
  | declarationSkipped name =>
      "warning: skipping declaration of `" ++ name ++ "`, every label is already bound"
  | labelResolved label => label.name ++ " $" ++ Text.hex label.address
  | instructionDropped mnemonic => "warning: dropping unknown instruction `" ++ mnemonic ++ "`"
  | labelMissing name => "warning: undeclared label `" ++ name ++ "`, writing 0"
  | imageLoaded size => "ROM copied to RAM (" ++ toString size ++ " words)"
  | unhandled code operand pc =>
      unhandledKind code ++ " " ++ Text.hex code ++ " with data " ++ Text.hex operand ++ " (" ++
        Text.decimal operand ++ ") at $" ++ Text.hex pc ++ ", executing NOP"
  | executed name pc operand =>
      name ++ " at $" ++ Text.hex pc ++ " (" ++ Text.decimal pc ++ ") with data " ++
        Text.decimal operand
  | characterLost cause => "warning: could not write character: " ++ cause
  | dumpLost cause => "warning: could not write memory dump: " ++ cause
  | halted => "Processor has been halted"

def line (notice : Notice) : String :=
  notice.text ++ "\n"

end Notice

end FoxMachine
