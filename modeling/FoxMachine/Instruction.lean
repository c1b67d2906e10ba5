namespace FoxMachine

inductive Instruction where
  | nothing
  | load
  | store
  | select
  | add
  | subtract
  | multiply
  | divide
  | compareEqual
  | compareLess
  | jumpUnlessEqual
  | jumpIfEqual
  | jump
  | clearFlags
  | halt
  | shiftLeft
  | shiftRight
  | bitAnd
  | bitOr
  | bitXor
  | set
  | putCharacter
  | dumpMemory
  | readKey
deriving DecidableEq, Repr

namespace Instruction

def ofCode? (code : UInt16) : Option Instruction :=
  match code with
  | 0x00 => some nothing
  | 0x01 => some load
  | 0x02 => some store
  | 0x03 => some select
  | 0x04 => some add
  | 0x05 => some subtract
  | 0x06 => some multiply
  | 0x07 => some divide
  | 0x08 => some compareEqual
  | 0x09 => some compareLess
  | 0x0A => some jumpUnlessEqual
  | 0x0B => some jumpIfEqual
  | 0x0C => some jump
  | 0x0D => some clearFlags
  | 0x0E => some halt
  | 0x0F => some shiftLeft
  | 0x10 => some shiftRight
  | 0x11 => some bitAnd
  | 0x12 => some bitOr
  | 0x13 => some bitXor
  | 0x14 => some set
  | 0xC000 => some putCharacter
  | 0xC001 => some dumpMemory
  | 0xC002 => some readKey
  | _ => none

def name : Instruction → String
  | nothing => "NOP"
  | load => "LFM"
  | store => "WTM"
  | select => "SRA"
  | add => "AXY"
  | subtract => "SXY"
  | multiply => "MXY"
  | divide => "DXY"
  | compareEqual => "EQU"
  | compareLess => "LEQ"
  | jumpUnlessEqual => "JPZ"
  | jumpIfEqual => "JNZ"
  | jump => "JMP"
  | clearFlags => "CLR"
  | halt => "HLT"
  | shiftLeft => "BSL"
  | shiftRight => "BSR"
  | bitAnd => "AND"
  | bitOr => "ORA"
  | bitXor => "XOR"
  | set => "DWR"
  | putCharacter => "DBG_LGC"
  | dumpMemory => "DGB_MEM"
  | readKey => "DGB_INP"

def length : Instruction → UInt16
  | load | store | select | jumpUnlessEqual | jumpIfEqual | jump | set | putCharacter => 2
  | _ => 1

end Instruction

end FoxMachine
