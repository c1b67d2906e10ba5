namespace FoxMachine

namespace Opcode

def debugBase : UInt16 :=
  0xC000

def graphicsBase : UInt16 :=
  0xF000

inductive Range where
  | cpu
  | debug
  | graphics
deriving DecidableEq, Repr

def range (code : UInt16) : Range :=
  if graphicsBase ≤ code then .graphics
  else if debugBase ≤ code then .debug
  else .cpu

/-- All mnemonics with their codes. The processor has no instructions for the graphics codes. -/
def table : List (String × UInt16) := [
  ("NOP", 0x00), ("LFM", 0x01), ("WTM", 0x02), ("SRA", 0x03), ("AXY", 0x04), ("SXY", 0x05),
  ("MXY", 0x06), ("DXY", 0x07), ("EQU", 0x08), ("LEQ", 0x09), ("JPZ", 0x0A), ("JNZ", 0x0B),
  ("JMP", 0x0C), ("CLR", 0x0D), ("HLT", 0x0E), ("BSL", 0x0F), ("BSR", 0x10), ("AND", 0x11),
  ("ORA", 0x12), ("XOR", 0x13), ("DWR", 0x14),
  ("DBG_LGC", 0xC000), ("DGB_MEM", 0xC001), ("DGB_INP", 0xC002),
  ("PPU_NOP", 0xF001), ("PPU_DRW", 0xF002), ("PPU_LFM", 0xF003), ("PPU_WTV", 0xF004),
  ("PPU_BRR", 0xF005), ("PPU_BLR", 0xF006), ("PPU_ORA", 0xF007), ("PPU_XOR", 0xF008),
  ("PPU_AND", 0xF009), ("PPU_DEC", 0xF00A), ("PPU_INC", 0xF00B)]

def code? (mnemonic : String) : Option UInt16 :=
  table.lookup mnemonic

def mnemonic? (code : UInt16) : Option String :=
  (table.find? (·.2 == code)).map (·.1)

/-- Whether the part of a line that follows this mnemonic names a label. -/
def isJump (mnemonic : String) : Bool :=
  mnemonic == "JPZ" || mnemonic == "JNZ" || mnemonic == "JMP"

/-- The codes that are followed by an operand: `LFM`, `WTM`, `SRA`, the three jumps, `DWR` and
`DBG_LGC`. -/
def operandTakers : List UInt16 :=
  [0x01, 0x02, 0x03, 0x0A, 0x0B, 0x0C, 0x14, 0xC000]

def operandCount (code : UInt16) : Nat :=
  if operandTakers.contains code then 1 else 0

theorem operandCount_le_one (code : UInt16) : operandCount code ≤ 1 := by
  unfold operandCount
  split <;> omega

theorem code?_of_mem_table : ∀ entry ∈ table, code? entry.1 = some entry.2 := by
  decide +kernel

theorem mnemonic?_of_mem_table : ∀ entry ∈ table, mnemonic? entry.2 = some entry.1 := by
  decide +kernel

end Opcode

end FoxMachine
