import FoxMachine.Opcode
import FoxMachine.Report
import FoxMachine.Text.Quoted
import FoxMachine.Text.Utf8

namespace FoxMachine

structure Image where
  words : List UInt16
deriving DecidableEq, Repr

namespace Image

def identifier : List UInt8 :=
  [0x2E, 0x56, 0x49, 0x53, 0x4F, 0x46, 0x4F, 0x58, 0x31, 0x36]

/-- `NOP` and `HLT`, which close every assembled program. -/
def footer : List UInt16 :=
  [0x00, 0x0E]

def size (image : Image) : Nat :=
  image.words.length

inductive Fault where
  /-- The bytes do not start with the identifier but with these. -/
  | unidentified (found : List UInt8)
  /-- The words end in the middle of one, after so many bytes. -/
  | misaligned (length : Nat)
deriving DecidableEq, Repr

namespace Fault

def code : Fault → String
  | unidentified _ => "rom::magic"
  | misaligned _ => "rom::alignment"

def message : Fault → String
  | unidentified found =>
      "File does not start with the ROM identifier, found " ++
        String.ofList (Text.quoted (Text.decodeLossy found))
  | misaligned length =>
      "File is not aligned to 16 bits (" ++ toString length ++ " bytes of code)"

def help : Fault → String
  | unidentified _ => "assemble a `.fox16` file to produce a valid ROM"
  | misaligned _ => "the code section must be a whole number of 16-bit words"

def report (fault : Fault) : Report where
  code? := some fault.code
  message := fault.message
  help? := some fault.help
  severity? := some .error
  labels := []
  hasSource := false

end Fault

def bytesOf (word : UInt16) : List UInt8 :=
  [(word.toNat / 256).toUInt8, (word.toNat % 256).toUInt8]

def wordOf (high low : UInt8) : UInt16 :=
  (high.toNat * 256 + low.toNat).toUInt16

def encode (image : Image) : List UInt8 :=
  identifier ++ image.words.flatMap bytesOf

/-- Reads words behind those already read, of which the last comes first. A last single byte is left
over. -/
def readWords (words : List UInt16) : List UInt8 → List UInt16
  | high :: low :: bytes => readWords (wordOf high low :: words) bytes
  | _ => words.reverse

theorem readWords_append (words done : List UInt16) (bytes : List UInt8) :
    readWords (words ++ done) bytes = done.reverse ++ readWords words bytes := by
  fun_induction readWords words bytes with
  | case1 words high low bytes ih =>
      rw [List.cons_append] at ih
      rw [readWords]
      exact ih
  | case2 words bytes h =>
      unfold readWords
      split
      · exact absurd rfl (h _ _ _)
      · exact List.reverse_append

def decode (bytes : List UInt8) : Except Fault Image :=
  if identifier.isPrefixOf bytes then
    let code := bytes.drop identifier.length
    if code.length % 2 = 0 then .ok ⟨readWords [] code⟩ else .error (.misaligned code.length)
  else .error (.unidentified (bytes.take identifier.length))

end Image

end FoxMachine
