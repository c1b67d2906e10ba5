namespace FoxMachine

/-!
UTF-8 texts. `decode?` accepts exactly the encodings of texts. `decodeLossy` reads any bytes: each
longest beginning of a character that the next byte does not continue becomes one U+FFFD.
-/

namespace Text

def encode (text : String) : List UInt8 :=
  text.toUTF8.data.toList

def decode? (bytes : List UInt8) : Option String :=
  String.fromUTF8? ⟨bytes.toArray⟩

namespace Utf8

def replacement : Char := '\ufffd'

/-- A character of which the first bytes have been read. The next byte has to lie between `low`
and `high`; `value` collects the bits read so far. -/
structure Pending where
  missing : Nat
  low : UInt8
  high : UInt8
  value : Nat

/-- Reads a byte that begins a character. The first continuation byte of a long form is bounded
where it could otherwise spell a shorter form, a surrogate or a number past U+10FFFF. -/
def start (byte : UInt8) : List Char × Option Pending :=
  if byte < 0x80 then ([Char.ofNat byte.toNat], none)
  else if 0xC2 ≤ byte && byte ≤ 0xDF then ([], some ⟨1, 0x80, 0xBF, byte.toNat % 32⟩)
  else if byte == 0xE0 then ([], some ⟨2, 0xA0, 0xBF, 0⟩)
  else if byte == 0xED then ([], some ⟨2, 0x80, 0x9F, 13⟩)
  else if 0xE1 ≤ byte && byte ≤ 0xEF then ([], some ⟨2, 0x80, 0xBF, byte.toNat % 16⟩)
  else if byte == 0xF0 then ([], some ⟨3, 0x90, 0xBF, 0⟩)
  else if 0xF1 ≤ byte && byte ≤ 0xF3 then ([], some ⟨3, 0x80, 0xBF, byte.toNat % 8⟩)
  else if byte == 0xF4 then ([], some ⟨3, 0x80, 0x8F, 4⟩)
  else ([replacement], none)

/-- Reads one byte: the characters that are complete with it, and what is still pending. -/
def next : Option Pending → UInt8 → List Char × Option Pending
  | none, byte => start byte
  | some pending, byte =>
      if pending.low ≤ byte && byte ≤ pending.high then
        let value := pending.value * 64 + byte.toNat % 64
        if pending.missing ≤ 1 then ([Char.ofNat value], none)
        else ([], some ⟨pending.missing - 1, 0x80, 0xBF, value⟩)
      else
        let (text, rest) := start byte
        (replacement :: text, rest)

def decodeFrom : Option Pending → List UInt8 → List Char
  | none, [] => []
  | some _, [] => [replacement]
  | pending, byte :: bytes =>
      let (text, rest) := next pending byte
      text ++ decodeFrom rest bytes

end Utf8

def decodeLossy (bytes : List UInt8) : List Char :=
  Utf8.decodeFrom none bytes

end Text

end FoxMachine
