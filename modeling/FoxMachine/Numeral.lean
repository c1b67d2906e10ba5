namespace FoxMachine

namespace Text

inductive LetterCase where
  | lower
  | upper
deriving DecidableEq, Repr

def digitChar (letters : LetterCase) (digit : Nat) : Char :=
  if digit < 10 then Char.ofNat (48 + digit)
  else match letters with
    | .lower => Char.ofNat (87 + digit)
    | .upper => Char.ofNat (55 + digit)

def hexDigits (letters : LetterCase) (word : UInt16) : List Char :=
  [word.toNat / 4096 % 16, word.toNat / 256 % 16, word.toNat / 16 % 16, word.toNat % 16].map
    (digitChar letters)

@[simp] theorem length_hexDigits (letters : LetterCase) (word : UInt16) :
    (hexDigits letters word).length = 4 := rfl

/-- Four upper-case hexadecimal digits. -/
def hex (word : UInt16) : String :=
  String.ofList (hexDigits .upper word)

def hexLower (word : UInt16) : String :=
  String.ofList (hexDigits .lower word)

def decimal (word : UInt16) : String :=
  toString word.toNat

/-- Spaces are put in front until the text is `width` characters long. -/
def padStart (width : Nat) (text : String) : String :=
  String.ofList (text.toList.leftpad width ' ')

end Text

/-!
Reading whole numbers. A numeral is an optional sign and at least one digit. Reading goes from left
to right and stops at the first fault: a character that is no digit is found before the overflow
that it would cause, and an overflow hides what follows it.
-/

namespace Numeral

inductive Fault where
  | empty
  | invalidDigit
  | tooLarge
  | tooSmall
deriving DecidableEq, Repr

def Fault.message : Fault → String
  | .empty => "cannot parse integer from empty string"
  | .invalidDigit => "invalid digit found in string"
  | .tooLarge => "number too large to fit in target type"
  | .tooSmall => "number too small to fit in target type"

/-- The numbers of one kind: their base, the greatest of them, and for signed numbers the magnitude
of the least. Without such a magnitude a minus sign is no part of a numeral. -/
structure Format where
  base : Nat
  greatest : Nat
  least? : Option Nat

def signed32 : Format :=
  ⟨10, 0x7FFFFFFF, some 0x80000000⟩

def hex16 : Format :=
  ⟨16, 0xFFFF, none⟩

def unsigned64 : Format :=
  ⟨10, 0xFFFFFFFFFFFFFFFF, none⟩

/-- The value of a digit in a base; letters of either case follow 9. -/
def digit? (base : Nat) (c : Char) : Option Nat :=
  let value? :=
    if '0' ≤ c ∧ c ≤ '9' then some (c.toNat - 48)
    else if 'a' ≤ c ∧ c ≤ 'z' then some (c.toNat - 87)
    else if 'A' ≤ c ∧ c ≤ 'Z' then some (c.toNat - 55)
    else none
  value?.filter (· < base)

/-- Reads digits behind those that give `value`. No value above `limit` is reached: the digit that
would pass it is the fault `overflow`. -/
def readDigits (base limit : Nat) (overflow : Fault) : Nat → List Char → Except Fault Nat
  | value, [] => .ok value
  | value, c :: text =>
      match digit? base c with
      | none => .error .invalidDigit
      | some digit =>
          if limit < value * base + digit then .error overflow
          else readDigits base limit overflow (value * base + digit) text

/-- Reads a numeral. A sign alone is an invalid digit. -/
def Format.read (format : Format) : List Char → Except Fault Int
  | [] => .error .empty
  | ['+'] => .error .invalidDigit
  | ['-'] => .error .invalidDigit
  | '+' :: digits => (readDigits format.base format.greatest .tooLarge 0 digits).map Int.ofNat
  | '-' :: digits =>
      match format.least? with
      | some least => (readDigits format.base least .tooSmall 0 digits).map fun value => -value
      | none => .error .invalidDigit
  | digits => (readDigits format.base format.greatest .tooLarge 0 digits).map Int.ofNat

end Numeral

namespace Literal

inductive Fault where
  | malformed (cause : Numeral.Fault)
  | outOfRange
deriving DecidableEq, Repr

/-- The word that agrees with a number modulo 65536. -/
def wordOf (value : Int) : UInt16 :=
  (value % 65536).toNat.toUInt16

def decimal (text : List Char) : Except Fault UInt16 :=
  match Numeral.signed32.read text with
  | .error cause => .error (.malformed cause)
  | .ok value =>
      if -32768 ≤ value ∧ value ≤ 65535 then .ok (wordOf value) else .error .outOfRange

def hexadecimal (text : List Char) : Except Fault UInt16 :=
  match Numeral.hex16.read text with
  | .error cause => .error (.malformed cause)
  | .ok value => .ok (wordOf value)

end Literal

end FoxMachine
