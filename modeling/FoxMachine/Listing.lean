import FoxMachine.Opcode
import FoxMachine.Numeral

namespace FoxMachine

namespace Listing

structure Entry where
  address : UInt16
  word : UInt16
  mnemonic? : Option String
  operand? : Option UInt16
deriving DecidableEq, Repr

namespace Entry

/-- What follows the address and the word: the instruction, or a mark that there is none. -/
def meaning (entry : Entry) : String :=
  match entry.mnemonic?, entry.operand? with
  | some mnemonic, some operand =>
      mnemonic ++ " " ++ Text.hex operand ++ " (" ++ Text.decimal operand ++ ")"
  | some mnemonic, none => mnemonic
  | none, _ => ".word"

def text (entry : Entry) : String :=
  "$" ++ Text.hex entry.address ++ " " ++ Text.hex entry.word ++ " " ++ entry.meaning

def words (entry : Entry) : List UInt16 :=
  entry.word :: entry.operand?.toList

end Entry

def takesOperand (word : UInt16) : Bool :=
  (Opcode.mnemonic? word).isSome && Opcode.operandCount word == 1

/-- Lists words from an address on, behind the entries made so far, of which the last comes
first. -/
def listOnto (entries : List Entry) (address : UInt16) : List UInt16 → List Entry
  | [] => entries.reverse
  | [word] => (⟨address, word, Opcode.mnemonic? word, none⟩ :: entries).reverse
  | word :: next :: words =>
      if takesOperand word then
        listOnto (⟨address, word, Opcode.mnemonic? word, some next⟩ :: entries) (address + 2) words
      else
        listOnto (⟨address, word, Opcode.mnemonic? word, none⟩ :: entries) (address + 1)
          (next :: words)

theorem listOnto_append (entries done : List Entry) (address : UInt16) (words : List UInt16) :
    listOnto (entries ++ done) address words = done.reverse ++ listOnto entries address words := by
  fun_induction listOnto entries address words with
  | case1 entries address => exact List.reverse_append
  | case2 entries address word =>
      rw [listOnto, ← List.cons_append]
      exact List.reverse_append
  | case3 entries address word next words h ih =>
      rw [listOnto, if_pos h]
      exact ih
  | case4 entries address word next words h ih =>
      rw [listOnto, if_neg h]
      exact ih

end Listing

def Listing.ofWords (words : List UInt16) : List Listing.Entry :=
  Listing.listOnto [] 0 words

end FoxMachine
