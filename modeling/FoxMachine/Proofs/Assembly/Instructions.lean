import FoxMachine.Proofs.Assembly.Words

namespace FoxMachine

namespace Token

namespace Kind

def isOperand : Kind → Bool
  | decimal _ | hexadecimal _ | label _ => true
  | opcode _ | declaration _ | terminator | null => false

theorem isWord_of_isOperand {kind : Kind} (h : kind.isOperand = true) : kind.isWord = true := by
  cases kind with
  | decimal value => rfl
  | hexadecimal value => rfl
  | label name => rfl
  | _ => contradiction

end Kind

def countMatches (mnemonic : String) (operands : List Token) : Bool :=
  (Opcode.code? mnemonic).any (Opcode.operandCount · == operands.length)

theorem length_of_countMatches {mnemonic : String} {operands : List Token} {code : UInt16}
    (h : countMatches mnemonic operands = true) (hcode : (mnemonic, code) ∈ Opcode.table) :
    operands.length = Opcode.operandCount code := by
  rw [countMatches, Opcode.code?_eq_some_iff.mpr hcode] at h
  exact (eq_of_beq h).symm

end Token

namespace Line

/-- The mnemonic and the operands of a line that is one instruction. -/
def instruction? (line : Line) : Option (String × List Token) :=
  match line.tokens with
  | .ok (⟨.opcode mnemonic, _⟩ :: rest) =>
      if Token.countMatches mnemonic rest.dropLast && rest.dropLast.all (·.kind.isOperand) then
        some (mnemonic, rest.dropLast)
      else none
  | _ => none

theorem exists_operands_of_tokens {line : Line} {first : Token} {rest : List Token}
    (h : line.tokens = .ok (first :: rest)) (hfirst : first ≠ Token.terminator) :
    ∃ operands, rest = operands ++ [Token.terminator] := by
  obtain ⟨body, _, hbody⟩ := tokens_eq_ok_iff.mp h
  cases body with
  | nil => exact absurd (List.cons.inj hbody).1 hfirst
  | cons first' operands => exact ⟨operands, (List.cons.inj hbody).2⟩

theorem tokens_of_instruction? {line : Line} {mnemonic : String} {operands : List Token}
    (h : line.instruction? = some (mnemonic, operands)) :
    (∃ span, line.tokens = .ok (⟨.opcode mnemonic, span⟩ :: operands ++ [Token.terminator])) ∧
      Token.countMatches mnemonic operands = true ∧
      ∀ operand ∈ operands, operand.kind.isOperand = true := by
  unfold instruction? at h
  split at h
  case h_2 => contradiction
  case h_1 mnemonic' span rest htokens =>
    obtain ⟨operands', rfl⟩ := exists_operands_of_tokens htokens (by simp [Token.terminator])
    rw [List.dropLast_concat] at h
    split at h
    case isFalse => contradiction
    case isTrue hoperands =>
      cases h
      obtain ⟨hcount, hkinds⟩ := Bool.and_eq_true_iff.mp hoperands
      exact ⟨⟨span, htokens⟩, hcount, List.all_eq_true.mp hkinds⟩

theorem Emits.of_tokens {labels : List Label} {line : Line} {block : List UInt16}
    {mnemonic : String} {span : Span} {operands : List Token} (hemits : line.Emits labels block)
    (htokens : line.tokens = .ok (⟨.opcode mnemonic, span⟩ :: operands ++ [Token.terminator]))
    (hwords : ∀ operand ∈ operands, operand.isWord = true) :
    ∃ code values, block = code :: values ∧ (mnemonic, code) ∈ Opcode.table ∧
      List.Forall₂ (fun token value => token.kind.Denotes labels value) operands values := by
  obtain ⟨stream, hstream, hblock⟩ := hemits
  rw [htokens] at hstream
  obtain rfl := Except.ok.inj hstream
  have hfilter : (⟨.opcode mnemonic, span⟩ :: operands ++ [Token.terminator]).filter Token.isWord =
      ⟨.opcode mnemonic, span⟩ :: operands := by
    rw [List.filter_append, List.filter_cons_of_pos rfl, List.filter_eq_self.mpr hwords]
    exact List.append_nil _
  rw [Emission.Emits, hfilter] at hblock
  cases hblock with
  | @cons _ code _ values hcode hvalues =>
      cases hcode with
      | opcode hcode => exact ⟨code, values, rfl, hcode, hvalues⟩

end Line

end FoxMachine
