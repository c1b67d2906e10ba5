import FoxMachine.Proofs.Assembly.Instructions
import FoxMachine.Proofs.Machine.Alignment
import FoxMachine.Proofs.Machine.Containment

namespace FoxMachine

namespace Opcode

theorem isJump_of_mem_table :
    ∀ entry ∈ table, entry.2 = 0x0A ∨ entry.2 = 0x0B ∨ entry.2 = 0x0C → isJump entry.1 = true := by
  decide +kernel

end Opcode

namespace Token

namespace Kind

/-- Whether a token of this kind is an operand for a mnemonic: jumps take references to labels, and
the others literals. -/
def isOperandOf (mnemonic : String) : Kind → Bool
  | label _ => Opcode.isJump mnemonic
  | decimal _ | hexadecimal _ => !Opcode.isJump mnemonic
  | _ => false

theorem isWord_of_isOperandOf {mnemonic : String} {kind : Kind}
    (h : kind.isOperandOf mnemonic = true) : kind.isWord = true := by
  cases kind with
  | declaration name => contradiction
  | terminator => contradiction
  | null => contradiction
  | _ => rfl

end Kind

def areOperandsOf (mnemonic : String) (operands : List Token) : Bool :=
  (Opcode.code? mnemonic).any (Opcode.operandCount · == operands.length) &&
    operands.all (·.kind.isOperandOf mnemonic)

end Token

namespace Line

/-- The mnemonic of a line that is one instruction with its operands. -/
def mnemonic? (line : Line) : Option String :=
  match line.tokens with
  | .ok (⟨.opcode mnemonic, _⟩ :: rest) =>
      if Token.areOperandsOf mnemonic rest.dropLast then some mnemonic else none
  | _ => none

theorem tokens_of_mnemonic? {line : Line} {mnemonic : String}
    (h : line.mnemonic? = some mnemonic) :
    ∃ span operands,
      line.tokens = .ok (⟨.opcode mnemonic, span⟩ :: operands ++ [Token.terminator]) ∧
      Token.areOperandsOf mnemonic operands = true := by
  unfold mnemonic? at h
  split at h
  case h_2 => contradiction
  case h_1 mnemonic' span rest htokens =>
    obtain ⟨operands, rfl⟩ := exists_operands_of_tokens htokens (by simp [Token.terminator])
    rw [List.dropLast_concat] at h
    split at h
    case isFalse => contradiction
    case isTrue hoperands =>
      obtain rfl := Option.some.inj h
      exact ⟨span, operands, htokens, hoperands⟩

theorem Emits.of_mnemonic? {labels : List Label} {line : Line} {block : List UInt16}
    {mnemonic : String} (hemits : line.Emits labels block) (h : line.mnemonic? = some mnemonic) :
    ∃ (code : UInt16) (operands : List Token) (values : List UInt16),
      block = code :: values ∧ (mnemonic, code) ∈ Opcode.table ∧
      List.Forall₂ (fun token value => token.kind.Denotes labels value) operands values ∧
      operands.length = Opcode.operandCount code ∧
      ∀ operand ∈ operands, operand.kind.isOperandOf mnemonic = true := by
  obtain ⟨span, operands, htokens, hoperands⟩ := tokens_of_mnemonic? h
  obtain ⟨hcount, hkinds⟩ := Bool.and_eq_true_iff.mp hoperands
  have hwords : ∀ operand ∈ operands, operand.isWord = true := by
    intro operand hoperand
    exact Token.Kind.isWord_of_isOperandOf (List.all_eq_true.mp hkinds operand hoperand)
  obtain ⟨code, values, hblock, hcode, hvalues⟩ := hemits.of_tokens htokens hwords
  exact ⟨code, operands, values, hblock, hcode, hvalues,
    Token.length_of_countMatches hcount hcode, List.all_eq_true.mp hkinds⟩

end Line

namespace Assembly

variable {source : String} {assembly : Assembly} {blocks : List (List UInt16)}

def units (blocks : List (List UInt16)) : List (List UInt16) :=
  blocks ++ [[0x00], [0x0E]]

theorem flatten_units (blocks : List (List UInt16)) :
    (units blocks).flatten = blocks.flatten ++ [0x00, 0x0E] := by
  rw [units, List.flatten_append]
  rfl

theorem unitStart_units {index : Nat} (hindex : index ≤ blocks.length) :
    Machine.unitStart (units blocks) index = (blocks.take index).flatten.length := by
  rw [Machine.unitStart, units, List.take_append_of_le_length hindex]

theorem unitStart_footer {place : Nat} (hplace : place ≤ 2) :
    Machine.unitStart (units blocks) (blocks.length + place) = blocks.flatten.length + place := by
  have hwords : (([[0x00], [0x0E]] : List (List UInt16)).take place).flatten.length = place := by
    rcases place with _ | _ | _ | place
    · rfl
    · rfl
    · rfl
    · contradiction
  rw [Machine.unitStart, units, List.take_length_add_append, List.flatten_append,
    List.length_append, hwords]

theorem exists_label_of_jump {labels : List Label} {line : Line} {code target : UInt16}
    (hemits : line.Emits labels [code, target]) (hmnemonic : line.mnemonic?.isSome = true)
    (hcode : code = 0x0A ∨ code = 0x0B ∨ code = 0x0C) :
    ∃ label ∈ labels, label.address = target := by
  obtain ⟨mnemonic, hmnemonic⟩ := Option.isSome_iff_exists.mp hmnemonic
  obtain ⟨code', operands, values, hblock, htable, hvalues, _, hkinds⟩ :=
    hemits.of_mnemonic? hmnemonic
  cases hblock
  have hjump : Opcode.isJump mnemonic = true := Opcode.isJump_of_mem_table _ htable hcode
  obtain ⟨operand, hoperand, hdenotes⟩ :=
    Rows.exists_of_mem_right hvalues (List.mem_singleton_self _)
  have hkind := hkinds operand hoperand
  cases hdenotes' : operand.kind with
  | label name =>
      rw [hdenotes'] at hdenotes
      cases hdenotes with
      | label htarget => exact ⟨_, List.mem_of_find?_eq_some htarget, rfl⟩
  | _ => simp_all [Token.Kind.isOperandOf]

theorem exists_unitStart_of_label {streams : List (List Token)}
    (hmade : MadeOf source assembly streams blocks)
    (hinline : ∀ line ∈ (Outline.ofSource source).lines, line.InlineFree)
    (hsize : assembly.image.size ≤ 4096) {label : Label}
    (hlabel : label ∈ assembly.labels) :
    ∃ index < (units blocks).length,
      label.address.toNat = Machine.unitStart (units blocks) index := by
  rw [hmade.labels_eq hinline] at hlabel
  obtain ⟨anchored, hanchored, rfl⟩ := List.mem_map.mp hlabel
  have hindex : anchored.line ≤ blocks.length := by
    rw [← List.Forall₂.length_eq hmade.line_emits]
    exact line_le_length_of_mem_labels hanchored
  refine ⟨anchored.line, by simp [units]; omega, ?_⟩
  have hinside := Machine.unitStart_le_length (units blocks) anchored.line
  rw [flatten_units, ← hmade.words] at hinside
  rw [unitStart_units hindex] at hinside ⊢
  have hlimit : 4096 < UInt16.size := by decide
  rw [Image.size] at hsize
  exact UInt16.toNat_ofNat_of_lt' (by omega)

theorem isProgram_units {streams : List (List Token)}
    (hmade : MadeOf source assembly streams blocks)
    (hinline : ∀ line ∈ (Outline.ofSource source).lines, line.InlineFree)
    (hinstructions : ∀ line ∈ (Outline.ofSource source).lines, line.mnemonic?.isSome = true)
    (hsize : assembly.image.size ≤ 4096) : Machine.IsProgram (units blocks) := by
  constructor
  case unit =>
    intro unit hunit
    rcases List.mem_append.mp hunit with hblock | hfooter
    · obtain ⟨line, hline, hemits⟩ := Rows.exists_of_mem_right hmade.line_emits hblock
      obtain ⟨mnemonic, hmnemonic⟩ := Option.isSome_iff_exists.mp (hinstructions line hline)
      obtain ⟨code, operands, values, rfl, _, hvalues, hcount, _⟩ := hemits.of_mnemonic? hmnemonic
      exact ⟨code, values, rfl, (List.Forall₂.length_eq hvalues).symm.trans hcount⟩
    · rcases List.mem_pair.mp hfooter with rfl | rfl
      · exact ⟨0x00, [], rfl, rfl⟩
      · exact ⟨0x0E, [], rfl, rfl⟩
  case target =>
    intro code target hunit hcode
    have hblock : [code, target] ∈ blocks := by simpa [units] using hunit
    obtain ⟨line, hline, hemits⟩ := Rows.exists_of_mem_right hmade.line_emits hblock
    obtain ⟨label, hlabel, rfl⟩ := exists_label_of_jump hemits (hinstructions line hline) hcode
    exact exists_unitStart_of_label hmade hinline hsize hlabel
  case last =>
    rw [units, List.getLast?_append]
    rfl

/-- The machine is about to execute the mnemonic of a line, or a word of the footer. -/
def AtInstruction (source : String) (assembly : Assembly) (machine : Machine) : Prop :=
  ∃ blocks, List.Forall₂ (Line.Emits assembly.labels) (Outline.ofSource source).lines blocks ∧
    assembly.image.words = blocks.flatten ++ [0x00, 0x0E] ∧
    ((∃ index line mnemonic operands, (Outline.ofSource source).lines[index]? = some line ∧
        line.mnemonic? = some mnemonic ∧ Opcode.code? mnemonic = some machine.code ∧
        blocks[index]? = some (machine.code :: operands) ∧
        machine.processor.pc.toNat = (blocks.take index).flatten.length) ∨
      ∃ place : Nat, ([0x00, 0x0E] : List UInt16)[place]? = some machine.code ∧
        machine.processor.pc.toNat = blocks.flatten.length + place)

/-- Where lines are instructions, a run that does not store into the image takes no operand for an
instruction. -/
theorem atInstruction_of_running {steps : Nat} (clock : Clock) (terminal : Terminal)
    (hassembly : (assemble .strict source).result = .ok assembly)
    (hinline : ∀ line ∈ (Outline.ofSource source).lines, line.InlineFree)
    (hinstructions : ∀ line ∈ (Outline.ofSource source).lines, line.mnemonic?.isSome = true)
    (hsize : assembly.image.size ≤ 4096)
    (hstores : ∀ earlier < steps,
      ∀ place ∈ ((Machine.boot assembly.image.words clock terminal).after earlier).storeCell?,
        assembly.image.size ≤ place.toNat)
    (hrunning : ((Machine.boot assembly.image.words clock terminal).after steps).isHalted = false) :
    AtInstruction source assembly
      ((Machine.boot assembly.image.words clock terminal).after steps) := by
  obtain ⟨streams, blocks, hmade⟩ := exists_madeOf hassembly
  have hprogram := isProgram_units hmade hinline hinstructions hsize
  have hwords : assembly.image.words = (units blocks).flatten := by
    rw [flatten_units, hmade.words]
  refine ⟨blocks, hmade.line_emits, hmade.words, ?_⟩
  rw [Image.size, hwords] at hsize
  rw [Image.size] at hstores
  rw [hwords] at hstores hrunning ⊢
  obtain ⟨hloaded, index, hindex, hpc⟩ :=
    Machine.exists_unitStart_of_running hprogram hsize hstores hrunning
  -- From here on the machine is any one that holds the image and stands at the start of a unit.
  generalize (Machine.boot (units blocks).flatten clock terminal).after steps = machine
    at hloaded hpc ⊢
  obtain ⟨unit, hunit, hhead, _⟩ := Machine.unit_of_pc hprogram hloaded hindex hpc
  by_cases hline : index < blocks.length
  · left
    rw [unitStart_units (Nat.le_of_lt hline)] at hpc
    rw [units, List.getElem?_append_left hline] at hunit
    obtain ⟨line, hlines, hemits⟩ := Rows.exists_getElem?_left hmade.line_emits hunit
    obtain ⟨mnemonic, hmnemonic⟩ :=
      Option.isSome_iff_exists.mp (hinstructions line (List.mem_of_getElem? hlines))
    obtain ⟨code, _, operands, rfl, htable, _⟩ := hemits.of_mnemonic? hmnemonic
    obtain rfl : code = machine.code := Option.some.inj hhead
    exact ⟨index, line, mnemonic, operands, hlines, hmnemonic, Opcode.code?_eq_some_iff.mpr htable,
      hunit, hpc⟩
  · right
    obtain ⟨place, rfl⟩ := Nat.exists_eq_add_of_le (Nat.le_of_not_lt hline)
    have hplace : place < 2 := by
      have hcount : (units blocks).length = blocks.length + 2 := by
        rw [units, List.length_append]
        rfl
      omega
    rw [unitStart_footer (Nat.le_of_lt hplace)] at hpc
    exact ⟨place, Machine.code_eq_of_footer (flatten_units blocks) hloaded hplace hpc, hpc⟩

/-- Jumps over a store, back to it, and out to the footer. -/
theorem atInstruction_of_running_jumps :
    ∃ assembly,
      (assemble .strict "JMP go\n:back\nWTM $200\nJMP end\n:go\nJMP back\n:end").result =
        .ok assembly ∧
      ((Machine.boot assembly.image.words .unthrottled (.buffer "")).after 5).isHalted = false ∧
      AtInstruction "JMP go\n:back\nWTM $200\nJMP end\n:go\nJMP back\n:end" assembly
        ((Machine.boot assembly.image.words .unthrottled (.buffer "")).after 5) := by
  have hassembly :
      (assemble .strict "JMP go\n:back\nWTM $200\nJMP end\n:go\nJMP back\n:end").result =
        .ok ⟨⟨[0x0C, 6, 0x02, 0x200, 0x0C, 8, 0x0C, 2, 0x00, 0x0E]⟩,
          [⟨"back", 1, 2⟩, ⟨"go", 3, 6⟩, ⟨"end", 4, 8⟩],
          [⟨.opcode "JMP", ⟨0, 3⟩⟩, ⟨.label "go", ⟨4, 2⟩⟩, Token.terminator,
            ⟨.opcode "WTM", ⟨13, 3⟩⟩, ⟨.hexadecimal 0x200, ⟨17, 4⟩⟩, Token.terminator,
            ⟨.opcode "JMP", ⟨22, 3⟩⟩, ⟨.label "end", ⟨26, 3⟩⟩, Token.terminator,
            ⟨.opcode "JMP", ⟨34, 3⟩⟩, ⟨.label "back", ⟨38, 4⟩⟩, Token.terminator]⟩ := by
    decide +kernel
  have hrunning : ((Machine.boot [0x0C, 6, 0x02, 0x200, 0x0C, 8, 0x0C, 2, 0x00, 0x0E] .unthrottled
      (.buffer "")).after 5).isHalted = false := by
    decide +kernel
  have hstores : ∀ earlier < 5,
      ((Machine.boot [0x0C, 6, 0x02, 0x200, 0x0C, 8, 0x0C, 2, 0x00, 0x0E] .unthrottled
        (.buffer "")).after earlier).storeCell?.all (10 ≤ ·.toNat) = true := by
    decide +kernel
  refine ⟨_, hassembly, hrunning, atInstruction_of_running .unthrottled (.buffer "") hassembly
    (by decide +kernel) (by decide +kernel) (by decide +kernel) ?_ hrunning⟩
  intro earlier hearlier place hplace
  exact of_decide_eq_true ((Option.all_eq_true _ _).mp (hstores earlier hearlier) place hplace)

end Assembly

end FoxMachine
