import FoxMachine.Assembly
import FoxMachine.Proofs.FirstFault
import FoxMachine.Proofs.Rows

namespace FoxMachine

namespace Opcode

theorem code?_eq_some_iff {mnemonic : String} {code : UInt16} :
    code? mnemonic = some code ↔ (mnemonic, code) ∈ table := by
  constructor
  · intro h
    obtain ⟨before, after, htable, _⟩ := List.lookup_eq_some_iff.mp h
    rw [htable]
    simp
  · intro h
    exact code?_of_mem_table _ h

end Opcode

namespace Token

namespace Kind

/-- The word that a token of a kind stands for under a table of labels. -/
inductive Denotes (labels : List Label) : Kind → UInt16 → Prop
  | decimal (value : UInt16) : Denotes labels (decimal value) value
  | hexadecimal (value : UInt16) : Denotes labels (hexadecimal value) value
  | opcode {mnemonic : String} {code : UInt16} (hcode : (mnemonic, code) ∈ Opcode.table) :
      Denotes labels (opcode mnemonic) code
  | label {name : String} {target : Label} (htarget : labels.find? (·.name == name) = some target) :
      Denotes labels (label name) target.address

theorem Denotes.isWord {labels : List Label} {kind : Kind} {value : UInt16}
    (h : kind.Denotes labels value) : kind.isWord = true := by
  cases h <;> rfl

end Kind

variable {labels : List Label} {token : Token} {tokens : List Token}

theorem word?_opcode {mnemonic : String} {span : Span} :
    (Token.mk (.opcode mnemonic) span).word? .strict labels =
      match Opcode.code? mnemonic with
      | some code => .ok (some code)
      | none => .error (.unknownInstruction span mnemonic) := by
  cases hcode : Opcode.code? mnemonic <;> simp [word?, contribution, hcode]

theorem word?_label {name : String} {span : Span} :
    (Token.mk (.label name) span).word? .strict labels =
      match labels.find? (·.name == name) with
      | some target => .ok (some target.address)
      | none => .error (.undeclaredLabel span name) := by
  cases hfind : labels.find? (·.name == name) <;>
    simp [word?, contribution, Label.addressOf?, hfind]

theorem word?_eq_some_iff {value : UInt16} :
    token.word? .strict labels = .ok (some value) ↔ token.kind.Denotes labels value := by
  obtain ⟨kind, span⟩ := token
  constructor
  · intro h
    cases kind with
    | decimal value' =>
        cases h
        exact .decimal value
    | hexadecimal value' =>
        cases h
        exact .hexadecimal value
    | opcode mnemonic =>
        rw [word?_opcode] at h
        cases hcode : Opcode.code? mnemonic <;> rw [hcode] at h <;> cases h
        exact .opcode (Opcode.code?_eq_some_iff.mp hcode)
    | label name =>
        rw [word?_label] at h
        cases htarget : labels.find? (·.name == name) <;> rw [htarget] at h <;> cases h
        exact .label htarget
    | declaration name => cases h
    | terminator => cases h
    | null => cases h
  · intro h
    cases h with
    | decimal => rfl
    | hexadecimal => rfl
    | opcode hcode => rw [word?_opcode, Opcode.code?_eq_some_iff.mpr hcode]
    | label htarget => rw [word?_label, htarget]

theorem word?_eq_none_iff :
    token.word? .strict labels = .ok none ↔ token.isWord = false := by
  obtain ⟨kind, span⟩ := token
  cases kind with
  | opcode mnemonic =>
      rw [word?_opcode]
      cases Opcode.code? mnemonic <;> simp [Kind.isWord]
  | label name =>
      rw [word?_label]
      cases labels.find? (·.name == name) <;> simp [Kind.isWord]
  | _ => simp [word?, contribution, Kind.isWord]

end Token

namespace Emission

variable {labels : List Label} {tokens : List Token}

/-- The words stand for the word tokens of a stream, one by one. -/
def Emits (labels : List Label) (tokens : List Token) (words : List UInt16) : Prop :=
  List.Forall₂ (fun token value => token.kind.Denotes labels value) (tokens.filter Token.isWord)
    words

theorem emits_filterMap {words : List (Option UInt16)}
    (h : List.Forall₂ (fun token word? => Token.word? .strict labels token = .ok word?) tokens
      words) :
    Emits labels tokens (words.filterMap id) := by
  induction h with
  | nil => exact .nil
  | @cons token word? tokens words hword _ ih =>
      unfold Emits
      cases word? with
      | none =>
          rw [List.filter_cons_of_neg (by simp [Token.word?_eq_none_iff.mp hword])]
          exact ih
      | some value =>
          have hdenotes := Token.word?_eq_some_iff.mp hword
          have htoken : token.isWord = true := hdenotes.isWord
          rw [List.filter_cons_of_pos htoken]
          exact .cons hdenotes ih

theorem emits_of_ofTokens {emission : Emission}
    (h : ofTokens .strict labels tokens = .ok emission) : Emits labels tokens emission.words := by
  obtain ⟨words, hwords, rfl⟩ := FirstFault.map_eq_ok_iff.mp h
  exact emits_filterMap (FirstFault.mapM_eq_ok_iff.mp hwords)

theorem exists_mapM_word?_of_emits {words : List UInt16} (h : Emits labels tokens words) :
    ∃ words', tokens.mapM (Token.word? .strict labels) = .ok words' ∧
      words'.filterMap id = words := by
  induction tokens generalizing words with
  | nil =>
      cases h
      exact ⟨[], rfl, rfl⟩
  | cons token tokens ih =>
      unfold Emits at h
      cases htoken : token.isWord with
      | false =>
          rw [List.filter_cons_of_neg (by simp [htoken])] at h
          obtain ⟨words', hwords', rfl⟩ := ih h
          refine ⟨none :: words', ?_, rfl⟩
          rw [FirstFault.mapM_cons, Token.word?_eq_none_iff.mpr htoken, hwords']
          rfl
      | true =>
          rw [List.filter_cons_of_pos htoken] at h
          cases h with
          | @cons _ value _ words hvalue hwords =>
              obtain ⟨words', hwords', rfl⟩ := ih hwords
              refine ⟨some value :: words', ?_, rfl⟩
              rw [FirstFault.mapM_cons, Token.word?_eq_some_iff.mpr hvalue, hwords']
              rfl

theorem ofTokens_of_emits {words : List UInt16} (h : Emits labels tokens words) :
    ofTokens .strict labels tokens = .ok ⟨words, []⟩ := by
  obtain ⟨words', hwords', rfl⟩ := exists_mapM_word?_of_emits h
  exact FirstFault.map_eq_ok_iff.mpr ⟨words', hwords', rfl⟩

theorem Emits.length_eq {words : List UInt16} (h : Emits labels tokens words) :
    words.length = tokens.countP Token.isWord := by
  rw [List.countP_eq_length_filter]
  exact (List.Forall₂.length_eq h).symm

theorem Emits.exists_blocks {streams : List (List Token)} {words : List UInt16}
    (h : Emits labels streams.flatten words) :
    ∃ blocks, List.Forall₂ (Emits labels) streams blocks ∧ words = blocks.flatten := by
  induction streams generalizing words with
  | nil =>
      cases h
      exact ⟨[], .nil, rfl⟩
  | cons stream streams ih =>
      unfold Emits at h
      rw [List.flatten_cons, List.filter_append] at h
      obtain ⟨block, rest, rfl, hblock, hrest⟩ := Rows.exists_append_of_append_left h
      obtain ⟨blocks, hblocks, rfl⟩ := ih hrest
      exact ⟨block :: blocks, .cons hblock hblocks, rfl⟩

theorem Emits.flatten {streams : List (List Token)} {blocks : List (List UInt16)}
    (h : List.Forall₂ (Emits labels) streams blocks) :
    Emits labels streams.flatten blocks.flatten := by
  induction h with
  | nil => exact .nil
  | cons hfirst _ ih =>
      unfold Emits
      rw [List.flatten_cons, List.flatten_cons, List.filter_append]
      exact List.rel_append hfirst ih

end Emission

end FoxMachine
