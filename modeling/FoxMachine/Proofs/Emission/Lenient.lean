import FoxMachine.Assembly
import FoxMachine.Proofs.Emission.Words
import FoxMachine.Proofs.FirstFault

namespace FoxMachine

namespace Token

def lenientWord? (labels : List Label) (token : Token) : Option UInt16 :=
  match token.contribution labels with
  | .word value => some value
  | .undeclaredLabel _ => some 0
  | .nothing | .unknownInstruction _ => none

def isDropped (token : Token) : Bool :=
  match token.kind with
  | .opcode mnemonic => (Opcode.code? mnemonic).isNone
  | _ => false

theorem word?_lenient (labels : List Label) (token : Token) :
    token.word? .lenient labels = .ok (token.lenientWord? labels) := by
  unfold word? lenientWord?
  cases token.contribution labels <;> rfl

theorem isSome_lenientWord? (labels : List Label) (token : Token) :
    (token.lenientWord? labels).isSome = (token.isWord && !token.isDropped) := by
  obtain ⟨kind, span⟩ := token
  cases kind with
  | opcode mnemonic =>
      cases hcode : Opcode.code? mnemonic <;>
        simp [lenientWord?, contribution, isDropped, Kind.isWord, hcode]
  | label name =>
      cases htarget : Label.addressOf? labels name <;>
        simp [lenientWord?, contribution, isDropped, Kind.isWord, htarget]
  | _ => rfl

theorem isWord_of_isDropped {token : Token} (h : token.isDropped = true) : token.isWord = true := by
  obtain ⟨kind, span⟩ := token
  cases kind with
  | opcode mnemonic => rfl
  | _ => contradiction

end Token

namespace Emission

def lenientWords (labels : List Label) (tokens : List Token) : List UInt16 :=
  tokens.filterMap (Token.lenientWord? labels)

theorem ofTokens_lenient (labels : List Label) (tokens : List Token) :
    ofTokens .lenient labels tokens =
      .ok ⟨lenientWords labels tokens, warnings .lenient labels tokens⟩ := by
  have hwords : tokens.mapM (Token.word? .lenient labels) =
      .ok (tokens.map (Token.lenientWord? labels)) := by
    rw [FirstFault.mapM_eq_ok_iff, List.forall₂_map_right_iff, List.forall₂_same]
    exact fun token _ => Token.word?_lenient labels token
  rw [ofTokens, hwords, lenientWords]
  simp [Except.map, List.filterMap_map]

theorem length_lenientWords_add_countP (labels : List Label) (tokens : List Token) :
    (lenientWords labels tokens).length + tokens.countP Token.isDropped =
      tokens.countP Token.isWord := by
  -- The word tokens are cut in two: those that are not dropped give a word each.
  have hwords : (lenientWords labels tokens).length =
      (tokens.filter fun token => !token.isDropped).countP Token.isWord := by
    rw [lenientWords, List.length_filterMap_eq_countP, List.countP_filter]
    exact List.countP_congr fun token _ => by rw [Token.isSome_lenientWord?]
  have hdropped : tokens.countP Token.isDropped =
      (tokens.filter Token.isDropped).countP Token.isWord := by
    rw [List.countP_eq_length_filter, eq_comm, List.countP_eq_length]
    exact fun token htoken => Token.isWord_of_isDropped (List.of_mem_filter htoken)
  rw [hwords, hdropped, Nat.add_comm]
  exact (List.countP_eq_countP_filter_add tokens Token.isWord Token.isDropped).symm

end Emission

/-!
Mending of token streams. What strict emission stops at, lenient emission mends: it gives the words
of a stream without the mnemonics that are not known, in which zero stands for every reference to a
label that is not declared. It warns of each such token, and where there is none it does nothing
else than strict emission.
-/

namespace Token

def isUndeclared (labels : List Label) (token : Token) : Bool :=
  match token.kind with
  | .label name => labels.all (·.name != name)
  | _ => false

/-- Whether strict emission stops at the token. -/
def isFaulty (labels : List Label) (token : Token) : Bool :=
  token.isDropped || token.isUndeclared labels

def mended? (labels : List Label) (token : Token) : Option Token :=
  if token.isDropped then none
  else if token.isUndeclared labels then some { token with kind := .decimal 0 }
  else some token

def mend (labels : List Label) (tokens : List Token) : List Token :=
  tokens.filterMap (mended? labels)

def mendingNotice? (token : Token) : Option Notice :=
  match token.kind with
  | .opcode mnemonic => some (.instructionDropped mnemonic)
  | .label name => some (.labelMissing name)
  | _ => none

variable {labels : List Label} {token : Token}

theorem isNone_addressOf? (labels : List Label) (name : String) :
    (Label.addressOf? labels name).isNone = labels.all (·.name != name) := by
  rw [Bool.eq_iff_iff]
  simp [Label.addressOf?]

theorem isFaulty_cases (labels : List Label) (token : Token) :
    (token.isFaulty labels = false ∧ token.warning? labels = none ∧
      token.word? .strict labels = .ok (token.lenientWord? labels)) ∨
    (token.isDropped = true ∧ token.lenientWord? labels = none ∧
      ∃ mnemonic, token.kind = .opcode mnemonic ∧
        token.warning? labels = some (.instructionDropped mnemonic) ∧
        token.word? .strict labels = .error (.unknownInstruction token.span mnemonic)) ∨
    (token.isDropped = false ∧ token.isUndeclared labels = true ∧
      token.lenientWord? labels = some 0 ∧
      ∃ name, token.kind = .label name ∧ token.warning? labels = some (.labelMissing name) ∧
        token.word? .strict labels = .error (.undeclaredLabel token.span name)) := by
  obtain ⟨kind, span⟩ := token
  cases kind with
  | opcode mnemonic =>
      cases hcode : Opcode.code? mnemonic <;>
        simp [isFaulty, isDropped, isUndeclared, warning?, lenientWord?, word?, contribution, hcode]
  | label name =>
      have hnone := isNone_addressOf? labels name
      cases haddress : Label.addressOf? labels name <;> rw [haddress] at hnone <;>
        simp [isFaulty, isDropped, isUndeclared, warning?, lenientWord?, word?, contribution,
          haddress, ← hnone]
  | _ =>
      simp [isFaulty, isDropped, isUndeclared, warning?, lenientWord?, word?, contribution]

theorem warning?_eq (labels : List Label) (token : Token) :
    token.warning? labels = if token.isFaulty labels then token.mendingNotice? else none := by
  rcases isFaulty_cases labels token with ⟨hsound, hwarning, _⟩ |
    ⟨hdropped, _, mnemonic, hkind, hwarning, _⟩ |
    ⟨_, hundeclared, _, name, hkind, hwarning, _⟩
  · simp [hsound, hwarning]
  · simp [isFaulty, hdropped, hwarning, mendingNotice?, hkind]
  · simp [isFaulty, hundeclared, hwarning, mendingNotice?, hkind]

theorem isFaulty_eq_false_of_word? {word? : Option UInt16}
    (h : token.word? .strict labels = .ok word?) :
    token.isFaulty labels = false ∧ token.lenientWord? labels = word? := by
  rcases isFaulty_cases labels token with ⟨hsound, _, hword⟩ | ⟨_, _, _, _, _, hword⟩ |
    ⟨_, _, _, _, _, _, hword⟩ <;> rw [h] at hword <;> cases hword
  exact ⟨hsound, rfl⟩

theorem code_of_word? {fault : SourceFault} (h : token.word? .strict labels = .error fault) :
    fault.code = "gen::unknown_mnemonic" ∨ fault.code = "gen::unresolved_label" := by
  rcases isFaulty_cases labels token with ⟨_, _, hword⟩ | ⟨_, _, _, _, _, hword⟩ |
    ⟨_, _, _, _, _, _, hword⟩ <;> rw [h] at hword <;> cases hword
  · exact .inl rfl
  · exact .inr rfl

theorem mapM_word?_mended (labels : List Label) (token : Token) :
    ∃ words, (token.mended? labels).toList.mapM (word? .strict labels) = .ok words ∧
      words.filterMap id = (token.lenientWord? labels).toList := by
  rcases isFaulty_cases labels token with ⟨hsound, _, hword⟩ | ⟨hdropped, hnone, _⟩ |
    ⟨hkept, hundeclared, hzero, _⟩
  · obtain ⟨hkept, hdeclared⟩ := Bool.or_eq_false_iff.mp hsound
    have hself : token.mended? labels = some token := by simp [mended?, hkept, hdeclared]
    refine ⟨[token.lenientWord? labels], ?_, ?_⟩
    · rw [hself, Option.toList_some, FirstFault.mapM_cons, hword]
      rfl
    · cases token.lenientWord? labels <;> rfl
  · have hdeleted : token.mended? labels = none := by simp [mended?, hdropped]
    rw [hdeleted, hnone]
    exact ⟨[], rfl, rfl⟩
  · have hliteral : token.mended? labels = some { token with kind := .decimal 0 } := by
      simp [mended?, hkept, hundeclared]
    rw [hliteral, hzero]
    exact ⟨[some 0], rfl, rfl⟩

end Token

namespace Emission

variable {labels : List Label} {tokens : List Token}

theorem ofTokens_mend (labels : List Label) (tokens : List Token) :
    ofTokens .strict labels (Token.mend labels tokens) = .ok ⟨lenientWords labels tokens, []⟩ := by
  have hwords : ∃ words, (Token.mend labels tokens).mapM (Token.word? .strict labels) = .ok words ∧
      words.filterMap id = lenientWords labels tokens := by
    induction tokens with
    | nil => exact ⟨[], rfl, rfl⟩
    | cons token tokens ih =>
        obtain ⟨first, hfirst, hfirstWords⟩ := Token.mapM_word?_mended labels token
        obtain ⟨rest, hrest, hrestWords⟩ := ih
        have hmend : Token.mend labels (token :: tokens) =
            (token.mended? labels).toList ++ Token.mend labels tokens := by
          cases htoken : token.mended? labels <;> simp [Token.mend, htoken]
        have hlenient : lenientWords labels (token :: tokens) =
            (token.lenientWord? labels).toList ++ lenientWords labels tokens := by
          cases htoken : token.lenientWord? labels <;> simp [lenientWords, htoken]
        refine ⟨first ++ rest, ?_, ?_⟩
        · rw [hmend, FirstFault.mapM_append, hfirst, hrest]
          rfl
        · rw [hlenient, List.filterMap_append, hfirstWords, hrestWords]
  obtain ⟨words, hwords, hvalues⟩ := hwords
  exact FirstFault.map_eq_ok_iff.mpr ⟨words, hwords, by rw [hvalues]; rfl⟩

theorem warnings_lenient (labels : List Label) (tokens : List Token) :
    warnings .lenient labels tokens =
      (tokens.filter (Token.isFaulty labels)).filterMap Token.mendingNotice? := by
  rw [List.filterMap_filter]
  exact congrArg (List.filterMap · tokens) (funext (Token.warning?_eq labels))

theorem length_warnings_lenient (labels : List Label) (tokens : List Token) :
    (warnings .lenient labels tokens).length =
      tokens.countP Token.isDropped + tokens.countP (Token.isUndeclared labels) := by
  unfold warnings
  induction tokens with
  | nil => rfl
  | cons token tokens ih =>
      rw [List.filterMap_cons, List.countP_cons, List.countP_cons]
      rcases Token.isFaulty_cases labels token with ⟨hsound, hwarning, _⟩ |
        ⟨hdropped, _, _, hkind, hwarning, _⟩ | ⟨hkept, hundeclared, _, _, _, hwarning, _⟩
      · obtain ⟨hkept, hdeclared⟩ := Bool.or_eq_false_iff.mp hsound
        simp [hwarning, hkept, hdeclared, ih]
      · have hdeclared : token.isUndeclared labels = false := by
          simp [Token.isUndeclared, hkind]
        simp [hwarning, hdropped, hdeclared, ih]
        omega
      · simp [hwarning, hkept, hundeclared, ih]
        omega

theorem forall_isFaulty_eq_false_of_strict {emission : Emission}
    (h : ofTokens .strict labels tokens = .ok emission) :
    ∀ token ∈ tokens, token.isFaulty labels = false := by
  intro token htoken
  obtain ⟨words, hwords, _⟩ := FirstFault.map_eq_ok_iff.mp h
  obtain ⟨word?, hword⟩ := FirstFault.exists_mapM_eq_ok_iff.mp ⟨words, hwords⟩ token htoken
  exact (Token.isFaulty_eq_false_of_word? hword).1

theorem ofTokens_lenient_of_strict {emission : Emission}
    (h : ofTokens .strict labels tokens = .ok emission) :
    ofTokens .lenient labels tokens = .ok emission := by
  have hsilent : warnings .lenient labels tokens = [] := by
    rw [warnings_lenient, List.filter_eq_nil_iff.mpr, List.filterMap_nil]
    intro token htoken
    simp [forall_isFaulty_eq_false_of_strict h token htoken]
  obtain ⟨words, hwords, rfl⟩ := FirstFault.map_eq_ok_iff.mp h
  have hlenient : tokens.mapM (Token.word? .lenient labels) = .ok words := by
    refine FirstFault.mapM_eq_ok_iff.mpr ((FirstFault.mapM_eq_ok_iff.mp hwords).imp ?_)
    intro token word? hword
    rw [Token.word?_lenient, (Token.isFaulty_eq_false_of_word? hword).2]
  rw [ofTokens, hlenient, hsilent]
  rfl

theorem code_of_ofTokens {fault : SourceFault}
    (h : ofTokens .strict labels tokens = .error fault) :
    fault.code = "gen::unknown_mnemonic" ∨ fault.code = "gen::unresolved_label" := by
  obtain ⟨_, token, _, _, _, hfault⟩ :=
    FirstFault.mapM_eq_error_iff.mp (FirstFault.map_eq_error_iff.mp h)
  exact Token.code_of_word? hfault

end Emission

end FoxMachine
