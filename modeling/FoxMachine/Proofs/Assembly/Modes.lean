import FoxMachine.Proofs.Assembly.Words
import FoxMachine.Proofs.Emission.Lenient
import FoxMachine.Proofs.Token.Source

namespace FoxMachine

namespace Notice

def isMending : Notice → Bool
  | .instructionDropped _ | .labelMissing _ => true
  | _ => false

end Notice

namespace Token

theorem isMending_of_mendingNotice? {token : Token} {notice : Notice}
    (h : token.mendingNotice? = some notice) : notice.isMending = true := by
  unfold mendingNotice? at h
  split at h <;> cases h <;> rfl

end Token

namespace Assembly

variable {source : String} {assembly : Assembly} {fault : SourceFault}

theorem code_of_tokenStream {lines : List Line} (h : tokenStream lines = .error fault) :
    fault.code = "lex::unknown" ∨ fault.code = "lex::bad_lit" := by
  obtain ⟨_, place, _, _, _, hfault⟩ :=
    FirstFault.mapM_eq_error_iff.mp (tokenStream_eq_error_iff.mp h)
  rw [(Place.fault_of_read hfault).2]
  split
  · exact .inr rfl
  · exact .inl rfl

theorem not_lexical_of_general {code : String}
    (h : code = "gen::unknown_mnemonic" ∨ code = "gen::unresolved_label") :
    ¬ (code = "lex::unknown" ∨ code = "lex::bad_lit") := by
  rcases h with rfl | rfl <;> decide

theorem filter_isMending_notices (mode : Mode) (labels : List Label) (tokens : List Token) :
    (generate mode labels tokens).notices.filter Notice.isMending =
      match Emission.ofTokens mode (Label.resolve tokens labels) tokens with
      | .error _ => []
      | .ok emission => emission.notices.filter Notice.isMending := by
  have hresolve : (Label.resolveNotices tokens labels).filter Notice.isMending = [] := by
    rw [List.filter_eq_nil_iff]
    intro notice hnotice
    rcases List.mem_append.mp hnotice with hskipped | hresolved
    · obtain ⟨name, _, rfl⟩ := List.mem_map.mp hskipped
      simp [Notice.isMending]
    · obtain ⟨label, _, rfl⟩ := List.mem_map.mp hresolved
      simp [Notice.isMending]
  unfold generate
  dsimp only
  cases Emission.ofTokens mode (Label.resolve tokens labels) tokens with
  | error fault => exact hresolve
  | ok emission => rw [List.filter_append, hresolve, List.nil_append]

theorem assemble_of_tokenStream {mode : Mode} {tokens : List Token}
    (htokens : tokenStream (Outline.ofSource source).lines = .ok tokens) :
    assemble mode source =
      let attempt := generate mode (Outline.ofSource source).labels tokens
      ⟨(Outline.ofSource source).labels.map Notice.labelFound ++
        tokens.map (Notice.tokenRead ·.kind) ++ attempt.notices, attempt.result⟩ := by
  unfold assemble
  simp only [htokens]

theorem filter_isMending_assemble {mode : Mode} {tokens : List Token}
    (htokens : tokenStream (Outline.ofSource source).lines = .ok tokens) :
    (assemble mode source).notices.filter Notice.isMending =
      (generate mode (Outline.ofSource source).labels tokens).notices.filter
        Notice.isMending := by
  have hfound : ((Outline.ofSource source).labels.map Notice.labelFound).filter
      Notice.isMending = [] := by simp [Notice.isMending]
  have hread : (tokens.map (Notice.tokenRead ·.kind)).filter Notice.isMending = [] := by
    simp [Notice.isMending]
  rw [assemble_of_tokenStream htokens, List.filter_append, List.filter_append, hfound, hread]
  rfl

/-- The assembly of a mended stream. Its labels are resolved against the stream as it was read, and
each token that is mended has been warned of. -/
structure IsMended (source : String) (assembly : Assembly) : Prop where
  tokens_eq : tokenStream (Outline.ofSource source).lines = .ok assembly.tokens
  labels_eq : assembly.labels = Label.resolve assembly.tokens (Outline.ofSource source).labels
  image_eq : ∃ emission,
    Emission.ofTokens .strict assembly.labels (Token.mend assembly.labels assembly.tokens) =
      .ok emission ∧
    assembly.image = emission.image
  warnings_eq : (assemble .lenient source).notices.filter Notice.isMending =
    (assembly.tokens.filter (Token.isFaulty assembly.labels)).filterMap Token.mendingNotice?
  length_warnings : ((assemble .lenient source).notices.filter Notice.isMending).length =
    assembly.tokens.countP Token.isDropped +
      assembly.tokens.countP (Token.isUndeclared assembly.labels)

theorem isMended_of_lenient (h : (assemble .lenient source).result = .ok assembly) :
    IsMended source assembly := by
  obtain ⟨hread, hlabels, emission, hemission, himage⟩ := emission_of_result h
  rw [Emission.ofTokens_lenient] at hemission
  have hwarnings : (assemble .lenient source).notices.filter Notice.isMending =
      Emission.warnings .lenient assembly.labels assembly.tokens := by
    rw [filter_isMending_assemble hread, filter_isMending_notices, ← hlabels,
      Emission.ofTokens_lenient]
    dsimp only
    rw [Emission.warnings_lenient, List.filter_eq_self]
    intro notice hnotice
    obtain ⟨token, _, hnotice⟩ := List.mem_filterMap.mp hnotice
    exact Token.isMending_of_mendingNotice? hnotice
  cases hemission
  refine ⟨hread, hlabels, ⟨_, Emission.ofTokens_mend assembly.labels assembly.tokens, himage⟩, ?_,
    ?_⟩
  · rw [hwarnings, Emission.warnings_lenient]
  · rw [hwarnings, Emission.length_warnings_lenient]

theorem exists_lenient_of_tokenStream {tokens : List Token}
    (htokens : tokenStream (Outline.ofSource source).lines = .ok tokens) :
    ∃ assembly, (assemble .lenient source).result = .ok assembly := by
  rw [result_assemble, htokens]
  dsimp only
  rw [Emission.ofTokens_lenient]
  exact ⟨_, rfl⟩

theorem assemble_lenient_of_strict (h : (assemble .strict source).result = .ok assembly) :
    assemble .lenient source = assemble .strict source := by
  obtain ⟨hread, hlabels, emission, hemission, _⟩ := emission_of_result h
  rw [hlabels] at hemission
  rw [assemble_of_tokenStream hread, assemble_of_tokenStream hread, generate, generate,
    Emission.ofTokens_lenient_of_strict hemission, hemission]

theorem forall_isMending_eq_false_of_strict (h : (assemble .strict source).result = .ok assembly) :
    ∀ notice ∈ (assemble .lenient source).notices, notice.isMending = false := by
  obtain ⟨_, _, emission, hemission, _⟩ := emission_of_result h
  have hsound := Emission.forall_isFaulty_eq_false_of_strict hemission
  have hlenient : (assemble .lenient source).result = .ok assembly := by
    rw [assemble_lenient_of_strict h, h]
  have hnone : assembly.tokens.filter (Token.isFaulty assembly.labels) = [] := by
    rw [List.filter_eq_nil_iff]
    intro token htoken
    simp [hsound token htoken]
  have hwarnings := (isMended_of_lenient hlenient).warnings_eq
  rw [hnone, List.filterMap_nil, List.filter_eq_nil_iff] at hwarnings
  intro notice hnotice
  simpa using hwarnings notice hnotice

theorem lenient_eq_error_iff :
    (assemble .lenient source).result = .error fault ↔
      (assemble .strict source).result = .error fault ∧
        (fault.code = "lex::unknown" ∨ fault.code = "lex::bad_lit") := by
  cases htokens : tokenStream (Outline.ofSource source).lines with
  | error fault' =>
      have hcode := code_of_tokenStream htokens
      rw [result_assemble, result_assemble, htokens]
      constructor
      · intro h
        cases h
        exact ⟨rfl, hcode⟩
      · intro h
        exact h.1
  | ok tokens =>
      constructor
      · intro h
        obtain ⟨assembly, hassembly⟩ := exists_lenient_of_tokenStream htokens
        rw [hassembly] at h
        contradiction
      · -- A fault of strict emission is no fault of reading.
        intro h
        obtain ⟨hfault, hcode⟩ := h
        rw [result_assemble, htokens] at hfault
        have hgeneral := Emission.code_of_ofTokens (FirstFault.map_eq_error_iff.mp hfault)
        exact absurd hcode (not_lexical_of_general hgeneral)

/-- Lenient assembly extends strict assembly. It agrees with it where it succeeds and where a part
cannot be read; what else stops strict assembly is mended. -/
theorem lenient_extends_strict (source : String) :
    (∀ assembly, (assemble .strict source).result = .ok assembly →
      (assemble .lenient source).result = .ok assembly ∧
        (assemble .lenient source).notices = (assemble .strict source).notices ∧
        ∀ notice ∈ (assemble .lenient source).notices, notice.isMending = false) ∧
    (∀ fault, (assemble .lenient source).result = .error fault ↔
      (assemble .strict source).result = .error fault ∧
        (fault.code = "lex::unknown" ∨ fault.code = "lex::bad_lit")) ∧
    ∀ fault, (assemble .strict source).result = .error fault →
      fault.code = "gen::unknown_mnemonic" ∨ fault.code = "gen::unresolved_label" →
      ∃ assembly, (assemble .lenient source).result = .ok assembly ∧ IsMended source assembly := by
  refine ⟨?_, fun fault => lenient_eq_error_iff, ?_⟩
  · intro assembly h
    refine ⟨?_, ?_, forall_isMending_eq_false_of_strict h⟩
    · rw [assemble_lenient_of_strict h, h]
    · rw [assemble_lenient_of_strict h]
  · intro fault hfault hcode
    cases htokens : tokenStream (Outline.ofSource source).lines with
    | ok tokens =>
        obtain ⟨assembly, hassembly⟩ := exists_lenient_of_tokenStream htokens
        exact ⟨assembly, hassembly, isMended_of_lenient hassembly⟩
    | error fault' =>
        rw [result_assemble, htokens] at hfault
        cases hfault
        exact absurd (code_of_tokenStream htokens) (not_lexical_of_general hcode)

/-- A mnemonic that is not known is left out, and zero is written for a label that is not declared;
but the label behind them keeps the address that counts both. -/
theorem lenient_extends_strict_mended :
    (assemble .strict "foo NOP\nJMP nowhere\n:a\nJMP a").result =
        .error (.unknownInstruction ⟨0, 3⟩ "foo") ∧
      ∃ assembly, (assemble .lenient "foo NOP\nJMP nowhere\n:a\nJMP a").result = .ok assembly ∧
        IsMended "foo NOP\nJMP nowhere\n:a\nJMP a" assembly ∧
        assembly.image.words = [0x00, 0x0C, 0, 0x0C, 4, 0x00, 0x0E] := by
  have hfault : (assemble .strict "foo NOP\nJMP nowhere\n:a\nJMP a").result =
      .error (.unknownInstruction ⟨0, 3⟩ "foo") := by
    decide +kernel
  have himage : (assemble .lenient "foo NOP\nJMP nowhere\n:a\nJMP a").result.map
      (·.image.words) = .ok [0x00, 0x0C, 0, 0x0C, 4, 0x00, 0x0E] := by
    decide +kernel
  obtain ⟨assembly, hassembly, hmended⟩ := (lenient_extends_strict _).2.2 _ hfault (.inl rfl)
  rw [hassembly] at himage
  exact ⟨hfault, assembly, hassembly, hmended, Except.ok.inj himage⟩

end Assembly

end FoxMachine
