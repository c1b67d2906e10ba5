import FoxMachine.Proofs.Outline.Contents
import FoxMachine.Proofs.Rows
import Mathlib.Data.List.Chain

namespace FoxMachine

namespace Token

namespace Kind

/-- The part of a line that a token of this kind is made from. -/
def IsWritten (text : List Char) : Kind → Prop
  | decimal word => ∃ digits, text = '%' :: digits ∧ Literal.decimal digits = .ok word
  | hexadecimal word => ∃ digits, text = '$' :: digits ∧ Literal.hexadecimal digits = .ok word
  | opcode mnemonic => text = mnemonic.toList
  | label name => text = name.toList
  | declaration name => text = ':' :: name.toList
  | terminator => False
  | null => False

theorem isWritten_of_spelledBy {behindJump : Bool} {kind : Kind} {text : List Char}
    (hspelled : SpelledBy behindJump kind text) : kind.IsWritten text := by
  cases hspelled with
  | decimal hvalue => exact ⟨_, rfl, hvalue⟩
  | hexadecimal hvalue => exact ⟨_, rfl, hvalue⟩
  | declaration => simp [IsWritten]
  | label => simp [IsWritten]
  | opcode => simp [IsWritten]

/-- Of two tokens in a row the second is a label only behind a jump, and a mnemonic only
elsewhere. -/
structure Admits (previous next : Kind) : Prop where
  isJump_of_label : ∀ {name}, next = label name → previous.isJump = true
  not_isJump_of_opcode : ∀ {mnemonic}, next = opcode mnemonic → previous.isJump = false

theorem admits_of_spelledBy {previous next : Kind} {text : List Char}
    (hspelled : SpelledBy previous.isJump next text) : previous.Admits next := by
  constructor
  · rintro name rfl
    cases hspelled with
    | label hjump => exact hjump
  · rintro mnemonic rfl
    cases hspelled with
    | opcode hjump => exact hjump

theorem admits_terminator (previous : Kind) : previous.Admits terminator :=
  ⟨fun h => Kind.noConfusion h, fun h => Kind.noConfusion h⟩

theorem isJump_eq_true_iff {kind : Kind} :
    kind.isJump = true ↔ ∃ mnemonic ∈ ["JPZ", "JNZ", "JMP"], kind = opcode mnemonic := by
  cases kind <;> simp [isJump, Opcode.isJump, or_assoc]

end Kind

abbrev IsRow (tokens : List Token) : Prop :=
  tokens.IsChain fun previous next => previous.kind.Admits next.kind

theorem isRow_of_read {previous : Token} {pieces : List Text.Piece} {words : List Token}
    (hread : List.Forall₂ (fun place token => Place.read place = .ok token)
      (Line.placesFrom previous.kind.isJump pieces) words) : IsRow (previous :: words) := by
  induction pieces generalizing previous words with
  | nil =>
      cases hread
      exact .singleton previous
  | cons piece pieces ih =>
      rw [Line.placesFrom] at hread
      cases hread with
      | @cons _ token _ words hfirst hrest =>
          obtain ⟨hspelled, _⟩ := Place.read_eq_ok_iff.mp hfirst
          rw [← Kind.isJump_of_spelledBy hspelled] at hrest
          exact .cons_cons (Kind.admits_of_spelledBy hspelled) (ih hrest)

theorem isRow_of_line {line : Line} {stream : List Token} (h : line.tokens = .ok stream) :
    IsRow (terminator :: stream) := by
  obtain ⟨words, hwords, rfl⟩ := Line.tokens_eq_ok_iff.mp h
  have hrow : IsRow (terminator :: words) := isRow_of_read hwords
  rw [← List.cons_append]
  refine hrow.append (.singleton terminator) ?_
  rintro last _ next hnext
  obtain rfl := Option.some.inj hnext
  exact Kind.admits_terminator last.kind

/-- A stream is a row even behind a terminator, with which each of its lines ends. -/
theorem isRow_of_tokenStream {lines : List Line} {tokens : List Token}
    (h : tokenStream lines = .ok tokens) : IsRow (terminator :: tokens) := by
  obtain ⟨streams, hstreams, rfl⟩ := tokenStream_eq_ok_iff.mp h
  clear h
  induction hstreams with
  | nil => exact .singleton terminator
  | @cons line stream lines streams hline _ ih =>
      have hrow := isRow_of_line hline
      obtain ⟨words, _, rfl⟩ := Line.tokens_eq_ok_iff.mp hline
      have hjoined : IsRow (terminator :: words ++ [terminator] ++ streams.flatten) :=
        List.IsChain.append_overlap hrow ih (by simp)
      simpa using hjoined

theorem row_of_line {line : Line} {stream : List Token} (h : line.tokens = .ok stream) :
    ∃ row, stream = row ++ [terminator] ∧
      List.Forall₂ (fun text token => token.kind.IsWritten text) (Text.parts line.text) row := by
  obtain ⟨row, hread, rfl⟩ := Line.tokens_eq_ok_iff.mp h
  refine ⟨row, rfl, ?_⟩
  have htexts : Text.parts line.text = line.places.map (·.piece.text) := by
    rw [Text.parts, ← Line.map_text_parts, ← Line.map_piece_places, List.map_map]
    rfl
  rw [htexts, List.forall₂_map_left_iff]
  exact hread.imp fun place token hplace =>
    Kind.isWritten_of_spelledBy (Place.read_eq_ok_iff.mp hplace).1

theorem rows_of_tokenStream {lines : List Line} {tokens : List Token}
    (h : tokenStream lines = .ok tokens) :
    ∃ rows, tokens = (rows.map (· ++ [terminator])).flatten ∧
      List.Forall₂ (fun line row =>
        List.Forall₂ (fun text token => token.kind.IsWritten text) (Text.parts line.text) row)
        lines rows := by
  obtain ⟨streams, hstreams, rfl⟩ := tokenStream_eq_ok_iff.mp h
  clear h
  induction hstreams with
  | nil => exact ⟨[], rfl, .nil⟩
  | cons hline _ ih =>
      obtain ⟨row, rfl, hrow⟩ := row_of_line hline
      obtain ⟨rows, hrows, hlines⟩ := ih
      exact ⟨row :: rows, by rw [List.flatten_cons, hrows]; rfl, .cons hrow hlines⟩

theorem kind_ne_null_of_tokenStream {lines : List Line} {tokens : List Token}
    (h : tokenStream lines = .ok tokens) : ∀ token ∈ tokens, token.kind ≠ .null := by
  obtain ⟨rows, rfl, hrows⟩ := rows_of_tokenStream h
  intro token htoken hnull
  obtain ⟨stream, hstream, htoken⟩ := List.mem_flatten.mp htoken
  obtain ⟨row, hrow, rfl⟩ := List.mem_map.mp hstream
  obtain ⟨line, _, hline⟩ := Rows.exists_of_mem_right hrows hrow
  rcases List.mem_append.mp htoken with hword | hend
  · obtain ⟨text, _, hwritten⟩ := Rows.exists_of_mem_right hline hword
    rw [hnull] at hwritten
    exact hwritten
  · rw [List.mem_singleton.mp hend] at hnull
    contradiction

section Neighbours

variable {lines : List Line} {tokens before after : List Token}

theorem exists_jump_before_label (h : tokenStream lines = .ok tokens) {label : Token}
    {name : String}
    (htokens : tokens = before ++ label :: after) (hlabel : label.kind = .label name) :
    ∃ earlier jump, before = earlier ++ [jump] ∧
      ∃ mnemonic ∈ ["JPZ", "JNZ", "JMP"], jump.kind = .opcode mnemonic := by
  have hrow := isRow_of_tokenStream h
  subst htokens
  rcases List.eq_nil_or_concat' before with rfl | ⟨earlier, jump, rfl⟩
  · have hadmits : terminator.kind.Admits label.kind := (List.isChain_cons_cons.mp hrow).1
    have hjump := hadmits.isJump_of_label hlabel
    contradiction
  · have hsplit : terminator :: (earlier ++ [jump] ++ label :: after) =
        (terminator :: earlier) ++ jump :: label :: after := by simp
    have hadmits := List.isChain_iff_forall_rel_of_append_cons_cons.mp hrow hsplit
    exact ⟨earlier, jump, rfl, Kind.isJump_eq_true_iff.mp (hadmits.isJump_of_label hlabel)⟩

theorem kind_ne_opcode_behind_jump (h : tokenStream lines = .ok tokens) {jump next : Token}
    (htokens : tokens = before ++ jump :: next :: after)
    (hjump : ∃ mnemonic ∈ ["JPZ", "JNZ", "JMP"], jump.kind = .opcode mnemonic)
    (mnemonic : String) : next.kind ≠ .opcode mnemonic := by
  intro hnext
  have hrow := isRow_of_tokenStream h
  have hsplit : terminator :: tokens = (terminator :: before) ++ jump :: next :: after := by
    rw [htokens, List.cons_append]
  have hadmits := List.isChain_iff_forall_rel_of_append_cons_cons.mp hrow hsplit
  have hnot := hadmits.not_isJump_of_opcode hnext
  rw [Kind.isJump_eq_true_iff.mpr hjump] at hnot
  contradiction

end Neighbours

/-- The shape of a token stream, and how streams are put together. -/
theorem shape_of_tokenStream (lines lines' : List Line) :
    (∀ tokens, tokenStream lines = .ok tokens →
      (∃ rows, tokens = (rows.map (· ++ [terminator])).flatten ∧
        List.Forall₂ (fun line row =>
          List.Forall₂ (fun text token => token.kind.IsWritten text) (Text.parts line.text) row)
          lines rows) ∧
      (∀ token ∈ tokens, token.kind ≠ .null) ∧
      (∀ before label after name, tokens = before ++ label :: after → label.kind = .label name →
        ∃ earlier jump, before = earlier ++ [jump] ∧
          ∃ mnemonic ∈ ["JPZ", "JNZ", "JMP"], jump.kind = .opcode mnemonic) ∧
      (∀ before jump next after, tokens = before ++ jump :: next :: after →
        (∃ mnemonic ∈ ["JPZ", "JNZ", "JMP"], jump.kind = .opcode mnemonic) →
        ∀ mnemonic, next.kind ≠ .opcode mnemonic)) ∧
    tokenStream (lines ++ lines') =
      match tokenStream lines with
      | .error fault => .error fault
      | .ok tokens => (tokenStream lines').map (tokens ++ ·) := by
  refine ⟨fun tokens htokens => ?_, tokenStream_append lines lines'⟩
  refine ⟨rows_of_tokenStream htokens, kind_ne_null_of_tokenStream htokens, ?_, ?_⟩
  · intro before label after name hsplit hlabel
    exact exists_jump_before_label htokens hsplit hlabel
  · intro before jump next after hsplit hjump
    exact kind_ne_opcode_behind_jump htokens hsplit hjump

/-- Behind a jump even the mnemonic of a jump is a label, and behind that a mnemonic stands again;
the next line knows of none of them. -/
theorem shape_of_tokenStream_jumps :
    ∃ jump label opcode next,
      tokenStream [⟨"JMP  JMP JNZ".toList, 0, 1⟩] = .ok [jump, label, opcode, terminator] ∧
      tokenStream [⟨"JPZ".toList, 13, 2⟩] = .ok [next, terminator] ∧
      label.kind = .label "JMP" ∧
      (∃ earlier jump', [jump] = earlier ++ [jump'] ∧
        ∃ mnemonic ∈ ["JPZ", "JNZ", "JMP"], jump'.kind = .opcode mnemonic) ∧
      tokenStream [⟨"JMP  JMP JNZ".toList, 0, 1⟩, ⟨"JPZ".toList, 13, 2⟩] =
        .ok [jump, label, opcode, terminator, next, terminator] := by
  have hfirst : tokenStream [⟨"JMP  JMP JNZ".toList, 0, 1⟩] =
      .ok [⟨.opcode "JMP", ⟨0, 3⟩⟩, ⟨.label "JMP", ⟨5, 3⟩⟩, ⟨.opcode "JNZ", ⟨9, 3⟩⟩,
        terminator] := by
    decide +kernel
  have hsecond : tokenStream [⟨"JPZ".toList, 13, 2⟩] =
      .ok [⟨.opcode "JPZ", ⟨13, 3⟩⟩, terminator] := by
    decide +kernel
  obtain ⟨hshape, happend⟩ :=
    shape_of_tokenStream [⟨"JMP  JMP JNZ".toList, 0, 1⟩] [⟨"JPZ".toList, 13, 2⟩]
  obtain ⟨_, _, hlabel, _⟩ := hshape _ hfirst
  rw [hfirst, hsecond] at happend
  exact ⟨_, _, _, _, hfirst, hsecond, rfl, hlabel [_] _ _ _ rfl rfl, happend⟩

end Token

end FoxMachine
