import FoxMachine.Proofs.Outline.Partition
import FoxMachine.Proofs.Token.Shape
import FoxMachine.Proofs.Token.Source

namespace FoxMachine

namespace Span

/-- The span is that of a part of the source. It starts and ends at characters. -/
def Holds (span : Span) (source part : String) : Prop :=
  ∃ before after, source = before ++ part ++ after ∧ before.utf8ByteSize = span.offset ∧
    part.utf8ByteSize = span.length

def Contains (span : Span) (byte : Nat) : Prop :=
  span.offset ≤ byte ∧ byte < span.stop

theorem holds_of_liesIn {piece : Text.Piece} {source : String} (h : piece.LiesIn 0 source.toList) :
    (Token.spanOf piece).Holds source (String.ofList piece.text) := by
  obtain ⟨before, after, hsource, hoffset⟩ := h
  refine ⟨String.ofList before, String.ofList after, ?_, ?_, Text.utf8ByteSize_ofList _⟩
  · rw [← String.toList_inj, hsource]
    simp
  · rw [Text.utf8ByteSize_ofList, Token.spanOf, hoffset, Nat.zero_add]

end Span

namespace Line

theorem clean?_of_cleaned {number : Nat} {raw : Text.Piece} (h : cleaned raw.text ≠ []) :
    clean? number raw = some ⟨cleaned raw.text,
      raw.offset + Text.byteLength ((code raw.text).takeWhile Text.isBlank), number⟩ := by
  unfold clean?
  dsimp only
  split
  · contradiction
  · rfl

theorem exists_clean?_of_char {raw : Text.Piece} {start rest : List Char} {c : Char}
    (htext : raw.text = start ++ c :: rest) (hblank : Text.isBlank c = false)
    (hcomment : ';' ∉ start ++ [c]) (number : Nat) :
    ∃ line front back, clean? number raw = some line ∧ line.text = front ++ c :: back ∧
      line.offset + Text.byteLength front = raw.offset + Text.byteLength start ∧
      (Text.declares line.text = true → Text.declares (Text.trimStart raw.text) = true) := by
  have hcode : code raw.text = start ++ c :: code rest := by
    rw [htext, List.append_cons, code, Text.takeWhile_ne_append hcomment, ← List.append_cons]
    rfl
  obtain ⟨back, hback⟩ := Text.exists_trim_append_cons hblank start (code rest)
  rw [← hcode] at hback
  have hkept : cleaned raw.text ≠ [] := by
    rw [cleaned, hback]
    simp
  refine ⟨_, Text.trimStart start, back, clean?_of_cleaned hkept, hback, ?_, ?_⟩
  · have hstart := congrArg Text.byteLength
      (List.takeWhile_append_dropWhile (p := Text.isBlank) (l := start))
    rw [Text.byteLength_append] at hstart
    dsimp only
    rw [hcode, Text.takeWhile_isBlank_append_cons hblank, Text.trimStart]
    omega
  · intro hdeclares
    change Text.declares (Text.trim (code raw.text)) = true at hdeclares
    rw [hback] at hdeclares
    rw [htext, Text.trimStart_append_cons hblank]
    unfold Text.declares at hdeclares ⊢
    cases htrim : Text.trimStart start <;> simpa [htrim] using hdeclares

theorem exists_part_of_char {line : Line} {front back : List Char} {c : Char}
    (htext : line.text = front ++ c :: back) (hc : c ≠ ' ') :
    ∃ part ∈ line.parts, (Token.spanOf part).Contains (line.offset + Text.byteLength front) := by
  obtain ⟨before, hfront, hpiece⟩ := Text.exists_piece_of_char line.offset front back hc
  refine ⟨_, List.mem_filter.mpr ⟨htext ▸ hpiece, by simp⟩, ?_⟩
  have hlength := congrArg Text.byteLength hfront
  have hsize := c.utf8Size_pos
  rw [Text.byteLength_append] at hlength
  simp only [Span.Contains, Token.spanOf, Text.Piece.length, Span.stop_mk, Text.byteLength_append,
    Text.byteLength_cons]
  omega

end Line

section Stream

variable {tokens : List Token}

theorem exists_token_of_part {lines : List Line} (htokens : tokenStream lines = .ok tokens)
    {line : Line} (hline : line ∈ lines) {part : Text.Piece} (hpart : part ∈ line.parts) :
    ∃ token ∈ tokens, token.isPart = true ∧ token.span = Token.spanOf part := by
  rw [← Line.map_piece_places] at hpart
  obtain ⟨place, hplace, rfl⟩ := List.mem_map.mp hpart
  have hmem : place ∈ lines.flatMap Line.places := List.mem_flatMap.mpr ⟨line, hline, hplace⟩
  obtain ⟨token, htoken, hread⟩ :=
    Rows.exists_of_mem_right (forall₂_read_of_tokenStream htokens).flip hmem
  obtain ⟨htoken, hispart⟩ := List.mem_filter.mp htoken
  exact ⟨token, htoken, hispart, (Place.read_eq_ok_iff.mp hread).2⟩

variable {source : String}

theorem exists_part_of_token (htokens : tokenStream (Outline.ofSource source).lines = .ok tokens)
    {token : Token} (htoken : token ∈ tokens) (hispart : token.isPart = true) :
    ∃ part, token.span.Holds source part ∧ token.kind.IsWritten part.toList := by
  obtain ⟨place, hplace, hread⟩ := Rows.exists_of_mem_right
    (forall₂_read_of_tokenStream htokens) (List.mem_filter.mpr ⟨htoken, hispart⟩)
  obtain ⟨hspelled, hspan⟩ := Place.read_eq_ok_iff.mp hread
  obtain ⟨hlies, _⟩ := Outline.part_of_mem_places hplace
  refine ⟨String.ofList place.piece.text, ?_, ?_⟩
  · rw [hspan]
    exact Span.holds_of_liesIn hlies
  · rw [String.toList_ofList]
    exact Token.Kind.isWritten_of_spelledBy hspelled

theorem pairwise_spans (htokens : tokenStream (Outline.ofSource source).lines = .ok tokens) :
    ((tokens.filter Token.isPart).map Token.span).Pairwise fun first second =>
      first.stop < second.offset := by
  have hspans : (Outline.ofSource source).places.map Place.span =
      (tokens.filter Token.isPart).map Token.span := by
    rw [← List.forall₂_eq_eq_eq, List.forall₂_map_left_iff, List.forall₂_map_right_iff]
    exact (forall₂_read_of_tokenStream htokens).imp fun place token hread =>
      (Place.read_eq_ok_iff.mp hread).2.symm
  have hplaces := Outline.pairwise_precedes_places source
  rw [List.pairwise_map] at hplaces
  rw [← hspans, List.pairwise_map]
  exact hplaces

theorem exists_span_of_char (htokens : tokenStream (Outline.ofSource source).lines = .ok tokens)
    {before after : List Char} {c : Char} (hsource : source.toList = before ++ c :: after)
    (hblank : Text.isBlank c = false) (hcomment : ';' ∉ Text.backTo '\n' before ++ [c])
    (hcode : Text.declares
      (Text.trimStart (Text.backTo '\n' before ++ c :: Text.upTo '\n' after)) = false) :
    ∃ token ∈ tokens, token.isPart = true ∧ token.span.Contains (Text.byteLength before) := by
  have hnewline : c ≠ '\n' := by
    rintro rfl
    contradiction
  have hspace : c ≠ ' ' := by
    rintro rfl
    contradiction
  obtain ⟨front, hbefore, hpiece⟩ := Text.exists_piece_of_char 0 before after hnewline
  rw [← hsource, ← List.zipIdx_map_fst 1 (Text.pieces '\n' 0 source.toList)] at hpiece
  obtain ⟨⟨raw, number⟩, hraw, hraweq⟩ := List.mem_map.mp hpiece
  have htext : raw.text = Text.backTo '\n' before ++ c :: Text.upTo '\n' after :=
    congrArg Text.Piece.text hraweq
  have hstart : raw.offset = Text.byteLength front := by
    simpa using congrArg Text.Piece.offset hraweq
  obtain ⟨line, start, rest, hclean, hline, hoffset, hdeclares⟩ :=
    Line.exists_clean?_of_char htext hblank hcomment number
  have hiscode : line.isCode = true := by
    rw [Line.isCode_eq, Bool.not_eq_true', Bool.eq_false_iff]
    intro h
    have hdeclared := hdeclares h
    rw [htext, hcode] at hdeclared
    contradiction
  have hmem : line ∈ (Outline.ofSource source).lines :=
    List.mem_filter.mpr ⟨List.mem_filterMap.mpr ⟨(raw, number), hraw, hclean⟩, hiscode⟩
  obtain ⟨part, hpart, hcontains⟩ := Line.exists_part_of_char hline hspace
  obtain ⟨token, htoken, hispart, hspan⟩ := exists_token_of_part htokens hmem hpart
  refine ⟨token, htoken, hispart, ?_⟩
  have hbyte := congrArg Text.byteLength hbefore
  rw [Text.byteLength_append, ← hstart, ← hoffset] at hbyte
  rw [hspan, hbyte]
  exact hcontains

/-- The spans of the tokens of a source hold the parts that the tokens were made from, one behind
the other, and leave out only what is blank, stands behind a semicolon of its line, or belongs to a
line that declares a label. -/
theorem spans_of_tokenStream (htokens : tokenStream (Outline.ofSource source).lines = .ok tokens) :
    (∀ token ∈ tokens, token.isPart = true →
      ∃ part, token.span.Holds source part ∧ token.kind.IsWritten part.toList) ∧
    (((tokens.filter Token.isPart).map Token.span).Pairwise fun first second =>
      first.stop < second.offset) ∧
    ∀ before c after, source.toList = before ++ c :: after →
      (∃ token ∈ tokens, token.isPart = true ∧
        token.span.Contains (String.ofList before).utf8ByteSize) ∨
      Text.isBlank c = true ∨
      ';' ∈ Text.backTo '\n' before ++ [c] ∨
      Text.declares
        (Text.trimStart (Text.backTo '\n' before ++ c :: Text.upTo '\n' after)) = true := by
  refine ⟨fun token => exists_part_of_token htokens, pairwise_spans htokens, ?_⟩
  intro before c after hsource
  rw [Text.utf8ByteSize_ofList]
  by_cases hblank : Text.isBlank c = true
  · exact .inr (.inl hblank)
  by_cases hcomment : ';' ∈ Text.backTo '\n' before ++ [c]
  · exact .inr (.inr (.inl hcomment))
  by_cases hdeclares : Text.declares
      (Text.trimStart (Text.backTo '\n' before ++ c :: Text.upTo '\n' after)) = true
  · exact .inr (.inr (.inr hdeclares))
  · exact .inl (exists_span_of_char htokens hsource (Bool.eq_false_iff.mpr hblank) hcomment
      (Bool.eq_false_iff.mpr hdeclares))

/-- Wide blanks, a comment with a wide character, carriage returns and a declaration between the
tokens. -/
theorem spans_of_tokenStream_indented :
    ∃ jump label literal declaration,
      tokenStream (Outline.ofSource "\u3000JMP  a ; \u00e9\r\n:a\r\n %-1 :b").lines =
        .ok [jump, label, .terminator, literal, declaration, .terminator] ∧
      [jump.span, label.span, literal.span, declaration.span] =
        [⟨3, 3⟩, ⟨8, 1⟩, ⟨21, 3⟩, ⟨25, 2⟩] ∧
      (∃ part, label.span.Holds "\u3000JMP  a ; \u00e9\r\n:a\r\n %-1 :b" part ∧
        label.kind.IsWritten part.toList) ∧
      ([jump, label, literal, declaration].map Token.span).Pairwise fun first second =>
        first.stop < second.offset := by
  have htokens : tokenStream (Outline.ofSource "\u3000JMP  a ; \u00e9\r\n:a\r\n %-1 :b").lines =
      .ok [⟨.opcode "JMP", ⟨3, 3⟩⟩, ⟨.label "a", ⟨8, 1⟩⟩, .terminator,
        ⟨.decimal 0xFFFF, ⟨21, 3⟩⟩, ⟨.declaration "b", ⟨25, 2⟩⟩, .terminator] := by
    decide +kernel
  obtain ⟨hparts, hspans, _⟩ := spans_of_tokenStream htokens
  exact ⟨_, _, _, _, htokens, rfl, hparts _ (by simp) rfl, hspans⟩

end Stream

end FoxMachine
