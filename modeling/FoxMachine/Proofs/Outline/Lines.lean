import FoxMachine.Outline
import FoxMachine.Proofs.Text.Pieces
import FoxMachine.Token

namespace FoxMachine

namespace Text

theorem exists_trimEnd_append (text : List Char) : ∃ after, text = trimEnd text ++ after := by
  refine ⟨(text.reverse.takeWhile isBlank).reverse, ?_⟩
  rw [trimEnd, ← List.reverse_append, List.takeWhile_append_dropWhile, List.reverse_reverse]

theorem exists_trim_append (text : List Char) :
    ∃ after, text = text.takeWhile isBlank ++ trim text ++ after := by
  obtain ⟨after, hafter⟩ := exists_trimEnd_append (trimStart text)
  refine ⟨after, ?_⟩
  rw [List.append_assoc, trim, ← hafter, trimStart, List.takeWhile_append_dropWhile]

theorem isBlank_eq_false_of_trim_eq_cons {text rest : List Char} {c : Char}
    (h : trim text = c :: rest) : isBlank c = false := by
  obtain ⟨after, hafter⟩ := exists_trimEnd_append (trimStart text)
  rw [← trim, h, trimStart, List.cons_append] at hafter
  have hhead := List.head?_dropWhile_not isBlank text
  rw [hafter] at hhead
  simpa using hhead

namespace Piece

variable {inner first second first' second' : Piece} {start : Nat} {text : List Char}

theorem LiesIn.start_le (hlies : inner.LiesIn start text) : start ≤ inner.offset := by
  obtain ⟨before, after, _, hoffset⟩ := hlies
  omega

theorem LiesIn.stop_le (hlies : inner.LiesIn start text) :
    inner.offset + inner.length ≤ start + byteLength text := by
  obtain ⟨before, after, rfl, hoffset⟩ := hlies
  rw [hoffset, byteLength_append, byteLength_append]
  change _ + byteLength inner.text ≤ _
  omega

theorem LiesIn.trans {outer : Piece} (houter : outer.LiesIn start text)
    (hinner : inner.LiesIn outer.offset outer.text) : inner.LiesIn start text := by
  obtain ⟨before, after, rfl, hoffset⟩ := houter
  rw [hoffset] at hinner
  exact hinner.append after

theorem Precedes.of_liesIn (hprecedes : first.Precedes second)
    (hfirst : first'.LiesIn first.offset first.text)
    (hsecond : second'.LiesIn second.offset second.text) : first'.Precedes second' :=
  Nat.lt_of_le_of_lt hfirst.stop_le (Nat.lt_of_lt_of_le hprecedes hsecond.start_le)

end Piece

end Text

namespace Line

def piece (line : Line) : Text.Piece :=
  ⟨line.offset, line.text⟩

theorem clean?_eq_some {number : Nat} {raw : Text.Piece} {line : Line}
    (h : clean? number raw = some line) :
    line.text ≠ [] ∧ line.text = Text.trim (code raw.text) ∧ line.number = number ∧
      line.offset = raw.offset + Text.byteLength ((code raw.text).takeWhile Text.isBlank) := by
  unfold clean? at h
  dsimp only at h
  split at h
  · contradiction
  · rename_i text hne
    cases h
    exact ⟨hne, rfl, rfl, rfl⟩

theorem liesIn_of_clean? {number : Nat} {raw : Text.Piece} {line : Line}
    (h : clean? number raw = some line) : line.piece.LiesIn raw.offset raw.text := by
  obtain ⟨_, htext, _, hoffset⟩ := clean?_eq_some h
  obtain ⟨after, hafter⟩ := Text.exists_trim_append (code raw.text)
  refine ⟨(code raw.text).takeWhile Text.isBlank, after ++ raw.text.dropWhile (· != ';'), ?_,
    hoffset⟩
  change raw.text = _ ++ line.text ++ _
  rw [htext, ← List.append_assoc, ← hafter, code, List.takeWhile_append_dropWhile]

theorem liesIn_of_mem_parts {line : Line} {part : Text.Piece} (hpart : part ∈ line.parts) :
    part.LiesIn line.offset line.text :=
  Text.liesIn_of_mem_pieces (List.mem_filter.mp hpart).1

theorem text_of_mem_parts {line : Line} {part : Text.Piece} (hpart : part ∈ line.parts) :
    part.text ≠ [] ∧ ' ' ∉ part.text := by
  obtain ⟨hpiece, hne⟩ := List.mem_filter.mp hpart
  exact ⟨by simpa using hne, Text.separator_not_mem_of_mem_pieces hpiece⟩

theorem parts_ne_nil {number : Nat} {raw : Text.Piece} {line : Line}
    (h : clean? number raw = some line) : line.parts ≠ [] := by
  obtain ⟨hne, htext, _, _⟩ := clean?_eq_some h
  obtain ⟨c, rest, hcons⟩ := List.exists_cons_of_ne_nil hne
  have hblank := Text.isBlank_eq_false_of_trim_eq_cons (htext.symm.trans hcons)
  have hspace : c ≠ ' ' := by
    rintro rfl
    contradiction
  obtain ⟨part, hpart, hc⟩ :=
    Text.exists_piece_of_mem line.offset (hcons ▸ List.mem_cons_self : c ∈ line.text) hspace
  refine List.ne_nil_of_mem (List.mem_filter.mpr ⟨hpart, ?_⟩)
  simpa using List.ne_nil_of_mem hc

end Line

theorem exists_clean?_of_mem_cleanLines {source : List Char} {line : Line}
    (hline : line ∈ cleanLines source) :
    ∃ raw ∈ Text.pieces '\n' 0 source, ∃ number, Line.clean? number raw = some line := by
  obtain ⟨⟨raw, number⟩, hraw, hclean⟩ := List.mem_filterMap.mp hline
  exact ⟨raw, List.fst_mem_of_mem_zipIdx hraw, number, hclean⟩

theorem liesIn_of_mem_cleanLines {source : List Char} {line : Line}
    (hline : line ∈ cleanLines source) : line.piece.LiesIn 0 source := by
  obtain ⟨raw, hraw, number, hclean⟩ := exists_clean?_of_mem_cleanLines hline
  exact (Text.liesIn_of_mem_pieces hraw).trans (Line.liesIn_of_clean? hclean)

theorem parts_ne_nil_of_mem_cleanLines {source : List Char} {line : Line}
    (hline : line ∈ cleanLines source) : line.parts ≠ [] := by
  obtain ⟨raw, _, number, hclean⟩ := exists_clean?_of_mem_cleanLines hline
  exact Line.parts_ne_nil hclean

theorem pairwise_precedes_cleanLines (source : List Char) :
    (cleanLines source).Pairwise fun first second => first.piece.Precedes second.piece := by
  rw [cleanLines, List.pairwise_filterMap]
  have hpieces := Text.pairwise_precedes_pieces '\n' 0 source
  rw [← List.zipIdx_map_fst 1 (Text.pieces '\n' 0 source), List.pairwise_map] at hpieces
  refine hpieces.imp ?_
  intro first second hprecedes line hline line' hline'
  exact hprecedes.of_liesIn (Line.liesIn_of_clean? hline) (Line.liesIn_of_clean? hline')

end FoxMachine
