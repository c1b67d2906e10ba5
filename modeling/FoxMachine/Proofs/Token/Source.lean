import FoxMachine.Proofs.Outline.Labels
import FoxMachine.Proofs.Outline.Lines
import FoxMachine.Proofs.Rows
import FoxMachine.Proofs.Token.Faults

namespace FoxMachine

variable {lines : List Line} {tokens : List Token} {labels : List Label} {fault : SourceFault}

theorem tokenStream_eq_error_iff :
    tokenStream lines = .error fault ↔
      (lines.flatMap Line.places).mapM Place.read = .error fault := by
  rw [tokenStream, FirstFault.map_eq_error_iff]
  induction lines with
  | nil => simp [pure, Except.pure]
  | cons line lines ih =>
      rw [FirstFault.mapM_cons, List.flatMap_cons, FirstFault.mapM_append, line.tokens_eq]
      cases line.places.mapM Place.read with
      | error fault' => simp [Except.map]
      | ok words =>
          simp only [FirstFault.map_eq_error_iff, ← ih]
          exact FirstFault.map_eq_error_iff

namespace Token

def isPart (token : Token) : Bool :=
  token.kind != .terminator

theorem isPart_of_read {place : Place} {token : Token} (hread : place.read = .ok token) :
    token.isPart = true := by
  obtain ⟨hspelled, _⟩ := Place.read_eq_ok_iff.mp hread
  obtain ⟨kind, span⟩ := token
  generalize place.piece.text = text at hspelled
  cases hspelled <;> rfl

end Token

theorem forall₂_read_of_tokenStream (htokens : tokenStream lines = .ok tokens) :
    List.Forall₂ (fun place token => Place.read place = .ok token) (lines.flatMap Line.places)
      (tokens.filter Token.isPart) := by
  obtain ⟨streams, hstreams, rfl⟩ := tokenStream_eq_ok_iff.mp htokens
  clear htokens
  induction hstreams with
  | nil => exact .nil
  | @cons line stream lines streams hline _ ih =>
      obtain ⟨words, hwords, rfl⟩ := Line.tokens_eq_ok_iff.mp hline
      have hparts : ∀ token ∈ words, token.isPart = true := by
        intro token htoken
        obtain ⟨place, _, hread⟩ := Rows.exists_of_mem_right hwords htoken
        exact Token.isPart_of_read hread
      have hfilter : (words ++ [Token.terminator]).filter Token.isPart = words := by
        rw [List.filter_append, List.filter_eq_self.mpr hparts]
        exact List.append_nil words
      rw [List.flatMap_cons, List.flatten_cons, List.filter_append, hfilter]
      exact List.rel_append hwords ih

namespace Outline

def places (outline : Outline) : List Place :=
  outline.lines.flatMap Line.places

variable {source : String}

theorem exists_line_of_mem_places {place : Place} (hplace : place ∈ (ofSource source).places) :
    ∃ line ∈ cleanLines source.toList, place.piece ∈ line.parts := by
  obtain ⟨line, hline, hpart⟩ := List.mem_flatMap.mp hplace
  refine ⟨line, List.mem_of_mem_filter hline, ?_⟩
  rw [← Line.map_piece_places]
  exact List.mem_map_of_mem hpart

theorem part_of_mem_places {place : Place} (hplace : place ∈ (ofSource source).places) :
    place.piece.LiesIn 0 source.toList ∧ place.piece.text ≠ [] ∧ ' ' ∉ place.piece.text := by
  obtain ⟨line, hline, hpart⟩ := exists_line_of_mem_places hplace
  exact ⟨(liesIn_of_mem_cleanLines hline).trans (Line.liesIn_of_mem_parts hpart),
    Line.text_of_mem_parts hpart⟩

theorem pairwise_precedes_places (source : String) :
    ((ofSource source).places.map Place.piece).Pairwise Text.Piece.Precedes := by
  rw [places, List.map_flatMap]
  simp only [Line.map_piece_places]
  rw [List.pairwise_flatMap]
  constructor
  · intro line _
    exact (Text.pairwise_precedes_pieces _ _ _).filter _
  · have hlines := (pairwise_precedes_cleanLines source.toList).filter Line.isCode
    refine hlines.imp ?_
    intro first second hprecedes part hpart part' hpart'
    exact hprecedes.of_liesIn (Line.liesIn_of_mem_parts hpart) (Line.liesIn_of_mem_parts hpart')

end Outline

end FoxMachine
