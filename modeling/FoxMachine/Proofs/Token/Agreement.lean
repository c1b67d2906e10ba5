import FoxMachine.Assembly
import FoxMachine.Proofs.FirstFault
import FoxMachine.Proofs.Layout.Binding
import FoxMachine.Proofs.Token.Reading

namespace FoxMachine

namespace SourceFault

structure SaysSame (first second : SourceFault) : Prop where
  code_eq : first.code = second.code
  message_eq : first.message = second.message

end SourceFault

namespace Token

def SameKind (first second : Token) : Prop :=
  first.kind = second.kind

abbrev SameKinds : List Token → List Token → Prop :=
  List.Forall₂ SameKind

theorem sameKinds_iff_map_kind {first second : List Token} :
    SameKinds first second ↔ first.map kind = second.map kind := by
  rw [← List.forall₂_eq_eq_eq, List.forall₂_map_left_iff, List.forall₂_map_right_iff]
  rfl

theorem agree_literalFault {α : Type} (attempt : Except Literal.Fault α) (span span' : Span) :
    Agree SourceFault.SaysSame Eq (attempt.mapError (literalFault span))
      (attempt.mapError (literalFault span')) := by
  cases attempt with
  | ok value => exact .ok rfl
  | error cause => cases cause <;> exact .error ⟨rfl, rfl⟩

theorem Kind.agree_read (afterJump : Bool) (span span' : Span) (part : List Char) :
    Agree SourceFault.SaysSame Eq (read afterJump span part) (read afterJump span' part) := by
  unfold read
  split
  · exact agree_literalFault _ span span'
  · exact agree_literalFault _ span span'
  · exact .ok rfl
  · split
    · exact .ok rfl
    · exact .error ⟨rfl, rfl⟩
  · exact .error ⟨rfl, rfl⟩

end Token

namespace Place

structure Alike (first second : Place) : Prop where
  text_eq : first.piece.text = second.piece.text
  behindJump_eq : first.behindJump = second.behindJump

theorem Alike.agree_read {first second : Place} (h : first.Alike second) :
    Agree SourceFault.SaysSame Token.SameKind first.read second.read := by
  unfold read
  rw [h.text_eq, h.behindJump_eq]
  exact (Token.Kind.agree_read _ _ _ _).map fun _ _ hkind => hkind

end Place

namespace Line

def SameParts (first second : Line) : Prop :=
  first.parts.map Text.Piece.text = second.parts.map Text.Piece.text

theorem forall₂_alike_placesFrom (behindJump : Bool) {pieces pieces' : List Text.Piece}
    (h : List.Forall₂ (fun piece piece' => piece.text = piece'.text) pieces pieces') :
    List.Forall₂ Place.Alike (placesFrom behindJump pieces) (placesFrom behindJump pieces') := by
  induction h generalizing behindJump with
  | nil => exact .nil
  | cons htext _ ih =>
      rw [placesFrom, placesFrom, htext]
      exact .cons ⟨htext, rfl⟩ (ih _)

theorem SameParts.agree_tokens {first second : Line} (h : first.SameParts second) :
    Agree SourceFault.SaysSame Token.SameKinds first.tokens second.tokens := by
  have hpieces : List.Forall₂ (fun piece piece' => piece.text = piece'.text) first.parts
      second.parts := by
    rwa [SameParts, ← List.forall₂_eq_eq_eq, List.forall₂_map_left_iff,
      List.forall₂_map_right_iff] at h
  have hplaces := (forall₂_alike_placesFrom false hpieces).imp fun _ _ halike => halike.agree_read
  rw [tokens_eq, tokens_eq]
  exact (Agree.mapM hplaces).map fun _ _ hwords => List.rel_append hwords (.cons rfl .nil)

end Line

theorem agree_tokenStream {lines lines' : List Line}
    (h : List.Forall₂ Line.SameParts lines lines') :
    Agree SourceFault.SaysSame Token.SameKinds (tokenStream lines) (tokenStream lines') := by
  have hstreams := Agree.mapM (h.imp fun _ _ hparts => hparts.agree_tokens)
  exact hstreams.map fun _ _ hkinds => List.rel_flatten hkinds

namespace Token

variable {tokens tokens' : List Token}

theorem SameKinds.ofTokens_eq (h : SameKinds tokens tokens') :
    Layout.ofTokens tokens = Layout.ofTokens tokens' := by
  have hfold : ∀ tokens : List Token, Layout.ofTokens tokens =
      (tokens.map kind).foldl (fun layout kind => layout.push ⟨kind, .nowhere⟩) .empty := by
    intro tokens
    rw [List.foldl_map]
    rfl
  rw [hfold, hfold, sameKinds_iff_map_kind.mp h]

theorem SameKinds.resolve_eq (h : SameKinds tokens tokens') (labels : List Label) :
    Label.resolve tokens labels = Label.resolve tokens' labels := by
  rw [Label.resolve_eq, Label.resolve_eq]
  rw [h.ofTokens_eq]

theorem SameKind.agree_word? {token token' : Token} (h : token.SameKind token') (mode : Mode)
    (labels : List Label) :
    Agree SourceFault.SaysSame Eq (token.word? mode labels) (token'.word? mode labels) := by
  have hcontribution : token.contribution labels = token'.contribution labels := by
    unfold contribution
    rw [h]
  unfold word?
  rw [hcontribution]
  cases token'.contribution labels <;> cases mode <;>
    first | exact .ok rfl | exact .error ⟨rfl, rfl⟩

theorem SameKinds.agree_ofTokens (h : SameKinds tokens tokens') (mode : Mode)
    (labels : List Label) :
    Agree SourceFault.SaysSame (fun first second => first.words = second.words)
      (Emission.ofTokens mode labels tokens) (Emission.ofTokens mode labels tokens') := by
  have hwords := Agree.mapM (h.imp fun _ _ hkind => hkind.agree_word? mode labels)
  refine hwords.map fun words words' heq => ?_
  rw [List.forall₂_eq_eq_eq] at heq
  rw [heq]

end Token

end FoxMachine
