import FoxMachine.Proofs.FirstFault
import FoxMachine.Token

namespace FoxMachine

namespace Token

namespace Kind

/-- The parts that spell a token of a kind, behind a jump or elsewhere. -/
inductive SpelledBy (afterJump : Bool) : Kind → List Char → Prop
  | decimal {value : UInt16} {digits : List Char} (hvalue : Literal.decimal digits = .ok value) :
      SpelledBy afterJump (decimal value) ('%' :: digits)
  | hexadecimal {value : UInt16} {digits : List Char}
      (hvalue : Literal.hexadecimal digits = .ok value) :
      SpelledBy afterJump (hexadecimal value) ('$' :: digits)
  | declaration {name : List Char} (hname : name ≠ []) :
      SpelledBy afterJump (declaration (String.ofList name)) (':' :: name)
  | label {c : Char} {rest : List Char} (hjump : afterJump = true) (hletter : c.isAlpha = true) :
      SpelledBy afterJump (label (String.ofList (c :: rest))) (c :: rest)
  | opcode {c : Char} {rest : List Char} (hjump : afterJump = false) (hletter : c.isAlpha = true) :
      SpelledBy afterJump (opcode (String.ofList (c :: rest))) (c :: rest)

theorem read_of_isAlpha (afterJump : Bool) (span : Span) {c : Char} (rest : List Char)
    (hletter : c.isAlpha = true) :
    read afterJump span (c :: rest) =
      .ok (if afterJump then label (String.ofList (c :: rest))
        else opcode (String.ofList (c :: rest))) := by
  have hpercent : c ≠ '%' := by
    rintro rfl
    contradiction
  have hdollar : c ≠ '$' := by
    rintro rfl
    contradiction
  have hcolon : c ≠ ':' := by
    rintro rfl
    contradiction
  unfold read
  split <;> simp_all

theorem read_eq_ok_iff {afterJump : Bool} {span : Span} {part : List Char} {kind : Kind} :
    read afterJump span part = .ok kind ↔ SpelledBy afterJump kind part := by
  constructor
  · intro h
    unfold read at h
    split at h
    · cases hvalue : Literal.decimal _ <;> rw [hvalue] at h <;> cases h
      exact .decimal hvalue
    · cases hvalue : Literal.hexadecimal _ <;> rw [hvalue] at h <;> cases h
      exact .hexadecimal hvalue
    · cases h
      exact .declaration (List.cons_ne_nil _ _)
    · split at h
      case isTrue hletter =>
        cases h
        cases afterJump
        · exact .opcode rfl hletter
        · exact .label rfl hletter
      case isFalse => contradiction
    · contradiction
  · intro h
    cases h with
    | decimal hvalue => simp [read, hvalue, Except.map, Except.mapError]
    | hexadecimal hvalue => simp [read, hvalue, Except.map, Except.mapError]
    | declaration hname =>
        obtain ⟨c, rest, rfl⟩ := List.exists_cons_of_ne_nil hname
        rfl
    | label hjump hletter => simp [read_of_isAlpha _ _ _ hletter, hjump]
    | opcode hjump hletter => simp [read_of_isAlpha _ _ _ hletter, hjump]

theorem isWord_of_spelledBy {afterJump : Bool} {kind : Kind} {part : List Char}
    (hspelled : SpelledBy afterJump kind part) (hinline : part.head? ≠ some ':') :
    kind.isWord = true := by
  cases hspelled with
  | declaration => simp at hinline
  | _ => rfl

theorem isJump_eq_false_of_not_isAlpha {c : Char} (rest : List Char) (hletter : c.isAlpha = false) :
    Opcode.isJump (String.ofList (c :: rest)) = false := by
  have hne : ∀ mnemonic ∈ ["JPZ", "JNZ", "JMP"], String.ofList (c :: rest) ≠ mnemonic := by
    intro mnemonic hmnemonic heq
    have hhead : mnemonic.toList.head? = some c := by
      rw [← heq, String.toList_ofList]
      rfl
    have hletters : ∀ mnemonic ∈ ["JPZ", "JNZ", "JMP"],
        mnemonic.toList.head?.any Char.isAlpha = true := by decide
    have hmnemonic' := hletters mnemonic hmnemonic
    rw [hhead, Option.any_some, hletter] at hmnemonic'
    contradiction
  simp_all [Opcode.isJump]

theorem isJump_of_spelledBy {afterJump : Bool} {kind : Kind} {part : List Char}
    (hspelled : SpelledBy afterJump kind part) :
    kind.isJump = (!afterJump && Opcode.isJump (String.ofList part)) := by
  cases hspelled with
  | decimal =>
      rw [isJump_eq_false_of_not_isAlpha _ rfl, Bool.and_false]
      rfl
  | hexadecimal =>
      rw [isJump_eq_false_of_not_isAlpha _ rfl, Bool.and_false]
      rfl
  | declaration =>
      rw [isJump_eq_false_of_not_isAlpha _ rfl, Bool.and_false]
      rfl
  | label hjump => simp [isJump, hjump]
  | opcode hjump => simp [isJump, hjump]

end Kind

end Token

structure Place where
  piece : Text.Piece
  /-- Whether a word in this place names a label: the part before it is the mnemonic of a jump. -/
  behindJump : Bool
deriving DecidableEq, Repr

namespace Place

def span (place : Place) : Span :=
  Token.spanOf place.piece

def read (place : Place) : Except SourceFault Token :=
  (Token.Kind.read place.behindJump place.span place.piece.text).map fun kind => ⟨kind, place.span⟩

theorem read_eq_ok_iff {place : Place} {token : Token} :
    place.read = .ok token ↔
      Token.Kind.SpelledBy place.behindJump token.kind place.piece.text ∧
        token.span = place.span := by
  rw [read, FirstFault.map_eq_ok_iff]
  constructor
  · intro h
    obtain ⟨kind, hkind, rfl⟩ := h
    exact ⟨Token.Kind.read_eq_ok_iff.mp hkind, rfl⟩
  · intro h
    obtain ⟨hspelled, hspan⟩ := h
    exact ⟨token.kind, Token.Kind.read_eq_ok_iff.mpr hspelled, by rw [← hspan]⟩

end Place

namespace Line

def placesFrom (behindJump : Bool) : List Text.Piece → List Place
  | [] => []
  | piece :: pieces =>
      ⟨piece, behindJump⟩ ::
        placesFrom (!behindJump && Opcode.isJump (String.ofList piece.text)) pieces

def places (line : Line) : List Place :=
  placesFrom false line.parts

theorem map_piece_placesFrom (behindJump : Bool) (pieces : List Text.Piece) :
    (placesFrom behindJump pieces).map Place.piece = pieces := by
  induction pieces generalizing behindJump with
  | nil => rfl
  | cons piece pieces ih => rw [placesFrom, List.map_cons, ih]

theorem map_piece_places (line : Line) : line.places.map Place.piece = line.parts :=
  map_piece_placesFrom false line.parts

theorem foldlM_readOnto (tokens : List Token) (pieces : List Text.Piece) :
    pieces.foldlM Token.readOnto tokens =
      ((placesFrom (tokens.head?.any (·.kind.isJump)) pieces).mapM Place.read).map
        fun tokens' => tokens'.reverse ++ tokens := by
  induction pieces generalizing tokens with
  | nil => rfl
  | cons piece pieces ih =>
      have hplace : Token.read tokens.head? piece =
          Place.read ⟨piece, tokens.head?.any (·.kind.isJump)⟩ := rfl
      rw [List.foldlM_cons, placesFrom, FirstFault.mapM_cons, Token.readOnto, hplace]
      cases hread : Place.read ⟨piece, tokens.head?.any (·.kind.isJump)⟩ with
      | error fault => rfl
      | ok token =>
          -- Of the tokens read so far the next part sees the last one only, and of that whether it
          -- is a jump, which the text of its part tells.
          have hspelled := (Place.read_eq_ok_iff.mp hread).1
          have hjump := Token.Kind.isJump_of_spelledBy hspelled
          change pieces.foldlM Token.readOnto (token :: tokens) = _
          rw [ih, List.head?_cons, Option.any_some, hjump]
          simp [FirstFault.map_map]

theorem tokens_eq (line : Line) :
    line.tokens = (line.places.mapM Place.read).map (· ++ [Token.terminator]) := by
  rw [tokens, foldlM_readOnto]
  simp [FirstFault.map_map, places]

theorem tokens_eq_ok_iff {line : Line} {stream : List Token} :
    line.tokens = .ok stream ↔
      ∃ words, List.Forall₂ (fun place token => Place.read place = .ok token) line.places words ∧
        stream = words ++ [Token.terminator] := by
  simp only [tokens_eq, FirstFault.map_eq_ok_iff, FirstFault.mapM_eq_ok_iff]

end Line

theorem tokenStream_eq_ok_iff {lines : List Line} {tokens : List Token} :
    tokenStream lines = .ok tokens ↔
      ∃ streams, List.Forall₂ (fun line stream => line.tokens = .ok stream) lines streams ∧
        tokens = streams.flatten := by
  simp only [tokenStream, FirstFault.map_eq_ok_iff, FirstFault.mapM_eq_ok_iff]

theorem tokenStream_append (lines lines' : List Line) :
    tokenStream (lines ++ lines') =
      match tokenStream lines with
      | .error fault => .error fault
      | .ok tokens => (tokenStream lines').map (tokens ++ ·) := by
  unfold tokenStream
  rw [FirstFault.mapM_append]
  cases lines.mapM Line.tokens with
  | error fault => rfl
  | ok streams =>
      cases lines'.mapM Line.tokens with
      | error fault => rfl
      | ok streams' => simp [Except.map]

end FoxMachine
