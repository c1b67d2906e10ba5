import FoxMachine.Proofs.Layout.Joining
import Mathlib.Data.List.Count

namespace FoxMachine

namespace Token

def declares (token : Token) : Bool :=
  token.kind.declared?.isSome

def endsLine (token : Token) : Bool :=
  token.kind == .terminator

variable (isMark : Token → Bool)

/-- The number of words before the first, second, ... token that passes a test; the rank of the
first is zero. -/
def wordsBefore (tokens : List Token) (rank : Nat) : Nat :=
  (tokens.take (tokens.findIdxNth isMark rank)).countP isWord

def wordsBeforeEach (tokens : List Token) : List Nat :=
  (tokens.findIdxs isMark).map fun place => (tokens.take place).countP isWord

theorem wordsBeforeEach_concat (tokens : List Token) (token : Token) :
    wordsBeforeEach isMark (tokens ++ [token]) =
      wordsBeforeEach isMark tokens ++ if isMark token then [tokens.countP isWord] else [] := by
  have hearlier : ∀ place ∈ tokens.findIdxs isMark,
      ((tokens ++ [token]).take place).countP isWord = (tokens.take place).countP isWord := by
    intro place hplace
    obtain ⟨position, hposition, rfl⟩ := List.getElem_of_mem hplace
    rw [List.take_append_of_le_length (Nat.le_of_lt (List.getElem_findIdxs_lt hposition))]
  rw [wordsBeforeEach, List.findIdxs_append, List.map_append, List.map_congr_left hearlier,
    List.findIdxs_singleton, ← wordsBeforeEach]
  cases isMark token <;> simp

theorem getElem?_wordsBeforeEach (tokens : List Token) (rank : Nat) :
    (wordsBeforeEach isMark tokens)[rank]? =
      if rank < tokens.countP isMark then some (wordsBefore isMark tokens rank) else none := by
  rw [wordsBeforeEach, List.getElem?_map]
  split
  next hrank =>
      have hplace : rank < (tokens.findIdxs isMark).length := by rwa [List.length_findIdxs]
      rw [List.getElem?_eq_getElem hplace, List.getElem_findIdxs_eq_findIdxNth]
      rfl
  next hrank =>
      have hbehind : (tokens.findIdxs isMark).length ≤ rank := by
        rw [List.length_findIdxs]
        exact Nat.le_of_not_lt hrank
      rw [List.getElem?_eq_none hbehind, Option.map_none]

end Token

namespace Layout

theorem ofTokens_eq_counts (tokens : List Token) :
    ofTokens tokens =
      ⟨(tokens.countP Token.isWord).toUInt16,
        (0 :: (Token.wordsBeforeEach Token.endsLine tokens).map Nat.toUInt16).toArray,
        ((Token.wordsBeforeEach Token.declares tokens).map Nat.toUInt16).toArray⟩ := by
  induction tokens using List.reverseRecOn with
  | nil => rfl
  | append_singleton tokens token ih =>
      have haddress := address_ofTokens (tokens ++ [token])
      rw [ofTokens_concat, ih] at haddress ⊢
      rw [Token.wordsBeforeEach_concat, Token.wordsBeforeEach_concat, ← haddress]
      obtain ⟨kind, span⟩ := token
      cases kind <;>
        simp [push, Token.endsLine, Token.declares, Token.Kind.declared?, Token.Kind.isWord]

theorem declarations_getElem?_ofTokens (tokens : List Token) (rank : Nat) :
    (ofTokens tokens).declarations[rank]? =
      if rank < tokens.countP Token.declares then
        some (Token.wordsBefore Token.declares tokens rank).toUInt16
      else none := by
  rw [ofTokens_eq_counts, List.getElem?_toArray, List.getElem?_map,
    Token.getElem?_wordsBeforeEach, apply_ite (Option.map Nat.toUInt16)]
  rfl

theorem lineStarts_getElem?_ofTokens (tokens : List Token) (line : Nat) :
    (ofTokens tokens).lineStarts[line]? =
      if line = 0 then some 0
      else if line ≤ tokens.countP Token.endsLine then
        some (Token.wordsBefore Token.endsLine tokens (line - 1)).toUInt16
      else none := by
  rw [ofTokens_eq_counts, List.getElem?_toArray]
  cases line with
  | zero => rfl
  | succ line =>
      rw [List.getElem?_cons_succ, List.getElem?_map, Token.getElem?_wordsBeforeEach,
        apply_ite (Option.map Nat.toUInt16), if_neg (Nat.succ_ne_zero line), Nat.add_sub_cancel]
      rfl

end Layout

namespace Label

theorem filter_resolveNotices (tokens : List Token) (labels : List Label) :
    (resolveNotices tokens labels).filter (·.condition == .always) =
      ((tokens.filterMap (·.kind.declared?)).drop labels.length).map .declarationSkipped := by
  have hskipped : ((skippedDeclarations tokens labels).map Notice.declarationSkipped).filter
      (·.condition == .always) = (skippedDeclarations tokens labels).map .declarationSkipped := by
    rw [List.filter_eq_self, List.forall_mem_map]
    exact fun _ _ => rfl
  have hresolved : ((resolve tokens labels).map Notice.labelResolved).filter
      (·.condition == .always) = [] := by
    rw [List.filter_eq_nil_iff, List.forall_mem_map]
    exact fun _ _ => Bool.false_ne_true
  rw [resolveNotices, List.filter_append, hskipped, hresolved, List.append_nil,
    skippedDeclarations_eq]

/-- What resolving does to any table. An inline declaration gives the label at its own rank the
number of words before it. Another label is given the number of words before the line at which it
becomes due, if that line starts. Nothing else of a label changes, and what is said in any case is
that the inline declarations for which the table is too short are skipped. -/
theorem resolve_counted (tokens : List Token) (labels : List Label) :
    resolve tokens labels =
      (labels.mapIdx fun position label =>
        { label with
          address :=
            if position < tokens.countP Token.declares then
              (Token.wordsBefore Token.declares tokens position).toUInt16
            else if dueLine labels position = 0 then 0
            else if dueLine labels position ≤ tokens.countP Token.endsLine then
              (Token.wordsBefore Token.endsLine tokens (dueLine labels position - 1)).toUInt16
            else label.address }) ∧
    (resolveNotices tokens labels).filter (·.condition == .always) =
      ((tokens.filterMap (·.kind.declared?)).drop labels.length).map .declarationSkipped ∧
    (resolveNotices tokens labels).countP (·.condition == .always) =
      tokens.countP Token.declares - labels.length := by
  refine ⟨?_, filter_resolveNotices tokens labels, ?_⟩
  · apply List.ext_getElem?
    intro position
    rw [resolve_eq, Layout.getElem?_bind, List.getElem?_mapIdx]
    refine Option.map_congr fun label _ => ?_
    rw [Layout.address?, Layout.declarations_getElem?_ofTokens, Layout.lineStarts_getElem?_ofTokens]
    split
    · rfl
    · split
      · rfl
      · split <;> rfl
  · rw [List.countP_eq_length_filter, filter_resolveNotices, List.length_map, List.length_drop,
      List.length_filterMap_eq_countP]
    rfl

/-- An inline declaration binds the first label, which is anchored behind the end; the second is
held up by the first, and keeps its address. -/
example :
    resolve [⟨.decimal 7, .nowhere⟩, ⟨.declaration "late", .nowhere⟩, .terminator,
        ⟨.decimal 8, .nowhere⟩] [⟨"first", 9, 3⟩, ⟨"second", 1, 5⟩] =
      [⟨"first", 9, 1⟩, ⟨"second", 1, 5⟩] := by
  decide

end Label

end FoxMachine
