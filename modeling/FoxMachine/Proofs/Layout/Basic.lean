import FoxMachine.Binding
import Mathlib.Data.List.Induction

namespace FoxMachine

/-!
Layouts of token streams. The layout of a stream notes the address at which every line starts and
the address at which every inline declaration stands. It tells where a table of labels is bound: an
inline declaration binds the label at its own position in the table, whatever its name, and the
remaining labels take the address of the line at which they become due.
-/

/-- Addresses count the words before a place, modulo 65536. -/
structure Layout where
  address : UInt16
  /-- The start of each line, and the place behind the last terminator. -/
  lineStarts : Array UInt16
  declarations : Array UInt16
deriving DecidableEq, Repr

namespace Layout

def empty : Layout :=
  ⟨0, #[0], #[]⟩

def push (layout : Layout) (token : Token) : Layout :=
  match token.kind with
  | .terminator => { layout with lineStarts := layout.lineStarts.push layout.address }
  | .declaration _ => { layout with declarations := layout.declarations.push layout.address }
  | _ => if token.isWord then { layout with address := layout.address + 1 } else layout

def ofTokens (tokens : List Token) : Layout :=
  tokens.foldl push empty

@[simp] theorem ofTokens_nil : ofTokens [] = empty := rfl

theorem ofTokens_concat (tokens : List Token) (token : Token) :
    ofTokens (tokens ++ [token]) = (ofTokens tokens).push token := by
  simp [ofTokens]

theorem size_declarations_ofTokens (tokens : List Token) :
    (ofTokens tokens).declarations.size = (tokens.filterMap (·.kind.declared?)).length := by
  induction tokens using List.reverseRecOn with
  | nil => rfl
  | append_singleton tokens token ih =>
      rw [ofTokens_concat, List.filterMap_append, List.length_append, ← ih]
      obtain ⟨kind, span⟩ := token
      cases kind <;> simp [push, Token.isWord, Token.Kind.isWord, Token.Kind.declared?]

/-- The address of the label at a position of the table that becomes due at a line. There is none if
the position has no inline declaration and the stream ends before that line. -/
def address? (layout : Layout) (position line : Nat) : Option UInt16 :=
  layout.declarations[position]? <|> layout.lineStarts[line]?

end Layout

namespace Label

/-- The line at which a label becomes due: labels are bound in order, so none is bound before an
earlier one, wherever it is anchored. -/
def dueLine (labels : List Label) (position : Nat) : Nat :=
  ((labels.take (position + 1)).map Label.line).foldr max 0

theorem dueLine_le_iff {labels : List Label} {position line : Nat} :
    dueLine labels position ≤ line ↔ ∀ label ∈ labels.take (position + 1), label.line ≤ line := by
  unfold dueLine
  induction labels.take (position + 1) with
  | nil => simp
  | cons label labels ih =>
      rw [List.map_cons, List.foldr_cons, Nat.max_le, ih, List.forall_mem_cons]

theorem dueLine_lt_iff {labels : List Label} {position line : Nat}
    (hposition : position < labels.length) :
    dueLine labels position < line ↔ ∀ label ∈ labels.take (position + 1), label.line < line := by
  cases line with
  | zero =>
      have hfirst : labels[position] ∈ labels.take (position + 1) :=
        List.mem_take_iff_getElem.mpr ⟨position, by omega, rfl⟩
      constructor
      · intro hlt
        contradiction
      · intro hall
        exact absurd (hall _ hfirst) (Nat.not_lt_zero _)
  | succ line => simp only [Nat.lt_succ_iff, dueLine_le_iff]

theorem dueLine_of_sorted {labels : List Label}
    (hsorted : labels.Pairwise fun first second => first.line ≤ second.line) {position : Nat}
    {label : Label} (hlabel : labels[position]? = some label) :
    dueLine labels position = label.line := by
  have htake : labels.take (position + 1) = labels.take position ++ [label] := by
    rw [List.take_add_one, hlabel, Option.toList_some]
  have hearlier : ∀ earlier ∈ labels.take position, earlier.line ≤ label.line := by
    have hpairwise := hsorted.sublist (List.take_sublist (position + 1) labels)
    rw [htake, List.pairwise_append] at hpairwise
    exact fun earlier hmem => hpairwise.2.2 earlier hmem label (List.mem_singleton_self label)
  apply Nat.le_antisymm
  · rw [dueLine_le_iff, htake]
    simpa [or_imp, forall_and] using hearlier
  · apply dueLine_le_iff.mp (Nat.le_refl _)
    rw [htake]
    simp

end Label

namespace Layout

/-- A table of labels with the addresses that a layout has for them. A label that becomes due behind
the end of the stream keeps the address it had. -/
def bind (layout : Layout) (labels : List Label) : List Label :=
  labels.mapIdx fun position label =>
    { label with
      address := (layout.address? position (Label.dueLine labels position)).getD label.address }

theorem getElem?_bind (layout : Layout) (labels : List Label) (position : Nat) :
    (layout.bind labels)[position]? = labels[position]?.map fun label =>
      { label with
        address :=
          (layout.address? position (Label.dueLine labels position)).getD label.address } :=
  List.getElem?_mapIdx

theorem map_bind {β : Type} {f : Label → β}
    (hf : ∀ (label : Label) (address : UInt16), f { label with address } = f label)
    (layout : Layout) (labels : List Label) : (layout.bind labels).map f = labels.map f := by
  apply List.ext_getElem?
  intro position
  rw [List.getElem?_map, getElem?_bind, Option.map_map, List.getElem?_map]
  exact Option.map_congr fun label _ => hf label _

end Layout

end FoxMachine
