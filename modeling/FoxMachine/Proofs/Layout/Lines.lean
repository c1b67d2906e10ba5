import FoxMachine.Proofs.Layout.Binding
import Mathlib.Data.List.Induction

namespace FoxMachine

namespace Token

def IsPlainLine (stream : List Token) : Prop :=
  ∃ words, stream = words ++ [terminator] ∧ ∀ token ∈ words, token.isWord = true

end Token

namespace Layout

theorem push_of_isWord (layout : Layout) {token : Token} (h : token.isWord = true) :
    layout.push token = { layout with address := layout.address + 1 } := by
  obtain ⟨kind, span⟩ := token
  cases kind with
  | declaration name => contradiction
  | terminator => contradiction
  | null => contradiction
  | _ => rfl

theorem foldl_push_words (layout : Layout) {words : List Token}
    (h : ∀ token ∈ words, token.isWord = true) :
    words.foldl push layout =
      { layout with address := layout.address + words.length.toUInt16 } := by
  induction words generalizing layout with
  | nil => simp
  | cons token words ih =>
      rw [List.foldl_cons, push_of_isWord layout (h token (by simp)),
        ih _ fun token' htoken' => h token' (by simp [htoken'])]
      simp [Nat.toUInt16, UInt16.ofNat_add, UInt16.add_assoc, UInt16.add_comm 1]

theorem foldl_push_line (layout : Layout) {stream : List Token} (h : Token.IsPlainLine stream) :
    stream.foldl push layout =
      { layout with
        address := layout.address + (stream.countP Token.isWord).toUInt16
        lineStarts :=
          layout.lineStarts.push (layout.address + (stream.countP Token.isWord).toUInt16) } := by
  obtain ⟨words, rfl, hwords⟩ := h
  rw [List.foldl_append, foldl_push_words layout hwords, List.countP_append,
    List.countP_eq_length.mpr hwords]
  rfl

theorem ofTokens_lines {streams : List (List Token)}
    (h : ∀ stream ∈ streams, Token.IsPlainLine stream) :
    ofTokens streams.flatten =
      ⟨(streams.flatten.countP Token.isWord).toUInt16,
        ((List.range (streams.length + 1)).map fun line =>
          ((streams.take line).flatten.countP Token.isWord).toUInt16).toArray, #[]⟩ := by
  induction streams using List.reverseRecOn with
  | nil => rfl
  | append_singleton streams stream ih =>
      -- The pass goes from left to right, so it is the last line that is taken off.
      have hstreams := ih fun stream' hstream' => h stream' (by simp [hstream'])
      have hstream := foldl_push_line (ofTokens streams.flatten) (h stream (by simp))
      have hprefix : ∀ line ∈ List.range (streams.length + 1),
          ((streams.take line).flatten.countP Token.isWord).toUInt16 =
            (((streams ++ [stream]).take line).flatten.countP Token.isWord).toUInt16 := by
        intro line hline
        rw [List.take_append_of_le_length (Nat.lt_succ_iff.mp (List.mem_range.mp hline))]
      have hall : (streams ++ [stream]).take (streams.length + 1) = streams ++ [stream] :=
        List.take_of_length_le (by simp)
      have hcount : ((streams ++ [stream]).flatten.countP Token.isWord).toUInt16 =
          (streams.flatten.countP Token.isWord).toUInt16 +
            (stream.countP Token.isWord).toUInt16 := by
        rw [List.flatten_concat, List.countP_append]
        exact UInt16.ofNat_add _ _
      rw [hcount, List.flatten_concat, ofTokens, List.foldl_append, ← ofTokens, hstream, hstreams,
        List.length_append, List.length_singleton, List.range_succ (n := streams.length + 1),
        List.map_append, List.map_congr_left hprefix, List.map_singleton, hall, hcount]
      simp only [List.push_toArray]

theorem declarations_ofTokens_lines {streams : List (List Token)}
    (h : ∀ stream ∈ streams, Token.IsPlainLine stream) :
    (ofTokens streams.flatten).declarations = #[] := by
  rw [ofTokens_lines h]

theorem lineStarts_ofTokens_lines {streams : List (List Token)}
    (h : ∀ stream ∈ streams, Token.IsPlainLine stream) {line : Nat}
    (hline : line ≤ streams.length) :
    (ofTokens streams.flatten).lineStarts[line]? =
      some ((streams.take line).flatten.countP Token.isWord).toUInt16 := by
  rw [ofTokens_lines h]
  simp [Nat.lt_succ_of_le hline]

end Layout

namespace Label

theorem names_resolve (tokens : List Token) (labels : List Label) :
    (resolve tokens labels).map name = labels.map name := by
  rw [resolve_eq]
  exact Layout.map_bind (fun _ _ => rfl) _ _

theorem resolve_of_sorted (tokens : List Token) {labels : List Label}
    (hsorted : labels.Pairwise fun first second => first.line ≤ second.line) :
    resolve tokens labels = labels.zipIdx.map fun (label, position) =>
      { label with
        address :=
          ((Layout.ofTokens tokens).address? position label.line).getD label.address } := by
  rw [resolve_eq, Layout.bind, List.mapIdx_eq_zipIdx_map]
  apply List.map_congr_left
  rintro ⟨label, position⟩ hlabel
  dsimp only
  rw [dueLine_of_sorted hsorted (List.mem_zipIdx_iff_getElem?.mp hlabel)]

theorem resolve_lines {streams : List (List Token)} {labels : List Label}
    (hplain : ∀ stream ∈ streams, Token.IsPlainLine stream)
    (hsorted : labels.Pairwise fun first second => first.line ≤ second.line)
    (hbound : ∀ label ∈ labels, label.line ≤ streams.length) :
    resolve streams.flatten labels = labels.map fun label =>
      { label with
        address := ((streams.take label.line).flatten.countP Token.isWord).toUInt16 } := by
  have haddress : ∀ label ∈ labels, ∀ position,
      (Layout.ofTokens streams.flatten).address? position label.line =
        some ((streams.take label.line).flatten.countP Token.isWord).toUInt16 := by
    intro label hlabel position
    have hstart := Layout.lineStarts_ofTokens_lines hplain (hbound label hlabel)
    simp [Layout.address?, hstart, Layout.declarations_ofTokens_lines hplain]
  rw [resolve_of_sorted _ hsorted]
  conv_rhs => rw [← List.zipIdx_map_fst 0 labels, List.map_map]
  apply List.map_congr_left
  rintro ⟨label, position⟩ hlabel
  simp [haddress label (List.fst_mem_of_mem_zipIdx hlabel) position]

end Label

end FoxMachine
