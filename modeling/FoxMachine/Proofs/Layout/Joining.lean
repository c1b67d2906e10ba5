import FoxMachine.Proofs.Layout.Lines

namespace FoxMachine

namespace Layout

/-- The layout of a stream that follows another. The line that starts where the other ends is its
own first line. -/
def behind (earlier layout : Layout) : Layout where
  address := earlier.address + layout.address
  lineStarts := earlier.lineStarts.pop ++ layout.lineStarts.map (earlier.address + ·)
  declarations := earlier.declarations ++ layout.declarations.map (earlier.address + ·)

def EndsLine (layout : Layout) : Prop :=
  layout.lineStarts = layout.lineStarts.pop.push layout.address

theorem push_behind (earlier layout : Layout) (token : Token) :
    (earlier.behind layout).push token = earlier.behind (layout.push token) := by
  unfold push
  cases token.kind with
  | terminator => simp [behind]
  | declaration name => simp [behind]
  | _ =>
      dsimp only
      split
      · simp [behind, UInt16.add_assoc]
      · rfl

theorem behind_empty {earlier : Layout} (h : earlier.EndsLine) :
    earlier.behind .empty = earlier := by
  have hstarts : earlier.lineStarts.pop ++ #[0].map (earlier.address + ·) =
      earlier.lineStarts.pop.push earlier.address := by simp
  unfold behind empty
  dsimp only
  rw [hstarts, ← h, Array.map_empty, Array.append_empty, UInt16.add_zero]

theorem ofTokens_append {tokens : List Token} (h : (ofTokens tokens).EndsLine)
    (tokens' : List Token) :
    ofTokens (tokens ++ tokens') = (ofTokens tokens).behind (ofTokens tokens') := by
  induction tokens' using List.reverseRecOn with
  | nil => rw [List.append_nil, ofTokens_nil, behind_empty h]
  | append_singleton tokens' token ih =>
      -- A token that is pushed last goes to the later stream.
      rw [← List.append_assoc, ofTokens_concat, ih, push_behind, ← ofTokens_concat]

theorem address_ofTokens (tokens : List Token) :
    (ofTokens tokens).address = (tokens.countP Token.isWord).toUInt16 := by
  induction tokens using List.reverseRecOn with
  | nil => rfl
  | append_singleton tokens token ih =>
      rw [ofTokens_concat, List.countP_append, List.countP_singleton]
      cases hword : token.isWord with
      | true =>
          rw [push_of_isWord _ hword]
          simp [ih, Nat.toUInt16, UInt16.ofNat_add]
      | false =>
          unfold push
          split <;> simp_all

theorem size_lineStarts_ofTokens (tokens : List Token) :
    (ofTokens tokens).lineStarts.size = tokens.countP (·.kind == .terminator) + 1 := by
  induction tokens using List.reverseRecOn with
  | nil => rfl
  | append_singleton tokens token ih =>
      rw [ofTokens_concat, List.countP_append, List.countP_singleton]
      obtain ⟨kind, span⟩ := token
      cases kind <;> simp [push, ih, Token.Kind.isWord]

theorem endsLine_ofTokens_lines {streams : List (List Token)}
    (h : ∀ stream ∈ streams, Token.IsPlainLine stream) :
    (ofTokens streams.flatten).EndsLine := by
  have hall : streams.take streams.length = streams := List.take_length
  rw [EndsLine, ofTokens_lines h, List.range_succ, List.map_append, List.map_singleton, hall]
  simp

theorem address?_behind {earlier : Layout} {lines : Nat}
    (hlines : earlier.lineStarts.size = lines + 1) (hdeclarations : earlier.declarations = #[])
    (layout : Layout) (position line : Nat) :
    (earlier.behind layout).address? position (line + lines) =
      (layout.address? position line).map (earlier.address + ·) := by
  have hstart : (earlier.behind layout).lineStarts[line + lines]? =
      layout.lineStarts[line]?.map (earlier.address + ·) := by
    have hpop : earlier.lineStarts.pop.size = lines := by simp [hlines]
    rw [behind, Array.getElem?_append_right (by omega), hpop, Nat.add_sub_cancel,
      Array.getElem?_map]
  have hdeclaration : (earlier.behind layout).declarations[position]? =
      layout.declarations[position]?.map (earlier.address + ·) := by
    rw [behind, hdeclarations, Array.empty_append, Array.getElem?_map]
  unfold address?
  rw [hstart, hdeclaration]
  cases layout.declarations[position]? <;> rfl

theorem isSome_address? {tokens : List Token} {line : Nat}
    (hline : line ≤ tokens.countP (·.kind == .terminator)) (position : Nat) :
    ((ofTokens tokens).address? position line).isSome = true := by
  have hstart : line < (ofTokens tokens).lineStarts.size := by
    rw [size_lineStarts_ofTokens]
    omega
  unfold address?
  rw [Array.getElem?_eq_getElem hstart]
  cases (ofTokens tokens).declarations[position]? <;> rfl

end Layout

namespace Label

def reanchored (lines : Nat) (label : Label) : Label :=
  ⟨label.name, label.line + lines, (label.line + lines).toUInt16⟩

def moved (lines : Nat) (words : UInt16) (label : Label) : Label :=
  { label with line := label.line + lines, address := label.address + words }

variable {labels : List Label}

theorem sorted_reanchored (lines : Nat)
    (hsorted : labels.Pairwise fun first second => first.line ≤ second.line) :
    (labels.map (reanchored lines)).Pairwise fun first second => first.line ≤ second.line := by
  rw [List.pairwise_map]
  exact hsorted.imp fun hline => Nat.add_le_add_right hline lines

theorem resolve_behind {streams : List (List Token)} {tokens : List Token}
    (hplain : ∀ stream ∈ streams, Token.IsPlainLine stream)
    (hsorted : labels.Pairwise fun first second => first.line ≤ second.line)
    (hbound : ∀ label ∈ labels, label.line ≤ tokens.countP (·.kind == .terminator)) :
    resolve (streams.flatten ++ tokens) (labels.map (reanchored streams.length)) =
      (resolve tokens labels).map
        (moved streams.length (streams.flatten.countP Token.isWord).toUInt16) := by
  have hlayout := Layout.ofTokens_append (Layout.endsLine_ofTokens_lines hplain) tokens
  have hsize : (Layout.ofTokens streams.flatten).lineStarts.size = streams.length + 1 := by
    simp [Layout.ofTokens_lines hplain]
  have hdeclarations := Layout.declarations_ofTokens_lines hplain
  rw [resolve_of_sorted _ (sorted_reanchored _ hsorted), resolve_of_sorted _ hsorted, hlayout,
    List.zipIdx_map, List.map_map, List.map_map]
  apply List.map_congr_left
  rintro ⟨label, position⟩ hlabel
  -- The anchor lies in the later stream, so it is found there and not left provisional.
  have hfound := Layout.isSome_address? (hbound label (List.fst_mem_of_mem_zipIdx hlabel)) position
  obtain ⟨address, haddress⟩ := Option.isSome_iff_exists.mp hfound
  have hbehind := Layout.address?_behind hsize hdeclarations (Layout.ofTokens tokens) position
    label.line
  simp [reanchored, moved, hbehind, haddress, Layout.address_ofTokens, UInt16.add_comm]

end Label

end FoxMachine
