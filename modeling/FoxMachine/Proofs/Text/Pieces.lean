import FoxMachine.Text.Basic
import Mathlib.Data.List.DropRight

namespace FoxMachine

namespace Text

theorem utf8ByteSize_ofList (text : List Char) :
    (String.ofList text).utf8ByteSize = byteLength text := by
  induction text with
  | nil => rfl
  | cons c text ih =>
      rw [← List.singleton_append, String.ofList_append, String.utf8ByteSize_append, ih,
        ← String.singleton_eq_ofList, String.utf8ByteSize_singleton, byteLength_append]
      rfl

/-- The piece stands, at its offset, in a text that starts at byte `start`. -/
def Piece.LiesIn (piece : Piece) (start : Nat) (text : List Char) : Prop :=
  ∃ before after, text = before ++ piece.text ++ after ∧ piece.offset = start + byteLength before

def Piece.Precedes (first second : Piece) : Prop :=
  first.offset + first.length < second.offset

theorem Piece.LiesIn.append {piece : Piece} {start : Nat} {text : List Char}
    (hlies : piece.LiesIn (start + byteLength front) text) (back : List Char) :
    piece.LiesIn start (front ++ text ++ back) := by
  obtain ⟨before, after, rfl, hoffset⟩ := hlies
  refine ⟨front ++ before, after ++ back, by simp, ?_⟩
  rw [hoffset, byteLength_append, Nat.add_assoc]

theorem map_text_pieces (separator : Char) (start : Nat) (text : List Char) :
    (pieces separator start text).map Piece.text = text.splitOn separator := by
  have hlength : (text.splitOn separator).length ≤ ((text.splitOn separator).scanl
      (fun offset part => offset + byteLength part + separator.utf8Size) start).length := by
    simp
  have htexts := List.map_snd_zip hlength
  rw [List.zip, List.map_zipWith] at htexts
  rw [pieces, List.map_zipWith]
  exact htexts

/-- Any text is one piece, or a piece and a separator before a shorter text. -/
theorem pieces_induction (separator : Char) {motive : Nat → List Char → Prop}
    (last : ∀ start part, separator ∉ part → motive start part)
    (cut : ∀ start part rest, separator ∉ part →
      motive (start + byteLength part + separator.utf8Size) rest →
      motive start (part ++ separator :: rest))
    (start : Nat) (text : List Char) : motive start text := by
  by_cases hmem : separator ∈ text
  · obtain ⟨part, rest, htext, hpart⟩ := List.eq_append_cons_of_mem hmem
    have hshorter : rest.length < text.length := by
      rw [htext, List.length_append, List.length_cons]
      omega
    rw [htext]
    exact cut start part rest hpart (pieces_induction separator last cut _ rest)
  · exact last start text hmem
termination_by text.length

theorem exists_before_of_mem_zipIdx_pieces {separator : Char} {start index number : Nat}
    {text : List Char} {piece : Piece}
    (h : (piece, number) ∈ (pieces separator start text).zipIdx index) :
    ∃ before after, text = before ++ piece.text ++ after ∧
      piece.offset = start + byteLength before ∧ number = index + before.count separator := by
  induction start, text using pieces_induction separator generalizing index with
  | last start part hpart =>
      rw [pieces_of_not_mem start hpart, List.zipIdx_singleton, List.mem_singleton] at h
      cases h
      exact ⟨[], [], by simp, rfl, rfl⟩
  | cut start part rest hpart ih =>
      rw [pieces_append_cons start rest hpart, List.zipIdx_cons, List.mem_cons] at h
      rcases h with hfirst | hrest
      · cases hfirst
        exact ⟨[], separator :: rest, rfl, rfl, rfl⟩
      · obtain ⟨before, after, rfl, hoffset, hnumber⟩ := ih hrest
        refine ⟨part ++ separator :: before, after, by simp, ?_, ?_⟩
        · rw [hoffset, byteLength_append, byteLength_cons]
          omega
        · rw [hnumber, List.count_append, List.count_eq_zero_of_not_mem hpart, List.count_cons_self]
          omega

theorem liesIn_of_mem_pieces {separator : Char} {start : Nat} {text : List Char} {piece : Piece}
    (hpiece : piece ∈ pieces separator start text) : piece.LiesIn start text := by
  rw [← List.zipIdx_map_fst 0 (pieces separator start text)] at hpiece
  obtain ⟨⟨piece, number⟩, hnumbered, rfl⟩ := List.mem_map.mp hpiece
  obtain ⟨before, after, htext, hoffset, _⟩ := exists_before_of_mem_zipIdx_pieces hnumbered
  exact ⟨before, after, htext, hoffset⟩

theorem separator_not_mem_of_mem_pieces {separator : Char} {start : Nat} {text : List Char}
    {piece : Piece} (hpiece : piece ∈ pieces separator start text) : separator ∉ piece.text := by
  induction start, text using pieces_induction separator with
  | last start part hpart =>
      rw [pieces_of_not_mem start hpart, List.mem_singleton] at hpiece
      rwa [hpiece]
  | cut start part rest hpart ih =>
      rw [pieces_append_cons start rest hpart, List.mem_cons] at hpiece
      rcases hpiece with rfl | hpiece
      · exact hpart
      · exact ih hpiece

theorem le_offset_of_mem_pieces {separator : Char} {start : Nat} {text : List Char}
    {piece : Piece} (hpiece : piece ∈ pieces separator start text) : start ≤ piece.offset := by
  obtain ⟨before, after, _, hoffset⟩ := liesIn_of_mem_pieces hpiece
  omega

theorem pairwise_precedes_pieces (separator : Char) (start : Nat) (text : List Char) :
    (pieces separator start text).Pairwise Piece.Precedes := by
  induction start, text using pieces_induction separator with
  | last start part hpart => simp [pieces_of_not_mem start hpart]
  | cut start part rest hpart ih =>
      rw [pieces_append_cons start rest hpart, List.pairwise_cons]
      refine ⟨fun piece hpiece => ?_, ih⟩
      have hbehind := le_offset_of_mem_pieces hpiece
      have hsize := separator.utf8Size_pos
      change start + byteLength part < piece.offset
      omega

theorem pieces_append_separator (separator : Char) (start : Nat) (front rest : List Char) :
    pieces separator start (front ++ separator :: rest) =
      pieces separator start front ++
        pieces separator (start + byteLength front + separator.utf8Size) rest := by
  induction start, front using pieces_induction separator with
  | last start part hpart =>
      rw [pieces_append_cons start rest hpart, pieces_of_not_mem start hpart, List.singleton_append]
  | cut start part front hpart ih =>
      rw [List.append_assoc, List.cons_append, pieces_append_cons start _ hpart, ih,
        pieces_append_cons start _ hpart, byteLength_append, byteLength_cons, List.cons_append]
      simp only [Nat.add_assoc]

theorem takeWhile_ne_append {separator : Char} {part : List Char} (hpart : separator ∉ part)
    (rest : List Char) :
    (part ++ rest).takeWhile (· != separator) = part ++ rest.takeWhile (· != separator) := by
  apply List.takeWhile_append_of_pos
  exact fun c hc => bne_iff_ne.mpr fun heq => hpart (heq ▸ hc)

theorem head?_pieces (separator : Char) (start : Nat) (text : List Char) :
    (pieces separator start text).head? = some ⟨start, text.takeWhile (· != separator)⟩ := by
  induction start, text using pieces_induction separator with
  | last start part hpart =>
      have htake := takeWhile_ne_append hpart []
      rw [List.append_nil, List.takeWhile_nil, List.append_nil] at htake
      rw [pieces_of_not_mem start hpart, htake]
      rfl
  | cut start part rest hpart _ =>
      rw [pieces_append_cons start rest hpart, takeWhile_ne_append hpart,
        List.takeWhile_cons_of_neg (by simp), List.append_nil]
      rfl

/-- What stands before a character, back to the last separator. -/
def backTo (separator : Char) (before : List Char) : List Char :=
  before.rtakeWhile (· != separator)

def upTo (separator : Char) (after : List Char) : List Char :=
  after.takeWhile (· != separator)

theorem separator_not_mem_backTo (separator : Char) (before : List Char) :
    separator ∉ backTo separator before := by
  intro hmem
  simpa using List.mem_rtakeWhile_imp hmem

theorem eq_append_backTo (separator : Char) (before : List Char) :
    before = backTo separator before ∨
      ∃ front, before = front ++ separator :: backTo separator before := by
  have hsplit : before.rdropWhile (· != separator) ++ backTo separator before = before :=
    List.rdropWhile_append_rtakeWhile
  by_cases hnil : before.rdropWhile (· != separator) = []
  · rw [hnil] at hsplit
    exact .inl hsplit.symm
  · right
    have hlast : (before.rdropWhile (· != separator)).getLast hnil = separator := by
      simpa using List.rdropWhile_last_not (· != separator) before hnil
    have hends := List.dropLast_concat_getLast hnil
    rw [hlast] at hends
    rw [← hends, List.append_assoc] at hsplit
    exact ⟨_, hsplit.symm⟩

theorem exists_piece_of_char {separator c : Char} (start : Nat) (before after : List Char)
    (hc : c ≠ separator) :
    ∃ front, before = front ++ backTo separator before ∧
      ⟨start + byteLength front, backTo separator before ++ c :: upTo separator after⟩ ∈
        pieces separator start (before ++ c :: after) := by
  have hfirst : ∀ start, ⟨start, backTo separator before ++ c :: upTo separator after⟩ ∈
      pieces separator start (backTo separator before ++ c :: after) := by
    intro start
    apply List.mem_of_mem_head?
    rw [head?_pieces, takeWhile_ne_append (separator_not_mem_backTo separator before),
      List.takeWhile_cons_of_pos (by simpa using hc)]
    rfl
  rcases eq_append_backTo separator before with hbefore | ⟨front, hbefore⟩
  · refine ⟨[], hbefore, ?_⟩
    have hpiece := hfirst start
    rw [← hbefore] at hpiece ⊢
    exact hpiece
  · refine ⟨front ++ [separator], by simpa using hbefore, ?_⟩
    have hpiece := List.mem_append_right (pieces separator start front)
      (hfirst (start + byteLength front + separator.utf8Size))
    rw [← pieces_append_separator] at hpiece
    have htext : before ++ c :: after =
        front ++ separator :: (backTo separator before ++ c :: after) := by
      conv_lhs => rw [hbefore]
      simp
    rw [htext]
    simpa [Nat.add_assoc] using hpiece

theorem exists_piece_of_mem {separator : Char} (start : Nat) {text : List Char} {c : Char}
    (hmem : c ∈ text) (hne : c ≠ separator) :
    ∃ piece ∈ pieces separator start text, c ∈ piece.text := by
  obtain ⟨before, after, rfl⟩ := List.append_of_mem hmem
  obtain ⟨_, _, hpiece⟩ := exists_piece_of_char start before after hne
  exact ⟨_, hpiece, by simp⟩

end Text

end FoxMachine
