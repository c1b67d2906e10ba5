import FoxMachine.Proofs.Text.Pieces
import FoxMachine.Token
import Mathlib.Data.List.TakeWhile

namespace FoxMachine

namespace Text

theorem dropWhile_isBlank_eq_self {text : List Char} (h : ∀ c ∈ text.head?, isBlank c = false) :
    text.dropWhile isBlank = text := by
  cases text with
  | nil => rfl
  | cons c text => exact List.dropWhile_cons_of_neg (by simp [h c rfl])

theorem trim_eq_self {text : List Char} (hfirst : ∀ c ∈ text.head?, isBlank c = false)
    (hlast : ∀ c ∈ text.getLast?, isBlank c = false) : trim text = text := by
  rw [trim, trimStart, dropWhile_isBlank_eq_self hfirst, trimEnd,
    dropWhile_isBlank_eq_self (by rwa [List.head?_reverse]), List.reverse_reverse]

/-- Whether a character is no blank and starts neither a comment nor a declaration. -/
def isPlain (c : Char) : Bool :=
  !isBlank c && c != ';' && c != ':'

theorem isBlank_of_isPlain {c : Char} (h : isPlain c = true) : isBlank c = false := by
  simp_all [isPlain]

structure IsPlain (part : List Char) : Prop where
  ne_nil : part ≠ []
  chars : ∀ c ∈ part, isPlain c = true

theorem IsPlain.not_mem {part : List Char} (h : IsPlain part) {c : Char}
    (hc : isPlain c = false) : c ∉ part := by
  intro hmem
  rw [h.chars c hmem] at hc
  contradiction

section Rows

variable {parts : List (List Char)}

theorem mem_intercalate {c : Char} (hc : c ∈ [' '].intercalate parts) :
    c = ' ' ∨ ∃ part ∈ parts, c ∈ part := by
  induction parts with
  | nil => contradiction
  | cons part parts ih =>
      cases parts with
      | nil => exact .inr ⟨part, by simp, by simpa using hc⟩
      | cons part' parts =>
          rw [List.intercalate_cons_cons, List.mem_append, List.mem_append] at hc
          rcases hc with (hpart | hspace) | hrest
          · exact .inr ⟨part, by simp, hpart⟩
          · exact .inl (List.mem_singleton.mp hspace)
          · exact (ih hrest).imp_right fun ⟨part, hpart, hc⟩ => ⟨part, by simp [hpart], hc⟩

theorem head?_intercalate {part : List Char} (hne : part ≠ []) (parts : List (List Char)) :
    ([' '].intercalate (part :: parts)).head? = part.head? := by
  obtain ⟨c, rest, rfl⟩ := List.exists_cons_of_ne_nil hne
  cases parts with
  | nil => rw [List.intercalate_singleton]
  | cons part' parts =>
      rw [List.intercalate_cons_cons]
      rfl

theorem intercalate_ne_nil (hne : parts ≠ []) (hplain : ∀ part ∈ parts, IsPlain part) :
    [' '].intercalate parts ≠ [] := by
  obtain ⟨part, parts, rfl⟩ := List.exists_cons_of_ne_nil hne
  have hpart := (hplain part (by simp)).ne_nil
  intro hempty
  have hhead := head?_intercalate hpart parts
  rw [hempty] at hhead
  exact hpart (List.head?_eq_none_iff.mp hhead.symm)

theorem isPlain_of_mem_head?_intercalate (hplain : ∀ part ∈ parts, IsPlain part) :
    ∀ c ∈ ([' '].intercalate parts).head?, isPlain c = true := by
  intro c hc
  cases parts with
  | nil => contradiction
  | cons part parts =>
      obtain ⟨hpart, _⟩ := List.forall_mem_cons.mp hplain
      rw [head?_intercalate hpart.ne_nil] at hc
      exact hpart.chars c (List.mem_of_mem_head? hc)

theorem isPlain_of_mem_getLast?_intercalate (hplain : ∀ part ∈ parts, IsPlain part) :
    ∀ c ∈ ([' '].intercalate parts).getLast?, isPlain c = true := by
  intro c hc
  induction parts with
  | nil => contradiction
  | cons part parts ih =>
      obtain ⟨hpart, hparts⟩ := List.forall_mem_cons.mp hplain
      cases parts with
      | nil =>
          rw [List.intercalate_singleton] at hc
          exact hpart.chars c (List.mem_of_mem_getLast? hc)
      | cons part' parts =>
          have hrest := intercalate_ne_nil (List.cons_ne_nil part' parts) hparts
          have hlast := List.getLast?_eq_some_getLast hrest
          rw [List.intercalate_cons_cons, List.getLast?_append, hlast, Option.some_or,
            ← hlast] at hc
          exact ih hparts hc

theorem not_mem_intercalate (hplain : ∀ part ∈ parts, IsPlain part) {c : Char} (hspace : c ≠ ' ')
    (hc : isPlain c = false) : c ∉ [' '].intercalate parts := by
  intro hmem
  obtain ⟨part, hpart, hmem⟩ := (mem_intercalate hmem).resolve_left hspace
  exact (hplain part hpart).not_mem hc hmem

end Rows

end Text

namespace Line

def cleaned (raw : List Char) : List Char :=
  Text.trim (code raw)

theorem map_text_clean? (number : Nat) (raw : Text.Piece) :
    (clean? number raw).map text = Option.guard (!·.isEmpty) (cleaned raw.text) := by
  unfold clean? cleaned
  dsimp only
  cases Text.trim (code raw.text) <;> rfl

theorem code_of_not_mem {raw : List Char} (hcomment : ';' ∉ raw) : code raw = raw := by
  rw [code, List.takeWhile_eq_self_iff]
  exact fun c hc => bne_iff_ne.mpr fun heq => hcomment (heq ▸ hc)

theorem cleaned_eq_self {raw : List Char} (hcomment : ';' ∉ raw)
    (hfirst : ∀ c ∈ raw.head?, Text.isBlank c = false)
    (hlast : ∀ c ∈ raw.getLast?, Text.isBlank c = false) : cleaned raw = raw := by
  rw [cleaned, code_of_not_mem hcomment, Text.trim_eq_self hfirst hlast]

theorem map_text_parts (line : Line) :
    line.parts.map Text.Piece.text = (line.text.splitOn ' ').filter (!·.isEmpty) := by
  rw [← Text.map_text_pieces ' ' line.offset line.text, List.filter_map]
  rfl

section Rows

variable {parts : List (List Char)}

theorem cleaned_intercalate (hplain : ∀ part ∈ parts, Text.IsPlain part) :
    cleaned ([' '].intercalate parts) = [' '].intercalate parts := by
  apply cleaned_eq_self (Text.not_mem_intercalate hplain (by decide) rfl)
  · intro c hc
    exact Text.isBlank_of_isPlain (Text.isPlain_of_mem_head?_intercalate hplain c hc)
  · intro c hc
    exact Text.isBlank_of_isPlain (Text.isPlain_of_mem_getLast?_intercalate hplain c hc)

variable {line : Line}

theorem map_text_parts_of_text (hplain : ∀ part ∈ parts, Text.IsPlain part)
    (htext : line.text = [' '].intercalate parts) :
    line.parts.map Text.Piece.text = parts := by
  rw [map_text_parts, htext]
  by_cases hempty : parts = []
  · rw [hempty]
    rfl
  · rw [List.splitOn_intercalate ' ' (fun part hpart => (hplain part hpart).not_mem rfl) hempty,
      List.filter_eq_self]
    exact fun part hpart => by simpa using (hplain part hpart).ne_nil

theorem declared?_of_text (hplain : ∀ part ∈ parts, Text.IsPlain part)
    (htext : line.text = [' '].intercalate parts) : line.declared? = none := by
  unfold declared?
  split
  case h_1 name hname =>
    have hcolon := Text.isPlain_of_mem_head?_intercalate hplain ':' (by rw [← htext, hname]; rfl)
    contradiction
  case h_2 => rfl

end Rows

end Line

theorem map_text_cleanLines (source : List Char) :
    (cleanLines source).map Line.text =
      ((source.splitOn '\n').map Line.cleaned).filter (!·.isEmpty) := by
  calc (cleanLines source).map Line.text
      = (((Text.pieces '\n' 0 source).zipIdx 1).map Prod.fst).filterMap fun raw =>
          Option.guard (!·.isEmpty) (Line.cleaned raw.text) := by
        rw [cleanLines, List.map_filterMap, List.filterMap_map]
        exact congrArg (List.filterMap · _) (funext fun raw => Line.map_text_clean? raw.2 raw.1)
    _ = (((Text.pieces '\n' 0 source).map Text.Piece.text).map Line.cleaned).filter
          (!·.isEmpty) := by
        rw [List.zipIdx_map_fst, ← List.filterMap_eq_filter, List.filterMap_map, List.filterMap_map]
        rfl
    _ = ((source.splitOn '\n').map Line.cleaned).filter (!·.isEmpty) := by
        rw [Text.map_text_pieces]

theorem map_text_cleanLines_intercalate {texts : List (List Char)}
    (hnewline : ∀ text ∈ texts, '\n' ∉ text) (hne : ∀ text ∈ texts, text ≠ [])
    (hcleaned : ∀ text ∈ texts, Line.cleaned text = text) :
    (cleanLines (['\n'].intercalate texts)).map Line.text = texts := by
  rw [map_text_cleanLines]
  by_cases hempty : texts = []
  · rw [hempty]
    rfl
  · have hfilter : texts.filter (!·.isEmpty) = texts := by
      rw [List.filter_eq_self]
      exact fun text htext => by simpa using hne text htext
    rw [List.splitOn_intercalate '\n' hnewline hempty, List.map_congr_left hcleaned, List.map_id',
      hfilter]

end FoxMachine
