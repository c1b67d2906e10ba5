import FoxMachine.Proofs.Outline.Labels
import FoxMachine.Proofs.Outline.Texts
import FoxMachine.Proofs.Token.Agreement

namespace FoxMachine

namespace Text

def parts (text : List Char) : List (List Char) :=
  (text.splitOn ' ').filter (!·.isEmpty)

theorem splitOn_append_cons (separator : Char) (first second : List Char) :
    (first ++ separator :: second).splitOn separator =
      first.splitOn separator ++ second.splitOn separator := by
  simp only [List.splitOn_eq_splitOnP]
  exact List.splitOnP_append_cons first second (beq_self_eq_true separator)

theorem parts_append_cons (first second : List Char) :
    parts (first ++ ' ' :: second) = parts first ++ parts second := by
  rw [parts, splitOn_append_cons, List.filter_append]
  rfl

theorem parts_append_replicate (first second : List Char) (count : Nat) :
    parts (first ++ List.replicate (count + 1) ' ' ++ second) = parts first ++ parts second := by
  induction count generalizing first with
  | zero => simpa using parts_append_cons first second
  | succ count ih =>
      have hcons : first ++ List.replicate (count + 2) ' ' ++ second =
          (first ++ [' ']) ++ List.replicate (count + 1) ' ' ++ second := by
        simp [List.replicate_succ]
      have hlast : parts (first ++ [' ']) = parts first := by
        rw [parts_append_cons]
        exact List.append_nil _
      rw [hcons, ih, hlast]

end Text

namespace Line

inductive Content where
  | declaration (name : String)
  | code (parts : List (List Char))
deriving DecidableEq, Repr

namespace Content

def ofText (text : List Char) : Content :=
  match text with
  | ':' :: name => .declaration (String.ofList (Text.trim name))
  | text => .code (Text.parts text)

theorem ofText_of_head? {text : List Char} (h : text.head? ≠ some ':') :
    ofText text = .code (Text.parts text) := by
  unfold ofText
  split
  · simp at h
  · rfl

def declared? : Content → Option String
  | .declaration name => some name
  | .code _ => none

end Content

def content (line : Line) : Content :=
  .ofText line.text

theorem declared?_content (line : Line) : line.content.declared? = line.declared? := by
  unfold content Content.ofText Line.declared?
  split <;> simp_all [Content.declared?]

theorem content_of_isCode {line : Line} (h : line.isCode = true) :
    line.content = .code (line.parts.map Text.Piece.text) := by
  rw [map_text_parts]
  unfold content Content.ofText
  split
  case h_1 name hname => simp [isCode, isDeclaration, declared?, hname] at h
  case h_2 => rfl

variable {line line' : Line}

theorem declared?_eq_of_content (h : line.content = line'.content) :
    line.declared? = line'.declared? := by
  rw [← declared?_content, h, declared?_content]

theorem isCode_eq_of_content (h : line.content = line'.content) : line.isCode = line'.isCode := by
  unfold isCode isDeclaration
  rw [declared?_eq_of_content h]

theorem sameParts_of_content (h : line.content = line'.content) (hcode : line.isCode = true) :
    line.SameParts line' := by
  have hcode' : line'.isCode = true := by rwa [← isCode_eq_of_content h]
  rw [content_of_isCode hcode, content_of_isCode hcode'] at h
  exact Content.code.inj h

def gist? (raw : List Char) : Option Content :=
  match cleaned raw with
  | [] => none
  | text => some (.ofText text)

end Line

def contents (source : List Char) : List Line.Content :=
  (cleanLines source).map Line.content

theorem contents_eq (source : List Char) :
    contents source = (source.splitOn '\n').filterMap Line.gist? := by
  have hgist : Line.gist? = fun raw =>
      (Option.guard (!·.isEmpty) (Line.cleaned raw)).map Line.Content.ofText := by
    funext raw
    unfold Line.gist?
    cases Line.cleaned raw <;> rfl
  calc contents source
      = ((cleanLines source).map Line.text).map Line.Content.ofText := by
        rw [List.map_map]
        rfl
    _ = (((source.splitOn '\n').map Line.cleaned).filter (!·.isEmpty)).map
          Line.Content.ofText := by
        rw [map_text_cleanLines]
    _ = (source.splitOn '\n').filterMap Line.gist? := by
        rw [hgist, ← List.filterMap_eq_filter, List.map_filterMap, List.filterMap_map]
        rfl

theorem contents_append_newline (first second : List Char) :
    contents (first ++ '\n' :: second) = contents first ++ contents second := by
  rw [contents_eq, contents_eq, contents_eq, Text.splitOn_append_cons, List.filterMap_append]

namespace Outline

/-- Outlines that differ in the places of their lines at most. -/
structure Alike (first second : Outline) : Prop where
  labels_eq : first.labels = second.labels
  lines : List.Forall₂ Line.SameParts first.lines second.lines

theorem alike_of_contents {lines lines' : List Line}
    (h : lines.map Line.content = lines'.map Line.content) :
    (ofLines lines).Alike (ofLines lines') := by
  rw [← List.forall₂_eq_eq_eq, List.forall₂_map_left_iff, List.forall₂_map_right_iff] at h
  constructor
  · rw [labels_ofLines, labels_ofLines]
    generalize 0 = anchor
    induction h generalizing anchor with
    | nil => rfl
    | cons hcontent _ ih =>
        rw [labelsFrom, labelsFrom, Line.declared?_eq_of_content hcontent, ih, ih]
  · rw [lines_ofLines, lines_ofLines]
    induction h with
    | nil => exact .nil
    | @cons line line' lines lines' hcontent _ ih =>
        cases hcode : line.isCode with
        | false =>
            have hcode' : line'.isCode = false := by
              rwa [← Line.isCode_eq_of_content hcontent]
            rw [List.filter_cons_of_neg (by simp [hcode]),
              List.filter_cons_of_neg (by simp [hcode'])]
            exact ih
        | true =>
            have hcode' : line'.isCode = true := by
              rwa [← Line.isCode_eq_of_content hcontent]
            rw [List.filter_cons_of_pos hcode, List.filter_cons_of_pos hcode']
            exact .cons (Line.sameParts_of_content hcontent hcode) ih

end Outline

end FoxMachine
