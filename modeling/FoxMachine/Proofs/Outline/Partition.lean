import FoxMachine.Proofs.Outline.Labels
import FoxMachine.Proofs.Outline.Lines
import FoxMachine.Proofs.Outline.Texts
import FoxMachine.Proofs.Text.Trimming

namespace FoxMachine

namespace Text

def saysNothing (raw : List Char) : Bool :=
  (trim raw).isEmpty || (trimStart raw).head? == some ';'

/-- The lines that say something, cut at their first semicolons and trimmed. -/
def sayings (source : List Char) : List (List Char) :=
  ((source.splitOn '\n').filter (!saysNothing ·)).map fun raw => trim (raw.takeWhile (· != ';'))

def declares (text : List Char) : Bool :=
  text.head? == some ':'

theorem isBlank_code_iff {raw : List Char} :
    IsBlank (Line.code raw) ↔ IsBlank raw ∨ (trimStart raw).head? = some ';' := by
  induction raw with
  | nil => simp [Line.code, IsBlank]
  | cons c raw ih =>
      by_cases hcomment : c = ';'
      · subst hcomment
        simp [Line.code, IsBlank, trimStart, isBlank]
      · cases hblank : isBlank c with
        | false => simp [Line.code, IsBlank, trimStart, hcomment, hblank]
        | true => simpa [Line.code, IsBlank, trimStart, hcomment, hblank] using ih

theorem cleaned_eq_nil_iff {raw : List Char} : Line.cleaned raw = [] ↔ saysNothing raw = true := by
  rw [Line.cleaned, trim_eq_nil_iff, isBlank_code_iff, saysNothing, Bool.or_eq_true, beq_iff_eq,
    List.isEmpty_iff, trim_eq_nil_iff]

theorem sayings_eq (source : List Char) : (cleanLines source).map Line.text = sayings source := by
  have hsays : ∀ raw, (!(Line.cleaned raw).isEmpty) = !saysNothing raw := by
    intro raw
    rw [Bool.not_inj_iff, Bool.eq_iff_iff, List.isEmpty_iff, cleaned_eq_nil_iff]
  rw [map_text_cleanLines, List.filter_map, sayings]
  congr 2
  funext raw
  exact hsays raw

theorem isBlank_of_mem_head?_trim {text : List Char} :
    ∀ c ∈ (trim text).head?, isBlank c = false := by
  intro c hc
  obtain ⟨rest, hrest⟩ := List.head?_eq_some_iff.mp hc
  exact isBlank_eq_false_of_trim_eq_cons hrest

theorem isBlank_of_mem_getLast?_trim {text : List Char} :
    ∀ c ∈ (trim text).getLast?, isBlank c = false := by
  intro c hc
  rw [trim, trimEnd, List.getLast?_reverse] at hc
  have hhead := List.head?_dropWhile_not isBlank (trimStart text).reverse
  rw [hc] at hhead
  simpa using hhead

end Text

namespace Line

theorem declared?_eq (line : Line) :
    line.declared? = if Text.declares line.text then some (String.ofList (Text.trim line.text.tail))
      else none := by
  unfold declared? Text.declares
  cases line.text with
  | nil => rfl
  | cons c rest =>
      by_cases hcolon : c = ':'
      · subst hcolon
        rfl
      · simp [hcolon]

theorem isDeclaration_eq (line : Line) : line.isDeclaration = Text.declares line.text := by
  rw [isDeclaration, declared?_eq]
  split <;> simp_all

theorem isCode_eq (line : Line) : line.isCode = !Text.declares line.text := by
  rw [isCode, isDeclaration_eq]

end Line

theorem exists_before_of_mem_cleanLines {source : String} {line : Line}
    (hline : line ∈ cleanLines source.toList) :
    ∃ before after, source = before ++ String.ofList line.text ++ after ∧
      line.offset = before.utf8ByteSize ∧ line.number = before.toList.count '\n' + 1 := by
  obtain ⟨⟨raw, number⟩, hraw, hclean⟩ := List.mem_filterMap.mp hline
  obtain ⟨before, after, hsource, hoffset, hnumber⟩ :=
    Text.exists_before_of_mem_zipIdx_pieces hraw
  obtain ⟨_, _, hcount, _⟩ := Line.clean?_eq_some hclean
  obtain ⟨blanks, rest, htext, hstart⟩ := Line.liesIn_of_clean? hclean
  have hnewline : '\n' ∉ blanks := by
    have hpiece := Text.separator_not_mem_of_mem_pieces (List.fst_mem_of_mem_zipIdx hraw)
    intro hmem
    exact hpiece (by simp [htext, hmem])
  refine ⟨String.ofList (before ++ blanks), String.ofList (rest ++ after), ?_, ?_, ?_⟩
  · rw [← String.toList_inj, hsource, htext]
    simp [Line.piece]
  · change line.offset = _ at hstart
    rw [Text.utf8ByteSize_ofList, Text.byteLength_append, hstart, hoffset]
    omega
  · rw [hcount, hnumber, String.toList_ofList, List.count_append,
      List.count_eq_zero_of_not_mem hnewline]
    omega

theorem text_of_mem_cleanLines {source : List Char} {line : Line}
    (hline : line ∈ cleanLines source) :
    line.text ≠ [] ∧ ';' ∉ line.text ∧ '\n' ∉ line.text ∧
      (∀ c ∈ line.text.head?, Text.isBlank c = false) ∧
      ∀ c ∈ line.text.getLast?, Text.isBlank c = false := by
  obtain ⟨raw, hraw, number, hclean⟩ := exists_clean?_of_mem_cleanLines hline
  obtain ⟨hne, htext, _, _⟩ := Line.clean?_eq_some hclean
  have hcode : ∀ c ∈ line.text, c ∈ Line.code raw.text := by
    intro c hc
    obtain ⟨after, hafter⟩ := Text.exists_trim_append (Line.code raw.text)
    rw [hafter, ← htext]
    simp [hc]
  have hcomment : ';' ∉ line.text := by
    intro hmem
    simpa using List.mem_takeWhile_imp (hcode ';' hmem)
  have hnewline : '\n' ∉ line.text := by
    intro hmem
    exact Text.separator_not_mem_of_mem_pieces hraw
      ((List.takeWhile_sublist _).subset (hcode '\n' hmem))
  refine ⟨hne, hcomment, hnewline, ?_, ?_⟩
  · rw [htext]
    exact Text.isBlank_of_mem_head?_trim
  · rw [htext]
    exact Text.isBlank_of_mem_getLast?_trim

namespace Outline

theorem map_text_lines_ofSource (source : String) :
    (ofSource source).lines.map Line.text =
      (Text.sayings source.toList).filter (!Text.declares ·) := by
  rw [ofSource, lines_ofLines, ← Text.sayings_eq, List.filter_map]
  congr 2
  funext line
  exact line.isCode_eq

theorem map_name_labels_ofSource (source : String) :
    (ofSource source).labels.map Label.name =
      ((Text.sayings source.toList).filter Text.declares).map fun text =>
        String.ofList (Text.trim text.tail) := by
  rw [ofSource, labels_ofLines, names_labelsFrom, ← Text.sayings_eq]
  induction cleanLines source.toList with
  | nil => rfl
  | cons line lines ih =>
      have hname := line.declared?_eq
      cases hdeclares : Text.declares line.text <;> simp [hdeclares] at hname <;>
        simp [hname, hdeclares, ih]

/-- The label of a declaration. Its index among the lines that say something is `before.length`, and
`found` is the table as it stands when the declaration is reached. -/
theorem exists_label_of_sayings {source : String} {before after : List (List Char)}
    {declaration : List Char}
    (hsayings : Text.sayings source.toList = before ++ declaration :: after)
    (hdeclares : Text.declares declaration = true) :
    ∃ found label later, (ofSource source).labels = found ++ label :: later ∧
      found.length = before.countP Text.declares ∧ found.length ≤ before.length ∧
      label.name = String.ofList (Text.trim declaration.tail) ∧
      label.line = before.countP (!Text.declares ·) ∧
      label.line = before.length - found.length ∧
      label.address.toNat = label.line % 65536 := by
  have hlength : before.length =
      before.countP Text.declares + before.countP (!Text.declares ·) := by
    simpa using List.length_eq_countP_add_countP Text.declares (l := before)
  rw [← Text.sayings_eq, List.map_eq_append_iff] at hsayings
  obtain ⟨lines, rest, hlines, hbefore, hrest⟩ := hsayings
  obtain ⟨line, lines', rfl, rfl, rfl⟩ := List.map_eq_cons_iff.mp hrest
  have hname := line.declared?_eq
  rw [if_pos hdeclares] at hname
  have hfound : (labelsFrom 0 lines).length = before.countP Text.declares := by
    rw [length_labelsFrom, ← hbefore, List.countP_map]
    exact congrArg (List.countP · lines) (funext Line.isDeclaration_eq)
  have hanchor : lines.countP Line.isCode = before.countP (!Text.declares ·) := by
    rw [← hbefore, List.countP_map]
    exact congrArg (List.countP · lines) (funext Line.isCode_eq)
  have hanchor' : lines.countP Line.isCode = before.length - (labelsFrom 0 lines).length := by
    omega
  have hlabels : (ofSource source).labels = labelsFrom 0 lines ++
      ⟨String.ofList (Text.trim line.text.tail), lines.countP Line.isCode,
        (lines.countP Line.isCode).toUInt16⟩ :: labelsFrom (lines.countP Line.isCode) lines' := by
    rw [ofSource, labels_ofLines, hlines, labelsFrom_append, labelsFrom, hname, Nat.zero_add]
  exact ⟨_, _, _, hlabels, hfound, by omega, rfl, hanchor, hanchor', UInt16.toNat_ofNat ..⟩

theorem anchors_ofSource (source : String) :
    ((ofSource source).labels.Pairwise fun first second => first.line ≤ second.line) ∧
      ∀ label ∈ (ofSource source).labels, label.line ≤ (ofSource source).lines.length := by
  rw [ofSource, labels_ofLines, lines_ofLines]
  refine ⟨pairwise_anchor_labelsFrom 0 _, fun label hlabel => ?_⟩
  have hbounds := anchor_mem_labelsFrom hlabel
  rw [← List.countP_eq_length_filter]
  omega

/-- The outline of a source. Its lines of code and its labels are what the lines of the source say,
parted at the colon and otherwise in order; a line of code stands in the source where it says, and a
label is anchored to the number of lines of code before its declaration. -/
theorem partition_ofSource (source : String) :
    (ofSource source).lines.map Line.text =
      (Text.sayings source.toList).filter (!Text.declares ·) ∧
    (ofSource source).labels.map Label.name =
      ((Text.sayings source.toList).filter Text.declares).map (fun text =>
        String.ofList (Text.trim text.tail)) ∧
    (∀ line ∈ (ofSource source).lines,
      line.text ≠ [] ∧ ';' ∉ line.text ∧ '\n' ∉ line.text ∧
      (∀ c ∈ line.text.head?, Text.isBlank c = false) ∧
      (∀ c ∈ line.text.getLast?, Text.isBlank c = false) ∧
      ∃ before after, source = before ++ String.ofList line.text ++ after ∧
        line.offset = before.utf8ByteSize ∧ line.number = before.toList.count '\n' + 1) ∧
    (∀ before declaration after,
      Text.sayings source.toList = before ++ declaration :: after →
      Text.declares declaration = true →
      ∃ found label later, (ofSource source).labels = found ++ label :: later ∧
        found.length = before.countP Text.declares ∧ found.length ≤ before.length ∧
        label.name = String.ofList (Text.trim declaration.tail) ∧
        label.line = before.countP (!Text.declares ·) ∧
        label.line = before.length - found.length ∧
        label.address.toNat = label.line % 65536) ∧
    ((ofSource source).labels.Pairwise fun first second => first.line ≤ second.line) ∧
    ∀ label ∈ (ofSource source).labels, label.line ≤ (ofSource source).lines.length := by
  refine ⟨map_text_lines_ofSource source, map_name_labels_ofSource source, ?_, ?_,
    anchors_ofSource source⟩
  · intro line hline
    have hclean := List.mem_of_mem_filter hline
    obtain ⟨hne, hcomment, hnewline, hfirst, hlast⟩ := text_of_mem_cleanLines hclean
    exact ⟨hne, hcomment, hnewline, hfirst, hlast, exists_before_of_mem_cleanLines hclean⟩
  · intro before declaration after hsayings hdeclares
    exact exists_label_of_sayings hsayings hdeclares

end Outline

end FoxMachine
