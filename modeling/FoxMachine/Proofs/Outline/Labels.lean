import FoxMachine.Outline

namespace FoxMachine

namespace Line

def isCode (line : Line) : Bool :=
  !line.isDeclaration

theorem isCode_eq_false_of_declared? {line : Line} {name : String}
    (h : line.declared? = some name) : line.isCode = false := by
  simp [isCode, isDeclaration, h]

theorem isCode_of_declared?_eq_none {line : Line} (h : line.declared? = none) :
    line.isCode = true := by
  simp [isCode, isDeclaration, h]

end Line

namespace Outline

def labelsFrom (anchor : Nat) : List Line → List Label
  | [] => []
  | line :: lines =>
      match line.declared? with
      | some name => ⟨name, anchor, anchor.toUInt16⟩ :: labelsFrom anchor lines
      | none => labelsFrom (anchor + 1) lines

theorem labelsFrom_eq (anchor : Nat) (lines : List Line) :
    labelsFrom anchor lines =
      (lines.zip (lines.scanl (fun count line => if line.isDeclaration then count else count + 1)
        anchor)).filterMap fun (line, anchor) =>
          line.declared?.map fun name => ⟨name, anchor, anchor.toUInt16⟩ := by
  induction lines generalizing anchor with
  | nil => rfl
  | cons line lines ih =>
      rw [List.scanl_cons, List.zip_cons_cons, List.filterMap_cons, labelsFrom]
      cases hname : line.declared? with
      | some name => simp [Line.isDeclaration, hname, ih]
      | none => simp [Line.isDeclaration, hname, ih]

theorem labels_ofLines (lines : List Line) : (ofLines lines).labels = labelsFrom 0 lines :=
  (labelsFrom_eq 0 lines).symm

theorem lines_ofLines (lines : List Line) : (ofLines lines).lines = lines.filter Line.isCode := rfl

theorem labelsFrom_append (anchor : Nat) (lines lines' : List Line) :
    labelsFrom anchor (lines ++ lines') =
      labelsFrom anchor lines ++ labelsFrom (anchor + lines.countP Line.isCode) lines' := by
  induction lines generalizing anchor with
  | nil => rfl
  | cons line lines ih =>
      rw [List.cons_append, labelsFrom, labelsFrom]
      cases hname : line.declared? with
      | some name =>
          simp [ih, Line.isCode_eq_false_of_declared? hname]
      | none =>
          simp [ih, Line.isCode_of_declared?_eq_none hname, Nat.add_assoc,
            Nat.add_comm 1]

theorem names_labelsFrom (anchor : Nat) (lines : List Line) :
    (labelsFrom anchor lines).map Label.name = lines.filterMap Line.declared? := by
  induction lines generalizing anchor with
  | nil => rfl
  | cons line lines ih =>
      rw [labelsFrom]
      cases hname : line.declared? with
      | some name => simp [hname, ih]
      | none => simp [hname, ih]

theorem ofLines_of_declared?_eq_none {lines : List Line}
    (h : ∀ line ∈ lines, line.declared? = none) : ofLines lines = ⟨lines, []⟩ := by
  have hlines : (ofLines lines).lines = lines := by
    rw [lines_ofLines, List.filter_eq_self]
    exact fun line hline => Line.isCode_of_declared?_eq_none (h line hline)
  have hlabels : (ofLines lines).labels = [] := by
    rw [labels_ofLines, ← List.map_eq_nil_iff, names_labelsFrom, List.filterMap_eq_nil_iff]
    exact h
  change (⟨(ofLines lines).lines, (ofLines lines).labels⟩ : Outline) = _
  rw [hlines, hlabels]

theorem length_labelsFrom (anchor : Nat) (lines : List Line) :
    (labelsFrom anchor lines).length = lines.countP Line.isDeclaration := by
  rw [← List.length_map Label.name, names_labelsFrom, List.length_filterMap_eq_countP]
  rfl

theorem getElem?_labelsFrom {before after : List Line} {declaration : Line} {name : String}
    (hname : declaration.declared? = some name) :
    (labelsFrom 0 (before ++ declaration :: after))[before.countP Line.isDeclaration]? =
      some ⟨name, before.countP Line.isCode, (before.countP Line.isCode).toUInt16⟩ := by
  rw [labelsFrom_append, ← length_labelsFrom 0 before, List.getElem?_append_right (Nat.le_refl _)]
  simp [labelsFrom, hname]

theorem anchor_mem_labelsFrom {anchor : Nat} {lines : List Line} {label : Label}
    (hlabel : label ∈ labelsFrom anchor lines) :
    anchor ≤ label.line ∧ label.line ≤ anchor + lines.countP Line.isCode := by
  induction lines generalizing anchor with
  | nil => simp [labelsFrom] at hlabel
  | cons line lines ih =>
      rw [labelsFrom] at hlabel
      cases hname : line.declared? with
      | some name =>
          rw [List.countP_cons_of_neg (by simp [Line.isCode_eq_false_of_declared? hname])]
          simp only [hname, List.mem_cons] at hlabel
          rcases hlabel with rfl | hlabel
          · exact ⟨Nat.le_refl _, Nat.le_add_right _ _⟩
          · exact ih hlabel
      | none =>
          rw [List.countP_cons_of_pos (Line.isCode_of_declared?_eq_none hname)]
          simp only [hname] at hlabel
          have hbounds := ih hlabel
          omega

theorem pairwise_anchor_labelsFrom (anchor : Nat) (lines : List Line) :
    (labelsFrom anchor lines).Pairwise fun first second => first.line ≤ second.line := by
  induction lines generalizing anchor with
  | nil => exact List.Pairwise.nil
  | cons line lines ih =>
      rw [labelsFrom]
      cases line.declared? with
      | some name =>
          exact List.pairwise_cons.mpr ⟨fun label hlabel => (anchor_mem_labelsFrom hlabel).1, ih _⟩
      | none => exact ih _

end Outline

end FoxMachine
