import FoxMachine.Assembly
import FoxMachine.Proofs.Layout.Counting

namespace FoxMachine

/-!
Tables that are bound again. Binding changes nothing but addresses, and of the addresses it finds it
sees only those of labels that it leaves alone: labels that become due behind the end of the stream
and have no inline declaration. Two tables with the same names and anchors are therefore bound alike
as far as they agree on these, as a table and the one that binding makes of it do.
-/

namespace Label

variable {labels labels' : List Label}

theorem dueLine_eq_of_lines (hlines : labels.map Label.line = labels'.map Label.line)
    (position : Nat) : dueLine labels position = dueLine labels' position := by
  unfold dueLine
  rw [List.map_take, List.map_take, hlines]

theorem exists_twin (hnames : labels.map Label.name = labels'.map Label.name)
    (hlines : labels.map Label.line = labels'.map Label.line) {position : Nat} {label : Label}
    (hlabel : labels[position]? = some label) :
    ∃ label', labels'[position]? = some label' ∧ label.name = label'.name ∧
      label.line = label'.line := by
  have hname := congrArg (·[position]?) hnames
  have hline := congrArg (·[position]?) hlines
  simp only [List.getElem?_map, hlabel, Option.map_some] at hname hline
  obtain ⟨label', hlabel', hname'⟩ := Option.map_eq_some_iff.mp hname.symm
  rw [hlabel', Option.map_some] at hline
  exact ⟨label', hlabel', hname'.symm, Option.some.inj hline⟩

end Label

namespace Layout

variable {layout : Layout} {labels labels' : List Label}

/-- The tables agree on the addresses that a layout leaves alone. -/
def AgreeWhereKept (layout : Layout) (labels labels' : List Label) : Prop :=
  ∀ (position : Nat) (label label' : Label), labels[position]? = some label →
    labels'[position]? = some label' →
    layout.address? position (Label.dueLine labels position) = none →
    label.address = label'.address

theorem bind_eq_of_agree (hnames : labels.map Label.name = labels'.map Label.name)
    (hlines : labels.map Label.line = labels'.map Label.line)
    (hkept : layout.AgreeWhereKept labels labels') : layout.bind labels = layout.bind labels' := by
  apply List.ext_getElem?
  intro position
  rw [getElem?_bind, getElem?_bind, ← Label.dueLine_eq_of_lines hlines]
  cases hlabel : labels[position]? with
  | none =>
      have hlength : labels.length = labels'.length := by
        rw [← List.length_map Label.name, hnames, List.length_map]
      have hbehind := List.getElem?_eq_none_iff.mp hlabel
      rw [List.getElem?_eq_none (hlength ▸ hbehind)]
  | some label =>
      obtain ⟨label', hlabel', hname, hline⟩ := Label.exists_twin hnames hlines hlabel
      rw [hlabel', Option.map_some, Option.map_some, hname, hline]
      cases haddress : layout.address? position (Label.dueLine labels position) with
      | none => rw [hkept position label label' hlabel hlabel' haddress]
      | some address => rfl

theorem bind_bind (layout : Layout) (labels : List Label) :
    layout.bind (layout.bind labels) = layout.bind labels := by
  have hlines : (layout.bind labels).map Label.line = labels.map Label.line :=
    map_bind (fun _ _ => rfl) layout labels
  apply bind_eq_of_agree (map_bind (fun _ _ => rfl) layout labels) hlines
  intro position bound label hbound hlabel haddress
  -- Where the layout has no address, the first binding has left the label as it was.
  rw [Label.dueLine_eq_of_lines hlines] at haddress
  rw [getElem?_bind, hlabel, Option.map_some, haddress] at hbound
  exact (congrArg Label.address (Option.some.inj hbound)).symm

theorem agreeWhereKept_of_le {tokens : List Token}
    (hanchors : ∀ label ∈ labels, label.line ≤ tokens.countP Token.endsLine) :
    (ofTokens tokens).AgreeWhereKept labels labels' := by
  intro position label label' _ _ hnone
  have hdue : Label.dueLine labels position ≤ tokens.countP Token.endsLine := by
    apply Label.dueLine_le_iff.mpr
    exact fun label hlabel => hanchors label (List.mem_of_mem_take hlabel)
  have hfound := isSome_address? hdue position
  rw [hnone] at hfound
  contradiction

end Layout

namespace Label

variable {tokens : List Token} {labels labels' : List Label}

theorem resolve_resolve (tokens : List Token) (labels : List Label) :
    resolve tokens (resolve tokens labels) = resolve tokens labels := by
  rw [resolve_eq, resolve_eq, Layout.bind_bind]

theorem resolve_eq_of_anchors (hnames : labels.map Label.name = labels'.map Label.name)
    (hlines : labels.map Label.line = labels'.map Label.line)
    (hanchors : ∀ label ∈ labels, label.line ≤ tokens.countP Token.endsLine) :
    resolve tokens labels = resolve tokens labels' := by
  rw [resolve_eq, resolve_eq]
  exact Layout.bind_eq_of_agree hnames hlines (Layout.agreeWhereKept_of_le hanchors)

theorem resolveNotices_eq_of_resolve (hresolve : resolve tokens labels = resolve tokens labels') :
    resolveNotices tokens labels = resolveNotices tokens labels' := by
  have hlength : labels.length = labels'.length := by
    have hnames := congrArg (List.map Label.name) hresolve
    rw [names_resolve, names_resolve] at hnames
    rw [← List.length_map Label.name, hnames, List.length_map]
  rw [resolveNotices, resolveNotices, hresolve, skippedDeclarations_eq, skippedDeclarations_eq,
    hlength]

end Label

namespace Assembly

variable {mode : Mode} {tokens : List Token} {labels labels' : List Label} {assembly : Assembly}

theorem generate_eq_of_resolve (mode : Mode)
    (hresolve : Label.resolve tokens labels = Label.resolve tokens labels') :
    generate mode labels tokens = generate mode labels' tokens := by
  unfold generate
  rw [hresolve, Label.resolveNotices_eq_of_resolve hresolve]

theorem labels_of_generate (h : (generate mode labels tokens).result = .ok assembly) :
    assembly.labels = Label.resolve tokens labels := by
  unfold generate at h
  dsimp only at h
  split at h
  case h_1 => contradiction
  case h_2 => exact congrArg Assembly.labels (Except.ok.inj h).symm

/-- A generation can be repeated on the table it leaves behind, and it does not depend on the
addresses of a table whose anchors lie within the stream. -/
theorem generate_stable (mode : Mode) (tokens : List Token) (labels : List Label) :
    (∀ assembly, (generate mode labels tokens).result = .ok assembly →
      generate mode assembly.labels tokens = generate mode labels tokens ∧
      Label.resolve tokens assembly.labels = assembly.labels) ∧
    ∀ labels' : List Label, labels.map Label.name = labels'.map Label.name →
      labels.map Label.line = labels'.map Label.line →
      (∀ label ∈ labels, label.line ≤ tokens.countP Token.endsLine) →
      generate mode labels tokens = generate mode labels' tokens ∧
      Label.resolve tokens labels = Label.resolve tokens labels' := by
  constructor
  · intro assembly hassembly
    have hagain : Label.resolve tokens assembly.labels = Label.resolve tokens labels := by
      rw [labels_of_generate hassembly, Label.resolve_resolve]
    exact ⟨generate_eq_of_resolve mode hagain, hagain.trans (labels_of_generate hassembly).symm⟩
  · intro labels' hnames hlines hanchors
    have hresolve := Label.resolve_eq_of_anchors hnames hlines hanchors
    exact ⟨generate_eq_of_resolve mode hresolve, hresolve⟩

/-- A label behind the end of the stream holds up the next one, which keeps its address; an inline
declaration comes first. In the second table the anchors go back and forth, and the stream has a
mnemonic that strict generation fails at. -/
theorem generate_stable_unsorted :
    let tokens : List Token := [⟨.opcode "JMP", ⟨0, 3⟩⟩, ⟨.label "held", ⟨4, 4⟩⟩, .terminator,
      ⟨.opcode "foo", ⟨9, 3⟩⟩, ⟨.declaration "any", ⟨13, 4⟩⟩, .terminator]
    let assembly : Assembly :=
      ⟨⟨[12, 9, 0, 14]⟩, [⟨"first", 0, 3⟩, ⟨"late", 9, 8⟩, ⟨"held", 1, 9⟩], tokens⟩
    let labels : List Label := [⟨"held", 2, 7⟩, ⟨"early", 0, 8⟩, ⟨"held", 1, 9⟩]
    let labels' : List Label := [⟨"held", 2, 0⟩, ⟨"early", 0, 0⟩, ⟨"held", 1, 0⟩]
    ((generate .lenient [⟨"first", 0, 7⟩, ⟨"late", 9, 8⟩, ⟨"held", 1, 9⟩] tokens).result =
        .ok assembly ∧
      (generate .lenient assembly.labels tokens).result = .ok assembly) ∧
    (generate .strict labels tokens).result = .error (.unknownInstruction ⟨9, 3⟩ "foo") ∧
    generate .strict labels tokens = generate .strict labels' tokens := by
  intro tokens assembly labels labels'
  have hassembly : (generate .lenient [⟨"first", 0, 7⟩, ⟨"late", 9, 8⟩, ⟨"held", 1, 9⟩]
      tokens).result = .ok assembly := by
    decide +kernel
  have hagain := ((generate_stable .lenient tokens _).1 assembly hassembly).1
  have hfails : (generate .strict labels tokens).result =
      .error (.unknownInstruction ⟨9, 3⟩ "foo") := by
    decide +kernel
  have hanchors : ∀ label ∈ labels, label.line ≤ tokens.countP Token.endsLine := by
    decide
  exact ⟨⟨hassembly, (congrArg Attempt.result hagain).trans hassembly⟩, hfails,
    ((generate_stable .strict tokens labels).2 labels' rfl rfl hanchors).1⟩

end Assembly

end FoxMachine
