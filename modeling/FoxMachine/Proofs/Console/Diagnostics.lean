import FoxMachine.Session
import FoxMachine.Proofs.Text.Visible

namespace FoxMachine

namespace Console

theorem toList_diagnosticForm_of_minimal {console : Console} (h : console.minimal = true)
    (text : String) : (console.diagnosticForm text).toList = Text.visible text.toList := by
  rw [diagnosticForm, if_pos h, String.toList_ofList]

theorem toList_diagnosticForm_of_color {console : Console} (hminimal : console.minimal = false)
    (hcolor : console.color = true) (text : String) :
    (console.diagnosticForm text).toList = Text.styled .blue text.toList := by
  rw [diagnosticForm, if_neg (by simp [hminimal]), if_pos hcolor, String.toList_ofList]

theorem visible_diagnosticForm (console : Console) (text : String) :
    Text.visible (console.diagnosticForm text).toList = Text.visible text.toList := by
  unfold diagnosticForm
  split
  · rw [String.toList_ofList, Text.visible_visible]
  · split
    · rw [String.toList_ofList, Text.visible_styled]
    · rfl

/-- A diagnostic in colour and in minimal mode. The coloured form is the text between `ESC[34m` and
`ESC[0m`, with another `ESC[34m` behind each `ESC[0m` of its own. What is visible of it is the
minimal form. That one has no escape characters and is all visible, and it is the text itself if
that has no escape characters either. -/
theorem forms_of_diagnostic (console : Console) (text : String) :
    let colored := ({ console with minimal := false, color := true } : Console).diagnosticForm text
    let minimal := ({ console with minimal := true } : Console).diagnosticForm text
    (∃ part parts, (∀ part' ∈ part :: parts, ¬ "\x1b[0m".toList <:+: part') ∧
      text.toList = "\x1b[0m".toList.intercalate (part :: parts) ∧
      colored.toList = "\x1b[34m".toList ++
        "\x1b[0m\x1b[34m".toList.intercalate (part :: parts) ++ "\x1b[0m".toList) ∧
    Text.visible colored.toList = Text.visible text.toList ∧
    minimal.toList = Text.visible text.toList ∧
    '\x1b' ∉ minimal.toList ∧
    Text.visible minimal.toList = minimal.toList ∧
    ('\x1b' ∉ text.toList → minimal = text) := by
  intro colored minimal
  have hcolored : colored.toList = Text.styled .blue text.toList :=
    toList_diagnosticForm_of_color rfl rfl text
  have hminimal : minimal.toList = Text.visible text.toList :=
    toList_diagnosticForm_of_minimal rfl text
  refine ⟨?_, visible_diagnosticForm _ text, hminimal, ?_, ?_, ?_⟩
  · obtain ⟨part, parts, hfree, hparts⟩ := Text.exists_parts text.toList
    refine ⟨part, parts, hfree, hparts, ?_⟩
    rw [hcolored, Text.styled, hparts, Text.reopenAfterReset_intercalate hfree]
    rfl
  · rw [hminimal]
    exact Text.escape_not_mem_visibleFrom false text.toList
  · rw [hminimal, Text.visible_visible]
  · intro hplain
    apply String.toList_injective
    rw [hminimal, Text.visible_eq_self hplain]

/-- A text without styles. -/
theorem forms_of_diagnostic_plain :
    '\x1b' ∉ "HLT at $0000 (0) with data 0\n".toList ∧
    ({ fresh with minimal := true } : Console).diagnosticForm "HLT at $0000 (0) with data 0\n" =
      "HLT at $0000 (0) with data 0\n" := by
  have hplain : '\x1b' ∉ "HLT at $0000 (0) with data 0\n".toList := by
    decide
  exact ⟨hplain, (forms_of_diagnostic fresh _).2.2.2.2.2 hplain⟩

/-- A reset inside another sequence, and a sequence that is not closed. -/
example :
    Text.visible "one\x1b[1\x1b[0m two\x1b[0m three\x1b[1".toList = "one two three".toList ∧
    Text.styled .blue "one\x1b[1\x1b[0m two\x1b[0m three\x1b[1".toList =
      "\x1b[34mone\x1b[1\x1b[0m\x1b[34m two\x1b[0m\x1b[34m three\x1b[1\x1b[0m".toList := by
  decide

end Console

end FoxMachine
