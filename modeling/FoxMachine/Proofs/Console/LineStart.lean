import FoxMachine.Proofs.Console.Diagnostics
import FoxMachine.Proofs.Console.Observation

namespace FoxMachine

/-!
The line start over the whole life of a console. Every action looks only at the text that it prints
itself. As long as each text closes the sequences it opens, the visible parts of the texts follow
one another in the visible part of all of them together, and so the line start stands where that one
ends, whatever the settings were meanwhile and on whichever stream the texts went.
-/

namespace Console

inductive Action where
  | print (channel : Channel) (text : String)
  | startLine (channel : Channel)
  | display (text : String)
  | setTrace (trace : Bool)
  | setMinimal (minimal : Bool)
deriving DecidableEq, Repr

def act (console : Console) : Action → Console
  | .print channel text => console.print channel text
  | .startLine channel => console.startLine channel
  | .display text => console.display text
  | .setTrace trace => { console with trace }
  | .setMinimal minimal => { console with minimal }

def actAll (console : Console) (actions : List Action) : Console :=
  actions.foldl act console

inductive Stream where
  | output
  | errors
deriving DecidableEq, Repr

def on (console : Console) : Stream → String
  | .output => console.output
  | .errors => console.errors

/-- A text that was printed, as it was given and in the form in which it went to its stream. -/
structure Printed where
  stream : Stream
  text : String
  form : String
deriving DecidableEq, Repr

def printing? (console : Console) (channel : Channel) (text : String) : Option Printed :=
  if console.shows channel then
    match channel with
    | .normal => some ⟨.output, text, text⟩
    | .diagnostic _ => some ⟨.errors, text, console.diagnosticForm text⟩
  else none

def printed? (console : Console) : Action → Option Printed
  | .print channel text => console.printing? channel text
  | .startLine channel =>
      if console.lineStart then none else console.printing? channel "\n"
  | .display text => some ⟨.output, text, text⟩
  | .setTrace _ | .setMinimal _ => none

def history (console : Console) : List Action → List Printed
  | [] => []
  | action :: actions =>
      (console.printed? action).toList ++ (console.act action).history actions

namespace Printed

def forms (stream : Stream) (history : List Printed) : String :=
  String.join ((history.filter (·.stream == stream)).map form)

/-- What is printed on both of them, before it takes its form. -/
def merged (history : List Printed) : String :=
  String.join (history.map text)

theorem forms_append (stream : Stream) (first second : List Printed) :
    forms stream (first ++ second) = forms stream first ++ forms stream second := by
  simp [forms]

theorem merged_append (first second : List Printed) :
    merged (first ++ second) = merged first ++ merged second := by
  simp [merged]

end Printed

theorem on_print (console : Console) (stream : Stream) (channel : Channel) (text : String) :
    (console.print channel text).on stream =
      console.on stream ++ Printed.forms stream (console.printing? channel text).toList := by
  unfold print printing?
  by_cases hshows : console.shows channel = true
  · rw [if_pos hshows, if_pos hshows]
    cases channel <;> cases stream <;> simp [on, Printed.forms]
  · rw [if_neg hshows, if_neg hshows]
    exact String.append_empty.symm

theorem on_act (console : Console) (stream : Stream) (action : Action) :
    (console.act action).on stream =
      console.on stream ++ Printed.forms stream (console.printed? action).toList := by
  cases action with
  | print channel text => exact on_print console stream channel text
  | startLine channel =>
      rw [act, printed?, startLine]
      split
      case isTrue => exact String.append_empty.symm
      case isFalse => exact on_print console stream channel "\n"
  | display text => cases stream <;> simp [on, act, display, printed?, Printed.forms]
  | setTrace trace => cases stream <;> exact String.append_empty.symm
  | setMinimal minimal => cases stream <;> exact String.append_empty.symm

theorem on_actAll (console : Console) (stream : Stream) (actions : List Action) :
    (console.actAll actions).on stream =
      console.on stream ++ Printed.forms stream (console.history actions) := by
  unfold actAll
  induction actions generalizing console with
  | nil => exact String.append_empty.symm
  | cons action actions ih =>
      rw [List.foldl_cons, ih, on_act, history, Printed.forms_append, String.append_assoc]

theorem lineStartAfter_eq_true_iff (lineStart : Bool) (text : List Char) :
    lineStartAfter lineStart text = true ↔
      text.getLast? = some '\n' ∨ text = [] ∧ lineStart = true := by
  unfold lineStartAfter
  cases hlast : text.getLast? with
  | none =>
      have hempty := List.getLast?_eq_none_iff.mp hlast
      simp [hempty]
  | some c =>
      have hne : text ≠ [] := by
        rintro rfl
        contradiction
      simp [hne]

theorem lineStart_print_printing? (console : Console) (channel : Channel) (text : String) :
    (console.print channel text).lineStart =
      lineStartAfter console.lineStart
        (Text.visible (Printed.merged (console.printing? channel text).toList).toList) := by
  rw [lineStart_print]
  unfold printing?
  split
  · cases channel <;> simp [Printed.merged]
  · rfl

theorem lineStart_act (console : Console) {action : Action}
    (hplain : ∀ text, action = .display text → Text.escape ∉ text.toList) :
    (console.act action).lineStart =
      lineStartAfter console.lineStart
        (Text.visible (Printed.merged (console.printed? action).toList).toList) := by
  cases action with
  | print channel text => exact lineStart_print_printing? console channel text
  | startLine channel =>
      rw [act, printed?, startLine]
      split
      case isTrue => rfl
      case isFalse => exact lineStart_print_printing? console channel "\n"
  | display text =>
      have hmerged : Printed.merged (console.printed? (.display text)).toList = text := by
        simp [printed?, Printed.merged]
      rw [hmerged, Text.visible_eq_self (hplain text rfl)]
      rfl
  | setTrace trace => rfl
  | setMinimal minimal => rfl

theorem Printed.not_leavesOpen_merged {printed? : Option Printed}
    (hclosed : ∀ printed ∈ printed?.toList, ¬ Text.LeavesOpen printed.text.toList) :
    ¬ Text.LeavesOpen (merged printed?.toList).toList := by
  cases printed? with
  | none => simp [merged, Text.LeavesOpen]
  | some printed => simpa [merged] using hclosed printed

theorem lineStart_actAll (console : Console) {actions : List Action}
    (hplain : ∀ text, Action.display text ∈ actions → Text.escape ∉ text.toList)
    (hclosed : ∀ printed ∈ console.history actions, ¬ Text.LeavesOpen printed.text.toList) :
    (console.actAll actions).lineStart =
      lineStartAfter console.lineStart
        (Text.visible (Printed.merged (console.history actions)).toList) := by
  unfold actAll
  induction actions generalizing console with
  | nil => rfl
  | cons action actions ih =>
      obtain ⟨hprinted, hhistory⟩ := List.forall_mem_append.mp hclosed
      have hfirst : ∀ text, action = .display text → Text.escape ∉ text.toList := by
        rintro text rfl
        exact hplain text List.mem_cons_self
      have hrest : ∀ text, Action.display text ∈ actions → Text.escape ∉ text.toList := by
        exact fun text htext => hplain text (List.mem_cons_of_mem _ htext)
      rw [List.foldl_cons, ih _ hrest hhistory, lineStart_act console hfirst,
        lineStartAfter_append, history, Printed.merged_append, String.toList_append,
        Text.visible_append (Printed.not_leavesOpen_merged hprinted)]

theorem history_startLine (console : Console) (channel : Channel) :
    console.history [.startLine channel] =
      if console.lineStart then [] else (console.printing? channel "\n").toList := by
  rw [history, history, List.append_nil, printed?]
  split <;> rfl

theorem text_history_startLine {console : Console} {channel : Channel}
    (hshows : console.shows channel = true) :
    (console.history [.startLine channel]).map Printed.text =
      if console.lineStart then [] else ["\n"] := by
  rw [history_startLine]
  unfold printing?
  rw [if_pos hshows]
  cases console.lineStart with
  | true => rfl
  | false => cases channel <;> rfl

/-- A line that has been started is not started again: it stands at its start, or else nothing is
shown on the channel. -/
theorem printed?_startLine_startLine (console : Console) (channel : Channel) :
    (console.startLine channel).printed? (.startLine channel) = none := by
  unfold startLine
  cases hstart : console.lineStart with
  | true => simp [printed?, hstart]
  | false =>
      cases hshows : console.shows channel with
      | true =>
          have hline : (console.print channel "\n").lineStart = true := by
            rw [lineStart_print, if_pos hshows]
            rfl
          simp [printed?, hline]
      | false => simp [print, printed?, printing?, hshows, hstart]

theorem history_startLine_startLine (console : Console) (channel : Channel) :
    console.history [.startLine channel, .startLine channel] =
      console.history [.startLine channel] := by
  have htwice := printed?_startLine_startLine console channel
  simp only [history, act, htwice, Option.toList_none, List.append_nil]

/-- The line start after any actions. Their history is what they have added to the two streams; as
long as each text in it closes its style sequences, and texts of terminals have none, the line start
is set just when the texts, taken together, visibly end with a line, or show nothing on a console
that stood at a line start. Starting a line breaks the line just when they do not, and never twice.
-/
theorem lineStart_follows_history (console : Console) (actions : List Action)
    (hplain : ∀ text, Action.display text ∈ actions → '\x1b' ∉ text.toList)
    (hclosed : ∀ printed ∈ console.history actions, ¬ Text.LeavesOpen printed.text.toList) :
    let after := console.actAll actions
    let seen := Text.visible (Printed.merged (console.history actions)).toList
    (∀ stream,
      after.on stream = console.on stream ++ Printed.forms stream (console.history actions)) ∧
    (after.lineStart = true ↔ seen.getLast? = some '\n' ∨ seen = [] ∧ console.lineStart = true) ∧
    ∀ channel,
      (after.shows channel = true →
        (after.history [.startLine channel]).map Printed.text =
          if seen.getLast? = some '\n' ∨ seen = [] ∧ console.lineStart = true then []
          else ["\n"]) ∧
      after.history [.startLine channel, .startLine channel] =
        after.history [.startLine channel] := by
  intro after seen
  have hstart : after.lineStart = true ↔
      seen.getLast? = some '\n' ∨ seen = [] ∧ console.lineStart = true := by
    rw [← lineStartAfter_eq_true_iff]
    exact Bool.eq_iff_iff.mp (lineStart_actAll console hplain hclosed)
  refine ⟨fun stream => on_actAll console stream actions, hstart, fun channel => ⟨?_, ?_⟩⟩
  · intro hshows
    rw [text_history_startLine hshows]
    exact if_congr hstart rfl rfl
  · exact history_startLine_startLine after channel

/-- A diagnostic that is not shown and leaves its sequence open, one that is shown in colour, text
of a terminal that stops in a line, and a diagnostic of which nothing is visible. -/
theorem lineStart_follows_history_inLine :
    let console : Console := { fresh with color := true }
    let actions : List Action := [.print (.diagnostic .trace) "unseen\x1b[",
      .print (.diagnostic .always) "\x1b[1mone\x1b[0m\n", .display "two", .setMinimal true,
      .setTrace true, .print (.diagnostic .trace) "\x1b[2m\x1b[0m"]
    let after := console.actAll actions
    ((∀ text, Action.display text ∈ actions → '\x1b' ∉ text.toList) ∧
      (∀ printed ∈ console.history actions, ¬ Text.LeavesOpen printed.text.toList) ∧
      after.shows (.diagnostic .trace) = true) ∧
    after.lineStart = false ∧
    (after.history [.startLine (.diagnostic .trace)]).map Printed.text = ["\n"] := by
  intro console actions after
  have hplain : ∀ text, Action.display text ∈ actions → '\x1b' ∉ text.toList := by
    intro text htext
    have htwo : text = "two" := by simpa [actions] using htext
    rw [htwo]
    decide
  have hclosed : ∀ printed ∈ console.history actions, ¬ Text.LeavesOpen printed.text.toList := by
    decide +kernel
  have hshows : after.shows (.diagnostic .trace) = true := by
    decide +kernel
  have hseen : Text.visible (Printed.merged (console.history actions)).toList =
      "one\ntwo".toList := by
    decide +kernel
  obtain ⟨-, hstart, hlines⟩ := lineStart_follows_history console actions hplain hclosed
  have hline := (hlines (.diagnostic .trace)).1 hshows
  rw [hseen] at hstart hline
  exact ⟨⟨hplain, hclosed, hshows⟩, by simpa using hstart, hline⟩

end Console

end FoxMachine
