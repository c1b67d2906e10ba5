import FoxMachine.Proofs.Machine.Effects

namespace FoxMachine

namespace Text

def stopsInLine (text : List Char) : Bool :=
  text.getLast?.any (· != '\n')

theorem stopsInLine_append (first : List Char) {second : List Char} (h : second ≠ []) :
    stopsInLine (first ++ second) = stopsInLine second := by
  rw [stopsInLine, stopsInLine, List.getLast?_append, List.getLast?_eq_some_getLast h,
    Option.some_or]

theorem stopsInLine_of_not_mem {text : List Char} (hne : text ≠ []) (h : '\n' ∉ text) :
    stopsInLine text = true := by
  rw [stopsInLine, List.getLast?_eq_some_getLast hne, Option.any_some, bne_iff_ne]
  exact ne_of_mem_of_not_mem (List.getLast_mem hne) h

theorem stopsInLine_flatMap {α : Type} (f : α → List Char) {items : List α}
    (h : ∀ item ∈ items, f item ≠ []) :
    stopsInLine (items.flatMap f) = items.getLast?.any fun item => stopsInLine (f item) := by
  rcases List.eq_nil_or_concat items with rfl | ⟨items, item, rfl⟩
  · rfl
  · rw [List.concat_eq_append, List.flatMap_append, List.flatMap_singleton,
      stopsInLine_append _ (h item (by simp)), List.getLast?_concat, Option.any_some]

end Text

/-- The characters of an effect that a reader sees, with or without tracing. -/
def Effect.shown (trace : Bool) : Effect → List Char
  | .text written => written.toList
  | .notice said =>
      if trace = true ∨ said.condition = .always then Text.visible said.line.toList else []

namespace Console

theorem lineStartAfter_append (lineStart : Bool) (first second : List Char) :
    lineStartAfter (lineStartAfter lineStart first) second =
      lineStartAfter lineStart (first ++ second) := by
  unfold lineStartAfter
  rw [List.getLast?_append]
  cases second.getLast? <;> rfl

theorem lineStartAfter_true (text : List Char) :
    lineStartAfter true text = !Text.stopsInLine text := by
  unfold lineStartAfter Text.stopsInLine
  cases text.getLast? with
  | none => rfl
  | some c => simp [bne]

theorem lineStartAfter_of_ne_nil (lineStart : Bool) {text : List Char} (h : text ≠ []) :
    lineStartAfter lineStart text = !Text.stopsInLine text := by
  rw [← lineStartAfter_true]
  unfold lineStartAfter
  rw [List.getLast?_eq_some_getLast h]

theorem observeAll_append (console : Console) (first second : List Effect) :
    console.observeAll (first ++ second) = (console.observeAll first).observeAll second :=
  List.foldl_append

@[simp] theorem output_print_diagnostic (console : Console) (condition : Condition)
    (text : String) : (console.print (.diagnostic condition) text).output = console.output := by
  unfold print
  split <;> rfl

@[simp] theorem output_printAll_diagnostic (console : Console) (condition : Condition)
    (parts : List String) :
    (console.printAll (.diagnostic condition) parts).output = console.output := by
  unfold printAll
  induction parts generalizing console with
  | nil => rfl
  | cons part parts ih => rw [List.foldl_cons, ih, output_print_diagnostic]

theorem output_startLine_normal (console : Console) :
    (console.startLine .normal).output =
      console.output ++ if console.lineStart then "" else "\n" := by
  unfold startLine
  split
  case isTrue => exact (String.append_empty).symm
  case isFalse => rfl

@[simp] theorem output_notify (console : Console) (notice : Notice) :
    (console.notify notice).output = console.output :=
  output_print_diagnostic _ _ _

theorem output_observe (console : Console) (effect : Effect) :
    (console.observe effect).output = console.output ++ effect.text?.getD "" := by
  cases effect with
  | notice notice => simp [observe, Effect.text?]
  | text text => rfl

theorem output_observeAll (console : Console) (effects : List Effect) :
    (console.observeAll effects).output = console.output ++ Effect.texts effects := by
  unfold observeAll
  induction effects generalizing console with
  | nil => simp
  | cons effect effects ih =>
      rw [List.foldl_cons, ih, output_observe, String.append_assoc]
      cases effect <;> simp [Effect.text?]

def settings (console : Console) : Bool × Bool × Bool :=
  (console.trace, console.minimal, console.color)

theorem settings_print (console : Console) (channel : Channel) (text : String) :
    (console.print channel text).settings = console.settings := by
  unfold print
  split
  · cases channel <;> rfl
  · rfl

theorem settings_printAll (console : Console) (channel : Channel) (parts : List String) :
    (console.printAll channel parts).settings = console.settings := by
  unfold printAll
  induction parts generalizing console with
  | nil => rfl
  | cons part parts ih => rw [List.foldl_cons, ih, settings_print]

theorem settings_startLine (console : Console) (channel : Channel) :
    (console.startLine channel).settings = console.settings := by
  unfold startLine
  split
  · rfl
  · exact settings_print _ _ _

theorem settings_observe (console : Console) (effect : Effect) :
    (console.observe effect).settings = console.settings := by
  cases effect with
  | notice notice => exact settings_print _ _ _
  | text text => rfl

theorem settings_observeAll (console : Console) (effects : List Effect) :
    (console.observeAll effects).settings = console.settings := by
  unfold observeAll
  induction effects generalizing console with
  | nil => rfl
  | cons effect effects ih => rw [List.foldl_cons, ih, settings_observe]

theorem trace_observe (console : Console) (effect : Effect) :
    (console.observe effect).trace = console.trace :=
  congrArg Prod.fst (settings_observe console effect)

def diagnosed (console : Console) : Effect → String
  | .notice notice =>
      if console.shows (.diagnostic notice.condition) then console.diagnosticForm notice.line
      else ""
  | .text _ => ""

theorem diagnosed_eq_of_settings {console console' : Console}
    (h : console.settings = console'.settings) : console.diagnosed = console'.diagnosed := by
  obtain ⟨htrace, hform⟩ := Prod.mk.inj h
  obtain ⟨hminimal, hcolor⟩ := Prod.mk.inj hform
  funext effect
  cases effect with
  | text text => rfl
  | notice notice =>
      cases hcondition : notice.condition <;>
        simp [diagnosed, shows, diagnosticForm, hcondition, htrace, hminimal, hcolor]

theorem errors_observe (console : Console) (effect : Effect) :
    (console.observe effect).errors = console.errors ++ console.diagnosed effect := by
  cases effect with
  | text text => exact String.append_empty.symm
  | notice notice =>
      rw [observe, notify, print, diagnosed]
      split
      · rfl
      · exact String.append_empty.symm

theorem errors_observeAll (console : Console) (effects : List Effect) :
    (console.observeAll effects).errors =
      console.errors ++ String.join (effects.map console.diagnosed) := by
  unfold observeAll
  induction effects generalizing console with
  | nil => simp
  | cons effect effects ih =>
      rw [List.foldl_cons, ih, errors_observe,
        diagnosed_eq_of_settings (settings_observe console effect)]
      simp [String.append_assoc]

theorem lineStart_print (console : Console) (channel : Channel) (text : String) :
    (console.print channel text).lineStart =
      if console.shows channel then
        lineStartAfter console.lineStart (Text.visible text.toList)
      else console.lineStart := by
  unfold print
  split
  · cases channel <;> rfl
  · rfl

theorem shows_diagnostic (console : Console) (condition : Condition) :
    console.shows (.diagnostic condition) = true ↔
      console.trace = true ∨ condition = .always := by
  cases condition <;> simp [shows]

theorem lineStart_observe (console : Console) (effect : Effect) :
    (console.observe effect).lineStart =
      lineStartAfter console.lineStart (effect.shown console.trace) := by
  cases effect with
  | text text => rfl
  | notice notice =>
      rw [observe, notify, lineStart_print, Effect.shown]
      simp only [shows_diagnostic]
      split <;> rfl

theorem lineStart_observeAll (console : Console) (effects : List Effect) :
    (console.observeAll effects).lineStart =
      lineStartAfter console.lineStart (effects.flatMap (Effect.shown console.trace)) := by
  unfold observeAll
  induction effects generalizing console with
  | nil => rfl
  | cons effect effects ih =>
      rw [List.foldl_cons, ih, trace_observe, lineStart_observe,
        lineStartAfter_append, List.flatMap_cons]

theorem notifyAll_eq_observeAll (console : Console) (notices : List Notice) :
    console.notifyAll notices = console.observeAll (notices.map .notice) := by
  rw [observeAll, List.foldl_map]
  rfl

theorem settings_notifyAll (console : Console) (notices : List Notice) :
    (console.notifyAll notices).settings = console.settings := by
  rw [notifyAll_eq_observeAll, settings_observeAll]

theorem trace_notifyAll (console : Console) (notices : List Notice) :
    (console.notifyAll notices).trace = console.trace :=
  congrArg Prod.fst (settings_notifyAll console notices)

theorem color_notifyAll (console : Console) (notices : List Notice) :
    (console.notifyAll notices).color = console.color :=
  congrArg (·.2.2) (settings_notifyAll console notices)

theorem output_notifyAll (console : Console) (notices : List Notice) :
    (console.notifyAll notices).output = console.output := by
  have htexts : (notices.map Effect.notice).filterMap Effect.text? = [] := by
    simp [Effect.text?]
  rw [notifyAll_eq_observeAll, output_observeAll, Effect.texts, htexts]
  exact String.append_empty

end Console

end FoxMachine
