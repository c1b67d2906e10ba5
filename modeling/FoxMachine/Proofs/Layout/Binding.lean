import FoxMachine.Proofs.Layout.Basic
import Mathlib.Data.List.TakeWhile

namespace FoxMachine

/-!
Binding follows the layout. While a stream is read, the labels that are still waiting are those that
become due behind the last started line, and every other label has the address that the layout of
the stream so far has for it, whether a line or an inline declaration came to it first.
-/

namespace Binding

theorem takeWhile_zipIdx {α : Type} (keep : α → Bool) (items : List α) (start : Nat) :
    (items.zipIdx start).takeWhile (fun entry => keep entry.1) =
      (items.takeWhile keep).zipIdx start := by
  induction items generalizing start with
  | nil => rfl
  | cons item items ih =>
      rw [List.zipIdx_cons, List.takeWhile_cons, List.takeWhile_cons]
      cases keep item with
      | true => simp [ih]
      | false => rfl

theorem lt_length_takeWhile_iff {α : Type} {keep : α → Bool} {items : List α} {position : Nat} :
    position < (items.takeWhile keep).length ↔
      position < items.length ∧ ∀ item ∈ items.take (position + 1), keep item = true := by
  induction items generalizing position with
  | nil => simp
  | cons item items ih =>
      rw [List.takeWhile_cons, List.take_succ_cons]
      cases hitem : keep item with
      | false => simp [hitem]
      | true =>
          cases position with
          | zero => simp [hitem]
          | succ position => simp [ih, hitem]

/-- The labels that are due before a line, each with its position in the table. They are the first
ones, up to the first that is anchored to the line or behind it. -/
def dueBefore (labels : List Label) (line : Nat) : List (Label × Nat) :=
  labels.zipIdx.takeWhile fun entry => entry.1.line < line

theorem map_snd_dueBefore (labels : List Label) (line : Nat) :
    (dueBefore labels line).map Prod.snd =
      List.range (labels.takeWhile fun label => label.line < line).length := by
  have htake := takeWhile_zipIdx (fun label : Label => decide (label.line < line)) labels 0
  rw [dueBefore, htake, List.zipIdx_map_snd, List.range_eq_range']

theorem mem_dueBefore_iff {labels : List Label} {position line : Nat} :
    position ∈ (dueBefore labels line).map Prod.snd ↔
      position < labels.length ∧ Label.dueLine labels position < line := by
  rw [map_snd_dueBefore, List.mem_range, lt_length_takeWhile_iff]
  refine and_congr_right fun hposition => ?_
  simp [Label.dueLine_lt_iff hposition]

/-- The labels that wait for a line, of which the first may be due at it. -/
def waitingFor (labels : List Label) (line : Nat) : List (Label × Nat) :=
  labels.zipIdx.dropWhile fun entry => entry.1.line < line

theorem dueBefore_append_waitingFor (labels : List Label) (line : Nat) :
    dueBefore labels line ++ waitingFor labels line = labels.zipIdx :=
  List.takeWhile_append_dropWhile

theorem forall_mem_dueBefore (labels : List Label) (line : Nat) :
    ∀ entry ∈ dueBefore labels line, decide (entry.1.line < line + 1) = true := by
  intro entry hentry
  have hline := List.mem_takeWhile_imp hentry
  simp only [decide_eq_true_eq] at hline ⊢
  exact Nat.lt_succ_of_lt hline

theorem dueBefore_succ (labels : List Label) (line : Nat) :
    dueBefore labels (line + 1) =
      dueBefore labels line ++
        (waitingFor labels line).takeWhile fun entry => entry.1.line < line + 1 := by
  rw [← List.takeWhile_append_of_pos (forall_mem_dueBefore labels line),
    dueBefore_append_waitingFor, dueBefore]

theorem waitingFor_succ (labels : List Label) (line : Nat) :
    waitingFor labels (line + 1) =
      (waitingFor labels line).dropWhile fun entry => entry.1.line < line + 1 := by
  rw [← List.dropWhile_append_of_pos (forall_mem_dueBefore labels line),
    dueBefore_append_waitingFor, waitingFor]

/-- A line binds the labels that become due at it. -/
theorem mem_takeWhile_waitingFor_iff {labels : List Label} {position line : Nat} :
    position ∈ ((waitingFor labels line).takeWhile fun entry =>
        decide (entry.1.line < line + 1)).map Prod.snd ↔
      position < labels.length ∧ Label.dueLine labels position = line := by
  have hnodup : ((dueBefore labels (line + 1)).map Prod.snd).Nodup := by
    rw [map_snd_dueBefore]
    exact List.nodup_range
  have hsucc : position ∈ (dueBefore labels (line + 1)).map Prod.snd ↔
      position < labels.length ∧ Label.dueLine labels position < line + 1 := mem_dueBefore_iff
  rw [dueBefore_succ, List.map_append] at hnodup hsucc
  rw [List.mem_append, mem_dueBefore_iff] at hsucc
  constructor
  · intro hmem
    obtain ⟨hposition, hdue⟩ := hsucc.mp (.inr hmem)
    have hnotBefore : ¬ Label.dueLine labels position < line := by
      intro hbefore
      exact (List.nodup_append.mp hnodup).2.2 _ (mem_dueBefore_iff.mpr ⟨hposition, hbefore⟩) _
        hmem rfl
    exact ⟨hposition, by omega⟩
  · rintro ⟨hposition, rfl⟩
    rcases hsucc.mpr ⟨hposition, Nat.lt_succ_self _⟩ with hbefore | hmem
    · exact absurd hbefore.2 (Nat.lt_irrefl _)
    · exact hmem

theorem getElem?_foldl_bindAt (entries : List (Label × Nat)) (declared : Nat) (address : UInt16)
    (table : Array Label) (position : Nat) :
    (entries.foldl (fun labels (_, position) =>
      if position < declared then labels else Label.bindAt labels position address)
        table)[position]? =
      if declared ≤ position ∧ position ∈ entries.map Prod.snd then
        table[position]?.map fun label => { label with address }
      else table[position]? := by
  induction entries generalizing table with
  | nil => simp
  | cons entry entries ih =>
      obtain ⟨label, due⟩ := entry
      have hfirst : (if due < declared then table else Label.bindAt table due address)[position]? =
          if declared ≤ position ∧ position = due then
            table[position]?.map fun label => { label with address }
          else table[position]? := by
        by_cases hdue : due < declared
        · rw [if_pos hdue, if_neg (by omega)]
        · rw [if_neg hdue, Label.bindAt, Array.getElem?_modify]
          by_cases hposition : due = position
          · rw [if_pos hposition, if_pos (by omega)]
          · rw [if_neg hposition, if_neg (by omega)]
      rw [List.foldl_cons, ih, hfirst]
      simp only [List.map_cons, List.mem_cons]
      by_cases hdue : declared ≤ position
      · by_cases hmem : position ∈ entries.map Prod.snd
        · simp only [hdue, hmem, or_true, true_and, if_true]
          split
          · exact Option.map_map _ _ _
          · rfl
        · simp only [hdue, hmem, or_false, true_and, and_false, if_false]
      · simp only [hdue, false_and, if_false]

/-- A table of labels that has been bound as far as the layout of a stream goes. -/
structure Follows (labels : List Label) (layout : Layout) (binding : Binding) : Prop where
  labels_eq : ∀ position : Nat, binding.labels[position]? = (layout.bind labels)[position]?
  waiting_eq : binding.waiting = waitingFor labels binding.started
  started_eq : binding.started = layout.lineStarts.size
  declared_eq : binding.declared = min layout.declarations.size labels.length
  address_eq : binding.address = layout.address

variable {labels : List Label} {layout : Layout} {binding : Binding}

theorem Follows.toList_labels (h : Follows labels layout binding) :
    binding.labels.toList = layout.bind labels := by
  apply List.ext_getElem?
  intro position
  rw [Array.getElem?_toList, h.labels_eq]

theorem Follows.size_labels (h : Follows labels layout binding) :
    binding.labels.size = labels.length := by
  rw [← Array.length_toList, h.toList_labels, Layout.bind, List.length_mapIdx]

theorem Follows.startLine (h : Follows labels layout binding) :
    Follows labels { layout with lineStarts := layout.lineStarts.push layout.address }
      binding.startLine where
  labels_eq := by
    intro position
    have hnow : position ∈ (binding.waiting.takeWhile fun entry =>
          decide (entry.1.line < binding.started + 1)).map Prod.snd ↔
        position < labels.length ∧ Label.dueLine labels position = binding.started := by
      rw [h.waiting_eq]
      exact mem_takeWhile_waitingFor_iff
    simp only [Binding.startLine, getElem?_foldl_bindAt, ← Nat.lt_succ_iff, hnow, h.labels_eq,
      Layout.getElem?_bind]
    cases hlabel : labels[position]? with
    | none => simp
    | some label =>
        have hposition := (List.getElem?_eq_some_iff.mp hlabel).1
        rw [h.declared_eq, h.started_eq, h.address_eq]
        unfold Layout.address?
        rw [Array.getElem?_push]
        cases hdeclaration : layout.declarations[position]? with
        | some address =>
            -- An inline declaration was here first: the line passes the label over.
            have hdeclared := (Array.getElem?_eq_some_iff.mp hdeclaration).1
            rw [if_neg (by omega)]
            simp
        | none =>
            have hdeclared := Array.getElem?_eq_none_iff.mp hdeclaration
            by_cases hdue : Label.dueLine labels position = layout.lineStarts.size
            · rw [if_pos ⟨by omega, hposition, hdue⟩, if_pos hdue]
              rfl
            · rw [if_neg fun hbinds => hdue hbinds.2.2, if_neg hdue]
  waiting_eq := by
    simp only [Binding.startLine, waitingFor_succ, ← h.waiting_eq, Nat.lt_succ_iff]
  started_eq := by
    rw [Array.size_push, ← h.started_eq]
    rfl
  declared_eq := h.declared_eq
  address_eq := h.address_eq

theorem Follows.declare (h : Follows labels layout binding) (name : String) :
    Follows labels { layout with declarations := layout.declarations.push layout.address }
      (binding.declare name) := by
  have hdeclared := h.declared_eq
  have hpush : (layout.declarations.push layout.address).size = layout.declarations.size + 1 :=
    Array.size_push _
  unfold Binding.declare
  rw [h.size_labels]
  split
  next hmore =>
      have hsize : binding.declared = layout.declarations.size := by omega
      refine ⟨fun position => ?_, h.waiting_eq, h.started_eq, ?_, h.address_eq⟩
      · simp only [Label.bindAt, Array.getElem?_modify, h.labels_eq, Layout.getElem?_bind,
          Layout.address?, Array.getElem?_push, hsize, h.address_eq]
        by_cases hposition : layout.declarations.size = position
        · rw [if_pos hposition, if_pos hposition.symm]
          exact Option.map_map _ _ _
        · rw [if_neg hposition, if_neg (Ne.symm hposition)]
      · dsimp only
        omega
  next hall =>
      -- The place that is noted belongs to no label.
      refine ⟨fun position => ?_, h.waiting_eq, h.started_eq, ?_, h.address_eq⟩
      · rw [h.labels_eq, Layout.getElem?_bind, Layout.getElem?_bind]
        refine Option.map_congr fun label hlabel => ?_
        have hposition := (List.getElem?_eq_some_iff.mp hlabel).1
        rw [Layout.address?, Layout.address?, Array.getElem?_push, if_neg (by omega)]
      · dsimp only
        omega

theorem Follows.push (h : Follows labels layout binding) (token : Token) :
    Follows labels (layout.push token) (binding.push token) := by
  obtain ⟨kind, span⟩ := token
  cases kind with
  | terminator => exact h.startLine
  | declaration name => exact h.declare name
  | null => exact h
  | _ =>
      exact ⟨h.labels_eq, h.waiting_eq, h.started_eq, h.declared_eq, congrArg (· + 1) h.address_eq⟩

theorem follows_unstarted (labels : List Label) :
    Follows labels ⟨0, #[], #[]⟩ ⟨labels.toArray, labels.zipIdx, 0, 0, 0, #[]⟩ where
  labels_eq := by
    intro position
    simp [Layout.getElem?_bind, Layout.address?]
  waiting_eq := by
    have hnone : dueBefore labels 0 = [] := by simp [dueBefore, List.takeWhile_eq_nil_iff]
    simpa [hnone] using (dueBefore_append_waitingFor labels 0).symm
  started_eq := rfl
  declared_eq := by simp
  address_eq := rfl

theorem follows_ofTokens (tokens : List Token) (labels : List Label) :
    Follows labels (Layout.ofTokens tokens) (ofTokens tokens labels) := by
  induction tokens using List.reverseRecOn with
  | nil => exact (follows_unstarted labels).startLine
  | append_singleton tokens token ih =>
      rw [Layout.ofTokens_concat, ofTokens_concat]
      exact ih.push token

theorem skipped_ofTokens (tokens : List Token) (labels : List Label) :
    (ofTokens tokens labels).skipped.toList =
      (tokens.filterMap (·.kind.declared?)).drop labels.length := by
  induction tokens using List.reverseRecOn with
  | nil => simp [ofLabels, Binding.startLine]
  | append_singleton tokens token ih =>
      have hfollows := follows_ofTokens tokens labels
      have hdeclared := hfollows.declared_eq
      rw [Layout.size_declarations_ofTokens] at hdeclared
      rw [ofTokens_concat, List.filterMap_append, List.drop_append, ← ih]
      obtain ⟨kind, span⟩ := token
      cases kind with
      | declaration name =>
          have hname : [Token.mk (.declaration name) span].filterMap (·.kind.declared?) = [name] :=
            rfl
          unfold Binding.push Binding.declare
          dsimp only
          rw [hfollows.size_labels, hname]
          split
          next hmore =>
              have hdrop : [name].drop
                  (labels.length - (tokens.filterMap (·.kind.declared?)).length) = [] := by
                rw [List.drop_eq_nil_iff, List.length_singleton]
                omega
              rw [hdrop, List.append_nil]
          next hall =>
              rw [Nat.sub_eq_zero_of_le (by omega), List.drop_zero, Array.toList_push]
      | _ =>
          simp [Binding.push, Binding.startLine, Token.Kind.declared?, Token.isWord,
            Token.Kind.isWord]

end Binding

namespace Label

theorem resolve_eq (tokens : List Token) (labels : List Label) :
    resolve tokens labels = (Layout.ofTokens tokens).bind labels :=
  (Binding.follows_ofTokens tokens labels).toList_labels

@[simp] theorem resolve_nil (tokens : List Token) : resolve tokens [] = [] := by
  rw [resolve_eq]
  rfl

theorem skippedDeclarations_eq (tokens : List Token) (labels : List Label) :
    skippedDeclarations tokens labels =
      (tokens.filterMap (·.kind.declared?)).drop labels.length :=
  Binding.skipped_ofTokens tokens labels

end Label

end FoxMachine
