import FoxMachine.Proofs.Assembly.Modes
import FoxMachine.Proofs.Console.Observation
import FoxMachine.Proofs.Outline.Partition
import FoxMachine.Proofs.Text.Visible

namespace FoxMachine

/-!
What is shown of a strict assembly that is not traced: the warnings of inline declarations that
found every label bound. Each ends its line, except where the name it quotes opens a style sequence
and does not close it; the rest of the line, with its end, is then part of that sequence.
-/

theorem Text.Piece.LiesIn.mem {piece : Piece} {start : Nat} {text : List Char} {c : Char}
    (h : piece.LiesIn start text) (hc : c ∈ piece.text) : c ∈ text := by
  obtain ⟨before, after, rfl, -⟩ := h
  simp [hc]

theorem Outline.newline_not_mem_of_mem_places {source : String} {place : Place}
    (hplace : place ∈ (ofSource source).places) : '\n' ∉ place.piece.text := by
  obtain ⟨line, hline, hpart⟩ := exists_line_of_mem_places hplace
  obtain ⟨_, _, hnewline, _⟩ := text_of_mem_cleanLines hline
  exact fun hmem => hnewline ((Line.liesIn_of_mem_parts hpart).mem hmem)

theorem Token.Kind.eq_cons_of_declared? {afterJump : Bool} {kind : Kind} {part : List Char}
    {name : String} (hspelled : SpelledBy afterJump kind part)
    (hname : kind.declared? = some name) :
    part = ':' :: name.toList := by
  cases hspelled with
  | declaration =>
      cases hname
      rw [String.toList_ofList]
  | _ => contradiction

theorem Outline.newline_not_mem_of_declared {source name : String} {tokens : List Token}
    (htokens : tokenStream (ofSource source).lines = .ok tokens)
    (hname : name ∈ tokens.filterMap (·.kind.declared?)) : '\n' ∉ name.toList := by
  obtain ⟨token, htoken, hdeclared⟩ := List.mem_filterMap.mp hname
  have hpart : token ∈ tokens.filter Token.isPart := by
    refine List.mem_filter.mpr ⟨htoken, bne_iff_ne.mpr fun hkind => ?_⟩
    rw [hkind] at hdeclared
    contradiction
  obtain ⟨place, hplace, hread⟩ :=
    Rows.exists_of_mem_right (forall₂_read_of_tokenStream htokens) hpart
  have hspelled := Token.Kind.eq_cons_of_declared? (Place.read_eq_ok_iff.mp hread).1 hdeclared
  have hnewline := newline_not_mem_of_mem_places hplace
  rw [hspelled] at hnewline
  exact fun hmem => hnewline (List.mem_cons_of_mem _ hmem)

namespace Notice

theorem visible_declarationSkipped (name : String) :
    Text.visible (declarationSkipped name).line.toList =
      "warning: skipping declaration of `".toList ++ (Text.visible name.toList ++
        Text.visibleFrom (name.toList.foldl Text.inSequence false)
          ("`, every label is already bound".toList ++ ['\n'])) := by
  have hline : (declarationSkipped name).line =
      "warning: skipping declaration of `" ++ name ++ "`, every label is already bound" ++ "\n" :=
  rfl
  have hnewline : "\n".toList = ['\n'] := rfl
  have hopening : Text.visibleFrom false "warning: skipping declaration of `".toList =
      "warning: skipping declaration of `".toList := by decide +kernel
  have hclosed :
      "warning: skipping declaration of `".toList.foldl Text.inSequence false = false := by
    decide +kernel
  rw [hline, String.toList_append, String.toList_append, String.toList_append, hnewline,
    List.append_assoc, List.append_assoc, Text.visible, Text.visibleFrom_append,
    Text.visibleFrom_append, hopening, hclosed, Text.visible]

theorem visible_declarationSkipped_ne_nil (name : String) :
    Text.visible (declarationSkipped name).line.toList ≠ [] := by
  simp [visible_declarationSkipped]

theorem stopsInLine_declarationSkipped {name : String} (hname : '\n' ∉ name.toList) :
    Text.stopsInLine (Text.visible (declarationSkipped name).line.toList) =
      decide (Text.LeavesOpen name.toList) := by
  have hopen : name.toList.foldl Text.inSequence false = decide (Text.LeavesOpen name.toList) := by
    rw [Bool.eq_iff_iff, decide_eq_true_iff, Text.foldl_inSequence_iff]
    simp
  rw [visible_declarationSkipped, hopen]
  by_cases h : Text.LeavesOpen name.toList
  case pos =>
    rw [decide_eq_true h, Text.visibleFrom_true_eq_nil (by decide +kernel), List.append_nil]
    apply Text.stopsInLine_of_not_mem
    · simp
    · rw [List.mem_append, not_or]
      exact ⟨by decide +kernel, fun hmem => hname (Text.mem_of_mem_visibleFrom hmem)⟩
  case neg =>
    have hending : Text.visibleFrom false ("`, every label is already bound".toList ++ ['\n']) =
        "`, every label is already bound".toList ++ ['\n'] := by decide +kernel
    rw [decide_eq_false h, hending, ← List.append_assoc, ← List.append_assoc]
    exact Text.stopsInLine_append _ (List.cons_ne_nil _ _)

end Notice

namespace Assembly

def skipped (assembly : Assembly) : List String :=
  Label.skippedDeclarations assembly.tokens assembly.labels

/-- Whether the last declaration that was skipped opens a style sequence and does not close it. -/
def LeavesOpen (assembly : Assembly) : Prop :=
  ∃ name ∈ assembly.skipped.getLast?, Text.LeavesOpen name.toList

instance (assembly : Assembly) : Decidable assembly.LeavesOpen :=
  inferInstanceAs (Decidable (∃ name ∈ assembly.skipped.getLast?, Text.LeavesOpen name.toList))

variable {source : String} {assembly : Assembly}

theorem skipped_eq (h : (assemble .strict source).result = .ok assembly) :
    assembly.skipped =
      Label.skippedDeclarations assembly.tokens (Outline.ofSource source).labels := by
  obtain ⟨_, hlabels, _⟩ := emission_of_result h
  have hlength := congrArg List.length
    (Label.names_resolve assembly.tokens (Outline.ofSource source).labels)
  rw [List.length_map, List.length_map] at hlength
  rw [skipped, hlabels, Label.skippedDeclarations_eq, Label.skippedDeclarations_eq, hlength]

theorem shown_notices (h : (assemble .strict source).result = .ok assembly) :
    ((assemble .strict source).notices.map Effect.notice).flatMap (Effect.shown false) =
      assembly.skipped.flatMap fun name =>
        Text.visible (Notice.declarationSkipped name).line.toList := by
  obtain ⟨hread, hlabels, emission, hemission, _⟩ := emission_of_result h
  have hnotices : emission.notices = [] := by
    obtain ⟨words, _, rfl⟩ := FirstFault.map_eq_ok_iff.mp hemission
    rfl
  rw [hlabels] at hemission
  rw [assemble_of_tokenStream hread, generate, hemission, skipped_eq h]
  simp [hnotices, Label.resolveNotices, Effect.shown, Notice.condition, List.flatMap_map,
    List.flatMap_eq_nil_iff.mpr]

theorem lineStart_notifyAll {console : Console}
    (h : (assemble .strict source).result = .ok assembly) (htrace : console.trace = false)
    (hstart : console.lineStart = true) :
    (console.notifyAll (assemble .strict source).notices).lineStart =
      !decide assembly.LeavesOpen := by
  have hlast : assembly.skipped.getLast?.any (fun name =>
      Text.stopsInLine (Text.visible (Notice.declarationSkipped name).line.toList)) =
        decide assembly.LeavesOpen := by
    cases hname : assembly.skipped.getLast? with
    | none => simp [LeavesOpen, hname]
    | some name =>
        have hmem :
            name ∈ Label.skippedDeclarations assembly.tokens (Outline.ofSource source).labels :=
          skipped_eq h ▸ List.mem_of_getLast? hname
        rw [Label.skippedDeclarations_eq] at hmem
        have hline := Outline.newline_not_mem_of_declared (emission_of_result h).1
          (List.mem_of_mem_drop hmem)
        simp [LeavesOpen, hname, Notice.stopsInLine_declarationSkipped hline]
  rw [Console.notifyAll_eq_observeAll, Console.lineStart_observeAll, htrace, hstart,
    Console.lineStartAfter_true, shown_notices h, Text.stopsInLine_flatMap, hlast]
  exact fun name _ => Notice.visible_declarationSkipped_ne_nil name

end Assembly

end FoxMachine
