import FoxMachine.Proofs.Assembly.Words
import FoxMachine.Proofs.Outline.Contents
import FoxMachine.Proofs.Text.Trimming
import Mathlib.Logic.Relation

namespace FoxMachine

namespace Line

theorem code_append_of_mem {first : List Char} (h : ';' ∈ first) (rest : List Char) :
    code (first ++ rest) = code first := by
  obtain ⟨before, after, rfl, hbefore⟩ := List.eq_append_cons_of_mem h
  rw [List.append_assoc, List.cons_append, code, code, Text.takeWhile_ne_append hbefore,
    Text.takeWhile_ne_append hbefore, List.takeWhile_cons_of_neg (by simp),
    List.takeWhile_cons_of_neg (by simp)]

theorem code_append_of_not_mem {first : List Char} (h : ';' ∉ first) (rest : List Char) :
    code (first ++ rest) = first ++ code rest :=
  Text.takeWhile_ne_append h rest

@[simp] theorem code_comment (text : List Char) : code (';' :: text) = [] := rfl

theorem not_mem_of_isBlank {blanks : List Char} (h : Text.IsBlank blanks) : ';' ∉ blanks :=
  fun hmem => absurd (h ';' hmem) (by decide)

variable {raw blanks : List Char}

theorem cleaned_append_left (hblanks : Text.IsBlank blanks) (raw : List Char) :
    cleaned (blanks ++ raw) = cleaned raw := by
  rw [cleaned, code_append_of_not_mem (not_mem_of_isBlank hblanks),
    Text.trim_append_of_isBlank_left hblanks, ← cleaned]

theorem cleaned_append_right (raw : List Char) (hblanks : Text.IsBlank blanks) :
    cleaned (raw ++ blanks) = cleaned raw := by
  by_cases hcomment : ';' ∈ raw
  · rw [cleaned, code_append_of_mem hcomment, ← cleaned]
  · rw [cleaned, code_append_of_not_mem hcomment, code_of_not_mem (not_mem_of_isBlank hblanks),
      Text.trim_append_of_isBlank_right _ hblanks, cleaned, code_of_not_mem hcomment]

theorem cleaned_append_comment (raw text : List Char) :
    cleaned (raw ++ ';' :: text) = cleaned raw := by
  by_cases hcomment : ';' ∈ raw
  · rw [cleaned, code_append_of_mem hcomment, ← cleaned]
  · rw [cleaned, code_append_of_not_mem hcomment, code_comment, List.append_nil, cleaned,
      code_of_not_mem hcomment]

theorem cleaned_of_isBlank (hblanks : Text.IsBlank blanks) : cleaned blanks = [] := by
  have hcleaned := cleaned_append_left hblanks []
  rwa [List.append_nil] at hcleaned

theorem isBlank_replicate (count : Nat) : Text.IsBlank (List.replicate count ' ') := by
  intro c hc
  rw [List.eq_of_mem_replicate hc]
  rfl

theorem cleaned_replicate (first second : List Char) :
    (∃ text, ∀ count, cleaned (first ++ List.replicate count ' ' ++ second) = text) ∨
    ∃ c start stop, ∀ count, cleaned (first ++ List.replicate count ' ' ++ second) =
      c :: (start ++ List.replicate count ' ' ++ stop) := by
  by_cases hcomment : ';' ∈ first
  · left
    refine ⟨cleaned first, fun count => ?_⟩
    rw [cleaned, List.append_assoc, code_append_of_mem hcomment, ← cleaned]
  · have hcleaned : ∀ count, cleaned (first ++ List.replicate count ' ' ++ second) =
        Text.trim (first ++ List.replicate count ' ' ++ code second) := by
      intro count
      rw [cleaned, List.append_assoc, code_append_of_not_mem hcomment,
        code_append_of_not_mem (not_mem_of_isBlank (isBlank_replicate count)),
        ← List.append_assoc]
    simp only [hcleaned]
    rcases Text.isBlank_or_exists first with hfirst | hfirst
    · left
      refine ⟨Text.trim (code second), fun count => ?_⟩
      rw [List.append_assoc, Text.trim_append_of_isBlank_left hfirst,
        Text.trim_append_of_isBlank_left (isBlank_replicate count)]
    · rcases Text.isBlank_or_exists (code second) with hsecond | hsecond
      · left
        refine ⟨Text.trim first, fun count => ?_⟩
        rw [Text.trim_append_of_isBlank_right _ hsecond,
          Text.trim_append_of_isBlank_right _ (isBlank_replicate count)]
      · right
        obtain ⟨c, start, hstart⟩ := List.exists_cons_of_ne_nil (Text.trimStart_ne_nil hfirst)
        refine ⟨c, start, Text.trimEnd (code second), fun count => ?_⟩
        rw [Text.trim_append_append hfirst _ hsecond, hstart]
        rfl

theorem gist?_replicate {first second : List Char} (count : Nat)
    (hcode : (cleaned (first ++ ' ' :: second)).head? ≠ some ':') :
    gist? (first ++ List.replicate (count + 1) ' ' ++ second) =
      gist? (first ++ ' ' :: second) := by
  have hsingle : first ++ ' ' :: second = first ++ List.replicate (0 + 1) ' ' ++ second := by simp
  rw [hsingle] at hcode ⊢
  unfold gist?
  rcases cleaned_replicate first second with ⟨text, htext⟩ | ⟨c, start, stop, htext⟩
  · rw [htext, htext]
  · rw [htext, List.head?_cons] at hcode
    have hparts : ∀ count, Content.ofText (c :: (start ++ List.replicate (count + 1) ' ' ++ stop)) =
        .code (Text.parts (c :: start) ++ Text.parts stop) := by
      intro count
      rw [Content.ofText_of_head? (by simpa using hcode), ← Text.parts_append_replicate _ _ count]
      rfl
    rw [htext, htext]
    dsimp only
    rw [hparts, hparts]

/-- Lines of a source that say nothing: blanks, and a comment behind them. -/
inductive IsIdle : List Char → Prop
  | blank {blanks : List Char} (hblanks : Text.IsBlank blanks) : IsIdle blanks
  | comment {blanks : List Char} (hblanks : Text.IsBlank blanks) (text : List Char) :
      IsIdle (blanks ++ ';' :: text)

theorem gist?_of_isIdle {raw : List Char} (h : IsIdle raw) : gist? raw = none := by
  have hcleaned : cleaned raw = [] := by
    cases h with
    | blank hblanks => exact cleaned_of_isBlank hblanks
    | comment hblanks text => rw [cleaned_append_comment, cleaned_of_isBlank hblanks]
  unfold gist?
  rw [hcleaned]

/-- What may be done to a line of a source without changing what it says. A carriage return at its
end may belong to the line or to its ending. -/
inductive Restyles : List Char → List Char → Prop
  | indent {c : Char} (hblank : Text.isBlank c = true) (raw : List Char) : Restyles raw (c :: raw)
  | trail {c : Char} (hblank : Text.isBlank c = true) (raw : List Char) :
      Restyles raw (raw ++ [c])
  | comment (raw text : List Char) : Restyles raw (raw ++ ';' :: text)
  /-- Several spaces for one, on a line that declares no label. -/
  | space {first second : List Char} (count : Nat)
      (hcode : (cleaned (first ++ ' ' :: second)).head? ≠ some ':') :
      Restyles (first ++ ' ' :: second) (first ++ List.replicate (count + 1) ' ' ++ second)
  | carriageReturn (raw : List Char) : Restyles raw (raw ++ ['\r'])
  | beforeReturn {raw raw' : List Char} (h : Restyles raw raw') :
      Restyles (raw ++ ['\r']) (raw' ++ ['\r'])

theorem isBlank_singleton {c : Char} (hblank : Text.isBlank c = true) : Text.IsBlank [c] := by
  intro c' hc'
  rwa [List.mem_singleton.mp hc']

theorem gist?_append_right (raw : List Char) (hblanks : Text.IsBlank blanks) :
    gist? (raw ++ blanks) = gist? raw := by
  unfold gist?
  rw [cleaned_append_right raw hblanks]

theorem Restyles.gist?_eq {raw raw' : List Char} (h : Restyles raw raw') :
    gist? raw' = gist? raw := by
  induction h with
  | indent hblank raw =>
      unfold gist?
      rw [← List.singleton_append, cleaned_append_left (isBlank_singleton hblank)]
  | trail hblank raw => exact gist?_append_right raw (isBlank_singleton hblank)
  | comment raw text =>
      unfold gist?
      rw [cleaned_append_comment]
  | space count hcode => exact gist?_replicate count hcode
  | carriageReturn raw => exact gist?_append_right raw (isBlank_singleton rfl)
  | beforeReturn _ ih =>
      rw [gist?_append_right _ (isBlank_singleton rfl), ih,
        gist?_append_right _ (isBlank_singleton rfl)]

end Line

namespace Text

inductive Reformats : List (List Char) → List (List Char) → Prop
  | insert (before after : List (List Char)) {raw : List Char} (hidle : Line.IsIdle raw) :
      Reformats (before ++ after) (before ++ raw :: after)
  | restyle (before after : List (List Char)) {raw raw' : List Char}
      (hstyle : Line.Restyles raw raw') :
      Reformats (before ++ raw :: after) (before ++ raw' :: after)
  | endLast (lines : List (List Char)) : Reformats lines (lines ++ [[]])

theorem Reformats.gists_eq {lines lines' : List (List Char)} (h : Reformats lines lines') :
    lines.filterMap Line.gist? = lines'.filterMap Line.gist? := by
  cases h with
  | insert before after hidle =>
      simp only [List.filterMap_append, List.filterMap_cons, Line.gist?_of_isIdle hidle]
  | restyle before after hstyle =>
      simp only [List.filterMap_append, List.filterMap_cons, hstyle.gist?_eq]
  | endLast =>
      rw [List.filterMap_append]
      exact (List.append_nil _).symm

end Text

/-- A source made from another by a change of its layout. Its lines are what stands between the
newlines. -/
def Reformatted (source source' : String) : Prop :=
  Text.Reformats (source.toList.splitOn '\n') (source'.toList.splitOn '\n')

abbrev SameButForLayout : String → String → Prop :=
  Relation.EqvGen Reformatted

theorem contents_eq_of_sameButForLayout {source source' : String}
    (h : SameButForLayout source source') :
    contents source.toList = contents source'.toList := by
  induction h with
  | rel source source' hchange =>
      rw [contents_eq, Text.Reformats.gists_eq hchange, ← contents_eq]
  | refl => rfl
  | symm _ _ _ ih => exact ih.symm
  | trans _ _ _ _ _ hfirst hsecond => exact hfirst.trans hsecond

namespace Assembly

/-- Assemblies that differ in the places of their tokens at most. -/
structure SameProgram (first second : Assembly) : Prop where
  kinds_eq : first.tokens.map Token.kind = second.tokens.map Token.kind
  labels_eq : first.labels = second.labels
  words_eq : first.image.words = second.image.words

variable {source source' : String}

theorem agree_result_of_alike (mode : Mode)
    (h : (Outline.ofSource source).Alike (Outline.ofSource source')) :
    Agree SourceFault.SaysSame SameProgram (assemble mode source).result
      (assemble mode source').result := by
  have htokens := agree_tokenStream h.lines
  rw [result_assemble, result_assemble, h.labels_eq]
  generalize tokenStream (Outline.ofSource source).lines = attempt at htokens ⊢
  generalize tokenStream (Outline.ofSource source').lines = attempt' at htokens ⊢
  cases htokens with
  | error hfaults => exact .error hfaults
  | @ok tokens tokens' hkinds =>
      dsimp only
      rw [hkinds.resolve_eq]
      refine (hkinds.agree_ofTokens mode _).map ?_
      intro emission emission' hwords
      refine ⟨Token.sameKinds_iff_map_kind.mp hkinds, rfl, ?_⟩
      rw [Emission.words_image, Emission.words_image, hwords]

/-- Assembly does not depend on the layout of a source. -/
theorem agree_of_sameButForLayout (mode : Mode) (h : SameButForLayout source source') :
    Agree SourceFault.SaysSame SameProgram (assemble mode source).result
      (assemble mode source').result := by
  apply agree_result_of_alike mode
  exact Outline.alike_of_contents (contents_eq_of_sameButForLayout h)

/-- A comment behind a declaration, a line that says nothing before the next, and repeated spaces.
-/
theorem agree_of_sameButForLayout_commented :
    SameButForLayout ":a\nJMP a" ":a; here\n \t; on\nJMP   a" ∧
      ∃ first second, (assemble .strict ":a\nJMP a").result = .ok first ∧
        (assemble .strict ":a; here\n \t; on\nJMP   a").result = .ok second ∧
        first.image.words = [0x0C, 0, 0x00, 0x0E] ∧ SameProgram first second := by
  have hcomment : Reformatted ":a\nJMP a" ":a; here\nJMP a" := by
    have hlines : ":a\nJMP a".toList.splitOn '\n' = [] ++ ":a".toList :: ["JMP a".toList] := by
      decide +kernel
    have hlines' : ":a; here\nJMP a".toList.splitOn '\n' =
        [] ++ (":a".toList ++ ';' :: " here".toList) :: ["JMP a".toList] := by
      decide +kernel
    rw [Reformatted, hlines, hlines']
    exact .restyle _ _ (.comment _ _)
  have hidle : Reformatted ":a; here\nJMP a" ":a; here\n \t; on\nJMP a" := by
    have hlines : ":a; here\nJMP a".toList.splitOn '\n' =
        [":a; here".toList] ++ ["JMP a".toList] := by
      decide +kernel
    have hlines' : ":a; here\n \t; on\nJMP a".toList.splitOn '\n' =
        [":a; here".toList] ++ (" \t".toList ++ ';' :: " on".toList) :: ["JMP a".toList] := by
      decide +kernel
    rw [Reformatted, hlines, hlines']
    exact .insert _ _ (.comment (List.all_eq_true.mp (by decide +kernel)) _)
  have hspaces : Reformatted ":a; here\n \t; on\nJMP a" ":a; here\n \t; on\nJMP   a" := by
    have hlines : ":a; here\n \t; on\nJMP a".toList.splitOn '\n' =
        [":a; here".toList, " \t; on".toList] ++ ("JMP".toList ++ ' ' :: "a".toList) :: [] := by
      decide +kernel
    have hlines' : ":a; here\n \t; on\nJMP   a".toList.splitOn '\n' =
        [":a; here".toList, " \t; on".toList] ++
          ("JMP".toList ++ List.replicate (2 + 1) ' ' ++ "a".toList) :: [] := by
      decide +kernel
    rw [Reformatted, hlines, hlines']
    exact .restyle _ _ (.space 2 (by decide +kernel))
  have hsame : SameButForLayout ":a\nJMP a" ":a; here\n \t; on\nJMP   a" :=
    .trans _ _ _ (.trans _ _ _ (.rel _ _ hcomment) (.rel _ _ hidle)) (.rel _ _ hspaces)
  have hassembly : (assemble .strict ":a\nJMP a").result =
      .ok ⟨⟨[0x0C, 0, 0x00, 0x0E]⟩, [⟨"a", 0, 0⟩],
        [⟨.opcode "JMP", ⟨3, 3⟩⟩, ⟨.label "a", ⟨7, 1⟩⟩, Token.terminator]⟩ := by
    decide +kernel
  have hagree := agree_of_sameButForLayout .strict hsame
  rw [hassembly] at hagree
  obtain ⟨second, hsecond, hprogram⟩ := hagree.exists_of_ok
  exact ⟨hsame, _, second, hassembly, hsecond, rfl, hprogram⟩

end Assembly

end FoxMachine
