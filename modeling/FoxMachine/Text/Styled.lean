namespace FoxMachine

/-!
Text with terminal styles. A style sequence runs from an escape character to the next `m`. `visible`
leaves what a reader sees; `coloured` puts a colour around a text, and again behind every reset
inside it.
-/

namespace Text

def escape : Char := '\x1b'

/-- Whether a style sequence is open behind a character, given whether one is open before it. -/
def inSequence (isOpen : Bool) (c : Char) : Bool :=
  if isOpen then c != 'm' else c == escape

/-- A character as a reader sees it, given whether a style sequence is open before it. -/
def seen? (isOpen : Bool) (c : Char) : Option Char :=
  if isOpen || c == escape then none else some c

/-- The characters that stand outside every style sequence, where one may be open at the start. -/
def visibleFrom (isOpen : Bool) (text : List Char) : List Char :=
  (text.zip (text.scanl inSequence isOpen)).filterMap fun place => seen? place.2 place.1

def visible (text : List Char) : List Char :=
  visibleFrom false text

theorem visibleFrom_cons (isOpen : Bool) (c : Char) (text : List Char) :
    visibleFrom isOpen (c :: text) =
      (seen? isOpen c).toList ++ visibleFrom (inSequence isOpen c) text := by
  unfold visibleFrom
  rw [List.scanl_cons, List.zip_cons_cons, List.filterMap_cons]
  cases seen? isOpen c <;> rfl

theorem visibleFrom_append (isOpen : Bool) (a b : List Char) :
    visibleFrom isOpen (a ++ b) =
      visibleFrom isOpen a ++ visibleFrom (a.foldl inSequence isOpen) b := by
  induction a generalizing isOpen with
  | nil => rfl
  | cons c a ih =>
      rw [List.cons_append, visibleFrom_cons, visibleFrom_cons, ih, List.foldl_cons,
        List.append_assoc]

inductive Style where
  | blue
  | green
  | cyan
  | boldYellow
  | boldOrange
deriving DecidableEq, Repr

def Style.opening : Style → List Char
  | .blue => escape :: "[34m".toList
  | .green => escape :: "[32m".toList
  | .cyan => escape :: "[36m".toList
  | .boldYellow => escape :: "[1;33m".toList
  | .boldOrange => escape :: "[1;38;2;255;140;0m".toList

def reset : List Char :=
  escape :: "[0m".toList

def reopenAfterReset (opening text : List Char) : List Char :=
  text.foldr (fun c rest =>
    match c, rest with
    | '\x1b', '[' :: '0' :: 'm' :: rest => reset ++ opening ++ rest
    | c, rest => c :: rest) []

/-- The text in a style, which holds to the end of the text. -/
def styled (style : Style) (text : List Char) : List Char :=
  style.opening ++ reopenAfterReset style.opening text ++ reset

end Text

end FoxMachine
