namespace FoxMachine

namespace Text

/-- The characters with Unicode's White_Space property. -/
def isBlank (c : Char) : Bool :=
  let n := c.toNat
  (0x09 ≤ n && n ≤ 0x0D) || n == 0x20 || n == 0x85 || n == 0xA0 || n == 0x1680 ||
    (0x2000 ≤ n && n ≤ 0x200A) || n == 0x2028 || n == 0x2029 || n == 0x202F || n == 0x205F ||
    n == 0x3000

def trimStart (text : List Char) : List Char :=
  text.dropWhile isBlank

def trimEnd (text : List Char) : List Char :=
  (text.reverse.dropWhile isBlank).reverse

/-- Blanks before the first and after the last character that is not blank are dropped. -/
def trim (text : List Char) : List Char :=
  trimEnd (trimStart text)

@[simp] theorem trimStart_nil : trimStart [] = [] := rfl

@[simp] theorem trimEnd_nil : trimEnd [] = [] := rfl

/-- The length of the UTF-8 form. -/
def byteLength (text : List Char) : Nat :=
  text.foldr (fun c length => c.utf8Size + length) 0

@[simp] theorem byteLength_nil : byteLength [] = 0 := rfl

@[simp] theorem byteLength_cons (c : Char) (text : List Char) :
    byteLength (c :: text) = c.utf8Size + byteLength text := rfl

@[simp] theorem byteLength_append (a b : List Char) :
    byteLength (a ++ b) = byteLength a + byteLength b := by
  induction a with
  | nil => simp
  | cons c a ih => simp [ih, Nat.add_assoc]

structure Piece where
  offset : Nat
  text : List Char
deriving DecidableEq, Repr

def Piece.length (piece : Piece) : Nat :=
  byteLength piece.text

/-- The parts between separators, empty ones included. The first starts at byte `start`, and each
later one behind the separator that follows its predecessor. -/
def pieces (separator : Char) (start : Nat) (text : List Char) : List Piece :=
  let texts := text.splitOn separator
  (texts.scanl (fun offset part => offset + byteLength part + separator.utf8Size) start).zipWith
    Piece.mk texts

@[simp] theorem pieces_of_not_mem {separator : Char} {text : List Char} (start : Nat)
    (h : separator ∉ text) : pieces separator start text = [⟨start, text⟩] := by
  have hsingle : text.splitOn separator = [text] := by
    rw [List.splitOn_eq_splitOnP]
    exact List.splitOnP_eq_singleton fun c hc =>
      beq_false_of_ne fun heq => h (heq ▸ hc)
  simp [pieces, hsingle]

theorem pieces_append_cons {separator : Char} {part : List Char} (start : Nat)
    (rest : List Char) (h : separator ∉ part) :
    pieces separator start (part ++ separator :: rest) =
      ⟨start, part⟩ ::
        pieces separator (start + byteLength part + separator.utf8Size) rest := by
  have hcut : (part ++ separator :: rest).splitOn separator =
      part :: rest.splitOn separator := by
    rw [List.splitOn_eq_splitOnP, List.splitOn_eq_splitOnP,
      List.splitOnP_append_cons (p := (· == separator)) part rest (beq_self_eq_true separator),
      List.splitOnP_eq_singleton fun (c : Char) hc =>
        beq_false_of_ne fun heq : c = separator => h (heq ▸ hc)]
    rfl
  simp [pieces, hcut]

end Text

end FoxMachine
