import FoxMachine.Numeral

namespace FoxMachine

structure Memory where
  words : Vector UInt16 UInt16.size
deriving DecidableEq

namespace Memory

def zero : Memory :=
  ⟨Vector.replicate UInt16.size 0⟩

def read (memory : Memory) (address : UInt16) : UInt16 :=
  memory.words.get address.toFin

def write (memory : Memory) (address value : UInt16) : Memory :=
  ⟨memory.words.set address.toNat value address.toNat_lt⟩

/-- Puts words at successive places from a place on, as far as memory goes. -/
def loadFrom (memory : Memory) (place : Nat) : List UInt16 → Memory
  | [] => memory
  | word :: words =>
      if h : place < UInt16.size then
        loadFrom ⟨memory.words.set place word h⟩ (place + 1) words
      else memory

def load (memory : Memory) (start : UInt16) (words : List UInt16) : Memory :=
  memory.loadFrom start.toNat words

def size (_ : Memory) : Nat :=
  UInt16.size

def toList (memory : Memory) : List UInt16 :=
  memory.words.toList

def slice (memory : Memory) (start count : Nat) : List UInt16 :=
  (memory.toList.drop start).take count

def dumpLine (address word : UInt16) : String :=
  "$" ++ Text.hex address ++ " " ++ Text.hex word ++ "\n"

def dump (memory : Memory) : String :=
  String.join (memory.toList.zipIdx.map fun (word, place) => dumpLine place.toUInt16 word)

@[simp] theorem read_zero (address : UInt16) : zero.read address = 0 := by
  have h : address.toNat < UInt16.size := address.toNat_lt
  change (Vector.replicate UInt16.size (0 : UInt16))[address.toNat] = 0
  simp

@[simp] theorem read_write_self (memory : Memory) (address value : UInt16) :
    (memory.write address value).read address = value := by
  have h : address.toNat < UInt16.size := address.toNat_lt
  change (memory.words.set address.toNat value h)[address.toNat] = value
  simp

theorem read_write_of_ne {memory : Memory} {address other value : UInt16} (h : address ≠ other) :
    (memory.write address value).read other = memory.read other := by
  have hne : address.toNat ≠ other.toNat := fun heq => h (UInt16.toNat_inj.mp heq)
  have hother : other.toNat < UInt16.size := other.toNat_lt
  change (memory.words.set address.toNat value address.toNat_lt)[other.toNat] =
    memory.words[other.toNat]
  exact Vector.getElem_set_ne address.toNat_lt hother hne

@[simp] theorem loadFrom_nil (memory : Memory) (place : Nat) : memory.loadFrom place [] = memory :=
  rfl

theorem loadFrom_of_le {memory : Memory} {place : Nat} (words : List UInt16)
    (h : UInt16.size ≤ place) : memory.loadFrom place words = memory := by
  cases words with
  | nil => rfl
  | cons word words => simp [loadFrom, Nat.not_lt.mpr h]

theorem read_loadFrom (memory : Memory) (place : Nat) (words : List UInt16) (address : UInt16) :
    (memory.loadFrom place words).read address =
      if place ≤ address.toNat then words[address.toNat - place]?.getD (memory.read address)
      else memory.read address := by
  induction words generalizing memory place with
  | nil => simp
  | cons word words ih =>
      by_cases hplace : place < UInt16.size
      · have hread : ∀ other : UInt16, (Memory.mk (memory.words.set place word hplace)).read other =
            if place = other.toNat then word else memory.read other := by
          intro other
          have hother : other.toNat < UInt16.size := other.toNat_lt
          change (memory.words.set place word hplace)[other.toNat] =
            if place = other.toNat then word else memory.words[other.toNat]
          exact Vector.getElem_set hplace hother
        simp only [loadFrom, hplace, dif_pos]
        rw [ih, hread]
        by_cases hlt : place < address.toNat
        · have hsucc : address.toNat - place = (address.toNat - (place + 1)) + 1 := by omega
          simp [Nat.succ_le_of_lt hlt, Nat.le_of_lt hlt, Nat.ne_of_lt hlt, hsucc]
        · by_cases heq : place = address.toNat
          · have hnext : ¬ place + 1 ≤ address.toNat := by omega
            have hzero : address.toNat - place = 0 := by omega
            rw [if_neg hnext, if_pos heq, if_pos (Nat.le_of_eq heq), hzero]
            rfl
          · have hgt : ¬ place ≤ address.toNat := by omega
            have hgt' : ¬ place + 1 ≤ address.toNat := by omega
            simp [hgt, hgt', heq]
      · have haddress : address.toNat < UInt16.size := address.toNat_lt
        rw [loadFrom_of_le _ (by omega)]
        simp [show ¬ place ≤ address.toNat by omega]

theorem length_toList (memory : Memory) : memory.toList.length = memory.size := by
  simp [toList, size]

end Memory

end FoxMachine
