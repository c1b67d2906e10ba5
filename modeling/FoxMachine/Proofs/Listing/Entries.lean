import FoxMachine.Listing

namespace FoxMachine

namespace Opcode

theorem mnemonic?_eq_some_iff {mnemonic : String} {code : UInt16} :
    mnemonic? code = some mnemonic ↔ (mnemonic, code) ∈ table := by
  constructor
  · intro h
    obtain ⟨entry, hentry, rfl⟩ := Option.map_eq_some_iff.mp h
    have hcode : entry.2 = code := by simpa using List.find?_some hentry
    rw [← hcode]
    exact List.mem_of_find?_eq_some hentry
  · intro h
    exact mnemonic?_of_mem_table _ h

end Opcode

namespace Listing

/-- The mnemonic is the table's, and there is an operand only if the table asks for one. -/
structure Entry.IsRead (entry : Entry) : Prop where
  mnemonic : entry.mnemonic? = Opcode.mnemonic? entry.word
  operand : entry.operand?.isSome = true → takesOperand entry.word = true

inductive Lists : UInt16 → List UInt16 → List Entry → Prop
  | nil (address : UInt16) : Lists address [] []
  | cons {entry : Entry} {words : List UInt16} {entries : List Entry} (hread : entry.IsRead)
      (hrest : Lists (entry.address + entry.words.length.toUInt16) words entries) :
      Lists entry.address (entry.words ++ words) (entry :: entries)

theorem listOnto_of_takesOperand {word : UInt16} (h : takesOperand word = true) (address : UInt16)
    (next : UInt16) (words : List UInt16) :
    listOnto [] address (word :: next :: words) =
      ⟨address, word, Opcode.mnemonic? word, some next⟩ :: listOnto [] (address + 2) words := by
  rw [listOnto, if_pos h]
  exact listOnto_append [] [_] (address + 2) words

theorem listOnto_of_not_takesOperand {word : UInt16} (h : takesOperand word = false)
    (address : UInt16) (words : List UInt16) :
    listOnto [] address (word :: words) =
      ⟨address, word, Opcode.mnemonic? word, none⟩ :: listOnto [] (address + 1) words := by
  cases words with
  | nil => rfl
  | cons next words =>
      rw [listOnto, if_neg (by simp [h])]
      exact listOnto_append [] [_] (address + 1) (next :: words)

theorem lists_listOnto (address : UInt16) (words : List UInt16) :
    Lists address words (listOnto [] address words) := by
  -- The cases are those of the listing, which may take two words at once.
  match words with
  | [] => exact .nil address
  | [word] =>
      have hread : Entry.IsRead ⟨address, word, Opcode.mnemonic? word, none⟩ := ⟨rfl, by simp⟩
      exact .cons hread (.nil _)
  | word :: next :: words =>
      cases h : takesOperand word with
      | true =>
          have hread : Entry.IsRead ⟨address, word, Opcode.mnemonic? word, some next⟩ :=
            ⟨rfl, fun _ => h⟩
          rw [listOnto_of_takesOperand h]
          exact .cons hread (lists_listOnto (address + 2) words)
      | false =>
          have hread : Entry.IsRead ⟨address, word, Opcode.mnemonic? word, none⟩ := ⟨rfl, by simp⟩
          rw [listOnto_of_not_takesOperand h]
          exact .cons hread (lists_listOnto (address + 1) (next :: words))
termination_by words.length

namespace Lists

variable {address : UInt16} {words : List UInt16} {entries : List Entry}

theorem flatMap_words (h : Lists address words entries) :
    entries.flatMap Entry.words = words := by
  induction h with
  | nil => rfl
  | cons _ _ ih => rw [List.flatMap_cons, ih]

theorem isRead (h : Lists address words entries) : ∀ entry ∈ entries, entry.IsRead := by
  induction h with
  | nil => simp
  | cons hread _ ih => exact List.forall_mem_cons.mpr ⟨hread, ih⟩

theorem address_eq (h : Lists address words entries) {index : Nat} {entry : Entry}
    (hentry : entries[index]? = some entry) :
    entry.address = address + ((entries.take index).flatMap Entry.words).length.toUInt16 := by
  induction h generalizing index with
  | nil => simp at hentry
  | @cons first words entries _ _ ih =>
      cases index with
      | zero =>
          cases hentry
          exact (UInt16.add_zero _).symm
      | succ index =>
          rw [ih hentry, List.take_succ_cons, List.flatMap_cons, List.length_append,
            UInt16.add_assoc]
          exact congrArg (first.address + ·) (UInt16.ofNat_add _ _).symm

end Lists

variable {words : List UInt16}

theorem flatMap_words_ofWords (words : List UInt16) :
    (ofWords words).flatMap Entry.words = words :=
  (lists_listOnto 0 words).flatMap_words

theorem isRead_of_mem_ofWords {entry : Entry} (hentry : entry ∈ ofWords words) : entry.IsRead :=
  (lists_listOnto 0 words).isRead entry hentry

theorem address_of_getElem?_ofWords {index : Nat} {entry : Entry}
    (hentry : (ofWords words)[index]? = some entry) :
    entry.address = (((ofWords words).take index).flatMap Entry.words).length.toUInt16 :=
  ((lists_listOnto 0 words).address_eq hentry).trans (UInt16.zero_add _)

end Listing

end FoxMachine
