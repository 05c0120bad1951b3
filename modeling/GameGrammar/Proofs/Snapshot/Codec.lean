import GameGrammar.Snapshot.Codec
import Mathlib.Algebra.Group.Nat.Defs

/-! # Reading back what was written

The codes of numbers, lists and texts are self-delimiting: whatever follows a code, its reader
takes the code off the front and leaves the rest. -/

namespace GameGrammar.Snapshot

/-- The reader undoes the writer on every value whose code has fewer than `2 ^ 64` bytes. -/
def Undoes {α : Type} (read : Reader α) (write : α → Bytes) : Prop :=
  ∀ a rest, (write a).length < 256 ^ 8 → read (write a ++ rest) = some (a, rest)

/-! ## Whole numbers -/

@[simp] theorem littleEndian_length (width n : Nat) : (littleEndian width n).length = width := by
  induction width generalizing n with
  | zero => rfl
  | succ width ih => simp [littleEndian, ih]

theorem ofLittleEndian_littleEndian (width n : Nat) :
    ofLittleEndian (littleEndian width n) = n % 256 ^ width := by
  induction width generalizing n with
  | zero => simp [littleEndian, ofLittleEndian, Nat.mod_one]
  | succ width ih =>
      have hb : n.toUInt8.toNat = n % 256 := by simp
      rw [littleEndian, ofLittleEndian, ih, hb, Nat.pow_succ, Nat.mul_comm (256 ^ width) 256,
        Nat.mod_mul]

theorem readBytes_append (front rest : Bytes) :
    readBytes front.length (front ++ rest) = some (front, rest) := by
  simp [readBytes]

theorem readLittleEndian_append (width : Nat) {n : Nat} (hn : n < 256 ^ width) (rest : Bytes) :
    readLittleEndian width (littleEndian width n ++ rest) = some (n, rest) := by
  have hr := readBytes_append (littleEndian width n) rest
  rw [littleEndian_length] at hr
  simp only [readLittleEndian, hr, Option.bind_eq_bind, Option.bind_some,
    ofLittleEndian_littleEndian, Nat.mod_eq_of_lt hn]
  rfl

/-- The shortest code of a number that fits is read back at the width of the number. -/
theorem readNat_writeNat {bytes n : Nat} (hb : bytes = 4 ∨ bytes = 8) (hn : n < 256 ^ bytes)
    (rest : Bytes) : readNat bytes (writeNat n ++ rest) = some (n, rest) := by
  have h4 : 4 ≤ bytes := by omega
  unfold writeNat
  split
  · next h =>
      have hlt : n.toUInt8 < 251 := by
        rw [UInt8.lt_iff_toNat_lt]
        simp only [Nat.toUInt8_eq, UInt8.toNat_ofNat', UInt8.toNat_ofNat]
        omega
      have he : n.toUInt8.toNat = n := by
        simp only [Nat.toUInt8_eq, UInt8.toNat_ofNat']
        omega
      simp only [List.cons_append, List.nil_append, readNat, hlt, if_true, he]
  · split
    · next h =>
        simpa [readNat] using readLittleEndian_append 2 (by omega) rest
    · split
      · next h =>
          simpa [readNat, h4] using readLittleEndian_append 4 (by omega) rest
      · next h =>
          -- A number of four bytes has been written by now.
          have h8 : bytes = 8 := by
            rcases hb with rfl | rfl
            · omega
            · rfl
          subst h8
          simpa [readNat] using readLittleEndian_append 8 hn rest

theorem writeNat_ne_nil (n : Nat) : writeNat n ≠ [] := by
  unfold writeNat
  split
  · simp
  · split
    · simp
    · split <;> simp

theorem readBool_append (b : Bool) (rest : Bytes) :
    readBool (writeBool b ++ rest) = some (b, rest) := by
  cases b <;> rfl

/-! ## Compound values -/

theorem readOption_append {α : Type} {read : Reader α} {write : α → Bytes}
    (h : Undoes read write) : Undoes (readOption read) (writeOption write) := by
  intro a rest hlen
  cases a with
  | none => rfl
  | some a =>
      have ha : (write a).length < 256 ^ 8 := by
        simp only [writeOption, List.length_cons] at hlen
        omega
      simp only [writeOption, List.cons_append, readOption, h a rest ha]
      rfl

theorem length_le_flatMap {α : Type} (write : α → Bytes) {items : List α} {a : α}
    (ha : a ∈ items) : (write a).length ≤ (items.flatMap write).length := by
  induction items with
  | nil => cases ha
  | cons b items ih =>
      simp only [List.flatMap_cons, List.length_append]
      rcases List.mem_cons.mp ha with rfl | ha
      · omega
      · have := ih ha
        omega

/-- A list has no more items than its code has bytes. -/
theorem items_le_flatMap {α : Type} {write : α → Bytes} (hw : ∀ a, write a ≠ [])
    (items : List α) : items.length ≤ (items.flatMap write).length := by
  induction items with
  | nil => exact Nat.le_refl _
  | cons a items ih =>
      have := List.length_pos_iff.mpr (hw a)
      simp only [List.flatMap_cons, List.length_append, List.length_cons]
      omega

theorem readItems_append {α : Type} {read : Reader α} {write : α → Bytes} (items : List α)
    (rest : Bytes) (h : ∀ a ∈ items, ∀ rest, read (write a ++ rest) = some (a, rest)) :
    readItems read items.length (items.flatMap write ++ rest) = some (items, rest) := by
  induction items with
  | nil => rfl
  | cons a items ih =>
      have ha := h a List.mem_cons_self (items.flatMap write ++ rest)
      have htail := ih fun b hb => h b (List.mem_cons_of_mem a hb)
      simp only [List.length_cons, readItems, List.flatMap_cons, List.append_assoc, ha,
        Option.bind_eq_bind, Option.bind_some, htail]
      rfl

theorem readList_append {α : Type} {read : Reader α} {write : α → Bytes}
    (hw : ∀ a, write a ≠ []) (h : Undoes read write) :
    Undoes (readList read) (writeList write) := by
  intro items rest hlen
  have hcount := items_le_flatMap hw items
  simp only [writeList, List.length_append] at hlen
  have hn : items.length < 256 ^ 8 := by omega
  have hitems : ∀ a ∈ items, ∀ rest, read (write a ++ rest) = some (a, rest) := by
    intro a ha rest
    have := length_le_flatMap write ha
    exact h a rest (by omega)
  simp only [readList, writeList, List.append_assoc, readNat_writeNat (.inr rfl) hn,
    Option.bind_eq_bind, Option.bind_some, readItems_append items rest hitems]

/-! ## Texts -/

theorem byteArray_toList (bytes : ByteArray) : bytes.toList = bytes.data.toList := by
  have step : ∀ i front, ByteArray.toList.loop bytes i front =
      front.reverse ++ bytes.data.toList.drop i := by
    intro i front
    induction i, front using ByteArray.toList.loop.induct bytes with
    | case1 i front h ih =>
        have hi : i < bytes.data.toList.length := by simpa using h
        rw [ByteArray.toList.loop, if_pos h, ih, List.drop_eq_getElem_cons hi]
        simp [ByteArray.get!, getElem!_pos, h]
    | case2 i front h =>
        have hi : bytes.data.toList.length ≤ i := by simpa using h
        rw [ByteArray.toList.loop, if_neg h, List.drop_eq_nil_of_le hi, List.append_nil]
  exact step 0 []

theorem fromUTF8?_toUTF8 (text : String) : String.fromUTF8? text.toUTF8 = some text := by
  have hv : text.toUTF8.IsValidUTF8 := text.isValidUTF8
  simp only [String.fromUTF8?, hv, dite_true]
  rfl

theorem readString_append : Undoes readString writeString := by
  intro text rest hlen
  have hn : text.toUTF8.toList.length < 256 ^ 8 := by
    simp only [writeString, List.length_append] at hlen
    omega
  have ht : (⟨text.toUTF8.toList.toArray⟩ : ByteArray) = text.toUTF8 := by
    rw [byteArray_toList]
  simp only [readString, writeString, List.append_assoc, readNat_writeNat (.inr rfl) hn,
    Option.bind_eq_bind, Option.bind_some, readBytes_append, ht, fromUTF8?_toUTF8]
  rfl

theorem writeString_ne_nil (text : String) : writeString text ≠ [] := by
  simp [writeString, writeNat_ne_nil]

end GameGrammar.Snapshot
