import Mathlib
import ClassFormat.Proofs.Costs.Attributes
import ClassFormat.Proofs.RoundTrip
import ClassFormat.Proofs.Spelling.CodeUnits

namespace ClassFormat

/-!
# A class file is not larger than its bytes

Whatever counts an input announces, and however its lists nest, the tree that it is
decoded as is not larger than the input.  The unusable slot behind a long or a double has
no byte of its own, but it is paid for by the eight bytes of the entry in front of it, and
a text is never longer than the bytes that spell it.

* `Pool.pays_readSlots` is about the pool.
* `ClassFile.items_of_decode` is about the whole tree.
-/

open Reader

/-! ## The constant pool -/

namespace ModifiedUtf8

/-- No character is longer in ordinary UTF-8 than in the modified form. -/
theorem utf8Size_le_length_encodeChar (char : Char) :
    char.utf8Size ≤ (encodeChar char).length := by
  by_cases hZero : char.toNat = 0
  · obtain rfl : char = Char.ofNat 0 := Char.toNat_inj.mp hZero
    decide
  by_cases hBasic : char.toNat < 0x10000
  · have hSame : encodeChar char = String.utf8EncodeChar char := by
      rw [Utf8.utf8EncodeChar_basic hBasic, encodeChar]
      simp only [if_neg hZero, if_pos hBasic]
    rw [hSame, String.length_utf8EncodeChar]
  · have hUnit (value : Nat) (hLong : 0x800 ≤ value) :
        (Utf8.encodeBasic value).length = 3 := by
      rw [Utf8.encodeBasic, if_neg (by omega), if_neg (by omega)]
      rfl
    have hFour := char.utf8Size_le_four
    rw [encodeChar]
    simp only [if_neg hZero, if_neg hBasic, List.length_append]
    rw [hUnit _ (by omega), hUnit _ (by omega)]
    omega

/-- A text is not longer than the bytes that it is decoded from. -/
theorem utf8ByteSize_le_of_decode {bytes : List UInt8} {text : String}
    (hDecode : decode bytes = some text) : text.utf8ByteSize ≤ bytes.length := by
  have hSize : text.utf8ByteSize = text.toUTF8.data.toList.length := rfl
  rcases decode_eq_some_iff.mp hDecode with rfl | ⟨rfl, -⟩
  · exact hSize.le
  · rw [hSize, toUTF8_eq_flatMap, encode, List.length_flatMap, List.length_flatMap]
    refine List.sum_le_sum fun char _ => ?_
    rw [String.length_utf8EncodeChar]
    exact utf8Size_le_length_encodeChar char

end ModifiedUtf8

theorem Reader.pays_text : text.Pays 0 fun content => content.utf8ByteSize + 2 := by
  refine .bind .word16 fun length => .bind (.take _) fun bytes => ?_
  split
  · next content hText =>
      have hSize := ModifiedUtf8.utf8ByteSize_le_of_decode hText
      exact .pure (by omega)
  · exact .fail

/-- The slots that an entry fills, and the bytes of its text. -/
def Entry.cost (entry : Entry) : Nat :=
  (if entry.isWide then 2 else 1) + Slot.textBytes (some entry)

/-- An entry that is not a text costs its slots. -/
theorem Entry.cost_le_two {entry : Entry} (hOther : Slot.textBytes (some entry) = 0) :
    entry.cost ≤ 2 := by
  rw [cost, hOther]
  split <;> omega

theorem Entry.pays_readFields (tag : Tag) : (readFields tag).Pays 0 cost := by
  cases tag with
  | utf8 =>
      refine Reader.pays_text.map fun content => ?_
      show 1 + content.utf8ByteSize ≤ content.utf8ByteSize + 2
      omega
  | integer | float => exact Pays.word32.map fun _ => (cost_le_two rfl).trans (by omega)
  | long | double => exact Pays.word64.map fun _ => (cost_le_two rfl).trans (by omega)
  | classRef | string | methodType | module | package =>
      exact Pays.word16.map fun _ => cost_le_two rfl
  | fieldRef | methodRef | interfaceMethodRef | nameAndType | dynamic | invokeDynamic =>
      exact .bind .word16 fun _ => .bind .word16 fun _ =>
        .pure ((cost_le_two rfl).trans (by omega))
  | methodHandle =>
      exact .bind .byte fun _ => .bind .word16 fun _ =>
        .pure ((cost_le_two rfl).trans (by omega))

/-- The fields of an entry pay for it, and its tag need not. -/
theorem Entry.pays_read : read.Pays 0 cost := by
  refine .bind .byte fun code => ?_
  cases Tag.ofCode? code with
  | none => exact .fail
  | some tag => exact ((pays_readFields tag).withCredit 1).cheaper fun entry => Nat.le_succ _

namespace Pool

/-- The slots that are filled, and the bytes of the texts in them. -/
def filledCost (slots : Array Slot) : Nat :=
  slots.size + (slots.toList.map Slot.textBytes).sum

theorem filledCost_push (slots : Array Slot) (slot : Slot) :
    filledCost (slots.push slot) = filledCost slots + (1 + Slot.textBytes slot) := by
  rw [filledCost, filledCost, Array.size_push, Array.toList_push, List.map_append,
    List.sum_append, List.map_singleton, List.sum_singleton]
  omega

/-- The unusable slot is paid for by the wide entry in front of it. -/
theorem pays_readSlots (filled : Array Slot) (room : Nat) :
    (readSlots filled room).Pays (filledCost filled) filledCost := by
  fun_induction readSlots filled room with
  | case1 filled => exact .pure le_rfl
  | case2 filled =>
      refine .bind Entry.pays_read fun entry => .pure ?_
      rw [filledCost_push, Entry.cost]
      split <;> omega
  | case3 filled room ihWide ihNarrow =>
      refine .bind Entry.pays_read fun entry => ?_
      by_cases hWide : entry.isWide
      · have hCost : filledCost ((filled.push (some entry)).push none) =
            filledCost filled + entry.cost := by
          have hNone : Slot.textBytes none = 0 := rfl
          rw [filledCost_push, filledCost_push, Entry.cost, if_pos hWide, hNone]
          omega
        rw [if_pos hWide, ← hCost]
        exact ihWide entry
      · have hCost : filledCost (filled.push (some entry)) =
            filledCost filled + entry.cost := by
          rw [filledCost_push, Entry.cost, if_neg hWide]
        rw [if_neg hWide, ← hCost]
        exact ihNarrow entry

theorem pays_read :
    read.Pays 0 fun pool => pool.slots.size + pool.textBytes + 2 :=
  .bind .word16 fun count =>
    .bind (pays_readSlots #[] _) fun slots => .pure (by
      show slots.size + (slots.toList.map Slot.textBytes).sum + 2 ≤ 0 + 2 + filledCost slots
      rw [filledCost]
      omega)

end Pool

/-! ## Class files -/

theorem Member.pays_read (pool : Pool) (kind : MemberKind) :
    (read pool kind).Pays 0 fun member => member.items + 1 := by
  refine .bind .word16 fun flags => .bind .word16 fun name => .bind .word16 fun descriptor =>
    .bind (Attribute.pays_read pool maxNesting).list16 fun attributes => .pure ?_
  simp only [items]
  omega

namespace ClassFile

/-- The magic word pays for nothing but itself. -/
theorem pays_readMagic : readMagic.Pays 0 fun _ => 4 := by
  refine .bind .word32 fun found => ?_
  split
  · exact .pure le_rfl
  · exact .fail

/-- The bytes that a class file is read from pay for its items, for its texts and for the
fields that every class file has. -/
theorem pays_read :
    ClassFile.read.Pays 0 fun file => file.items + file.pool.textBytes + 24 := by
  refine .bind pays_readMagic fun _ => .bind .word16 fun minor => .bind .word16 fun major =>
    .bind Pool.pays_read fun pool => .bind .word16 fun flags =>
    .bind .word16 fun thisClass => .bind .word16 fun superClass =>
    .bind pays_indices fun interfaces =>
    .bind (Member.pays_read pool .field).list16 fun fields =>
    .bind (Member.pays_read pool .method).list16 fun methods =>
    .bind (Attribute.pays_read pool maxNesting).list16 fun attributes => .pure ?_
  simp only [items]
  omega

/-- A decoded class file has no more items than the input has bytes, even if the bytes of
its texts and the 24 bytes of the fields that every class file has are counted too. -/
theorem items_of_decode {bytes : List UInt8} {file : ClassFile}
    (hDecode : decode bytes = .ok file) :
    file.items + file.pool.textBytes + 24 ≤ bytes.length := by
  have hPaid := pays_read (whole_eq_ok_iff.mp hDecode)
  rw [List.length_nil, Nat.add_zero, Nat.zero_add] at hPaid
  exact hPaid

/-- The bytes of `nestedRecord` pay for its items, among them an unusable slot and an
annotation in an array. -/
theorem items_of_decode_nestedRecord :
    ∃ bytes, decode bytes = .ok nestedRecord ∧ nestedRecord.items = 19 ∧
      nestedRecord.pool.textBytes = 40 ∧ 19 + 40 + 24 ≤ bytes.length := by
  have hDecode : decode nestedRecord.encode = .ok nestedRecord :=
    decode_eq_ok_iff.mpr ⟨⟨nestedRecord_wellFormed, by decide⟩,
      spells_encode nestedRecord_wellFormed.pool.few nestedRecord_textsFit⟩
  have hItems : nestedRecord.items = 19 := by decide
  have hTexts : nestedRecord.pool.textBytes = 40 := by decide
  refine ⟨nestedRecord.encode, hDecode, hItems, hTexts, ?_⟩
  rw [← hItems, ← hTexts]
  exact items_of_decode hDecode

end ClassFile

end ClassFormat
