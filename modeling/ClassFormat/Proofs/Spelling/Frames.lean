import Mathlib
import ClassFormat.Frame
import ClassFormat.Proofs.Spelling.Basic

namespace ClassFormat

/-!
# The spelling of stack map frames

The first byte of a frame holds its form together with a short offset or a
number of locals.  A frame is canonical when its offset or its locals fit there.
Only canonical frames are read, and each of them has one spelling.

* `Frame.inverts_read` says so.
-/

open Reader

namespace VerificationType

/-- The reader of types inverts their writer. -/
theorem inverts_read : read.Inverts (fun _ => True) write := by
  refine .of_run fun bytes type rest => ?_
  simp only [read, run_bind_eq_ok, run_byte_eq_ok, true_and]
  constructor
  · intro hRun
    obtain ⟨code, tail, rfl, hRun⟩ := hRun
    split at hRun
    case h_10 => exact (run_fail_eq_ok.mp hRun).elim
    case h_8 | h_9 =>
      obtain ⟨word, hWord, rfl⟩ := run_map_eq_ok.mp hRun
      rw [run_word16_eq_ok.mp hWord]
      rfl
    all_goals
      obtain ⟨rfl, rfl⟩ := run_pure_eq_ok.mp hRun
      rfl
  · rintro rfl
    cases type with
    | object index =>
        refine ⟨7, _, rfl, ?_⟩
        exact run_map_eq_ok.mpr ⟨index, run_word16_eq_ok.mpr rfl, rfl⟩
    | uninitialized offset =>
        refine ⟨8, _, rfl, ?_⟩
        exact run_map_eq_ok.mpr ⟨offset, run_word16_eq_ok.mpr rfl, rfl⟩
    | _ => exact ⟨_, rest, rfl, rfl⟩

end VerificationType

namespace Frame

/-- The frames whose offset and locals fit their form. -/
def IsCanonical : Frame → Prop
  | same offset | sameOneOperand offset _ => offset.toNat < 64
  | sameOneOperandWide _ _ | sameWide _ => True
  | chop count _ => 1 ≤ count.toNat ∧ count.toNat ≤ 3
  | append _ locals => 1 ≤ locals.length ∧ locals.length ≤ 3
  | full _ locals operands =>
      locals.length < 0x10000 ∧ operands.length < 0x10000

theorem run_locals_eq_ok {n : Nat} {locals : List VerificationType}
    {bytes rest : List UInt8} :
    (count VerificationType.read n).run bytes = .ok (locals, rest) ↔
      locals.length = n ∧
        bytes = locals.flatMap VerificationType.write ++ rest := by
  rw [(VerificationType.inverts_read.count n).run_eq_ok]
  simp

theorem run_list_eq_ok {items : List VerificationType}
    {bytes rest : List UInt8} :
    (list16 VerificationType.read).run bytes = .ok (items, rest) ↔
      items.length < 0x10000 ∧
        bytes = Writer.list16 VerificationType.write items ++ rest := by
  rw [VerificationType.inverts_read.list16.run_eq_ok, counted16_true]

/-! ### The first byte -/

/-- What is read behind the first byte and the offset of a long frame. -/
def readBehind (code : UInt8) (offset : UInt16) : Reader Frame :=
  if code.toNat = 247 then sameOneOperandWide offset <$> VerificationType.read
  else if code.toNat < 251 then pure (chop (251 - code) offset)
  else if code.toNat = 251 then pure (sameWide offset)
  else if code.toNat < 255 then
    append offset <$> count VerificationType.read (code.toNat - 251)
  else do
    let locals ← list16 VerificationType.read
    let operands ← list16 VerificationType.read
    return full offset locals operands

/-- The first byte is compared as a number. -/
theorem run_read_cons (code : UInt8) (tail : List UInt8) :
    read.run (code :: tail) =
      if code.toNat < 64 then .ok (same code.toUInt16, tail)
      else if code.toNat < 128 then
        (sameOneOperand (code - 64).toUInt16 <$> VerificationType.read).run tail
      else if code.toNat < 247 then .error (.unknownFrameType code)
      else (word16 >>= readBehind code).run tail := by
  unfold read readBehind
  rw [run_bind, run_byte_cons]
  simp only [UInt8.lt_iff_toNat_lt, ← UInt8.toNat_inj, UInt8.reduceToNat]
  split_ifs <;> rfl

section

variable {code : UInt8} {tail : List UInt8}

theorem run_short (hCode : code.toNat < 64) :
    read.run (code :: tail) = .ok (same code.toUInt16, tail) := by
  rw [run_read_cons, if_pos hCode]

theorem run_oneOperand (hLow : 64 ≤ code.toNat) (hHigh : code.toNat < 128) :
    read.run (code :: tail) =
      (sameOneOperand (code - 64).toUInt16 <$> VerificationType.read).run tail := by
  rw [run_read_cons, if_neg (by omega), if_pos hHigh]

theorem run_unknown (hLow : 128 ≤ code.toNat) (hHigh : code.toNat < 247) :
    read.run (code :: tail) = .error (.unknownFrameType code) := by
  rw [run_read_cons, if_neg (by omega), if_neg (by omega), if_pos hHigh]

theorem run_long (hCode : 247 ≤ code.toNat) (offset : UInt16) :
    read.run (code :: (BigEndian.bytes16 offset ++ tail)) =
      (readBehind code offset).run tail := by
  rw [run_read_cons, if_neg (by omega), if_neg (by omega), if_neg (by omega),
    run_bind, run_word16_eq_ok.mpr rfl]

/-- A long frame has an offset behind its first byte. -/
theorem exists_offset_of_run {frame : Frame} {rest : List UInt8}
    (hCode : 247 ≤ code.toNat) (hRun : read.run (code :: tail) = .ok (frame, rest)) :
    ∃ offset behind, tail = BigEndian.bytes16 offset ++ behind := by
  rw [run_read_cons, if_neg (by omega), if_neg (by omega), if_neg (by omega)] at hRun
  obtain ⟨offset, behind, hOffset, -⟩ := run_bind_eq_ok.mp hRun
  exact ⟨offset, behind, run_word16_eq_ok.mp hOffset⟩

end

/-! ### Frames that are read -/

/-- What is read behind the offset is the rest of a canonical frame. -/
theorem canonical_of_readBehind {code : UInt8} {offset : UInt16} {frame : Frame}
    {tail rest : List UInt8} (hCode : 247 ≤ code.toNat)
    (hRun : (readBehind code offset).run tail = .ok (frame, rest)) :
    frame.IsCanonical ∧
      code :: (BigEndian.bytes16 offset ++ tail) = frame.write ++ rest := by
  have hBound := code.toNat_lt
  unfold readBehind at hRun
  split at hRun
  · next hWide =>
      obtain rfl : code = 247 := UInt8.toNat_inj.mp hWide
      obtain ⟨operand, hOperand, rfl⟩ := run_map_eq_ok.mp hRun
      rw [(VerificationType.inverts_read.run_eq_ok.mp hOperand).2]
      exact ⟨trivial, by simp [write]⟩
  split at hRun
  · next hNotWide hChop =>
      obtain ⟨rfl, rfl⟩ := run_pure_eq_ok.mp hRun
      have hCount : (251 - code).toNat = 251 - code.toNat :=
        UInt8.toNat_sub_of_le _ _
          (UInt8.le_iff_toNat_le.mpr (by simpa using hChop.le))
      refine ⟨?_, ?_⟩
      · simp only [IsCanonical, hCount]
        omega
      · simp [write]
  split at hRun
  · next hWide =>
      obtain rfl : code = 251 := UInt8.toNat_inj.mp hWide
      obtain ⟨rfl, rfl⟩ := run_pure_eq_ok.mp hRun
      exact ⟨trivial, by simp [write]⟩
  split at hRun
  · next hNotChop hNotWide hAppend =>
      obtain ⟨locals, hLocals, rfl⟩ := run_map_eq_ok.mp hRun
      obtain ⟨hLength, rfl⟩ := run_locals_eq_ok.mp hLocals
      refine ⟨?_, ?_⟩
      · simp only [IsCanonical]
        omega
      · have hSum : 251 + locals.length = code.toNat := by omega
        simp [write, hSum]
  · next hFull =>
      obtain rfl : code = 255 := UInt8.toNat_inj.mp (by simp; omega)
      obtain ⟨locals, middle, hLocals, hRest⟩ := run_bind_eq_ok.mp hRun
      obtain ⟨operands, _, hOperands, hEnd⟩ := run_bind_eq_ok.mp hRest
      obtain ⟨hManyLocals, rfl⟩ := run_list_eq_ok.mp hLocals
      obtain ⟨hManyOperands, rfl⟩ := run_list_eq_ok.mp hOperands
      obtain ⟨rfl, rfl⟩ := run_pure_eq_ok.mp hEnd
      exact ⟨⟨hManyLocals, hManyOperands⟩, by simp [write]⟩

/-- What is read is a canonical frame in its spelling. -/
theorem canonical_of_run {bytes rest : List UInt8} {frame : Frame}
    (hRun : read.run bytes = .ok (frame, rest)) :
    frame.IsCanonical ∧ bytes = frame.write ++ rest := by
  cases bytes with
  | nil => cases hRun
  | cons code tail =>
      by_cases hShort : code.toNat < 64
      · rw [run_short hShort, Except.ok.injEq, Prod.mk.injEq] at hRun
        obtain ⟨rfl, rfl⟩ := hRun
        refine ⟨?_, ?_⟩
        · simpa [IsCanonical] using hShort
        · simp [write]
      by_cases hOne : code.toNat < 128
      · have hLow : 64 ≤ code.toNat := Nat.le_of_not_lt hShort
        rw [run_oneOperand hLow hOne] at hRun
        obtain ⟨operand, hOperand, rfl⟩ := run_map_eq_ok.mp hRun
        have hOffset : (code - 64).toNat = code.toNat - 64 :=
          UInt8.toNat_sub_of_le _ _ (UInt8.le_iff_toNat_le.mpr (by simpa using hLow))
        rw [(VerificationType.inverts_read.run_eq_ok.mp hOperand).2]
        refine ⟨?_, ?_⟩
        · simp only [IsCanonical, UInt8.toNat_toUInt16, hOffset]
          omega
        · have hSum : 64 + (code.toNat - 64) = code.toNat := by omega
          rw [write, UInt8.toNat_toUInt16, hOffset, hSum, UInt8.ofNat_toNat]
          rfl
      by_cases hUnknown : code.toNat < 247
      · rw [run_unknown (Nat.le_of_not_lt hOne) hUnknown] at hRun
        cases hRun
      -- All other forms have an offset behind the first byte.
      have hLong : 247 ≤ code.toNat := Nat.le_of_not_lt hUnknown
      obtain ⟨offset, behind, rfl⟩ := exists_offset_of_run hLong hRun
      rw [run_long hLong] at hRun
      exact canonical_of_readBehind hLong hRun

/-! ### Frames that are written -/

theorem run_operand_eq_ok {operand : VerificationType} {frame : Frame}
    {form : VerificationType → Frame} {rest : List UInt8}
    (hFrame : form operand = frame) :
    (form <$> VerificationType.read).run (operand.write ++ rest) =
      .ok (frame, rest) :=
  run_map_eq_ok.mpr
    ⟨operand, VerificationType.inverts_read.run_eq_ok.mpr ⟨trivial, rfl⟩, hFrame⟩

/-- Every canonical frame is read back. -/
theorem run_write {frame : Frame} (hCanonical : frame.IsCanonical)
    (rest : List UInt8) : read.run (frame.write ++ rest) = .ok (frame, rest) := by
  cases frame with
  | same offset =>
      have hOffset : offset.toNat < 64 := hCanonical
      have hCode : (UInt8.ofNat offset.toNat).toNat = offset.toNat :=
        UInt8.toNat_ofNat_of_lt' (hOffset.trans (by decide))
      have hSame : (UInt8.ofNat offset.toNat).toUInt16 = offset := by
        rw [← UInt16.toNat_inj, UInt8.toNat_toUInt16, hCode]
      show read.run (UInt8.ofNat offset.toNat :: rest) = _
      rw [run_short (hCode.trans_lt hOffset), hSame]
  | sameOneOperand offset operand =>
      have hOffset : offset.toNat < 64 := hCanonical
      have hCode : (UInt8.ofNat (64 + offset.toNat)).toNat = 64 + offset.toNat :=
        UInt8.toNat_ofNat_of_lt' (show 64 + offset.toNat < 256 by omega)
      have hShort : (64 : UInt8) ≤ UInt8.ofNat (64 + offset.toNat) := by
        rw [UInt8.le_iff_toNat_le, hCode]
        exact Nat.le_add_right 64 _
      show read.run (UInt8.ofNat (64 + offset.toNat) :: (operand.write ++ rest)) = _
      rw [run_oneOperand (by omega) (by omega)]
      refine run_operand_eq_ok (congrArg (sameOneOperand · operand) ?_)
      rw [← UInt16.toNat_inj, UInt8.toNat_toUInt16, UInt8.toNat_sub_of_le _ _ hShort,
        hCode]
      exact Nat.add_sub_cancel_left 64 _
  | sameOneOperandWide offset operand =>
      rw [write, List.cons_append, List.append_assoc, run_long (by decide)]
      exact run_operand_eq_ok rfl
  | chop count offset =>
      obtain ⟨hSome, hFew⟩ : 1 ≤ count.toNat ∧ count.toNat ≤ 3 := hCanonical
      have hCount : count ≤ 251 := UInt8.le_iff_toNat_le.mpr (by simp; omega)
      have hCode : (251 - count).toNat = 251 - count.toNat :=
        UInt8.toNat_sub_of_le _ _ hCount
      have hBack : 251 - (251 - count) = count := by
        rw [← UInt8.toNat_inj, UInt8.toNat_sub_of_le _ _
          (UInt8.le_iff_toNat_le.mpr (by rw [hCode]; simp)), hCode]
        simp only [UInt8.reduceToNat]
        omega
      rw [write, List.cons_append, run_long (by omega), readBehind,
        if_neg (by omega), if_pos (by omega), hBack]
      rfl
  | sameWide offset =>
      rw [write, List.cons_append, run_long (by decide)]
      rfl
  | append offset locals =>
      obtain ⟨hSome, hFew⟩ : 1 ≤ locals.length ∧ locals.length ≤ 3 := hCanonical
      have hCode : (UInt8.ofNat (251 + locals.length)).toNat = 251 + locals.length :=
        UInt8.toNat_ofNat_of_lt' (show 251 + locals.length < 256 by omega)
      rw [write, List.cons_append, List.append_assoc, run_long (by omega), readBehind,
        if_neg (by omega), if_neg (by omega), if_neg (by omega), if_pos (by omega),
        hCode, Nat.add_sub_cancel_left]
      exact run_map_eq_ok.mpr ⟨locals, run_locals_eq_ok.mpr ⟨rfl, rfl⟩, rfl⟩
  | full offset locals operands =>
      obtain ⟨hLocals, hOperands⟩ := hCanonical
      rw [write, List.cons_append, List.append_assoc, List.append_assoc,
        run_long (by decide)]
      refine run_bind_eq_ok.mpr ⟨locals, _, run_list_eq_ok.mpr ⟨hLocals, rfl⟩, ?_⟩
      exact run_bind_eq_ok.mpr
        ⟨operands, rest, run_list_eq_ok.mpr ⟨hOperands, rfl⟩, rfl⟩

/-- The reader of frames inverts their writer on canonical frames. -/
theorem inverts_read : read.Inverts IsCanonical write :=
  .of_run fun _ _ rest =>
    ⟨canonical_of_run, fun ⟨hCanonical, hBytes⟩ =>
      hBytes ▸ run_write hCanonical rest⟩

end Frame

end ClassFormat
