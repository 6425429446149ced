import Mathlib
import ClassFormat.Proofs.Composition
import ClassFormat.Proofs.Spelling.Frames

namespace ClassFormat

/-!
# The coding of stack map frames

Canonical frames and the runs of bytes that are read as frames belong to each other one to
one, and the reader of frames takes exactly the run.  The number of locals that are gone,
the number of those that are new, and short offsets are told by the first byte and come
out of it by subtraction, always of a number that is not greater.  Of the faults of the
reader, only one blames the first byte of the frame, and it does so for the bytes from 128
to 246 alone.

* `Frame.readChecked_eq_read` is about the subtractions.
* `Frame.run_read_eq_unknown_iff` is about the first byte.
* `Frame.coded_one_to_one` puts both together with the bytes that are taken.
-/

open Reader

/-- One number less the other, where the difference is not below zero. -/
def Reader.minus (fault : Fault) (a b : UInt8) : Reader UInt8 :=
  if b ≤ a then pure (a - b) else fail fault

namespace Frame

/-! ## Subtractions -/

/-- One frame.  A difference below zero is not made, but stops the reader with the given
fault. -/
def readChecked (fault : Fault) : Reader Frame := do
  let code ← Reader.byte
  if code < 64 then return same code.toUInt16
  else if code < 128 then
    let offset ← Reader.minus fault code 64
    sameOneOperand offset.toUInt16 <$> VerificationType.read
  else if code < 247 then Reader.fail (.unknownFrameType code)
  else if code = 247 then
    let offset ← Reader.word16
    sameOneOperandWide offset <$> VerificationType.read
  else if code < 251 then
    let count ← Reader.minus fault 251 code
    let offset ← Reader.word16
    return chop count offset
  else if code = 251 then
    let offset ← Reader.word16
    return sameWide offset
  else if code < 255 then
    let offset ← Reader.word16
    let count ← Reader.minus fault code 251
    append offset <$> Reader.count VerificationType.read count.toNat
  else
    let offset ← Reader.word16
    let locals ← Reader.list16 VerificationType.read
    let operands ← Reader.list16 VerificationType.read
    return full offset locals operands

theorem minus_bind {α : Type} {fault : Fault} {a b : UInt8} (hOrder : b ≤ a)
    (f : UInt8 → Reader α) : (minus fault a b >>= f) = f (a - b) := by
  rw [minus, if_pos hOrder]
  rfl

/-- No difference is below zero, whatever the bytes are. -/
theorem readChecked_eq_read (fault : Fault) : readChecked fault = read := by
  unfold readChecked read
  congr 1
  funext code
  by_cases hShort : code < 64
  · rw [if_pos hShort, if_pos hShort]
  rw [if_neg hShort, if_neg hShort]
  by_cases hOne : code < 128
  · rw [if_pos hOne, if_pos hOne]
    exact minus_bind (UInt8.not_lt.mp hShort) _
  rw [if_neg hOne, if_neg hOne]
  by_cases hUnknown : code < 247
  · rw [if_pos hUnknown, if_pos hUnknown]
  rw [if_neg hUnknown, if_neg hUnknown]
  -- Behind the first byte of all other frames is an offset.
  by_cases hWide : code = 247
  · simp only [if_pos hWide]
  simp only [if_neg hWide]
  by_cases hChop : code < 251
  · simp only [if_pos hChop]
    exact minus_bind (UInt8.le_of_lt hChop) _
  simp only [if_neg hChop]
  by_cases hSame : code = 251
  · simp only [if_pos hSame]
  simp only [if_neg hSame]
  by_cases hAppend : code < 255
  · have hOrder : 251 ≤ code := UInt8.not_lt.mp hChop
    have hCount : (code - 251).toNat = code.toNat - 251 := UInt8.toNat_sub_of_le _ _ hOrder
    simp only [if_pos hAppend, minus_bind hOrder, hCount]
  · simp only [if_neg hAppend]

/-! ## The first byte -/

/-- The fault does not blame the first byte of a frame. -/
def SparesFirstByte (fault : Fault) : Prop := ∀ code, fault ≠ .unknownFrameType code

theorem sparesFirstByte_truncated (shortage : Shortage) :
    SparesFirstByte (.truncated shortage) := by
  intro code hFault
  cases hFault

theorem stopsOnlyAt_word16 : word16.StopsOnlyAt SparesFirstByte :=
  .bind (.byte sparesFirstByte_truncated) fun _ =>
    .bind (.byte sparesFirstByte_truncated) fun _ => .pure _

/-- The types in a frame are behind its first byte. -/
theorem stopsOnlyAt_readType : VerificationType.read.StopsOnlyAt SparesFirstByte := by
  refine .bind (.byte sparesFirstByte_truncated) fun code => ?_
  have hUnknown : SparesFirstByte (.unknownVerificationTag code) := by
    intro first hFault
    cases hFault
  split
  case h_10 => exact .fail hUnknown
  case h_8 | h_9 => exact stopsOnlyAt_word16.map _
  all_goals exact .pure _

theorem stopsOnlyAt_readTypes :
    (list16 VerificationType.read).StopsOnlyAt SparesFirstByte :=
  .bind stopsOnlyAt_word16 fun _ => stopsOnlyAt_readType.count _

theorem stopsOnlyAt_readBehind (code : UInt8) (offset : UInt16) :
    (readBehind code offset).StopsOnlyAt SparesFirstByte := by
  unfold readBehind
  split
  · exact stopsOnlyAt_readType.map _
  split
  · exact .pure _
  split
  · exact .pure _
  split
  · exact (stopsOnlyAt_readType.count _).map _
  · exact .bind stopsOnlyAt_readTypes fun _ => .bind stopsOnlyAt_readTypes fun _ =>
      .pure _

/-- The first byte is blamed when it is one of those that introduce no frame, and only
then. -/
theorem run_read_eq_unknown_iff {bytes : List UInt8} {code : UInt8} :
    read.run bytes = .error (.unknownFrameType code) ↔
      bytes.head? = some code ∧ 128 ≤ code ∧ code ≤ 246 := by
  simp only [UInt8.le_iff_toNat_le, UInt8.reduceToNat]
  cases bytes with
  | nil =>
      constructor
      · intro hRun
        cases hRun
      · intro hRange
        cases hRange.1
  | cons first tail =>
      rw [List.head?_cons, Option.some.injEq]
      constructor
      · intro hRun
        by_cases hShort : first.toNat < 64
        · rw [run_short hShort] at hRun
          cases hRun
        by_cases hOne : first.toNat < 128
        · rw [run_oneOperand (Nat.le_of_not_lt hShort) hOne] at hRun
          exact absurd rfl (stopsOnlyAt_readType.map _ hRun code)
        by_cases hUnknown : first.toNat < 247
        · rw [run_unknown (Nat.le_of_not_lt hOne) hUnknown] at hRun
          obtain rfl := Fault.unknownFrameType.inj (Except.error.inj hRun)
          refine ⟨rfl, ?_, ?_⟩
          · omega
          · omega
        · rw [run_read_cons, if_neg hShort, if_neg hOne, if_neg hUnknown] at hRun
          have hBehind := stopsOnlyAt_word16.bind (stopsOnlyAt_readBehind first)
          exact absurd rfl (hBehind hRun code)
      · rintro ⟨rfl, hLow, hHigh⟩
        exact run_unknown hLow (by omega)

/-! ## Frames and their runs of bytes -/

/-- A frame is read with a number of bytes if and only if it is canonical and these bytes,
from the front of the input, are what is written for it; the others are left. -/
theorem run_measure_read_eq_ok_iff {bytes rest : List UInt8} {frame : Frame} {k : Nat} :
    (measure read).run bytes = .ok ((frame, k), rest) ↔
      frame.IsCanonical ∧ k ≤ bytes.length ∧ bytes.take k = frame.write ∧
        bytes.drop k = rest := by
  rw [run_measure_eq_ok, inverts_read.run_eq_ok]
  constructor
  · intro hRun
    obtain ⟨⟨hCanonical, rfl⟩, hTaken⟩ := hRun
    have hLength : k = frame.write.length := by
      rw [hTaken, List.length_append]
      omega
    subst hLength
    refine ⟨hCanonical, ?_, List.take_left, List.drop_left⟩
    rw [List.length_append]
    omega
  · intro hSpelled
    obtain ⟨hCanonical, hEnough, hFront, rfl⟩ := hSpelled
    refine ⟨⟨hCanonical, ?_⟩, ?_⟩
    · rw [← hFront, List.take_append_drop]
    · rw [List.length_drop]
      omega

/-- For every input, a frame is read with the first `k` bytes exactly if they are what is
written for it and it is canonical.  Its subtractions stay above zero on every input, and
it is the first byte that is unknown exactly if it is one from 128 to 246. -/
theorem coded_one_to_one (bytes : List UInt8) :
    (∀ frame k rest, (measure read).run bytes = .ok ((frame, k), rest) ↔
      frame.IsCanonical ∧ k ≤ bytes.length ∧ bytes.take k = frame.write ∧
        bytes.drop k = rest) ∧
    (∀ fault, (readChecked fault).run bytes = read.run bytes) ∧
    ∀ code, read.run bytes = .error (.unknownFrameType code) ↔
      bytes.head? = some code ∧ 128 ≤ code ∧ code ≤ 246 :=
  ⟨fun _ _ _ => run_measure_read_eq_ok_iff,
    fun fault => by rw [readChecked_eq_read fault],
    fun _ => run_read_eq_unknown_iff⟩

end Frame

end ClassFormat
