import Mathlib
import ClassFormat.Proofs.Composition

namespace ClassFormat

/-!
# Decoding is a forward scan

A reader is forward when it decides by the bytes that it has taken.  Bytes put
behind the input change neither its result nor a fault that is not about missing
bytes, and it never blames the bytes that it leaves.  The single steps of the format
are forward, and steps one after the other are forward when each of them is, whatever
the steps before it have found.

* `Reader.Composed.isForward` says that every reader of the format is forward.
* `ClassFile.decode_append` says what bytes behind an input do to its verdict, and
  what bytes taken from the end of an accepted input do.
-/

namespace Reader

variable {α β : Type}

/-- Whether the reader decides by the bytes that it has taken. -/
structure IsForward (p : Reader α) : Prop where
  /-- A result stays, and more bytes are left behind it. -/
  run_append : ∀ {bytes a rest} (more), p.run bytes = .ok (a, rest) →
    p.run (bytes ++ more) = .ok (a, rest ++ more)
  /-- A fault stays, unless more bytes can mend it. -/
  fault_append : ∀ {bytes fault} (more), p.run bytes = .error fault →
    fault.family ≠ .truncation → p.run (bytes ++ more) = .error fault
  /-- The bytes that are left are no fault. -/
  ne_trailing : ∀ bytes count, p.run bytes ≠ .error (.trailingBytes count)

/-! ## Combinators -/

theorem IsForward.pure (a : α) : (pure a : Reader α).IsForward where
  run_append := by
    intro bytes b rest more hRun
    obtain ⟨rfl, rfl⟩ := run_pure_eq_ok.mp hRun
    rfl
  fault_append := by
    intro bytes fault more hRun
    cases hRun
  ne_trailing := by
    intro bytes count hRun
    cases hRun

/-- Stopping at once is forward, as long as it does not blame what is left. -/
theorem IsForward.fail {fault : Fault} (hFault : ∀ count, fault ≠ .trailingBytes count) :
    (fail fault : Reader α).IsForward where
  run_append := by
    intro bytes b rest more hRun
    cases hRun
  fault_append := by
    intro bytes fault' more hRun _
    exact hRun
  ne_trailing := by
    intro bytes count hRun
    exact hFault count (Except.error.inj hRun)

theorem IsForward.byte : byte.IsForward where
  run_append := by
    intro bytes b rest more hRun
    rw [run_byte_eq_ok] at hRun ⊢
    rw [hRun, List.cons_append]
  fault_append := by
    intro bytes fault more hRun hFamily
    cases bytes with
    | nil =>
        rw [run_byte_nil, Except.error.injEq] at hRun
        exact absurd (hRun ▸ rfl) hFamily
    | cons first rest => cases hRun
  ne_trailing := by
    intro bytes count hRun
    cases bytes with
    | nil => cases hRun
    | cons first rest => cases hRun

theorem IsForward.take (n : Nat) : (take n).IsForward where
  run_append := by
    intro bytes taken rest more hRun
    rw [run_take_eq_ok] at hRun ⊢
    obtain ⟨hLength, rfl⟩ := hRun
    exact ⟨hLength, List.append_assoc ..⟩
  fault_append := by
    intro bytes fault more hRun hFamily
    rw [run_take] at hRun
    split at hRun
    · cases hRun
    · rw [Except.error.injEq] at hRun
      exact absurd (hRun ▸ rfl) hFamily
  ne_trailing := by
    intro bytes count hRun
    rw [run_take] at hRun
    split at hRun
    · cases hRun
    · cases hRun

/-- Forward steps one after the other are forward. -/
theorem IsForward.bind {p : Reader α} {f : α → Reader β} (hFirst : p.IsForward)
    (hNext : ∀ a, (f a).IsForward) : (p >>= f).IsForward where
  run_append := by
    intro bytes b rest more hRun
    obtain ⟨a, middle, hRun, hRest⟩ := run_bind_eq_ok.mp hRun
    exact run_bind_eq_ok.mpr ⟨a, middle ++ more, hFirst.run_append more hRun,
      (hNext a).run_append more hRest⟩
  fault_append := by
    intro bytes fault more hRun hFamily
    rw [run_bind_eq_error] at hRun ⊢
    rcases hRun with hRun | ⟨a, middle, hRun, hRest⟩
    · exact .inl (hFirst.fault_append more hRun hFamily)
    -- The first step leaves the same bytes and the new ones behind them.
    · exact .inr ⟨a, middle ++ more, hFirst.run_append more hRun,
        (hNext a).fault_append more hRest hFamily⟩
  ne_trailing := by
    intro bytes count hRun
    rcases run_bind_eq_error.mp hRun with hRun | ⟨a, middle, -, hRest⟩
    · exact hFirst.ne_trailing bytes count hRun
    · exact (hNext a).ne_trailing middle count hRest

theorem IsForward.count {p : Reader α} (hForward : p.IsForward) (n : Nat) :
    (count p n).IsForward := by
  induction n with
  | zero => exact IsForward.pure []
  | succ n ih =>
      rw [count_succ]
      exact hForward.bind fun a => ih.bind fun rest => .pure (a :: rest)

/-- Measuring compares the bytes before and after, so more bytes cancel out. -/
theorem IsForward.measure {p : Reader α} (hForward : p.IsForward) :
    (measure p).IsForward where
  run_append := by
    intro bytes result rest more hRun
    obtain ⟨a, n⟩ := result
    rw [run_measure_eq_ok] at hRun ⊢
    refine ⟨hForward.run_append more hRun.1, ?_⟩
    rw [hRun.2, List.length_append, List.length_append, Nat.add_sub_add_right]
  fault_append := by
    intro bytes fault more hRun hFamily
    rw [run_measure_eq_error] at hRun ⊢
    exact hForward.fault_append more hRun hFamily
  ne_trailing := by
    intro bytes count hRun
    exact hForward.ne_trailing bytes count (run_measure_eq_error.mp hRun)

/-- Every reader that is composed of the single steps is forward. -/
theorem Composed.isForward {p : Reader α} (hComposed : p.Composed) : p.IsForward := by
  induction hComposed with
  | pure a => exact .pure a
  | fail hFault =>
      refine .fail fun count hTrailing => ?_
      rw [hTrailing] at hFault
      exact hFault
  | byte => exact .byte
  | take n => exact .take n
  | bind _ _ ihFirst ihNext => exact ihFirst.bind ihNext
  | count _ n ih => exact ih.count n
  | measure _ ih => exact ih.measure

end Reader

open Reader

namespace ClassFile

/-- The reader of class files decides by the bytes that it has taken. -/
theorem isForward_read : ClassFile.read.IsForward := composed_read.isForward

/-- What an input is read as when bytes are put behind it. -/
theorem decode_append_of_run {bytes rest more : List UInt8} {file : ClassFile}
    (hMore : more ≠ []) (hRun : ClassFile.read.run bytes = .ok (file, rest)) :
    decode (bytes ++ more) = .error (.trailingBytes (rest.length + more.length)) := by
  have hRest : rest ++ more ≠ [] := fun hNil =>
    hMore (List.append_eq_nil_iff.mp hNil).2
  refine whole_eq_error_iff.mpr (.inr ⟨file, rest ++ more,
    isForward_read.run_append more hRun, hRest, ?_⟩)
  rw [List.length_append]

/-- Bytes behind an input change its verdict in one way if it is accepted or too
long, and in no way if it has another fault that more bytes cannot mend.  So an
accepted input cut short has a fault that more bytes can mend. -/
theorem decode_append {more : List UInt8} (hMore : more ≠ []) (bytes : List UInt8) :
    (∀ file, decode bytes = .ok file →
      decode (bytes ++ more) = .error (.trailingBytes more.length)) ∧
    (∀ count, decode bytes = .error (.trailingBytes count) →
      decode (bytes ++ more) = .error (.trailingBytes (count + more.length))) ∧
    (∀ fault, decode bytes = .error fault → fault.family ≠ .truncation →
      (∀ count, fault ≠ .trailingBytes count) →
      decode (bytes ++ more) = .error fault) ∧
    (∀ file, decode (bytes ++ more) = .ok file →
      ∃ fault, decode bytes = .error fault ∧ fault.family = .truncation ∧
        fault.family.isContent = false) := by
  have hOk : ∀ file, decode bytes = .ok file →
      decode (bytes ++ more) = .error (.trailingBytes more.length) := by
    intro file hDecode
    have hRun := whole_eq_ok_iff.mp hDecode
    rw [decode_append_of_run hMore hRun, List.length_nil, Nat.zero_add]
  have hTrailing : ∀ count, decode bytes = .error (.trailingBytes count) →
      decode (bytes ++ more) = .error (.trailingBytes (count + more.length)) := by
    intro count hDecode
    rcases whole_eq_error_iff.mp hDecode with hRun | ⟨file, rest, hRun, -, hCount⟩
    · exact absurd hRun (isForward_read.ne_trailing bytes count)
    · rw [decode_append_of_run hMore hRun, Fault.trailingBytes.inj hCount]
  have hFault : ∀ fault, decode bytes = .error fault → fault.family ≠ .truncation →
      (∀ count, fault ≠ .trailingBytes count) →
      decode (bytes ++ more) = .error fault := by
    intro fault hDecode hFamily hOther
    rcases whole_eq_error_iff.mp hDecode with hRun | ⟨file, rest, -, -, hCount⟩
    · exact whole_eq_error_iff.mpr (.inl (isForward_read.fault_append more hRun hFamily))
    · exact absurd hCount (hOther rest.length)
  refine ⟨hOk, hTrailing, hFault, ?_⟩
  intro file hAccepted
  cases hDecode : decode bytes with
  | ok file' =>
      rw [hOk file' hDecode] at hAccepted
      cases hAccepted
  | error fault =>
      -- Any other verdict would stay a fault when the missing bytes come back.
      by_cases hFamily : fault.family = .truncation
      · exact ⟨fault, rfl, hFamily, hFamily ▸ rfl⟩
      by_cases hCount : ∃ count, fault = .trailingBytes count
      · obtain ⟨count, rfl⟩ := hCount
        rw [hTrailing count hDecode] at hAccepted
        cases hAccepted
      · rw [hFault fault hDecode hFamily (not_exists.mp hCount)] at hAccepted
        cases hAccepted

/-- A class file with an empty pool, no members and no attributes. -/
def emptyClassBytes : List UInt8 :=
  [0xca, 0xfe, 0xba, 0xbe, 0, 0, 0, 61, 0, 0, 0, 0x21, 0, 0, 0, 0, 0, 0, 0, 0, 0, 0,
    0, 0]

theorem decode_append_emptyClass :
    ∃ file, decode emptyClassBytes = .ok file ∧
      decode (emptyClassBytes ++ [0]) = .error (.trailingBytes 1) ∧
      decode (emptyClassBytes ++ [0] ++ [0, 0]) = .error (.trailingBytes 3) ∧
      ∃ fault, decode (emptyClassBytes.take 9) = .error fault ∧
        fault.family = .truncation := by
  refine ⟨_, rfl, ?_, ?_, ?_⟩
  · exact (decode_append (by simp) emptyClassBytes).1 _ rfl
  · refine (decode_append (by simp) (emptyClassBytes ++ [0])).2.1 1 ?_
    exact (decode_append (by simp) emptyClassBytes).1 _ rfl
  · have hCut : emptyClassBytes.drop 9 ≠ [] := by decide
    obtain ⟨fault, hFault, hFamily, -⟩ :=
      (decode_append hCut (emptyClassBytes.take 9)).2.2.2 _ rfl
    exact ⟨fault, hFault, hFamily⟩

end ClassFile

end ClassFormat
