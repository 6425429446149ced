import Mathlib
import ClassFormat.Bytes

namespace ClassFormat

/-!
# What readers accept

A `Spelling` says which runs of bytes stand for a thing.  A reader `Reads` a
spelling when it takes from the front of the input exactly the runs that spell
its result: it accepts nothing else, and it accepts all of them, whatever comes
behind.  Most things have one spelling, the one that their writer produces; the
reader then `Inverts` the writer.

* `Reader.Reads.count` repeats a reader and its spelling.
* `Reader.Inverts.list16` and `Reader.Inverts.list8` add the length of a list.
-/

/-- Which runs of bytes stand for the things of a type. -/
abbrev Spelling (α : Type) : Type := α → List UInt8 → Prop

/-- A list that can be counted in two bytes, of things that are `good`. -/
def Counted16 {α : Type} (good : α → Prop) (items : List α) : Prop :=
  items.length < 0x10000 ∧ ∀ item ∈ items, good item

/-- A list that can be counted in one byte, of things that are `good`. -/
def Counted8 {α : Type} (good : α → Prop) (items : List α) : Prop :=
  items.length < 0x100 ∧ ∀ item ∈ items, good item

@[simp] theorem counted16_true {α : Type} {items : List α} :
    Counted16 (fun _ => True) items ↔ items.length < 0x10000 := by
  simp [Counted16]

/-- What all items of a list are may be told apart from its being counted. -/
theorem counted16_and {α : Type} {good other : α → Prop} {items : List α} :
    Counted16 (fun item => good item ∧ other item) items ↔
      Counted16 good items ∧ ∀ item ∈ items, other item := by
  simp only [Counted16, forall₂_and, and_assoc]

@[simp] theorem counted8_true {α : Type} {items : List α} :
    Counted8 (fun _ => True) items ↔ items.length < 0x100 := by
  simp [Counted8]

namespace Reader

variable {α β : Type}

/-- The reader takes exactly the runs of bytes that spell its result. -/
def Reads (p : Reader α) (spells : Spelling α) : Prop :=
  ∀ bytes a rest, p.run bytes = .ok (a, rest) ↔
    ∃ head, spells a head ∧ bytes = head ++ rest

/-- The reader takes exactly what is written for the things that are `good`. -/
def Inverts (p : Reader α) (good : α → Prop) (write : Writer α) : Prop :=
  p.Reads fun a head => good a ∧ head = write a

theorem Inverts.run_eq_ok {p : Reader α} {good : α → Prop} {write : Writer α}
    (hInverts : p.Inverts good write) {bytes rest : List UInt8} {a : α} :
    p.run bytes = .ok (a, rest) ↔ good a ∧ bytes = write a ++ rest := by
  rw [hInverts bytes a rest]
  constructor
  · intro hRun
    obtain ⟨head, ⟨hGood, rfl⟩, rfl⟩ := hRun
    exact ⟨hGood, rfl⟩
  · intro hSpelled
    obtain ⟨hGood, rfl⟩ := hSpelled
    exact ⟨write a, ⟨hGood, rfl⟩, rfl⟩

/-- To invert a writer it is enough to know which runs succeed. -/
theorem Inverts.of_run {p : Reader α} {good : α → Prop} {write : Writer α}
    (hRun : ∀ bytes a rest, p.run bytes = .ok (a, rest) ↔
      good a ∧ bytes = write a ++ rest) :
    p.Inverts good write := by
  intro bytes a rest
  rw [hRun]
  constructor
  · intro hRun
    obtain ⟨hGood, rfl⟩ := hRun
    exact ⟨write a, ⟨hGood, rfl⟩, rfl⟩
  · intro hSpelled
    obtain ⟨head, ⟨hGood, rfl⟩, rfl⟩ := hSpelled
    exact ⟨hGood, rfl⟩

/-- The same spelling may be told in other words. -/
theorem Reads.congr {p : Reader α} {spells other : Spelling α}
    (hReads : p.Reads spells)
    (hSame : ∀ a head, spells a head ↔ other a head) : p.Reads other := by
  intro bytes a rest
  rw [hReads bytes a rest]
  simp only [hSame]

/-- What is spelled is read, whatever is behind it. -/
theorem Reads.run_append {p : Reader α} {spells : Spelling α} (hReads : p.Reads spells)
    {a : α} {head : List UInt8} (hHead : spells a head) (rest : List UInt8) :
    p.run (head ++ rest) = .ok (a, rest) :=
  (hReads _ _ _).mpr ⟨head, hHead, rfl⟩

/-! ## Runs that succeed -/

@[simp] theorem run_pure_eq_ok {a b : α} {bytes rest : List UInt8} :
    run (pure a) bytes = .ok (b, rest) ↔ a = b ∧ bytes = rest := by
  rw [run_pure, Except.ok.injEq, Prod.mk.injEq]

@[simp] theorem run_fail_eq_ok {fault : Fault} {b : α} {bytes rest : List UInt8} :
    run (fail fault) bytes = .ok (b, rest) ↔ False := by
  simp [run_fail]

@[simp] theorem run_bind_eq_ok {p : Reader α} {f : α → Reader β} {b : β}
    {bytes rest : List UInt8} :
    run (p >>= f) bytes = .ok (b, rest) ↔
      ∃ a middle, run p bytes = .ok (a, middle) ∧
        run (f a) middle = .ok (b, rest) := by
  rw [run_bind]
  cases run p bytes with
  | error fault => simp
  | ok result =>
      obtain ⟨a, middle⟩ := result
      simp

theorem run_map {p : Reader α} {f : α → β} (bytes : List UInt8) :
    run (f <$> p) bytes =
      (run p bytes).map fun result => (f result.1, result.2) := by
  change run (p >>= fun a => pure (f a)) bytes = _
  rw [run_bind]
  cases run p bytes <;> rfl

@[simp] theorem run_map_eq_ok {p : Reader α} {f : α → β} {b : β}
    {bytes rest : List UInt8} :
    run (f <$> p) bytes = .ok (b, rest) ↔
      ∃ a, run p bytes = .ok (a, rest) ∧ f a = b := by
  change run (p >>= fun a => pure (f a)) bytes = _ ↔ _
  simp [run_bind_eq_ok, run_pure_eq_ok, and_comm]

@[simp] theorem run_byte_eq_ok {b : UInt8} {bytes rest : List UInt8} :
    run byte bytes = .ok (b, rest) ↔ bytes = b :: rest := by
  cases bytes with
  | nil => simp [run_byte_nil]
  | cons first tail => simp [run_byte_cons]

@[simp] theorem run_take_eq_ok {n : Nat} {taken bytes rest : List UInt8} :
    run (take n) bytes = .ok (taken, rest) ↔
      taken.length = n ∧ bytes = taken ++ rest := by
  rw [run_take]
  constructor
  · intro hRun
    split at hRun
    · next hEnough =>
        rw [Except.ok.injEq, Prod.mk.injEq] at hRun
        obtain ⟨rfl, rfl⟩ := hRun
        exact ⟨List.length_take_of_le hEnough, (List.take_append_drop n bytes).symm⟩
    · cases hRun
  · intro hRun
    obtain ⟨rfl, rfl⟩ := hRun
    simp

theorem run_measure_eq_ok {p : Reader α} {a : α} {n : Nat}
    {bytes rest : List UInt8} :
    run (measure p) bytes = .ok ((a, n), rest) ↔
      run p bytes = .ok (a, rest) ∧ n = bytes.length - rest.length := by
  rw [run_measure]
  cases run p bytes with
  | error fault => simp [Except.map]
  | ok result =>
      obtain ⟨b, tail⟩ := result
      simp only [Except.map, Except.ok.injEq, Prod.mk.injEq]
      constructor
      · intro hRun
        obtain ⟨⟨rfl, rfl⟩, rfl⟩ := hRun
        exact ⟨⟨rfl, rfl⟩, rfl⟩
      · intro hSpelled
        obtain ⟨⟨rfl, rfl⟩, rfl⟩ := hSpelled
        exact ⟨⟨rfl, rfl⟩, rfl⟩

/-! ## The whole input -/

/-- An input is accepted when nothing is left behind its result. -/
theorem whole_eq_ok_iff {p : Reader α} {bytes : List UInt8} {a : α} :
    p.whole bytes = .ok a ↔ p.run bytes = .ok (a, []) := by
  unfold whole
  split
  · next b hRun =>
      rw [hRun]
      simp
  · next b rest hRest hRun =>
      rw [hRun]
      simp only [reduceCtorEq, Except.ok.injEq, Prod.mk.injEq, false_iff, not_and]
      intro _ hNil
      exact hRest hNil
  · next fault hRun =>
      rw [hRun]
      simp

/-- An input is refused with the fault of the reader, or because of the bytes that
the reader leaves. -/
theorem whole_eq_error_iff {p : Reader α} {bytes : List UInt8} {fault : Fault} :
    p.whole bytes = .error fault ↔
      p.run bytes = .error fault ∨
        ∃ a rest, p.run bytes = .ok (a, rest) ∧ rest ≠ [] ∧
          fault = .trailingBytes rest.length := by
  unfold whole
  split
  · next b hRun =>
      rw [hRun]
      simp
  · next b rest hRest hRun =>
      rw [hRun]
      constructor
      · intro hFault
        exact .inr ⟨b, rest, rfl, hRest, (Except.error.inj hFault).symm⟩
      · intro hFault
        rcases hFault with hFault | ⟨_, _, hSame, -, rfl⟩
        · cases hFault
        · cases hSame
          rfl
  · next fault' hRun =>
      rw [hRun]
      simp

/-! ## Words -/

@[simp] theorem run_word16_eq_ok {word : UInt16} {bytes rest : List UInt8} :
    run word16 bytes = .ok (word, rest) ↔
      bytes = BigEndian.bytes16 word ++ rest := by
  simp only [word16, run_bind_eq_ok, run_byte_eq_ok, run_pure_eq_ok]
  constructor
  · intro hRun
    obtain ⟨high, _, rfl, low, _, rfl, rfl, rfl⟩ := hRun
    simp [BigEndian.bytes16, BigEndian.high16_word16, BigEndian.low16_word16]
  · rintro rfl
    exact ⟨_, _, rfl, _, _, rfl, BigEndian.word16_high_low word, rfl⟩

@[simp] theorem run_word32_eq_ok {word : UInt32} {bytes rest : List UInt8} :
    run word32 bytes = .ok (word, rest) ↔
      bytes = BigEndian.bytes32 word ++ rest := by
  simp only [word32, run_bind_eq_ok, run_word16_eq_ok, run_pure_eq_ok,
    BigEndian.bytes32, List.append_assoc]
  constructor
  · intro hRun
    obtain ⟨high, _, rfl, low, _, rfl, rfl, rfl⟩ := hRun
    rw [BigEndian.high32_word32, BigEndian.low32_word32]
  · rintro rfl
    exact ⟨_, _, rfl, _, _, rfl, BigEndian.word32_high_low word, rfl⟩

@[simp] theorem run_word64_eq_ok {word : UInt64} {bytes rest : List UInt8} :
    run word64 bytes = .ok (word, rest) ↔
      bytes = BigEndian.bytes64 word ++ rest := by
  simp only [word64, run_bind_eq_ok, run_word32_eq_ok, run_pure_eq_ok,
    BigEndian.bytes64, List.append_assoc]
  constructor
  · intro hRun
    obtain ⟨high, _, rfl, low, _, rfl, rfl, rfl⟩ := hRun
    rw [BigEndian.high64_word64, BigEndian.low64_word64]
  · rintro rfl
    exact ⟨_, _, rfl, _, _, rfl, BigEndian.word64_high_low word, rfl⟩

theorem inverts_word16 : word16.Inverts (fun _ => True) BigEndian.bytes16 :=
  .of_run fun _ _ _ => by rw [run_word16_eq_ok, true_and]

/-! ## Lists -/

/-- What a reader does is given by its run, since the bytes determine the cursor. -/
theorem apply_eq_map_run (p : Reader α) (cursor : Cursor) :
    p cursor = (p.run cursor.bytes).map fun (a, rest) => (a, Cursor.ofBytes rest) := by
  rw [run, Cursor.ofBytes_bytes]
  cases p cursor with
  | error fault => rfl
  | ok result =>
      obtain ⟨a, rest⟩ := result
      show Except.ok (a, rest) = Except.ok (a, Cursor.ofBytes rest.bytes)
      rw [Cursor.ofBytes_bytes]

/-- Readers that do the same with all inputs are equal. -/
@[ext] theorem ext {p q : Reader α} (hSame : ∀ bytes, p.run bytes = q.run bytes) :
    p = q := by
  funext cursor
  rw [apply_eq_map_run p, apply_eq_map_run q, hSame]

/-- Repeating a reader once more runs it in front of the others. -/
theorem count_succ (p : Reader α) (n : Nat) :
    count p (n + 1) = p >>= fun a => (a :: ·) <$> count p n := by
  ext bytes
  rw [run_count_succ, run_bind]
  cases run p bytes with
  | error fault => rfl
  | ok result => exact (run_map result.2).symm

/-- Repeating a reader repeats its spelling. -/
theorem Reads.count {p : Reader α} {spells : Spelling α} (hReads : p.Reads spells)
    (n : Nat) :
    (count p n).Reads fun items head =>
      items.length = n ∧
        ∃ pieces, List.Forall₂ spells items pieces ∧ head = pieces.flatten := by
  induction n with
  | zero =>
      intro bytes items rest
      rw [run_count_zero, Except.ok.injEq, Prod.mk.injEq]
      constructor
      · intro hRun
        obtain ⟨rfl, rfl⟩ := hRun
        exact ⟨[], ⟨rfl, [], .nil, rfl⟩, rfl⟩
      · intro hSpelled
        obtain ⟨_, ⟨hLength, pieces, hPieces, rfl⟩, rfl⟩ := hSpelled
        obtain rfl := List.length_eq_zero_iff.mp hLength
        obtain rfl := List.forall₂_nil_left_iff.mp hPieces
        exact ⟨rfl, rfl⟩
  | succ n ih =>
      intro bytes items rest
      -- The first piece is spelled for the first item, the others by induction.
      rw [count_succ]
      simp only [run_bind_eq_ok, run_map_eq_ok]
      constructor
      · intro hRun
        obtain ⟨a, middle, hFirst, others, hOthers, rfl⟩ := hRun
        obtain ⟨piece, hPiece, rfl⟩ := (hReads _ _ _).mp hFirst
        obtain ⟨_, ⟨hLength, pieces, hPieces, rfl⟩, rfl⟩ := (ih _ _ _).mp hOthers
        refine ⟨piece ++ pieces.flatten, ⟨by rw [List.length_cons, hLength],
          piece :: pieces, .cons hPiece hPieces, rfl⟩, ?_⟩
        rw [List.append_assoc]
      · intro hSpelled
        obtain ⟨_, ⟨hLength, pieces, hPieces, rfl⟩, rfl⟩ := hSpelled
        cases hPieces with
        | nil => simp at hLength
        | @cons a piece others pieces hPiece hPieces =>
            have hOthers : others.length = n := by simpa using hLength
            have hFirst := hReads.run_append hPiece (pieces.flatten ++ rest)
            have hRest := Reads.run_append ih ⟨hOthers, pieces, hPieces, rfl⟩ rest
            rw [List.flatten_cons, List.append_assoc]
            exact ⟨a, _, hFirst, others, hRest, rfl⟩

theorem forall₂_written_iff {good : α → Prop} {write : Writer α} {items : List α}
    {pieces : List (List UInt8)} :
    List.Forall₂ (fun a head => good a ∧ head = write a) items pieces ↔
      (∀ item ∈ items, good item) ∧ pieces = items.map write := by
  induction items generalizing pieces with
  | nil => simp
  | cons item items ih =>
      cases pieces with
      | nil => simp
      | cons piece pieces =>
          rw [List.forall₂_cons, ih]
          simp only [List.forall_mem_cons, List.map_cons, List.cons.injEq]
          tauto

/-- Repeating a reader inverts repeating its writer. -/
theorem Inverts.count {p : Reader α} {good : α → Prop} {write : Writer α}
    (hInverts : p.Inverts good write) (n : Nat) :
    (count p n).Inverts
      (fun items => items.length = n ∧ ∀ item ∈ items, good item)
      (fun items => items.flatMap write) := by
  refine (Reads.count hInverts n).congr fun items head => ?_
  simp only [forall₂_written_iff, List.flatMap]
  constructor
  · intro hRun
    obtain ⟨hLength, _, ⟨hGood, rfl⟩, rfl⟩ := hRun
    exact ⟨⟨hLength, hGood⟩, rfl⟩
  · intro hSpelled
    obtain ⟨⟨hLength, hGood⟩, rfl⟩ := hSpelled
    exact ⟨hLength, _, ⟨hGood, rfl⟩, rfl⟩

/-- A list with its length in two bytes. -/
theorem Inverts.list16 {p : Reader α} {good : α → Prop} {write : Writer α}
    (hInverts : p.Inverts good write) :
    (list16 p).Inverts (Counted16 good) (Writer.list16 write) := by
  refine .of_run fun bytes items rest => ?_
  simp only [Reader.list16, run_bind_eq_ok, run_word16_eq_ok,
    (hInverts.count _).run_eq_ok, Writer.list16]
  constructor
  · intro hRun
    obtain ⟨length, _, rfl, ⟨hLength, hGood⟩, rfl⟩ := hRun
    -- The length was read from two bytes, so the list is short enough for it.
    have hBound := length.toNat_lt
    rw [hLength, UInt16.ofNat_toNat, List.append_assoc]
    exact ⟨⟨hLength.trans_lt hBound, hGood⟩, rfl⟩
  · intro hSpelled
    obtain ⟨⟨hBound, hGood⟩, rfl⟩ := hSpelled
    have hLength : (UInt16.ofNat items.length).toNat = items.length :=
      UInt16.toNat_ofNat_of_lt' hBound
    rw [List.append_assoc]
    exact ⟨_, _, rfl, ⟨hLength.symm, hGood⟩, rfl⟩

/-- A list with its length in one byte. -/
theorem Inverts.list8 {p : Reader α} {good : α → Prop} {write : Writer α}
    (hInverts : p.Inverts good write) :
    (list8 p).Inverts (Counted8 good) (Writer.list8 write) := by
  refine .of_run fun bytes items rest => ?_
  simp only [Reader.list8, run_bind_eq_ok, run_byte_eq_ok,
    (hInverts.count _).run_eq_ok, Writer.list8]
  constructor
  · intro hRun
    obtain ⟨length, _, rfl, ⟨hLength, hGood⟩, rfl⟩ := hRun
    have hBound := length.toNat_lt
    rw [hLength, UInt8.ofNat_toNat]
    exact ⟨⟨hLength.trans_lt hBound, hGood⟩, rfl⟩
  · intro hSpelled
    obtain ⟨⟨hBound, hGood⟩, rfl⟩ := hSpelled
    have hLength : (UInt8.ofNat items.length).toNat = items.length :=
      UInt8.toNat_ofNat_of_lt' hBound
    exact ⟨_, _, rfl, ⟨hLength.symm, hGood⟩, rfl⟩

end Reader

end ClassFormat
