import ClassFormat.Fault
import ClassFormat.Text

namespace ClassFormat

/-!
# Reading and writing runs of bytes

A word of two, four or eight bytes is written with its high half first.  The
readings and the spellings below are inverse to each other, so a word has exactly
one spelling.

A `Reader` takes what it needs from the front of the input and leaves the rest,
or it stops with a fault.  The input is held with its length, so that a reader
can say at once how much it took or how much there is.  That length is
determined by the bytes: what a reader does is a function of the bytes alone,
and `Reader.run` is that function.

A `Writer` is the counterpart.  A list has its length in front, in one byte or two,
and so has a text.

* `Reader.run_bind` says that readers run one after the other, each on what the
  one before it left.
* `Reader.run_count_succ` and `Reader.run_measure` say what repeating and
  measuring do to the rest of the input.
-/

/-! ## Words -/

namespace BigEndian

/-- The word written as `high` and then `low`. -/
def word16 (high low : UInt8) : UInt16 :=
  UInt16.ofNat (high.toNat * 0x100 + low.toNat)

/-- The word written as `high` and then `low`. -/
def word32 (high low : UInt16) : UInt32 :=
  UInt32.ofNat (high.toNat * 0x10000 + low.toNat)

/-- The word written as `high` and then `low`. -/
def word64 (high low : UInt32) : UInt64 :=
  UInt64.ofNat (high.toNat * 0x100000000 + low.toNat)

/-- The high half of a word. -/
def high16 (word : UInt16) : UInt8 := UInt8.ofNat (word.toNat / 0x100)

/-- The low half of a word. -/
def low16 (word : UInt16) : UInt8 := UInt8.ofNat word.toNat

/-- The high half of a word. -/
def high32 (word : UInt32) : UInt16 := UInt16.ofNat (word.toNat / 0x10000)

/-- The low half of a word. -/
def low32 (word : UInt32) : UInt16 := UInt16.ofNat word.toNat

/-- The high half of a word. -/
def high64 (word : UInt64) : UInt32 := UInt32.ofNat (word.toNat / 0x100000000)

/-- The low half of a word. -/
def low64 (word : UInt64) : UInt32 := UInt32.ofNat word.toNat

/-- The two bytes of a word. -/
def bytes16 (word : UInt16) : List UInt8 := [high16 word, low16 word]

/-- The four bytes of a word. -/
def bytes32 (word : UInt32) : List UInt8 :=
  bytes16 (high32 word) ++ bytes16 (low32 word)

/-- The eight bytes of a word. -/
def bytes64 (word : UInt64) : List UInt8 :=
  bytes32 (high64 word) ++ bytes32 (low64 word)

theorem word16_high_low (word : UInt16) :
    word16 (high16 word) (low16 word) = word := by
  have hBound := word.toNat_lt
  apply UInt16.toNat_inj.mp
  simp only [word16, high16, low16, UInt16.toNat_ofNat', UInt8.toNat_ofNat']
  omega

theorem high16_word16 (high low : UInt8) : high16 (word16 high low) = high := by
  have hHigh := high.toNat_lt
  have hLow := low.toNat_lt
  apply UInt8.toNat_inj.mp
  simp only [word16, high16, UInt16.toNat_ofNat', UInt8.toNat_ofNat']
  omega

theorem low16_word16 (high low : UInt8) : low16 (word16 high low) = low := by
  have hHigh := high.toNat_lt
  have hLow := low.toNat_lt
  apply UInt8.toNat_inj.mp
  simp only [word16, low16, UInt16.toNat_ofNat', UInt8.toNat_ofNat']
  omega

theorem word32_high_low (word : UInt32) :
    word32 (high32 word) (low32 word) = word := by
  have hBound := word.toNat_lt
  apply UInt32.toNat_inj.mp
  simp only [word32, high32, low32, UInt16.toNat_ofNat', UInt32.toNat_ofNat']
  omega

theorem high32_word32 (high low : UInt16) :
    high32 (word32 high low) = high := by
  have hHigh := high.toNat_lt
  have hLow := low.toNat_lt
  apply UInt16.toNat_inj.mp
  simp only [word32, high32, UInt16.toNat_ofNat', UInt32.toNat_ofNat']
  omega

theorem low32_word32 (high low : UInt16) : low32 (word32 high low) = low := by
  have hHigh := high.toNat_lt
  have hLow := low.toNat_lt
  apply UInt16.toNat_inj.mp
  simp only [word32, low32, UInt16.toNat_ofNat', UInt32.toNat_ofNat']
  omega

theorem word64_high_low (word : UInt64) :
    word64 (high64 word) (low64 word) = word := by
  have hBound := word.toNat_lt
  apply UInt64.toNat_inj.mp
  simp only [word64, high64, low64, UInt32.toNat_ofNat', UInt64.toNat_ofNat']
  omega

theorem high64_word64 (high low : UInt32) :
    high64 (word64 high low) = high := by
  have hHigh := high.toNat_lt
  have hLow := low.toNat_lt
  apply UInt32.toNat_inj.mp
  simp only [word64, high64, UInt32.toNat_ofNat', UInt64.toNat_ofNat']
  omega

theorem low64_word64 (high low : UInt32) : low64 (word64 high low) = low := by
  have hHigh := high.toNat_lt
  have hLow := low.toNat_lt
  apply UInt32.toNat_inj.mp
  simp only [word64, low64, UInt32.toNat_ofNat', UInt64.toNat_ofNat']
  omega

end BigEndian

/-! ## Readers -/

/-- The bytes that are still to be read, with their number. -/
structure Cursor where
  bytes : List UInt8
  remaining : Nat
  remaining_eq : remaining = bytes.length

namespace Cursor

/-- The cursor in front of all the given bytes. -/
def ofBytes (bytes : List UInt8) : Cursor := ⟨bytes, bytes.length, rfl⟩

theorem ofBytes_bytes (cursor : Cursor) : ofBytes cursor.bytes = cursor := by
  obtain ⟨bytes, remaining, rfl⟩ := cursor
  rfl

/-- The cursor behind the first `count` bytes, if there are that many, and those
bytes. -/
def split? (cursor : Cursor) (count : Nat) : Option (List UInt8 × Cursor) :=
  if hEnough : count ≤ cursor.remaining then
    some (cursor.bytes.take count, {
      bytes := cursor.bytes.drop count
      remaining := cursor.remaining - count
      remaining_eq := by rw [List.length_drop, cursor.remaining_eq] })
  else none

end Cursor

/-- A step that takes bytes from the front of the input. -/
def Reader (α : Type) : Type :=
  Cursor → Except Fault (α × Cursor)

namespace Reader

instance : Monad Reader where
  pure a := fun cursor => .ok (a, cursor)
  bind p f := fun cursor =>
    match p cursor with
    | .ok (a, rest) => f a rest
    | .error fault => .error fault

/-- What a reader does with the given bytes: its result and the bytes that it
leaves, or its fault. -/
def run {α : Type} (p : Reader α) (bytes : List UInt8) :
    Except Fault (α × List UInt8) :=
  (p (Cursor.ofBytes bytes)).map fun (a, rest) => (a, rest.bytes)

/-- Stops with a fault. -/
def fail {α : Type} (fault : Fault) : Reader α := fun _ => .error fault

/-- One byte. -/
def byte : Reader UInt8 := fun cursor =>
  match cursor with
  | ⟨first :: bytes, remaining, hRemaining⟩ =>
      .ok (first, ⟨bytes, remaining - 1, by rw [hRemaining]; rfl⟩)
  | ⟨[], _, _⟩ => .error (.truncated .field)

/-- A word of two bytes. -/
def word16 : Reader UInt16 := do
  let high ← byte
  let low ← byte
  return BigEndian.word16 high low

/-- A word of four bytes. -/
def word32 : Reader UInt32 := do
  let high ← word16
  let low ← word16
  return BigEndian.word32 high low

/-- A word of eight bytes. -/
def word64 : Reader UInt64 := do
  let high ← word32
  let low ← word32
  return BigEndian.word64 high low

/-- A run of bytes that are not looked at. -/
def take (count : Nat) : Reader (List UInt8) := fun cursor =>
  match cursor.split? count with
  | some result => .ok result
  | none => .error (.truncated (.run count cursor.remaining))

/-- `count` items, put behind those already read, which are given last first. -/
def countAfter {α : Type} (p : Reader α) (done : List α) :
    Nat → Reader (List α)
  | 0 => fun cursor => .ok (done.reverse, cursor)
  | count + 1 => fun cursor =>
      match p cursor with
      | .ok (a, rest) => countAfter p (a :: done) count rest
      | .error fault => .error fault

/-- `count` items, one after another. -/
def count {α : Type} (p : Reader α) (count : Nat) : Reader (List α) :=
  countAfter p [] count

/-- A list that is preceded by its length in two bytes. -/
def list16 {α : Type} (p : Reader α) : Reader (List α) := do
  let length ← word16
  count p length.toNat

/-- A list that is preceded by its length in one byte. -/
def list8 {α : Type} (p : Reader α) : Reader (List α) := do
  let length ← byte
  count p length.toNat

/-- A result together with the number of bytes that were taken for it. -/
def measure {α : Type} (p : Reader α) : Reader (α × Nat) := fun cursor =>
  match p cursor with
  | .ok (a, rest) => .ok ((a, cursor.remaining - rest.remaining), rest)
  | .error fault => .error fault

/-- The result of a reader that must take all the given bytes. -/
def whole {α : Type} (p : Reader α) (bytes : List UInt8) : Except Fault α :=
  match p.run bytes with
  | .ok (a, []) => .ok a
  | .ok (_, rest) => .error (.trailingBytes rest.length)
  | .error fault => .error fault

/-! ## What readers do to the bytes -/

theorem run_pure {α : Type} (a : α) (bytes : List UInt8) :
    run (pure a) bytes = .ok (a, bytes) := rfl

theorem run_fail {α : Type} (fault : Fault) (bytes : List UInt8) :
    run (fail fault : Reader α) bytes = .error fault := rfl

/-- Readers run one after the other. -/
theorem run_bind {α β : Type} (p : Reader α) (f : α → Reader β)
    (bytes : List UInt8) :
    run (p >>= f) bytes =
      match run p bytes with
      | .ok (a, rest) => run (f a) rest
      | .error fault => .error fault := by
  simp only [run, bind]
  cases p (Cursor.ofBytes bytes) with
  | error fault => rfl
  | ok result => simp [Except.map, Cursor.ofBytes_bytes]

theorem run_byte_cons (first : UInt8) (rest : List UInt8) :
    run byte (first :: rest) = .ok (first, rest) := rfl

theorem run_byte_nil : run byte [] = .error (.truncated .field) := rfl

/-- A run of bytes is taken whole or not at all. -/
theorem run_take (count : Nat) (bytes : List UInt8) :
    run (take count) bytes =
      if count ≤ bytes.length then .ok (bytes.take count, bytes.drop count)
      else .error (.truncated (.run count bytes.length)) := by
  by_cases hEnough : count ≤ bytes.length <;>
    simp [run, take, Cursor.split?, Cursor.ofBytes, hEnough, Except.map]

theorem run_countAfter_zero {α : Type} (p : Reader α) (done : List α)
    (bytes : List UInt8) :
    run (countAfter p done 0) bytes = .ok (done.reverse, bytes) := rfl

theorem run_countAfter_succ {α : Type} (p : Reader α) (done : List α)
    (n : Nat) (bytes : List UInt8) :
    run (countAfter p done (n + 1)) bytes =
      match run p bytes with
      | .ok (a, rest) => run (countAfter p (a :: done) n) rest
      | .error fault => .error fault := by
  simp only [run, countAfter]
  cases p (Cursor.ofBytes bytes) with
  | error fault => rfl
  | ok result => simp [Except.map, Cursor.ofBytes_bytes]

theorem run_countAfter {α : Type} (p : Reader α) (done : List α) (n : Nat)
    (bytes : List UInt8) :
    run (countAfter p done n) bytes =
      (run (count p n) bytes).map fun result =>
        (done.reverse ++ result.1, result.2) := by
  induction n generalizing done bytes with
  | zero => simp [count, run_countAfter_zero, Except.map]
  | succ n ih =>
      rw [count, run_countAfter_succ, run_countAfter_succ]
      cases run p bytes with
      | error fault => rfl
      | ok result =>
          obtain ⟨a, rest⟩ := result
          simp only [ih (a :: done), ih [a]]
          cases run (count p n) rest <;> simp [Except.map]

theorem run_count_zero {α : Type} (p : Reader α) (bytes : List UInt8) :
    run (count p 0) bytes = .ok ([], bytes) := rfl

/-- Repeating a reader runs it once and then repeats it on the rest. -/
theorem run_count_succ {α : Type} (p : Reader α) (n : Nat)
    (bytes : List UInt8) :
    run (count p (n + 1)) bytes =
      match run p bytes with
      | .ok (a, rest) =>
          (run (count p n) rest).map fun result => (a :: result.1, result.2)
      | .error fault => .error fault := by
  rw [count, run_countAfter_succ]
  cases run p bytes with
  | error fault => rfl
  | ok result => exact run_countAfter p [result.1] n result.2

/-- Measuring tells how much shorter the rest is. -/
theorem run_measure {α : Type} (p : Reader α) (bytes : List UInt8) :
    run (measure p) bytes =
      (run p bytes).map fun result =>
        ((result.1, bytes.length - result.2.length), result.2) := by
  simp only [run, measure]
  cases p (Cursor.ofBytes bytes) with
  | error fault => rfl
  | ok result =>
      simp [Except.map, result.2.remaining_eq, Cursor.ofBytes]

end Reader

/-! ## Writers -/

/-- How the things of a type are written. -/
abbrev Writer (α : Type) : Type := α → List UInt8

namespace Writer

/-- A list that is preceded by its length in two bytes. -/
def list16 {α : Type} (write : Writer α) : Writer (List α) := fun items =>
  BigEndian.bytes16 (UInt16.ofNat items.length) ++ items.flatMap write

/-- A list that is preceded by its length in one byte. -/
def list8 {α : Type} (write : Writer α) : Writer (List α) := fun items =>
  UInt8.ofNat items.length :: items.flatMap write

/-- A text, preceded by the length of its spelling. -/
def text : Writer String := fun content =>
  let bytes := ModifiedUtf8.encode content
  BigEndian.bytes16 (UInt16.ofNat bytes.length) ++ bytes

end Writer

end ClassFormat
