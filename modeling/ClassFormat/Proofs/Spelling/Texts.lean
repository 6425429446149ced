import Mathlib
import ClassFormat.Text

namespace ClassFormat

/-!
# Texts and their canonical spelling

Every text has a spelling in modified UTF-8, and `ModifiedUtf8.decode` reads it
back.  The decoder first tries the whole run as UTF-8.  A canonical spelling is
UTF-8 only when it holds neither the character zero nor a character above
`ffff`, and then both readings agree; otherwise the first attempt fails at the
first such character and the strict reading decides.

* `ModifiedUtf8.decode_encode` is the round trip.
-/

/-! ## The byte ranges in numbers -/

namespace Utf8

theorem isContinuation_iff {byte : UInt8} :
    isContinuation byte = true ↔ 0x80 ≤ byte.toNat ∧ byte.toNat ≤ 0xbf := by
  simp [isContinuation, UInt8.le_iff_toNat_le]

theorem isPair_iff {lead second : UInt8} :
    isPair lead second = true ↔
      (0xc2 ≤ lead.toNat ∧ lead.toNat ≤ 0xdf) ∧
        0x80 ≤ second.toNat ∧ second.toNat ≤ 0xbf := by
  simp [isPair, isContinuation_iff, UInt8.le_iff_toNat_le]

theorem isTriple_iff {lead second third : UInt8} :
    isTriple lead second third = true ↔
      (0x80 ≤ third.toNat ∧ third.toNat ≤ 0xbf) ∧
        (lead.toNat = 0xe0 ∧ 0xa0 ≤ second.toNat ∧ second.toNat ≤ 0xbf ∨
          0xe1 ≤ lead.toNat ∧ lead.toNat ≤ 0xec ∧
            0x80 ≤ second.toNat ∧ second.toNat ≤ 0xbf ∨
          lead.toNat = 0xed ∧ 0x80 ≤ second.toNat ∧ second.toNat ≤ 0x9f ∨
          0xee ≤ lead.toNat ∧ lead.toNat ≤ 0xef ∧
            0x80 ≤ second.toNat ∧ second.toNat ≤ 0xbf) := by
  simp [isTriple, isContinuation_iff, UInt8.le_iff_toNat_le, ← UInt8.toNat_inj,
    and_assoc, or_assoc]

theorem lead_of_isQuad {lead second third fourth : UInt8}
    (hQuad : isQuad lead second third fourth = true) : 0xf0 ≤ lead.toNat := by
  simp only [isQuad, Bool.and_eq_true, Bool.or_eq_true, beq_iff_eq,
    decide_eq_true_eq, UInt8.le_iff_toNat_le, ← UInt8.toNat_inj] at hQuad
  obtain ⟨_, (⟨⟨hLead, _⟩, _⟩ | ⟨⟨hLead, _⟩, _⟩) | ⟨⟨hLead, _⟩, _⟩⟩ := hQuad
  all_goals simp at hLead; omega

end Utf8

theorem ModifiedUtf8.isSurrogatePair_iff {a b c d e f : UInt8} :
    isSurrogatePair a b c d e f = true ↔
      a.toNat = 0xed ∧ (0xa0 ≤ b.toNat ∧ b.toNat ≤ 0xaf) ∧
        (0x80 ≤ c.toNat ∧ c.toNat ≤ 0xbf) ∧
        d.toNat = 0xed ∧ (0xb0 ≤ e.toNat ∧ e.toNat ≤ 0xbf) ∧
        0x80 ≤ f.toNat ∧ f.toNat ≤ 0xbf := by
  simp [isSurrogatePair, Utf8.isContinuation_iff, UInt8.le_iff_toNat_le,
    ← UInt8.toNat_inj, and_assoc]

/-! ## One character at a time -/

theorem Utf8.lt_single_iff {lead : UInt8} : lead < 0x80 ↔ lead.toNat < 0x80 := by
  simp [UInt8.lt_iff_toNat_lt]

namespace Utf8

variable {done : List Char} {lead second third : UInt8} {rest : List UInt8}

theorem decodeAfter_single (hLead : lead.toNat < 0x80) :
    decodeAfter done (lead :: rest) =
      decodeAfter (Char.ofNat lead.toNat :: done) rest := by
  rw [decodeAfter.eq_def]
  simp only [if_pos (lt_single_iff.mpr hLead)]

theorem decodeAfter_pair (hPair : isPair lead second = true) :
    decodeAfter done (lead :: second :: rest) =
      decodeAfter (Char.ofNat (pairValue lead second) :: done) rest := by
  have hRange := isPair_iff.mp hPair
  have hNotSingle : ¬ lead < 0x80 := by
    rw [lt_single_iff]
    omega
  rw [decodeAfter.eq_def]
  simp only [if_neg hNotSingle, hPair, if_true]

theorem decodeAfter_triple (hTriple : isTriple lead second third = true) :
    decodeAfter done (lead :: second :: third :: rest) =
      decodeAfter (Char.ofNat (tripleValue lead second third) :: done) rest := by
  have hRange := isTriple_iff.mp hTriple
  have hNotSingle : ¬ lead < 0x80 := by
    rw [lt_single_iff]
    omega
  have hNotPair : ¬ isPair lead second = true := by
    rw [isPair_iff]
    omega
  rw [decodeAfter.eq_def]
  simp only [if_neg hNotSingle, if_neg hNotPair, hTriple, if_true]

/-- A lead byte from `80` to `ef` that begins neither a pair nor a triple begins
no character. -/
theorem decodeAfter_eq_none
    (hLead : 0x80 ≤ lead.toNat ∧ lead.toNat < 0xf0)
    (hPair : isPair lead second = false)
    (hTriple : ∀ third, isTriple lead second third = false) :
    decodeAfter done (lead :: second :: rest) = none := by
  have hNotSingle : ¬ lead < 0x80 := by
    rw [lt_single_iff]
    omega
  have hQuad : ∀ third fourth, isQuad lead second third fourth = false := by
    intro third fourth
    rw [Bool.eq_false_iff]
    intro hQuad
    have := lead_of_isQuad hQuad
    omega
  rw [decodeAfter.eq_def]
  simp only [if_neg hNotSingle, hPair]
  cases rest with
  | nil => rfl
  | cons third rest =>
      cases rest with
      | nil => simp [hTriple]
      | cons fourth rest => simp [hTriple, hQuad]

end Utf8

namespace ModifiedUtf8

variable {done : List Char} {a b c d e f : UInt8} {rest : List UInt8}

theorem decodeStrictAfter_single (hFirst : 0 < a.toNat ∧ a.toNat < 0x80) :
    decodeStrictAfter done (a :: rest) =
      decodeStrictAfter (Char.ofNat a.toNat :: done) rest := by
  have hNonzero : a ≠ 0 := by
    rintro rfl
    simp at hFirst
  rw [decodeStrictAfter.eq_def]
  simp only [if_pos (Utf8.lt_single_iff.mpr hFirst.2), if_neg hNonzero]

theorem decodeStrictAfter_zero :
    decodeStrictAfter done (0xc0 :: 0x80 :: rest) =
      decodeStrictAfter (Char.ofNat 0 :: done) rest := by
  rw [decodeStrictAfter.eq_def]
  have hNotSingle : ¬ (0xc0 : UInt8) < 0x80 := by decide
  simp [hNotSingle]

theorem decodeStrictAfter_pair (hPair : Utf8.isPair a b = true) :
    decodeStrictAfter done (a :: b :: rest) =
      decodeStrictAfter (Char.ofNat (Utf8.pairValue a b) :: done) rest := by
  have hRange := Utf8.isPair_iff.mp hPair
  have hNotSingle : ¬ a < 0x80 := by
    rw [Utf8.lt_single_iff]
    omega
  have hNotZero : ¬ (a = 0xc0 ∧ b = 0x80) := by
    intro hParts
    obtain ⟨rfl, -⟩ := hParts
    simp at hRange
  rw [decodeStrictAfter.eq_def]
  simp only [if_neg hNotSingle, if_neg hNotZero, hPair, if_true]

/-- A lead byte from `e0` on begins no character of one or two bytes. -/
theorem not_short_of_long_lead (hLead : 0xe0 ≤ a.toNat) :
    ¬ a < 0x80 ∧ ¬ (a = 0xc0 ∧ b = 0x80) ∧ ¬ Utf8.isPair a b = true := by
  refine ⟨?_, ?_, ?_⟩
  · rw [Utf8.lt_single_iff]
    omega
  · intro hParts
    obtain ⟨rfl, -⟩ := hParts
    simp at hLead
  · rw [Utf8.isPair_iff]
    omega

theorem decodeStrictAfter_triple (hTriple : Utf8.isTriple a b c = true) :
    decodeStrictAfter done (a :: b :: c :: rest) =
      decodeStrictAfter (Char.ofNat (Utf8.tripleValue a b c) :: done) rest := by
  have hRange := Utf8.isTriple_iff.mp hTriple
  obtain ⟨hNotSingle, hNotZero, hNotPair⟩ :=
    not_short_of_long_lead (a := a) (b := b) (by omega)
  rw [decodeStrictAfter.eq_def]
  simp only [if_neg hNotSingle, if_neg hNotZero, if_neg hNotPair, hTriple, if_true]

theorem decodeStrictAfter_surrogates
    (hPair : isSurrogatePair a b c d e f = true) :
    decodeStrictAfter done (a :: b :: c :: d :: e :: f :: rest) =
      decodeStrictAfter (Char.ofNat (surrogateValue b c e f) :: done) rest := by
  have hRange := isSurrogatePair_iff.mp hPair
  obtain ⟨hNotSingle, hNotZero, hNotPair⟩ :=
    not_short_of_long_lead (a := a) (b := b) (by omega)
  have hNotTriple : ¬ Utf8.isTriple a b c = true := by
    rw [Utf8.isTriple_iff]
    omega
  rw [decodeStrictAfter.eq_def]
  simp only [if_neg hNotSingle, if_neg hNotZero, if_neg hNotPair,
    if_neg hNotTriple, hPair, if_true]

/-! ## The spelling of a character is read back -/

/-- A number below `80` is spelled by one byte that is the number itself. -/
theorem encodeBasic_single {value : Nat} (hValue : value < 0x80) :
    ∃ a, Utf8.encodeBasic value = [a] ∧ a.toNat < 0x80 ∧ a.toNat = value := by
  have hByte : (UInt8.ofNat value).toNat = value := by
    rw [UInt8.toNat_ofNat']
    omega
  refine ⟨UInt8.ofNat value, ?_, by omega, hByte⟩
  rw [Utf8.encodeBasic, if_pos hValue]

/-- A number from `80` to `7ff` is spelled by two bytes that give it back. -/
theorem encodeBasic_pair {value : Nat} (hLow : 0x80 ≤ value)
    (hHigh : value < 0x800) :
    ∃ a b, Utf8.encodeBasic value = [a, b] ∧ Utf8.isPair a b = true ∧
      Utf8.pairValue a b = value := by
  refine ⟨UInt8.ofNat (0xc0 + value / 64), UInt8.ofNat (0x80 + value % 64), ?_, ?_, ?_⟩
  · rw [Utf8.encodeBasic, if_neg (by omega), if_pos hHigh]
  · rw [Utf8.isPair_iff, UInt8.toNat_ofNat', UInt8.toNat_ofNat']
    omega
  · unfold Utf8.pairValue
    simp only [UInt8.toNat_ofNat']
    omega

/-- A number from `800` to `ffff` is spelled by three bytes. -/
theorem encodeBasic_long (value : Nat) (hLow : 0x800 ≤ value)
    (hHigh : value < 0x10000) :
    ∃ a b c, Utf8.encodeBasic value = [a, b, c] ∧
      a.toNat = 0xe0 + value / 4096 ∧ b.toNat = 0x80 + value / 64 % 64 ∧
      c.toNat = 0x80 + value % 64 := by
  refine ⟨UInt8.ofNat (0xe0 + value / 4096), UInt8.ofNat (0x80 + value / 64 % 64),
    UInt8.ofNat (0x80 + value % 64), ?_, ?_, ?_, ?_⟩
  · rw [Utf8.encodeBasic, if_neg (by omega), if_neg (by omega)]
  all_goals
    rw [UInt8.toNat_ofNat']
    omega

/-- A number from `800` to `ffff` that is no surrogate is given back by its three
bytes. -/
theorem encodeBasic_triple {value : Nat} (hLow : 0x800 ≤ value)
    (hHigh : value < 0x10000) (hScalar : value < 0xd800 ∨ 0xdfff < value) :
    ∃ a b c, Utf8.encodeBasic value = [a, b, c] ∧ Utf8.isTriple a b c = true ∧
      Utf8.tripleValue a b c = value := by
  obtain ⟨a, b, c, hBytes, hA, hB, hC⟩ := encodeBasic_long value hLow hHigh
  refine ⟨a, b, c, hBytes, ?_, ?_⟩
  · rw [Utf8.isTriple_iff]
    omega
  · unfold Utf8.tripleValue
    omega

/-- A number up to `ffff` that is no surrogate is given back by the one, two or three
bytes that spell it. -/
theorem encodeBasic_cases {value : Nat} (hHigh : value < 0x10000)
    (hScalar : value < 0xd800 ∨ 0xdfff < value) :
    (∃ a, Utf8.encodeBasic value = [a] ∧ a.toNat < 0x80 ∧ a.toNat = value) ∨
    (∃ a b, Utf8.encodeBasic value = [a, b] ∧ Utf8.isPair a b = true ∧
      Utf8.pairValue a b = value) ∨
    ∃ a b c, Utf8.encodeBasic value = [a, b, c] ∧ Utf8.isTriple a b c = true ∧
      Utf8.tripleValue a b c = value := by
  by_cases hSingle : value < 0x80
  · exact .inl (encodeBasic_single hSingle)
  by_cases hPair : value < 0x800
  · exact .inr (.inl (encodeBasic_pair (by omega) hPair))
  · exact .inr (.inr (encodeBasic_triple (by omega) hHigh hScalar))

/-- A number above `ffff` is spelled by two surrogates that give it back. -/
theorem encodeBasic_surrogates (value : Nat) (hLow : 0x10000 ≤ value)
    (hHigh : value < 0x110000) :
    ∃ a b c d e f,
      Utf8.encodeBasic (0xd800 + (value - 0x10000) / 1024) ++
        Utf8.encodeBasic (0xdc00 + (value - 0x10000) % 1024) = [a, b, c, d, e, f] ∧
      isSurrogatePair a b c d e f = true ∧ surrogateValue b c e f = value := by
  obtain ⟨a, b, c, hBytes, hA, hB, hC⟩ :=
    encodeBasic_long (0xd800 + (value - 0x10000) / 1024) (by omega)
      (by omega)
  obtain ⟨d, e, f, hBytes', hD, hE, hF⟩ :=
    encodeBasic_long (0xdc00 + (value - 0x10000) % 1024) (by omega)
      (by omega)
  refine ⟨a, b, c, d, e, f, ?_, ?_, ?_⟩
  · rw [hBytes, hBytes']
    rfl
  · rw [isSurrogatePair_iff]
    omega
  · unfold surrogateValue
    omega

/-- The characters whose canonical spelling is also UTF-8. -/
def IsPlain (char : Char) : Prop := 0 < char.toNat ∧ char.toNat < 0x10000

theorem toNat_scalar (char : Char) :
    char.toNat < 0xd800 ∨ 0xdfff < char.toNat ∧ char.toNat < 0x110000 := by
  have hValid := char.valid
  simpa [UInt32.isValidChar, Nat.isValidChar] using hValid

/-- The strict reading takes the spelling of every character. -/
theorem decodeStrictAfter_encodeChar (char : Char) (done : List Char)
    (rest : List UInt8) :
    decodeStrictAfter done (encodeChar char ++ rest) =
      decodeStrictAfter (char :: done) rest := by
  have hScalar := toNat_scalar char
  rw [encodeChar]
  by_cases hZero : char.toNat = 0
  · rw [if_pos hZero]
    have hChar : Char.ofNat 0 = char := by
      rw [← hZero, Char.ofNat_toNat]
    simp only [List.cons_append, List.nil_append, decodeStrictAfter_zero, hChar]
  rw [if_neg hZero]
  by_cases hBasic : char.toNat < 0x10000
  · rw [if_pos hBasic]
    obtain ⟨a, hBytes, hSingle, hValue⟩ | ⟨a, b, hBytes, hIsPair, hValue⟩ |
      ⟨a, b, c, hBytes, hIsTriple, hValue⟩ := encodeBasic_cases hBasic (by omega)
    · rw [hBytes, List.singleton_append, decodeStrictAfter_single (by omega), hValue,
        Char.ofNat_toNat]
    · simp only [hBytes, List.cons_append, List.nil_append,
        decodeStrictAfter_pair hIsPair, hValue, Char.ofNat_toNat]
    · simp only [hBytes, List.cons_append, List.nil_append,
        decodeStrictAfter_triple hIsTriple, hValue, Char.ofNat_toNat]
  · rw [if_neg hBasic]
    obtain ⟨a, b, c, d, e, f, hBytes, hIsPair, hValue⟩ :=
      encodeBasic_surrogates char.toNat (by omega) (by omega)
    simp only [hBytes, List.cons_append, List.nil_append,
      decodeStrictAfter_surrogates hIsPair, hValue, Char.ofNat_toNat]

/-- UTF-8 takes the spelling of a plain character. -/
theorem decodeAfter_encodeChar {char : Char} (hPlain : IsPlain char)
    (done : List Char) (rest : List UInt8) :
    Utf8.decodeAfter done (encodeChar char ++ rest) =
      Utf8.decodeAfter (char :: done) rest := by
  have hScalar := toNat_scalar char
  obtain ⟨hNonzero, hBasic⟩ := hPlain
  rw [encodeChar, if_neg (by omega), if_pos hBasic]
  obtain ⟨a, hBytes, hSingle, hValue⟩ | ⟨a, b, hBytes, hIsPair, hValue⟩ |
    ⟨a, b, c, hBytes, hIsTriple, hValue⟩ := encodeBasic_cases hBasic (by omega)
  · rw [hBytes, List.singleton_append, Utf8.decodeAfter_single hSingle, hValue,
      Char.ofNat_toNat]
  · simp only [hBytes, List.cons_append, List.nil_append,
      Utf8.decodeAfter_pair hIsPair, hValue, Char.ofNat_toNat]
  · simp only [hBytes, List.cons_append, List.nil_append,
      Utf8.decodeAfter_triple hIsTriple, hValue, Char.ofNat_toNat]

/-- UTF-8 stops at the spelling of any other character. -/
theorem decodeAfter_encodeChar_eq_none {char : Char} (hPlain : ¬ IsPlain char)
    (done : List Char) (rest : List UInt8) :
    Utf8.decodeAfter done (encodeChar char ++ rest) = none := by
  have hScalar := toNat_scalar char
  rw [IsPlain] at hPlain
  rw [encodeChar]
  by_cases hZero : char.toNat = 0
  · rw [if_pos hZero]
    refine Utf8.decodeAfter_eq_none (by decide) (by decide) fun third => ?_
    rw [Bool.eq_false_iff, ne_eq, Utf8.isTriple_iff]
    simp
  · rw [if_neg hZero, if_neg (by omega)]
    obtain ⟨a, b, c, d, e, f, hBytes, hIsPair, -⟩ :=
      encodeBasic_surrogates char.toNat (by omega) (by omega)
    have hRange := isSurrogatePair_iff.mp hIsPair
    rw [hBytes]
    refine Utf8.decodeAfter_eq_none (by omega) ?_ fun third => ?_
    · rw [Bool.eq_false_iff, ne_eq, Utf8.isPair_iff]
      omega
    · rw [Bool.eq_false_iff, ne_eq, Utf8.isTriple_iff]
      omega

/-! ## The spelling of a text is read back -/

theorem decodeStrictAfter_encode (chars done : List Char) :
    decodeStrictAfter done (chars.flatMap encodeChar) =
      some (done.reverse ++ chars) := by
  induction chars generalizing done with
  | nil => simp [decodeStrictAfter]
  | cons char chars ih =>
      rw [List.flatMap_cons, decodeStrictAfter_encodeChar, ih]
      simp

/-- UTF-8 reads a canonical spelling right or not at all. -/
theorem decodeAfter_encode (chars done : List Char) :
    Utf8.decodeAfter done (chars.flatMap encodeChar) =
        some (done.reverse ++ chars) ∨
      Utf8.decodeAfter done (chars.flatMap encodeChar) = none := by
  induction chars generalizing done with
  | nil => simp [Utf8.decodeAfter]
  | cons char chars ih =>
      rw [List.flatMap_cons]
      by_cases hPlain : IsPlain char
      · rw [decodeAfter_encodeChar hPlain]
        simpa using ih (char :: done)
      · exact .inr (decodeAfter_encodeChar_eq_none hPlain done _)

/-- Every text is read back from its canonical spelling. -/
theorem decode_encode (text : String) : decode (encode text) = some text := by
  rw [decode, encode, Utf8.decode]
  obtain hUtf8 | hUtf8 := decodeAfter_encode text.toList []
  · rw [hUtf8]
    simp
  · rw [hUtf8, decodeStrictAfter_encode]
    simp

end ModifiedUtf8

end ClassFormat
