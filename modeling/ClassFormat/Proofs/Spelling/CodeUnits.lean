import Mathlib
import ClassFormat.Proofs.Spelling.Texts

namespace ClassFormat

/-!
# The runs of bytes that are texts

A run of bytes is in modified UTF-8 when it is the spelling of some code units, each by
itself: a surrogate need not belong to a pair.  The decoder asks for something else.  It
takes a run that is UTF-8 from end to end, with zero bytes and characters of four bytes;
and it takes a run in modified UTF-8 if every surrogate in it belongs to a pair.

* `Utf8.decode_eq_some_iff` and `ModifiedUtf8.decodeStrict_eq_some_iff` say that each
  reading undoes its way of spelling a text.
* `ModifiedUtf8.decode_eq_some_iff` says what is read, and `ModifiedUtf8.exists_decode_iff`
  which runs are texts.
-/

/-! ## Bytes that give a number are its spelling -/

namespace Utf8

variable {a b c d : UInt8}

theorem isQuad_iff :
    isQuad a b c d = true ↔
      (0x80 ≤ c.toNat ∧ c.toNat ≤ 0xbf) ∧ (0x80 ≤ d.toNat ∧ d.toNat ≤ 0xbf) ∧
        (a.toNat = 0xf0 ∧ 0x90 ≤ b.toNat ∧ b.toNat ≤ 0xbf ∨
          0xf1 ≤ a.toNat ∧ a.toNat ≤ 0xf3 ∧ 0x80 ≤ b.toNat ∧ b.toNat ≤ 0xbf ∨
          a.toNat = 0xf4 ∧ 0x80 ≤ b.toNat ∧ b.toNat ≤ 0x8f) := by
  simp [isQuad, isContinuation_iff, UInt8.le_iff_toNat_le, ← UInt8.toNat_inj, and_assoc,
    or_assoc]

/-- A number is the byte that has it. -/
theorem ofNat_eq_byte {byte : UInt8} {value : Nat} (hValue : value = byte.toNat) :
    UInt8.ofNat value = byte := by
  rw [hValue, UInt8.ofNat_toNat]

theorem encodeBasic_byte (hByte : a.toNat < 0x80) : encodeBasic a.toNat = [a] := by
  rw [encodeBasic, if_pos hByte, ofNat_eq_byte rfl]

theorem encodeBasic_pairValue (hPair : isPair a b = true) :
    encodeBasic (pairValue a b) = [a, b] ∧ 0x80 ≤ pairValue a b ∧ pairValue a b < 0x800 := by
  have hRange := isPair_iff.mp hPair
  have hValue : pairValue a b = (a.toNat - 0xc0) * 64 + (b.toNat - 0x80) := rfl
  refine ⟨?_, by omega, by omega⟩
  rw [encodeBasic, if_neg (by omega), if_pos (by omega), ofNat_eq_byte (by omega : _ = a.toNat),
    ofNat_eq_byte (by omega : _ = b.toNat)]

/-- Three bytes that give a number from `800` on are its spelling. -/
theorem encodeBasic_tripleValue (hLead : 0xe0 ≤ a.toNat ∧ a.toNat ≤ 0xef)
    (hSecond : 0x80 ≤ b.toNat ∧ b.toNat ≤ 0xbf) (hThird : 0x80 ≤ c.toNat ∧ c.toNat ≤ 0xbf)
    (hLong : 0x800 ≤ tripleValue a b c) : encodeBasic (tripleValue a b c) = [a, b, c] := by
  have hValue : tripleValue a b c =
      ((a.toNat - 0xe0) * 64 + (b.toNat - 0x80)) * 64 + (c.toNat - 0x80) := rfl
  rw [encodeBasic, if_neg (by omega), if_neg (by omega), ofNat_eq_byte (by omega : _ = a.toNat),
    ofNat_eq_byte (by omega : _ = b.toNat), ofNat_eq_byte (by omega : _ = c.toNat)]

theorem tripleValue_of_isTriple (hTriple : isTriple a b c = true) :
    encodeBasic (tripleValue a b c) = [a, b, c] ∧ 0 < tripleValue a b c ∧
      tripleValue a b c < 0x10000 ∧
      (tripleValue a b c < 0xd800 ∨ 0xdfff < tripleValue a b c) := by
  have hRange := isTriple_iff.mp hTriple
  have hValue : tripleValue a b c =
      ((a.toNat - 0xe0) * 64 + (b.toNat - 0x80)) * 64 + (c.toNat - 0x80) := rfl
  refine ⟨encodeBasic_tripleValue ?_ ?_ ?_ ?_, ?_, ?_, ?_⟩
  all_goals omega

end Utf8

/-! ## UTF-8 -/

/-- A number that is no surrogate is that of a character. -/
theorem toNat_charOfNat {value : Nat}
    (hScalar : value < 0xd800 ∨ 0xdfff < value ∧ value < 0x110000) :
    (Char.ofNat value).toNat = value := by
  have hValid : value.isValidChar := hScalar
  rw [Char.toNat_ofNat, if_pos hValid]

/-- A character that is read is the first of those that are added. -/
theorem spelled_cons {spell : Char → List UInt8} {char : Char} {done chars : List Char}
    {piece rest : List UInt8} (hPiece : spell char = piece)
    (hRest : ∃ added, chars = (char :: done).reverse ++ added ∧ rest = added.flatMap spell) :
    ∃ added, chars = done.reverse ++ added ∧ piece ++ rest = added.flatMap spell := by
  obtain ⟨added, rfl, rfl⟩ := hRest
  exact ⟨char :: added, by simp, by rw [List.flatMap_cons, hPiece]⟩

namespace Utf8

/-- Up to `ffff` a character is spelled as its number is. -/
theorem utf8EncodeChar_basic {char : Char} (hBasic : char.toNat < 0x10000) :
    String.utf8EncodeChar char = encodeBasic char.toNat := by
  have hNumber : char.val.toNat = char.toNat := Char.toNat_val
  unfold String.utf8EncodeChar encodeBasic
  simp only [hNumber]
  generalize char.toNat = value at hBasic
  have hLast : value % 64 + 128 = 0x80 + value % 64 := Nat.add_comm _ _
  by_cases hSingle : value < 0x80
  · rw [if_pos (by omega), if_pos hSingle]
  by_cases hPair : value < 0x800
  · have hLead : value / 64 % 32 + 192 = 0xc0 + value / 64 := by omega
    rw [if_neg (by omega), if_pos (by omega), if_neg hSingle, if_pos hPair, hLead, hLast]
  · have hLead : value / 4096 % 16 + 224 = 0xe0 + value / 4096 := by omega
    have hSecond : value / 64 % 64 + 128 = 0x80 + value / 64 % 64 := Nat.add_comm _ _
    rw [if_neg (by omega), if_neg (by omega), if_pos (by omega), if_neg hSingle, if_neg hPair,
      hLead, hSecond, hLast]

theorem utf8EncodeChar_ofNat {value : Nat} (hBasic : value < 0x10000)
    (hScalar : value < 0xd800 ∨ 0xdfff < value) :
    String.utf8EncodeChar (Char.ofNat value) = encodeBasic value := by
  have hNumber : (Char.ofNat value).toNat = value := toNat_charOfNat (by omega)
  rw [utf8EncodeChar_basic (by omega), hNumber]

/-- Above `ffff` a character is spelled by four bytes that give its number. -/
theorem utf8EncodeChar_quad {char : Char} (hLong : 0x10000 ≤ char.toNat) :
    ∃ a b c d, String.utf8EncodeChar char = [a, b, c, d] ∧ isQuad a b c d = true ∧
      quadValue a b c d = char.toNat := by
  have hNumber : char.val.toNat = char.toNat := Char.toNat_val
  have hScalar := ModifiedUtf8.toNat_scalar char
  have hBytes : String.utf8EncodeChar char =
      [UInt8.ofNat (char.toNat / 262144 % 8 + 240), UInt8.ofNat (char.toNat / 4096 % 64 + 128),
        UInt8.ofNat (char.toNat / 64 % 64 + 128), UInt8.ofNat (char.toNat % 64 + 128)] := by
    unfold String.utf8EncodeChar
    simp only [hNumber]
    rw [if_neg (by omega), if_neg (by omega), if_neg (by omega)]
  refine ⟨_, _, _, _, hBytes, ?_, ?_⟩
  · rw [isQuad_iff]
    simp only [UInt8.toNat_ofNat']
    omega
  · unfold quadValue
    simp only [UInt8.toNat_ofNat']
    omega

/-- Four bytes that give a number spell the character with the number. -/
theorem utf8EncodeChar_quadValue (hQuad : isQuad a b c d = true) :
    String.utf8EncodeChar (Char.ofNat (quadValue a b c d)) = [a, b, c, d] := by
  have hRange := isQuad_iff.mp hQuad
  have hValue : quadValue a b c d = (((a.toNat - 0xf0) * 64 + (b.toNat - 0x80)) * 64 +
      (c.toNat - 0x80)) * 64 + (d.toNat - 0x80) := rfl
  have hNumber : (Char.ofNat (quadValue a b c d)).val.toNat = quadValue a b c d := by
    rw [Char.toNat_val, toNat_charOfNat (by omega)]
  unfold String.utf8EncodeChar
  simp only [hNumber]
  rw [if_neg (by omega), if_neg (by omega), if_neg (by omega),
    ofNat_eq_byte (by omega : _ = a.toNat), ofNat_eq_byte (by omega : _ = b.toNat),
    ofNat_eq_byte (by omega : _ = c.toNat), ofNat_eq_byte (by omega : _ = d.toNat)]

variable {done chars : List Char} {bytes rest : List UInt8}

theorem decodeAfter_quad (hQuad : isQuad a b c d = true) :
    decodeAfter done (a :: b :: c :: d :: rest) =
      decodeAfter (Char.ofNat (quadValue a b c d) :: done) rest := by
  have hRange := isQuad_iff.mp hQuad
  have hNotSingle : ¬ a < 0x80 := by
    rw [lt_single_iff]
    omega
  have hNotPair : ¬ isPair a b = true := by
    rw [isPair_iff]
    omega
  have hNotTriple : ¬ isTriple a b c = true := by
    rw [isTriple_iff]
    omega
  rw [decodeAfter.eq_def]
  simp only [if_neg hNotSingle, if_neg hNotPair, if_neg hNotTriple, hQuad, if_true]

/-- The spelling of every character is read back. -/
theorem decodeAfter_utf8EncodeChar (char : Char) :
    decodeAfter done (String.utf8EncodeChar char ++ rest) =
      decodeAfter (char :: done) rest := by
  by_cases hBasic : char.toNat < 0x10000
  · rw [utf8EncodeChar_basic hBasic]
    by_cases hZero : char.toNat = 0
    · have hChar : char = Char.ofNat 0 := by rw [← hZero, Char.ofNat_toNat]
      subst hChar
      exact decodeAfter_single (by decide)
    · have hRead := ModifiedUtf8.decodeAfter_encodeChar ⟨Nat.pos_of_ne_zero hZero, hBasic⟩
        done rest
      rwa [ModifiedUtf8.encodeChar, if_neg hZero, if_pos hBasic] at hRead
  · obtain ⟨a, b, c, d, hBytes, hQuad, hValue⟩ :=
      utf8EncodeChar_quad (Nat.le_of_not_lt hBasic)
    simp only [hBytes, List.cons_append, List.nil_append, decodeAfter_quad hQuad, hValue,
      Char.ofNat_toNat]

/-- What is read was spelled. -/
theorem spelled_of_decodeAfter (hRead : decodeAfter done bytes = some chars) :
    ∃ added, chars = done.reverse ++ added ∧ bytes = added.flatMap String.utf8EncodeChar := by
  fun_induction decodeAfter done bytes with
  | case1 done =>
      obtain rfl := Option.some.inj hRead
      exact ⟨[], by simp, rfl⟩
  | case2 done lead rest hSingle ih =>
      have hByte := lt_single_iff.mp hSingle
      have hPiece : String.utf8EncodeChar (Char.ofNat lead.toNat) = [lead] :=
        (utf8EncodeChar_ofNat (by omega) (by omega)).trans (encodeBasic_byte hByte)
      exact spelled_cons hPiece (ih hRead)
  | case4 done lead hSingle second rest hPair ih =>
      obtain ⟨hBytes, hRange⟩ := encodeBasic_pairValue hPair
      exact spelled_cons ((utf8EncodeChar_ofNat (by omega) (by omega)).trans hBytes) (ih hRead)
  | case6 done lead hSingle second hPair third rest hTriple ih =>
      obtain ⟨hBytes, -, hBasic, hScalar⟩ := tripleValue_of_isTriple hTriple
      exact spelled_cons ((utf8EncodeChar_ofNat hBasic hScalar).trans hBytes) (ih hRead)
  | case8 done lead hSingle second hPair third hTriple fourth rest hQuad ih =>
      exact spelled_cons (utf8EncodeChar_quadValue hQuad) (ih hRead)
  | case3 | case5 | case7 | case9 => cases hRead

theorem decodeAfter_flatMap (chars done : List Char) :
    decodeAfter done (chars.flatMap String.utf8EncodeChar) = some (done.reverse ++ chars) := by
  induction chars generalizing done with
  | nil => simp [decodeAfter]
  | cons char chars ih =>
      rw [List.flatMap_cons, decodeAfter_utf8EncodeChar, ih]
      simp

/-- Reading a text as UTF-8 undoes spelling it so. -/
theorem decode_eq_some_iff :
    decode bytes = some chars ↔ bytes = chars.flatMap String.utf8EncodeChar := by
  constructor
  · intro hRead
    obtain ⟨added, rfl, rfl⟩ := spelled_of_decodeAfter hRead
    rfl
  · intro hBytes
    rw [hBytes]
    exact decodeAfter_flatMap chars []

end Utf8

/-! ## The modified form -/

namespace ModifiedUtf8

variable {a b c d e f : UInt8} {done chars : List Char} {bytes rest : List UInt8}

theorem encodeChar_ofNat {value : Nat} (hPositive : 0 < value) (hBasic : value < 0x10000)
    (hScalar : value < 0xd800 ∨ 0xdfff < value) :
    encodeChar (Char.ofNat value) = Utf8.encodeBasic value := by
  have hNumber : (Char.ofNat value).toNat = value := toNat_charOfNat (by omega)
  rw [encodeChar, hNumber, if_neg (by omega), if_pos hBasic]

/-- The bytes of two surrogates spell the character that they stand for. -/
theorem encodeChar_surrogateValue (hPair : isSurrogatePair a b c d e f = true) :
    encodeChar (Char.ofNat (surrogateValue b c e f)) = [a, b, c, d, e, f] := by
  have hRange := isSurrogatePair_iff.mp hPair
  have hValue : surrogateValue b c e f =
      0x10000 + ((b.toNat - 0xa0) * 64 + (c.toNat - 0x80)) * 1024 +
        ((e.toNat - 0xb0) * 64 + (f.toNat - 0x80)) := rfl
  have hNumber : (Char.ofNat (surrogateValue b c e f)).toNat = surrogateValue b c e f :=
    toNat_charOfNat (by omega)
  have hTriple : ∀ {lead second third : UInt8}, Utf8.tripleValue lead second third =
      ((lead.toNat - 0xe0) * 64 + (second.toNat - 0x80)) * 64 + (third.toNat - 0x80) := rfl
  have hHigh : 0xd800 + (surrogateValue b c e f - 0x10000) / 1024 = Utf8.tripleValue a b c := by
    rw [hTriple]
    omega
  have hLow : 0xdc00 + (surrogateValue b c e f - 0x10000) % 1024 = Utf8.tripleValue d e f := by
    rw [hTriple]
    omega
  have hFirst : Utf8.encodeBasic (Utf8.tripleValue a b c) = [a, b, c] :=
    Utf8.encodeBasic_tripleValue (by omega) (by omega) (by omega) (by omega)
  have hSecond : Utf8.encodeBasic (Utf8.tripleValue d e f) = [d, e, f] :=
    Utf8.encodeBasic_tripleValue (by omega) (by omega) (by omega) (by omega)
  rw [encodeChar, hNumber, if_neg (by omega), if_neg (by omega), hHigh, hLow, hFirst, hSecond]
  rfl

/-- What is read in the modified form was spelled in it. -/
theorem spelled_of_decodeStrictAfter (hRead : decodeStrictAfter done bytes = some chars) :
    ∃ added, chars = done.reverse ++ added ∧ bytes = added.flatMap encodeChar := by
  fun_induction decodeStrictAfter done bytes with
  | case1 done =>
      obtain rfl := Option.some.inj hRead
      exact ⟨[], by simp, rfl⟩
  | case3 done a rest hSingle hNonzero ih =>
      have hByte := Utf8.lt_single_iff.mp hSingle
      have hPositive : 0 < a.toNat :=
        Nat.pos_of_ne_zero fun hZero => hNonzero (UInt8.toNat_inj.mp hZero)
      have hPiece : encodeChar (Char.ofNat a.toNat) = [a] :=
        (encodeChar_ofNat hPositive (by omega) (by omega)).trans (Utf8.encodeBasic_byte hByte)
      exact spelled_cons hPiece (ih hRead)
  | case5 done a hSingle b rest hZero ih =>
      obtain ⟨rfl, rfl⟩ := hZero
      have hPiece : encodeChar (Char.ofNat 0) = [0xc0, 0x80] := rfl
      exact spelled_cons hPiece (ih hRead)
  | case6 done a hSingle b rest hZero hPair ih =>
      obtain ⟨hBytes, hLow, hHigh⟩ := Utf8.encodeBasic_pairValue hPair
      have hPiece := (encodeChar_ofNat (by omega) (by omega) (by omega)).trans hBytes
      exact spelled_cons hPiece (ih hRead)
  | case8 done a hSingle b hZero hPair c rest hTriple ih =>
      obtain ⟨hBytes, hPositive, hBasic, hScalar⟩ := Utf8.tripleValue_of_isTriple hTriple
      exact spelled_cons ((encodeChar_ofNat hPositive hBasic hScalar).trans hBytes) (ih hRead)
  | case9 done a hSingle b hZero hPair c hTriple d e f rest hSurrogates ih =>
      exact spelled_cons (encodeChar_surrogateValue hSurrogates) (ih hRead)
  | case2 | case4 | case7 | case10 | case11 => cases hRead

/-- Reading a run of bytes in the modified form undoes spelling it so. -/
theorem decodeStrict_eq_some_iff :
    decodeStrictAfter [] bytes = some chars ↔ bytes = chars.flatMap encodeChar := by
  constructor
  · intro hRead
    obtain ⟨added, rfl, rfl⟩ := spelled_of_decodeStrictAfter hRead
    rfl
  · intro hBytes
    rw [hBytes]
    exact decodeStrictAfter_encode chars []

/-! ## Code units -/

/-- The bytes of a code unit, whether it is a surrogate or not. -/
def encodeUnit (unit : UInt16) : List UInt8 :=
  if unit = 0 then [0xc0, 0x80] else Utf8.encodeBasic unit.toNat

/-- A run of bytes is in modified UTF-8 if it spells code units, one after another. -/
def IsModified (run : List UInt8) : Prop :=
  ∃ units : List UInt16, run = units.flatMap encodeUnit

/-- The first of two surrogates. -/
def IsHigh (unit : UInt16) : Prop := 0xd800 ≤ unit.toNat ∧ unit.toNat ≤ 0xdbff

/-- The second of two surrogates. -/
def IsLow (unit : UInt16) : Prop := 0xdc00 ≤ unit.toNat ∧ unit.toNat ≤ 0xdfff

/-- Every surrogate belongs to a pair, a high one in front of a low one. -/
inductive Paired : List UInt16 → Prop
  | nil : Paired []
  | basic {unit : UInt16} {rest : List UInt16} (hHigh : ¬ IsHigh unit) (hLow : ¬ IsLow unit)
      (hRest : Paired rest) : Paired (unit :: rest)
  | surrogates {high low : UInt16} {rest : List UInt16} (hHigh : IsHigh high) (hLow : IsLow low)
      (hRest : Paired rest) : Paired (high :: low :: rest)

/-- The code units of a character. -/
def unitsOf (char : Char) : List UInt16 :=
  if char.toNat < 0x10000 then [UInt16.ofNat char.toNat]
  else
    [UInt16.ofNat (0xd800 + (char.toNat - 0x10000) / 1024),
      UInt16.ofNat (0xdc00 + (char.toNat - 0x10000) % 1024)]

/-- Whether a run of bytes is a text: it is UTF-8 from end to end, or it is in modified UTF-8
and has no surrogate by itself. -/
def IsText (run : List UInt8) : Prop :=
  (∃ text : String, run = text.toUTF8.data.toList) ∨
    ∃ units, Paired units ∧ run = units.flatMap encodeUnit

theorem encodeUnit_ofNat {value : Nat} (hPositive : 0 < value) (hBasic : value < 0x10000) :
    encodeUnit (UInt16.ofNat value) = Utf8.encodeBasic value := by
  have hNumber : (UInt16.ofNat value).toNat = value := UInt16.toNat_ofNat_of_lt' hBasic
  have hNonzero : UInt16.ofNat value ≠ 0 := by
    intro hZero
    rw [hZero] at hNumber
    exact hPositive.ne hNumber
  rw [encodeUnit, if_neg hNonzero, hNumber]

/-- No byte of a code unit is zero, and none is the first of four. -/
theorem byte_of_mem_encodeUnit {unit : UInt16} {byte : UInt8} (hByte : byte ∈ encodeUnit unit) :
    byte ≠ 0 ∧ byte.toNat < 0xf0 := by
  -- A byte is known from its number.
  have hNumber : ∀ {value : Nat}, 0 < value → value < 0xf0 → byte = UInt8.ofNat value →
      byte ≠ 0 ∧ byte.toNat < 0xf0 := by
    rintro value hPositive hSmall rfl
    rw [ne_eq, ← UInt8.toNat_inj, UInt8.toNat_ofNat']
    exact ⟨by show ¬ value % 256 = 0; omega, by omega⟩
  have hBound := unit.toNat_lt
  unfold encodeUnit Utf8.encodeBasic at hByte
  split at hByte
  · rcases List.mem_pair.mp hByte with rfl | rfl <;> decide
  next hNonzero =>
  have hPositive : unit.toNat ≠ 0 := fun hZero => hNonzero (UInt16.toNat_inj.mp hZero)
  split at hByte
  · exact hNumber (by omega) (by omega) (List.mem_singleton.mp hByte)
  split at hByte
  · rcases List.mem_pair.mp hByte with hByte | hByte
    · exact hNumber (by omega) (by omega) hByte
    · exact hNumber (by omega) (by omega) hByte
  · rcases List.mem_cons.mp hByte with hByte | hByte
    · exact hNumber (by omega) (by omega) hByte
    rcases List.mem_pair.mp hByte with hByte | hByte
    · exact hNumber (by omega) (by omega) hByte
    · exact hNumber (by omega) (by omega) hByte

/-- No byte of a run in modified UTF-8 is zero, and none is the first of four. -/
theorem IsModified.byte {run : List UInt8} (hRun : IsModified run) :
    ∀ byte ∈ run, byte ≠ 0 ∧ byte.toNat < 0xf0 := by
  intro byte hByte
  obtain ⟨units, rfl⟩ := hRun
  obtain ⟨unit, -, hUnit⟩ := List.mem_flatMap.mp hByte
  exact byte_of_mem_encodeUnit hUnit

/-- The bytes of a character are those of its code units. -/
theorem encodeChar_eq_units (char : Char) :
    encodeChar char = (unitsOf char).flatMap encodeUnit := by
  have hScalar := toNat_scalar char
  by_cases hBasic : char.toNat < 0x10000
  · rw [unitsOf, if_pos hBasic, List.flatMap_singleton, encodeChar]
    by_cases hZero : char.toNat = 0
    · rw [if_pos hZero, hZero]
      rfl
    · rw [if_neg hZero, if_pos hBasic, encodeUnit_ofNat (Nat.pos_of_ne_zero hZero) hBasic]
  · rw [unitsOf, if_neg hBasic, List.flatMap_cons, List.flatMap_singleton,
      encodeUnit_ofNat (by omega) (by omega), encodeUnit_ofNat (by omega) (by omega), encodeChar,
      if_neg (by omega), if_neg hBasic]

/-- The surrogates of characters are paired. -/
theorem paired_unitsOf (chars : List Char) : Paired (chars.flatMap unitsOf) := by
  induction chars with
  | nil => exact .nil
  | cons char chars ih =>
      have hScalar := toNat_scalar char
      rw [List.flatMap_cons, unitsOf]
      by_cases hBasic : char.toNat < 0x10000
      · have hNumber : (UInt16.ofNat char.toNat).toNat = char.toNat :=
          UInt16.toNat_ofNat_of_lt' hBasic
        rw [if_pos hBasic]
        refine .basic ?_ ?_ ih
        · rw [IsHigh, hNumber]
          omega
        · rw [IsLow, hNumber]
          omega
      · rw [if_neg hBasic]
        refine .surrogates ?_ ?_ ih
        · rw [IsHigh, UInt16.toNat_ofNat_of_lt' (by show _ < 65536; omega)]
          omega
        · rw [IsLow, UInt16.toNat_ofNat_of_lt' (by show _ < 65536; omega)]
          omega

/-- Paired surrogates are those of characters. -/
theorem exists_chars_of_paired {units : List UInt16} (hPaired : Paired units) :
    ∃ chars : List Char, units = chars.flatMap unitsOf := by
  induction hPaired with
  | nil => exact ⟨[], rfl⟩
  | @basic unit rest hHigh hLow _ ih =>
      obtain ⟨chars, rfl⟩ := ih
      have hBound := unit.toNat_lt
      rw [IsHigh] at hHigh
      rw [IsLow] at hLow
      have hNumber : (Char.ofNat unit.toNat).toNat = unit.toNat := toNat_charOfNat (by omega)
      refine ⟨Char.ofNat unit.toNat :: chars, ?_⟩
      rw [List.flatMap_cons, unitsOf, hNumber, if_pos (by omega), UInt16.ofNat_toNat]
      rfl
  | @surrogates high low rest hHigh hLow _ ih =>
      obtain ⟨chars, rfl⟩ := ih
      obtain ⟨hHigh, hHigh'⟩ := hHigh
      obtain ⟨hLow, hLow'⟩ := hLow
      -- The pair stands for the character with this number.
      obtain ⟨value, hValue⟩ : ∃ value, value =
          0x10000 + (high.toNat - 0xd800) * 1024 + (low.toNat - 0xdc00) := ⟨_, rfl⟩
      have hNumber : (Char.ofNat value).toNat = value := toNat_charOfNat (by omega)
      have hFirst : 0xd800 + (value - 0x10000) / 1024 = high.toNat := by omega
      have hSecond : 0xdc00 + (value - 0x10000) % 1024 = low.toNat := by omega
      refine ⟨Char.ofNat value :: chars, ?_⟩
      rw [List.flatMap_cons, unitsOf, hNumber, if_neg (by omega), hFirst, hSecond,
        UInt16.ofNat_toNat, UInt16.ofNat_toNat]
      rfl

/-- Paired surrogates and other code units are spelled where characters are. -/
theorem exists_paired_iff :
    (∃ units, Paired units ∧ bytes = units.flatMap encodeUnit) ↔
      ∃ chars : List Char, bytes = chars.flatMap encodeChar := by
  have hChars : encodeChar = fun char => (unitsOf char).flatMap encodeUnit :=
    funext encodeChar_eq_units
  constructor
  · intro hUnits
    obtain ⟨units, hPaired, rfl⟩ := hUnits
    obtain ⟨chars, rfl⟩ := exists_chars_of_paired hPaired
    exact ⟨chars, by rw [hChars, List.flatMap_assoc]⟩
  · intro hSpelled
    obtain ⟨chars, rfl⟩ := hSpelled
    exact ⟨chars.flatMap unitsOf, paired_unitsOf chars, by rw [hChars, List.flatMap_assoc]⟩

/-! ## Which runs are texts -/

theorem toUTF8_eq_flatMap (text : String) :
    text.toUTF8.data.toList = text.toList.flatMap String.utf8EncodeChar := by
  rw [String.toUTF8_eq_toByteArray, ← String.utf8Encode_toList, List.utf8Encode,
    List.data_toByteArray]

/-- A text is read where it is spelled in UTF-8, and where it is spelled in the modified form
and the bytes are not UTF-8. -/
theorem decode_eq_some_iff {text : String} :
    decode bytes = some text ↔ bytes = text.toUTF8.data.toList ∨
      bytes = encode text ∧ ∀ other : String, bytes ≠ other.toUTF8.data.toList := by
  simp only [toUTF8_eq_flatMap]
  rw [decode]
  cases hUtf8 : Utf8.decode bytes with
  | some chars =>
      have hBytes := Utf8.decode_eq_some_iff.mp hUtf8
      constructor
      · intro hText
        obtain rfl := Option.some.inj hText
        exact .inl (by rw [String.toList_ofList, hBytes])
      · rintro (hSpelled | ⟨-, hOther⟩)
        · rw [Utf8.decode_eq_some_iff.mpr hSpelled] at hUtf8
          obtain rfl := Option.some.inj hUtf8
          exact congrArg some String.ofList_toList
        · exact absurd (by rw [String.toList_ofList, hBytes]) (hOther (String.ofList chars))
  | none =>
      have hOther : ∀ other : String, bytes ≠ other.toList.flatMap String.utf8EncodeChar := by
        intro other hSpelled
        rw [Utf8.decode_eq_some_iff.mpr hSpelled] at hUtf8
        cases hUtf8
      have hRead : (decodeStrictAfter [] bytes).map String.ofList = some text ↔
          bytes = encode text := by
        rw [Option.map_eq_some_iff, encode, ← decodeStrict_eq_some_iff]
        constructor
        · intro hChars
          obtain ⟨chars, hChars, rfl⟩ := hChars
          rw [hChars, String.toList_ofList]
        · intro hChars
          exact ⟨text.toList, hChars, String.ofList_toList⟩
      simpa [hOther] using hRead

/-- The runs of bytes that are read are the texts. -/
theorem exists_decode_iff : (∃ text, decode bytes = some text) ↔ IsText bytes := by
  constructor
  · intro hText
    obtain ⟨text, hText⟩ := hText
    obtain hUtf8 | ⟨hModified, -⟩ := decode_eq_some_iff.mp hText
    · exact .inl ⟨text, hUtf8⟩
    · exact .inr (exists_paired_iff.mpr ⟨text.toList, hModified⟩)
  · intro hText
    by_cases hUtf8 : ∃ text : String, bytes = text.toUTF8.data.toList
    · obtain ⟨text, hUtf8⟩ := hUtf8
      exact ⟨text, decode_eq_some_iff.mpr (.inl hUtf8)⟩
    · obtain ⟨chars, hModified⟩ := exists_paired_iff.mp (hText.resolve_left hUtf8)
      have hSpelled : bytes = encode (String.ofList chars) := by
        rw [hModified, encode, String.toList_ofList]
      exact ⟨_, decode_eq_some_iff.mpr (.inr ⟨hSpelled, not_exists.mp hUtf8⟩)⟩

end ModifiedUtf8

end ClassFormat
