namespace ClassFormat

/-!
# Texts as runs of bytes

In UTF-8, a character takes one to four bytes.  The lead byte says how many, and
every other byte lies between `80` and `bf`.  The ranges below leave out spellings
that are longer than needed, surrogates, and values above `10ffff`, so that each
character has one spelling.

The texts of a constant pool are spelled so that no byte is zero and no character
takes four bytes: the character zero is written `c0 80`, and a character above
`ffff` is written as two surrogates of three bytes each.

* `Utf8.decode` reads a whole run of bytes and refuses it if any part of it is
  not such a spelling.
* `ModifiedUtf8.encode` writes a text in the form that pools have.
* `ModifiedUtf8.decode` reads a run of bytes.  It takes a run that is UTF-8 from
  end to end as UTF-8, and otherwise holds the whole run to the modified form.
-/

namespace Utf8

/-- A byte that continues a character. -/
def isContinuation (byte : UInt8) : Bool :=
  0x80 ≤ byte && byte ≤ 0xbf

/-- The two bytes of a character from `80` to `7ff`. -/
def isPair (lead second : UInt8) : Bool :=
  0xc2 ≤ lead && lead ≤ 0xdf && isContinuation second

/-- The three bytes of a character from `800` to `ffff`, surrogates left out. -/
def isTriple (lead second third : UInt8) : Bool :=
  isContinuation third &&
    (lead == 0xe0 && 0xa0 ≤ second && second ≤ 0xbf ||
      0xe1 ≤ lead && lead ≤ 0xec && isContinuation second ||
      lead == 0xed && 0x80 ≤ second && second ≤ 0x9f ||
      0xee ≤ lead && lead ≤ 0xef && isContinuation second)

/-- The four bytes of a character from `10000` to `10ffff`. -/
def isQuad (lead second third fourth : UInt8) : Bool :=
  isContinuation third && isContinuation fourth &&
    (lead == 0xf0 && 0x90 ≤ second && second ≤ 0xbf ||
      0xf1 ≤ lead && lead ≤ 0xf3 && isContinuation second ||
      lead == 0xf4 && 0x80 ≤ second && second ≤ 0x8f)

/-- The number spelled by two bytes. -/
def pairValue (lead second : UInt8) : Nat :=
  (lead.toNat - 0xc0) * 64 + (second.toNat - 0x80)

/-- The number spelled by three bytes. -/
def tripleValue (lead second third : UInt8) : Nat :=
  ((lead.toNat - 0xe0) * 64 + (second.toNat - 0x80)) * 64 + (third.toNat - 0x80)

/-- The number spelled by four bytes. -/
def quadValue (lead second third fourth : UInt8) : Nat :=
  (((lead.toNat - 0xf0) * 64 + (second.toNat - 0x80)) * 64 +
    (third.toNat - 0x80)) * 64 + (fourth.toNat - 0x80)

/-- The characters spelled by a run of bytes, put behind those already read,
which are given last first. -/
def decodeAfter (done : List Char) : List UInt8 → Option (List Char)
  | [] => some done.reverse
  | lead :: rest =>
      if lead < 0x80 then
        decodeAfter (Char.ofNat lead.toNat :: done) rest
      else
        match rest with
        | [] => none
        | second :: rest =>
            if isPair lead second then
              decodeAfter (Char.ofNat (pairValue lead second) :: done) rest
            else
              match rest with
              | [] => none
              | third :: rest =>
                  if isTriple lead second third then
                    decodeAfter
                      (Char.ofNat (tripleValue lead second third) :: done) rest
                  else
                    match rest with
                    | [] => none
                    | fourth :: rest =>
                        if isQuad lead second third fourth then
                          decodeAfter
                            (Char.ofNat (quadValue lead second third fourth) ::
                              done)
                            rest
                        else none

/-- The characters spelled by a run of bytes. -/
def decode (bytes : List UInt8) : Option (List Char) :=
  decodeAfter [] bytes

/-- The bytes that spell the character with the given number, up to `ffff`. -/
def encodeBasic (value : Nat) : List UInt8 :=
  if value < 0x80 then [UInt8.ofNat value]
  else if value < 0x800 then
    [UInt8.ofNat (0xc0 + value / 64), UInt8.ofNat (0x80 + value % 64)]
  else
    [UInt8.ofNat (0xe0 + value / 4096), UInt8.ofNat (0x80 + value / 64 % 64),
      UInt8.ofNat (0x80 + value % 64)]

end Utf8

namespace ModifiedUtf8

/-- The bytes of two surrogates, a high one and a low one. -/
def isSurrogatePair (a b c d e f : UInt8) : Bool :=
  a == 0xed && 0xa0 ≤ b && b ≤ 0xaf && Utf8.isContinuation c &&
    (d == 0xed && 0xb0 ≤ e && e ≤ 0xbf && Utf8.isContinuation f)

/-- The character above `ffff` that two surrogates stand for. -/
def surrogateValue (b c e f : UInt8) : Nat :=
  0x10000 + ((b.toNat - 0xa0) * 64 + (c.toNat - 0x80)) * 1024 +
    ((e.toNat - 0xb0) * 64 + (f.toNat - 0x80))

/-- The characters spelled by a run of bytes in the modified form, put behind
those already read, which are given last first. -/
def decodeStrictAfter (done : List Char) : List UInt8 → Option (List Char)
  | [] => some done.reverse
  | a :: rest =>
      if a < 0x80 then
        if a = 0 then none
        else decodeStrictAfter (Char.ofNat a.toNat :: done) rest
      else
        match rest with
        | [] => none
        | b :: rest =>
            if a = 0xc0 ∧ b = 0x80 then
              decodeStrictAfter (Char.ofNat 0 :: done) rest
            else if Utf8.isPair a b then
              decodeStrictAfter (Char.ofNat (Utf8.pairValue a b) :: done) rest
            else
              match rest with
              | [] => none
              | c :: rest =>
                  if Utf8.isTriple a b c then
                    decodeStrictAfter
                      (Char.ofNat (Utf8.tripleValue a b c) :: done) rest
                  else
                    match rest with
                    | d :: e :: f :: rest =>
                        if isSurrogatePair a b c d e f then
                          decodeStrictAfter
                            (Char.ofNat (surrogateValue b c e f) :: done) rest
                        else none
                    | _ => none

/-- The text spelled by a run of bytes. -/
def decode (bytes : List UInt8) : Option String :=
  match Utf8.decode bytes with
  | some chars => some (String.ofList chars)
  | none => (decodeStrictAfter [] bytes).map String.ofList

/-- The bytes of one character in the modified form. -/
def encodeChar (char : Char) : List UInt8 :=
  let value := char.toNat
  if value = 0 then [0xc0, 0x80]
  else if value < 0x10000 then Utf8.encodeBasic value
  else
    Utf8.encodeBasic (0xd800 + (value - 0x10000) / 1024) ++
      Utf8.encodeBasic (0xdc00 + (value - 0x10000) % 1024)

/-- The bytes of a text in the modified form. -/
def encode (text : String) : List UInt8 :=
  text.toList.flatMap encodeChar

end ModifiedUtf8

end ClassFormat
