import ClassFormat.Bytes

namespace ClassFormat

/-!
# Stack map frames

A frame describes the types of local variables and operands at one point of a
method, mostly as a change to the frame before it.

The first byte of a frame gives its form by the range it lies in, and where the
range has room for it also the offset or the number of locals.  Bytes from 128
to 246 introduce no frame.
-/

/-- The type of a local variable or an operand, as the verifier sees it. -/
inductive VerificationType where
  | top
  | integer
  | float
  | double
  | long
  | null
  | uninitializedThis
  /-- An object of the class at this index of the pool. -/
  | object (index : UInt16)
  /-- An object created at this offset of the code and not yet initialized. -/
  | uninitialized (offset : UInt16)
  deriving DecidableEq

/-- One frame.  Each form tells how far it lies behind the frame before it. -/
inductive Frame where
  /-- Nothing changes. -/
  | same (offset : UInt16)
  /-- Nothing changes but that one operand is there. -/
  | sameOneOperand (offset : UInt16) (operand : VerificationType)
  /-- The same with a wide offset. -/
  | sameOneOperandWide (offset : UInt16) (operand : VerificationType)
  /-- The last locals are gone. -/
  | chop (count : UInt8) (offset : UInt16)
  /-- Nothing changes, with a wide offset. -/
  | sameWide (offset : UInt16)
  /-- There are more locals. -/
  | append (offset : UInt16) (locals : List VerificationType)
  /-- All locals and operands are told. -/
  | full (offset : UInt16) (locals operands : List VerificationType)
  deriving DecidableEq

namespace Frame

/-- How far the frame lies behind the frame before it. -/
def offset : Frame → UInt16
  | same offset => offset
  | sameOneOperand offset _ => offset
  | sameOneOperandWide offset _ => offset
  | chop _ offset => offset
  | sameWide offset => offset
  | append offset _ => offset
  | full offset _ _ => offset

/-- The types that the frame tells, those of locals first. -/
def types : Frame → List VerificationType
  | same _ | chop _ _ | sameWide _ => []
  | sameOneOperand _ operand => [operand]
  | sameOneOperandWide _ operand => [operand]
  | append _ locals => locals
  | full _ locals operands => locals ++ operands

end Frame

/-! ## How frames lie in the file -/

namespace VerificationType

/-- One type with its tag. -/
def read : Reader VerificationType := do
  let code ← Reader.byte
  match code with
  | 0 => return top
  | 1 => return integer
  | 2 => return float
  | 3 => return double
  | 4 => return long
  | 5 => return null
  | 6 => return uninitializedThis
  | 7 => object <$> Reader.word16
  | 8 => uninitialized <$> Reader.word16
  | _ => Reader.fail (.unknownVerificationTag code)

/-- A type as it is written. -/
def write : Writer VerificationType
  | top => [0]
  | integer => [1]
  | float => [2]
  | double => [3]
  | long => [4]
  | null => [5]
  | uninitializedThis => [6]
  | object index => 7 :: BigEndian.bytes16 index
  | uninitialized offset => 8 :: BigEndian.bytes16 offset

end VerificationType

namespace Frame

/-- One frame. -/
def read : Reader Frame := do
  let code ← Reader.byte
  if code < 64 then return same code.toUInt16
  else if code < 128 then
    sameOneOperand (code - 64).toUInt16 <$> VerificationType.read
  else if code < 247 then Reader.fail (.unknownFrameType code)
  else
    let offset ← Reader.word16
    if code = 247 then sameOneOperandWide offset <$> VerificationType.read
    else if code < 251 then return chop (251 - code) offset
    else if code = 251 then return sameWide offset
    else if code < 255 then
      append offset <$> Reader.count VerificationType.read (code.toNat - 251)
    else
      let locals ← Reader.list16 VerificationType.read
      let operands ← Reader.list16 VerificationType.read
      return full offset locals operands

/-- A frame as it is written. -/
def write : Writer Frame
  | same offset => [UInt8.ofNat offset.toNat]
  | sameOneOperand offset operand =>
      UInt8.ofNat (64 + offset.toNat) :: operand.write
  | sameOneOperandWide offset operand =>
      247 :: (BigEndian.bytes16 offset ++ operand.write)
  | chop count offset => (251 - count) :: BigEndian.bytes16 offset
  | sameWide offset => 251 :: BigEndian.bytes16 offset
  | append offset locals =>
      UInt8.ofNat (251 + locals.length) ::
        (BigEndian.bytes16 offset ++ locals.flatMap VerificationType.write)
  | full offset locals operands =>
      255 :: (BigEndian.bytes16 offset ++
        Writer.list16 VerificationType.write locals ++
        Writer.list16 VerificationType.write operands)

end Frame

end ClassFormat
