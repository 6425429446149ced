import ClassFormat.Pool.Basic
import ClassFormat.Bytes

namespace ClassFormat

/-!
# How the constant pool lies in the file

The pool starts with its count, which is one more than the number of its slots.
The entries follow, each with its tag in front.  An eight-byte entry fills the
slot after it too, though nothing is written for that slot; when the entry
stands in the last slot, there is no slot to fill.

Reader and writer stand side by side.  `Entry.read` and `Entry.write` treat one
entry, `Pool.read` and `Pool.write` the whole pool.
-/

/-- The text with the given spelling. -/
def Reader.text : Reader String := do
  let length ← word16
  let bytes ← take length.toNat
  match ModifiedUtf8.decode bytes with
  | some text => return text
  | none => fail .malformedText

namespace Entry

/-- The fields of an entry whose tag has been read. -/
def readFields : Tag → Reader Entry
  | .utf8 => utf8 <$> Reader.text
  | .integer => (fun word => integer word.toInt32) <$> Reader.word32
  | .float => float <$> Reader.word32
  | .long => (fun word => long word.toInt64) <$> Reader.word64
  | .double => double <$> Reader.word64
  | .classRef => textRef .classRef <$> Reader.word16
  | .string => textRef .string <$> Reader.word16
  | .methodType => textRef .methodType <$> Reader.word16
  | .module => textRef .module <$> Reader.word16
  | .package => textRef .package <$> Reader.word16
  | .fieldRef => readMember .field
  | .methodRef => readMember .method
  | .interfaceMethodRef => readMember .interfaceMethod
  | .nameAndType => do
      let name ← Reader.word16
      let descriptor ← Reader.word16
      return nameAndType name descriptor
  | .methodHandle => do
      let kind ← Reader.byte
      let reference ← Reader.word16
      return methodHandle kind reference
  | .dynamic => readDynamic .constant
  | .invokeDynamic => readDynamic .callSite
where
  /-- The fields of a reference to a member. -/
  readMember (kind : MemberRefKind) : Reader Entry := do
    let owner ← Reader.word16
    let nameType ← Reader.word16
    return memberRef kind owner nameType
  /-- The fields of a computed entry. -/
  readDynamic (kind : DynamicKind) : Reader Entry := do
    let bootstrap ← Reader.word16
    let nameType ← Reader.word16
    return dynamic kind bootstrap nameType

/-- One entry with its tag. -/
def read : Reader Entry := do
  let code ← Reader.byte
  match Tag.ofCode? code with
  | some tag => readFields tag
  | none => Reader.fail (.unknownPoolTag code)

/-- The fields of an entry as they are written. -/
def writeFields : Writer Entry
  | utf8 text => Writer.text text
  | integer value => BigEndian.bytes32 value.toUInt32
  | float bits => BigEndian.bytes32 bits
  | long value => BigEndian.bytes64 value.toUInt64
  | double bits => BigEndian.bytes64 bits
  | textRef _ text => BigEndian.bytes16 text
  | memberRef _ owner nameType =>
      BigEndian.bytes16 owner ++ BigEndian.bytes16 nameType
  | nameAndType name descriptor =>
      BigEndian.bytes16 name ++ BigEndian.bytes16 descriptor
  | methodHandle kind reference => kind :: BigEndian.bytes16 reference
  | dynamic _ bootstrap nameType =>
      BigEndian.bytes16 bootstrap ++ BigEndian.bytes16 nameType

/-- An entry as it is written, with its tag. -/
def write : Writer Entry := fun entry =>
  entry.tag.code :: entry.writeFields

end Entry

namespace Pool

/-- Reads entries until `room` slots are filled, and puts them behind the slots
already filled. -/
def readSlots (filled : Array Slot) : (room : Nat) → Reader (Array Slot)
  | 0 => pure filled
  | 1 => do
      let entry ← Entry.read
      return filled.push (some entry)
  | room + 2 => do
      let entry ← Entry.read
      if entry.isWide then
        readSlots ((filled.push (some entry)).push none) room
      else readSlots (filled.push (some entry)) (room + 1)

/-- The pool with its count. -/
def read : Reader Pool := do
  let count ← Reader.word16
  let slots ← readSlots #[] (count.toNat - 1)
  return ⟨slots⟩

/-- What is written for a slot; nothing for an unusable one. -/
def writeSlot : Writer Slot
  | some entry => entry.write
  | none => []

/-- The pool as it is written, with its count. -/
def write : Writer Pool := fun pool =>
  BigEndian.bytes16 (UInt16.ofNat pool.count) ++
    pool.slots.toList.flatMap writeSlot

end Pool

end ClassFormat
