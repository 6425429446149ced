import ClassFormat.Attribute.Layout
import ClassFormat.Pool.Layout

namespace ClassFormat

/-!
# Class files

A class file describes one class: its constant pool, its place among other
classes, its fields and methods, and its attributes.

In the file there are the magic word, the version, the pool, the class and its
members, and the attributes of the class; nothing may follow.

* `ClassFile.decode` reads a whole class file.
* `ClassFile.encode` writes one.
-/

/-- The word that every class file starts with. -/
def magic : UInt32 := 0xcafebabe

/-- The sixteen access flags of a declaration. -/
structure AccessFlags where
  bits : UInt16
  deriving DecidableEq

/-- The two kinds of member. -/
inductive MemberKind where
  | field
  | method
  deriving DecidableEq

/-- A field or a method. -/
structure Member where
  kind : MemberKind
  flags : AccessFlags
  name : UInt16
  descriptor : UInt16
  attributes : List Attribute

/-- A class file.  The superclass is zero for the class that has none. -/
structure ClassFile where
  minor : UInt16
  major : UInt16
  pool : Pool
  flags : AccessFlags
  thisClass : UInt16
  superClass : UInt16
  interfaces : List UInt16
  fields : List Member
  methods : List Member
  attributes : List Attribute

/-! ## How a class file lies in the file -/

/-- A field or a method. -/
def Member.read (pool : Pool) (kind : MemberKind) : Reader Member := do
  let flags ← Reader.word16
  let name ← Reader.word16
  let descriptor ← Reader.word16
  let attributes ← Attribute.readList pool
  return { kind, flags := ⟨flags⟩, name, descriptor, attributes }

/-- A field or a method as it is written. -/
def Member.write : Writer Member := fun member =>
  BigEndian.bytes16 member.flags.bits ++ BigEndian.bytes16 member.name ++
    BigEndian.bytes16 member.descriptor ++
    Attribute.writeList member.attributes

/-- The magic word. -/
def readMagic : Reader Unit := do
  let found ← Reader.word32
  if found = magic then return () else Reader.fail (.unknownMagic found)

namespace ClassFile

/-- A class file. -/
def read : Reader ClassFile := do
  readMagic
  let minor ← Reader.word16
  let major ← Reader.word16
  let pool ← Pool.read
  let flags ← Reader.word16
  let thisClass ← Reader.word16
  let superClass ← Reader.word16
  let interfaces ← Reader.list16 Reader.word16
  let fields ← Reader.list16 (Member.read pool .field)
  let methods ← Reader.list16 (Member.read pool .method)
  let attributes ← Attribute.readList pool
  return {
    minor, major, pool, flags := ⟨flags⟩
    thisClass, superClass, interfaces, fields, methods, attributes }

/-- The class file that the given bytes are, from the first to the last. -/
def decode (bytes : List UInt8) : Except Fault ClassFile :=
  read.whole bytes

/-- The bytes of a class file. -/
def encode : Writer ClassFile := fun file =>
  BigEndian.bytes32 magic ++ BigEndian.bytes16 file.minor ++
    BigEndian.bytes16 file.major ++ file.pool.write ++
    BigEndian.bytes16 file.flags.bits ++ BigEndian.bytes16 file.thisClass ++
    BigEndian.bytes16 file.superClass ++
    Writer.list16 BigEndian.bytes16 file.interfaces ++
    Writer.list16 Member.write file.fields ++
    Writer.list16 Member.write file.methods ++
    Attribute.writeList file.attributes

end ClassFile

end ClassFormat
