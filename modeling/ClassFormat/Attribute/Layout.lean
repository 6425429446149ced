import ClassFormat.Annotations.Layout
import ClassFormat.Attribute.Basic
import ClassFormat.Frame
import ClassFormat.Module

namespace ClassFormat

/-!
# How attributes lie in the file

An attribute starts with its name and its length.  The name, looked up in the
constant pool, selects the layout of the payload; a payload with an unknown name
is a run of bytes.  A payload is read as its layout says, wherever its announced
length ends, and then the two lengths must agree.

The reader of an attribute is told how many levels of attributes and element
values it may still descend.  At zero, the attributes of a method body or a
record component are a fault, even if there are none, once their number is read.
-/

/-! ## Parts of payloads -/

/-- An exception handler. -/
def ExceptionHandler.read : Reader ExceptionHandler := do
  let start ← Reader.word16
  let stop ← Reader.word16
  let handler ← Reader.word16
  let catchType ← Reader.word16
  return { start, stop, handler, catchType }

/-- An exception handler as it is written. -/
def ExceptionHandler.write : Writer ExceptionHandler := fun handler =>
  BigEndian.bytes16 handler.start ++ BigEndian.bytes16 handler.stop ++
    BigEndian.bytes16 handler.handler ++ BigEndian.bytes16 handler.catchType

/-- An inner class. -/
def InnerClass.read : Reader InnerClass := do
  let inner ← Reader.word16
  let outer ← Reader.word16
  let name ← Reader.word16
  let flags ← Reader.word16
  return { inner, outer, name, flags }

/-- An inner class as it is written. -/
def InnerClass.write : Writer InnerClass := fun innerClass =>
  BigEndian.bytes16 innerClass.inner ++ BigEndian.bytes16 innerClass.outer ++
    BigEndian.bytes16 innerClass.name ++ BigEndian.bytes16 innerClass.flags

/-- A line number. -/
def LineNumber.read : Reader LineNumber := do
  let start ← Reader.word16
  let line ← Reader.word16
  return { start, line }

/-- A line number as it is written. -/
def LineNumber.write : Writer LineNumber := fun lineNumber =>
  BigEndian.bytes16 lineNumber.start ++ BigEndian.bytes16 lineNumber.line

/-- A local variable. -/
def LocalVariable.read : Reader LocalVariable := do
  let start ← Reader.word16
  let length ← Reader.word16
  let name ← Reader.word16
  let type ← Reader.word16
  let index ← Reader.word16
  return { start, length, name, type, index }

/-- A local variable as it is written. -/
def LocalVariable.write : Writer LocalVariable := fun entry =>
  BigEndian.bytes16 entry.start ++ BigEndian.bytes16 entry.length ++
    BigEndian.bytes16 entry.name ++ BigEndian.bytes16 entry.type ++
    BigEndian.bytes16 entry.index

/-- A bootstrap method. -/
def BootstrapMethod.read : Reader BootstrapMethod := do
  let handle ← Reader.word16
  let arguments ← Reader.list16 Reader.word16
  return { handle, arguments }

/-- A bootstrap method as it is written. -/
def BootstrapMethod.write : Writer BootstrapMethod := fun method =>
  BigEndian.bytes16 method.handle ++
    Writer.list16 BigEndian.bytes16 method.arguments

/-- A method parameter. -/
def MethodParameter.read : Reader MethodParameter := do
  let name ← Reader.word16
  let flags ← Reader.word16
  return { name, flags }

/-- A method parameter as it is written. -/
def MethodParameter.write : Writer MethodParameter := fun parameter =>
  BigEndian.bytes16 parameter.name ++ BigEndian.bytes16 parameter.flags

/-! ## Reading -/

namespace Attribute

/-- A counted list of attributes one level down, given their reader, if there is
room for that level. -/
def readInner (inner : Option (Reader Attribute)) :
    Reader (List Attribute) := do
  let length ← Reader.word16
  match inner with
  | none => Reader.fail .nestedTooDeep
  | some attr => Reader.count attr length.toNat

end Attribute

/-- The greatest number of bytes in a method body. -/
def maxCodeLength : UInt32 := 65535

/-- A method body, given the reader of the attributes inside it. -/
def Code.readWith (inner : Option (Reader Attribute)) : Reader Code := do
  let maxStack ← Reader.word16
  let maxLocals ← Reader.word16
  let length ← Reader.word32
  if length = 0 ∨ maxCodeLength < length then
    Reader.fail (.codeLengthOutOfBounds length)
  else
    let instructions ← Reader.take length.toNat
    let handlers ← Reader.list16 ExceptionHandler.read
    let attributes ← Attribute.readInner inner
    return { maxStack, maxLocals, instructions, handlers, attributes }

/-- A record component, given the reader of the attributes inside it. -/
def RecordComponent.readWith (inner : Option (Reader Attribute)) :
    Reader RecordComponent := do
  let name ← Reader.word16
  let descriptor ← Reader.word16
  let attributes ← Attribute.readInner inner
  return { name, descriptor, attributes }

/-- The payload of an attribute of a known kind.  Only markers and debug
extensions depend on the announced length.  The payload's values may descend
`room` levels, and the attributes inside it are read by `inner`. -/
def Payload.readWith (room : Nat) (inner : Option (Reader Attribute))
    (length : UInt32) : AttributeKind → Reader Payload
  | .reference role => reference role <$> Reader.word16
  | .references role => references role <$> Reader.list16 Reader.word16
  | .marker kind => do
      let _ ← Reader.take length.toNat
      return marker kind
  | .code => code <$> Code.readWith inner
  | .stackMapTable => stackMapTable <$> Reader.list16 Frame.read
  | .innerClasses => innerClasses <$> Reader.list16 InnerClass.read
  | .enclosingMethod => do
      let owner ← Reader.word16
      let method ← Reader.word16
      return enclosingMethod owner method
  | .sourceDebugExtension => sourceDebugExtension <$> Reader.take length.toNat
  | .lineNumbers => lineNumbers <$> Reader.list16 LineNumber.read
  | .localVariables table =>
      localVariables table <$> Reader.list16 LocalVariable.read
  | .annotations visibility =>
      annotations visibility <$> Reader.list16 (AnnotationUse.read room)
  | .parameterAnnotations visibility =>
      parameterAnnotations visibility <$>
        Reader.list8 (Reader.list16 (AnnotationUse.read room))
  | .typeAnnotations visibility =>
      typeAnnotations visibility <$> Reader.list16 (TypeAnnotationUse.read room)
  | .annotationDefault => annotationDefault <$> ElementValue.read room
  | .bootstrapMethods => bootstrapMethods <$> Reader.list16 BootstrapMethod.read
  | .methodParameters => methodParameters <$> Reader.list8 MethodParameter.read
  | .module => module <$> ModuleDescriptor.read
  | .record => record <$> Reader.list16 (RecordComponent.readWith inner)

namespace Attribute

/-- An attribute whose values may descend `room` levels, given the reader of the
attributes inside it. -/
def readWith (pool : Pool) (room : Nat) (inner : Option (Reader Attribute)) :
    Reader Attribute := do
  let name ← Reader.word16
  let length ← Reader.word32
  match pool.attributeKind? name with
  | none =>
      let bytes ← Reader.take length.toNat
      return { name, length, payload := .unknown bytes }
  | some kind =>
      let (payload, actual) ←
        Reader.measure (Payload.readWith room inner length kind)
      if actual = length.toNat then return { name, length, payload }
      else Reader.fail (.lengthMismatch kind length actual)

/-- An attribute that may descend `room` levels. -/
def read (pool : Pool) : (room : Nat) → Reader Attribute
  | 0 => readWith pool 0 none
  -- The cursor is named so that a level is set up only when it is entered.
  | room + 1 => fun cursor =>
      readWith pool (room + 1) (some (read pool room)) cursor

/-- The attributes of a class or a member, with their number. -/
def readList (pool : Pool) : Reader (List Attribute) :=
  Reader.list16 (read pool maxNesting)

end Attribute

/-! ## Writing -/

mutual

/-- An attribute as it is written. -/
def Attribute.write : Writer Attribute
  | ⟨name, length, payload⟩ =>
      BigEndian.bytes16 name ++ BigEndian.bytes32 length ++
        Payload.write length payload

/-- Attributes as they are written one after another. -/
def Attribute.writeAll : Writer (List Attribute)
  | [] => []
  | attr :: rest => attr.write ++ Attribute.writeAll rest

/-- A payload as it is written under an announced length.  The payload of a
marker is that many zeros. -/
def Payload.write (length : UInt32) : Writer Payload
  | .reference _ index => BigEndian.bytes16 index
  | .references _ indices => Writer.list16 BigEndian.bytes16 indices
  | .marker _ => List.replicate length.toNat 0
  | .code body => body.write
  | .stackMapTable frames => Writer.list16 Frame.write frames
  | .innerClasses classes => Writer.list16 InnerClass.write classes
  | .enclosingMethod owner method =>
      BigEndian.bytes16 owner ++ BigEndian.bytes16 method
  | .sourceDebugExtension bytes => bytes
  | .lineNumbers lines => Writer.list16 LineNumber.write lines
  | .localVariables _ entries => Writer.list16 LocalVariable.write entries
  | .annotations _ annotations => Writer.list16 AnnotationUse.write annotations
  | .parameterAnnotations _ parameters =>
      Writer.list8 (Writer.list16 AnnotationUse.write) parameters
  | .typeAnnotations _ annotations =>
      Writer.list16 TypeAnnotationUse.write annotations
  | .annotationDefault value => value.write
  | .bootstrapMethods methods => Writer.list16 BootstrapMethod.write methods
  | .methodParameters parameters => Writer.list8 MethodParameter.write parameters
  | .module descriptor => descriptor.write
  | .record components =>
      BigEndian.bytes16 (UInt16.ofNat components.length) ++
        RecordComponent.writeAll components
  | .unknown bytes => bytes

/-- A method body as it is written. -/
def Code.write : Writer Code
  | ⟨maxStack, maxLocals, instructions, handlers, attributes⟩ =>
      BigEndian.bytes16 maxStack ++ BigEndian.bytes16 maxLocals ++
        BigEndian.bytes32 (UInt32.ofNat instructions.length) ++ instructions ++
        Writer.list16 ExceptionHandler.write handlers ++
        BigEndian.bytes16 (UInt16.ofNat attributes.length) ++
        Attribute.writeAll attributes

/-- A record component as it is written. -/
def RecordComponent.write : Writer RecordComponent
  | ⟨name, descriptor, attributes⟩ =>
      BigEndian.bytes16 name ++ BigEndian.bytes16 descriptor ++
        BigEndian.bytes16 (UInt16.ofNat attributes.length) ++
        Attribute.writeAll attributes

/-- Record components as they are written one after another. -/
def RecordComponent.writeAll : Writer (List RecordComponent)
  | [] => []
  | component :: rest => component.write ++ RecordComponent.writeAll rest

end

/-- The attributes of a class or a member as they are written. -/
def Attribute.writeList : Writer (List Attribute) :=
  Writer.list16 Attribute.write

end ClassFormat
