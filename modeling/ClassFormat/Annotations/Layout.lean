import ClassFormat.Annotations.Basic
import ClassFormat.Bytes

namespace ClassFormat

/-!
# How annotations lie in the file

An element value starts with a letter that gives its form.  Values nest in
annotations and arrays, up to a limit.  The reader of a value is told how many
levels it may still descend: at zero, a nested annotation is a fault before
anything of it is read, and so is an array once its length is read.
-/

/-- The form of an element value. -/
inductive ElementForm where
  | constant (kind : ConstantKind)
  | enumeration
  | classLiteral
  | nested
  | array
  deriving DecidableEq

/-- The letter of a constant. -/
def ConstantKind.letter : ConstantKind → Char
  | byte => 'B'
  | char => 'C'
  | double => 'D'
  | float => 'F'
  | int => 'I'
  | long => 'J'
  | short => 'S'
  | boolean => 'Z'
  | string => 's'

namespace ElementForm

/-- Every form. -/
def all : List ElementForm :=
  [constant .byte, constant .char, constant .double, constant .float,
    constant .int, constant .long, constant .short, constant .boolean,
    constant .string, enumeration, classLiteral, nested, array]

/-- The byte that introduces a value of this form. -/
def code : ElementForm → UInt8
  | constant kind => kind.letter.toUInt8
  | enumeration => 'e'.toUInt8
  | classLiteral => 'c'.toUInt8
  | nested => '@'.toUInt8
  | array => '['.toUInt8

/-- The form that a byte introduces, if it introduces one. -/
def ofCode? (byte : UInt8) : Option ElementForm :=
  all.find? fun form => form.code == byte

theorem ofCode?_code (form : ElementForm) : ofCode? form.code = some form := by
  rcases form with (_ | _ | _ | _ | _ | _ | _ | _ | _) | _ | _ | _ | _ <;> rfl

/-- Each form is introduced by exactly one byte. -/
theorem ofCode?_eq_some_iff {byte : UInt8} {form : ElementForm} :
    ofCode? byte = some form ↔ form.code = byte := by
  constructor
  · intro hFound
    simpa using List.find?_some hFound
  · rintro rfl
    exact ofCode?_code form

end ElementForm

/-- The form of a value. -/
def ElementValue.form : ElementValue → ElementForm
  | constant kind _ => .constant kind
  | enumeration _ _ => .enumeration
  | classLiteral _ => .classLiteral
  | nested _ => .nested
  | array _ => .array

/-! ## Reading -/

/-- A named element, given the reader of its value. -/
def Element.readWith (value : Reader ElementValue) : Reader Element := do
  let name ← Reader.word16
  let value ← value
  return { name, value }

/-- An annotation, given the reader of its values. -/
def AnnotationUse.readWith (value : Reader ElementValue) : Reader AnnotationUse := do
  let type ← Reader.word16
  let elements ← Reader.list16 (Element.readWith value)
  return { type, elements }

namespace ElementValue

/-- The rest of a value whose form has been read, given the reader of the values
inside it, if there may be any. -/
def readFields (inner : Option (Reader ElementValue)) :
    ElementForm → Reader ElementValue
  | .constant kind => constant kind <$> Reader.word16
  | .enumeration => do
      let type ← Reader.word16
      let name ← Reader.word16
      return enumeration type name
  | .classLiteral => classLiteral <$> Reader.word16
  | .nested =>
      match inner with
      | none => Reader.fail .nestedTooDeep
      | some value => nested <$> AnnotationUse.readWith value
  | .array => do
      let length ← Reader.word16
      match inner with
      | none => Reader.fail .nestedTooDeep
      | some value => array <$> Reader.count value length.toNat

/-- A value, given the reader of the values inside it, if there may be any. -/
def readWith (inner : Option (Reader ElementValue)) : Reader ElementValue := do
  let code ← Reader.byte
  match ElementForm.ofCode? code with
  | some form => readFields inner form
  | none => Reader.fail (.unknownElementTag code)

/-- A value that may descend `room` levels. -/
def read : (room : Nat) → Reader ElementValue
  | 0 => readWith none
  -- The cursor is named so that a level is set up only when it is entered.
  | room + 1 => fun cursor => readWith (some (read room)) cursor

end ElementValue

/-- An annotation whose values may descend `room` levels. -/
def AnnotationUse.read (room : Nat) : Reader AnnotationUse :=
  readWith (ElementValue.read room)

/-- The place of a local variable. -/
def LocalRange.read : Reader LocalRange := do
  let start ← Reader.word16
  let length ← Reader.word16
  let index ← Reader.word16
  return { start, length, index }

/-- A target of the given layout. -/
def Target.readFields : TargetForm → Reader Target
  | .typeParameter => typeParameter <$> Reader.byte
  | .supertype => supertype <$> Reader.word16
  | .typeParameterBound => do
      let parameter ← Reader.byte
      let bound ← Reader.byte
      return typeParameterBound parameter bound
  | .empty => return empty
  | .formalParameter => formalParameter <$> Reader.byte
  | .throws => throws <$> Reader.word16
  | .localVariable => localVariable <$> Reader.list16 LocalRange.read
  | .handler => handler <$> Reader.word16
  | .offset => Target.offset <$> Reader.word16
  | .typeArgument => do
      let start ← Reader.word16
      let index ← Reader.byte
      return typeArgument start index

/-- The target that belongs to a target type. -/
def Target.read (code : UInt8) : Reader Target :=
  match TargetForm.ofCode? code with
  | some form => Target.readFields form
  | none => Reader.fail (.unknownTargetType code)

/-- One step of a path. -/
def PathStep.read : Reader PathStep := do
  let kind ← Reader.byte
  let argument ← Reader.byte
  return { kind, argument }

/-- A type annotation whose values may descend `room` levels. -/
def TypeAnnotationUse.read (room : Nat) : Reader TypeAnnotationUse := do
  let targetType ← Reader.byte
  let target ← Target.read targetType
  let path ← Reader.list8 PathStep.read
  let use ← AnnotationUse.read room
  return { targetType, target, path, use }

/-! ## Writing -/

mutual

/-- A value as it is written. -/
def ElementValue.write : Writer ElementValue
  | .constant kind index => kind.letter.toUInt8 :: BigEndian.bytes16 index
  | .enumeration type name =>
      'e'.toUInt8 :: (BigEndian.bytes16 type ++ BigEndian.bytes16 name)
  | .classLiteral descriptor => 'c'.toUInt8 :: BigEndian.bytes16 descriptor
  | .nested use => '@'.toUInt8 :: use.write
  | .array values =>
      '['.toUInt8 :: (BigEndian.bytes16 (UInt16.ofNat values.length) ++
        ElementValue.writeAll values)

/-- Values as they are written one after another. -/
def ElementValue.writeAll : Writer (List ElementValue)
  | [] => []
  | value :: rest => value.write ++ ElementValue.writeAll rest

/-- An annotation as it is written. -/
def AnnotationUse.write : Writer AnnotationUse
  | ⟨type, elements⟩ =>
      BigEndian.bytes16 type ++
        BigEndian.bytes16 (UInt16.ofNat elements.length) ++
        Element.writeAll elements

/-- A named element as it is written. -/
def Element.write : Writer Element
  | ⟨name, value⟩ => BigEndian.bytes16 name ++ value.write

/-- Elements as they are written one after another. -/
def Element.writeAll : Writer (List Element)
  | [] => []
  | element :: rest => element.write ++ Element.writeAll rest

end

/-- The place of a local variable as it is written. -/
def LocalRange.write : Writer LocalRange := fun range =>
  BigEndian.bytes16 range.start ++ BigEndian.bytes16 range.length ++
    BigEndian.bytes16 range.index

/-- A target as it is written. -/
def Target.write : Writer Target
  | typeParameter index => [index]
  | supertype index => BigEndian.bytes16 index
  | typeParameterBound parameter bound => [parameter, bound]
  | empty => []
  | formalParameter index => [index]
  | throws index => BigEndian.bytes16 index
  | localVariable ranges => Writer.list16 LocalRange.write ranges
  | handler index => BigEndian.bytes16 index
  | offset start => BigEndian.bytes16 start
  | typeArgument start index => BigEndian.bytes16 start ++ [index]

/-- One step of a path as it is written. -/
def PathStep.write : Writer PathStep := fun step => [step.kind, step.argument]

/-- A type annotation as it is written. -/
def TypeAnnotationUse.write : Writer TypeAnnotationUse := fun typeUse =>
  typeUse.targetType :: (typeUse.target.write ++
    Writer.list8 PathStep.write typeUse.path ++ typeUse.use.write)

end ClassFormat
