namespace ClassFormat

/-!
# The kinds of constant pool entry

A pool entry starts with one byte that says what it is.  `Tag` lists the
seventeen kinds with their bytes and names.  A method handle entry carries one
more such byte, the `ReferenceKind`, for the use it makes of its member.

* `Tag.ofCode?_eq_some_iff` and `ReferenceKind.ofCode?_eq_some_iff` say that
  each kind is read back from its own byte and from no other.
-/

/-- The kind of a usable constant pool entry. -/
inductive Tag where
  | utf8
  | integer
  | float
  | long
  | double
  | classRef
  | string
  | fieldRef
  | methodRef
  | interfaceMethodRef
  | nameAndType
  | methodHandle
  | methodType
  | dynamic
  | invokeDynamic
  | module
  | package
  deriving DecidableEq

namespace Tag

/-- Every kind, in the order of the bytes. -/
def all : List Tag :=
  [utf8, integer, float, long, double, classRef, string, fieldRef, methodRef,
    interfaceMethodRef, nameAndType, methodHandle, methodType, dynamic,
    invokeDynamic, module, package]

/-- The byte that introduces an entry of this kind. -/
def code : Tag → UInt8
  | utf8 => 1
  | integer => 3
  | float => 4
  | long => 5
  | double => 6
  | classRef => 7
  | string => 8
  | fieldRef => 9
  | methodRef => 10
  | interfaceMethodRef => 11
  | nameAndType => 12
  | methodHandle => 15
  | methodType => 16
  | dynamic => 17
  | invokeDynamic => 18
  | module => 19
  | package => 20

/-- The kind that a byte introduces, if it introduces any. -/
def ofCode? (byte : UInt8) : Option Tag :=
  all.find? fun tag => tag.code == byte

/-- The name of the kind in messages. -/
def name : Tag → String
  | utf8 => "CONSTANT_Utf8"
  | integer => "CONSTANT_Integer"
  | float => "CONSTANT_Float"
  | long => "CONSTANT_Long"
  | double => "CONSTANT_Double"
  | classRef => "CONSTANT_Class"
  | string => "CONSTANT_String"
  | fieldRef => "CONSTANT_Fieldref"
  | methodRef => "CONSTANT_Methodref"
  | interfaceMethodRef => "CONSTANT_InterfaceMethodref"
  | nameAndType => "CONSTANT_NameAndType"
  | methodHandle => "CONSTANT_MethodHandle"
  | methodType => "CONSTANT_MethodType"
  | dynamic => "CONSTANT_Dynamic"
  | invokeDynamic => "CONSTANT_InvokeDynamic"
  | module => "CONSTANT_Module"
  | package => "CONSTANT_Package"

/-- The eight-byte kinds occupy two slots of the pool. -/
def isWide : Tag → Bool
  | long | double => true
  | _ => false

theorem ofCode?_code (tag : Tag) : ofCode? tag.code = some tag := by
  cases tag <;> rfl

/-- Each kind is introduced by exactly one byte. -/
theorem ofCode?_eq_some_iff {byte : UInt8} {tag : Tag} :
    ofCode? byte = some tag ↔ tag.code = byte := by
  constructor
  · intro hFound
    simpa using List.find?_some hFound
  · rintro rfl
    exact ofCode?_code tag

end Tag

/-- What a method handle does with the member that it names. -/
inductive ReferenceKind where
  | getField
  | getStatic
  | putField
  | putStatic
  | invokeVirtual
  | invokeStatic
  | invokeSpecial
  | newInvokeSpecial
  | invokeInterface
  deriving DecidableEq

namespace ReferenceKind

/-- Every use, in the order of the bytes. -/
def all : List ReferenceKind :=
  [getField, getStatic, putField, putStatic, invokeVirtual, invokeStatic,
    invokeSpecial, newInvokeSpecial, invokeInterface]

/-- The byte that selects this use. -/
def code : ReferenceKind → UInt8
  | getField => 1
  | getStatic => 2
  | putField => 3
  | putStatic => 4
  | invokeVirtual => 5
  | invokeStatic => 6
  | invokeSpecial => 7
  | newInvokeSpecial => 8
  | invokeInterface => 9

/-- The use that a byte selects, if it selects any. -/
def ofCode? (byte : UInt8) : Option ReferenceKind :=
  all.find? fun kind => kind.code == byte

/-- The name of the use in messages. -/
def name : ReferenceKind → String
  | getField => "GetField"
  | getStatic => "GetStatic"
  | putField => "PutField"
  | putStatic => "PutStatic"
  | invokeVirtual => "InvokeVirtual"
  | invokeStatic => "InvokeStatic"
  | invokeSpecial => "InvokeSpecial"
  | newInvokeSpecial => "NewInvokeSpecial"
  | invokeInterface => "InvokeInterface"

/-- The first four uses read or write a field, the others call a method. -/
def isInvoke : ReferenceKind → Bool
  | getField | getStatic | putField | putStatic => false
  | _ => true

theorem ofCode?_code (kind : ReferenceKind) :
    ofCode? kind.code = some kind := by
  cases kind <;> rfl

/-- Each use is selected by exactly one byte. -/
theorem ofCode?_eq_some_iff {byte : UInt8} {kind : ReferenceKind} :
    ofCode? byte = some kind ↔ kind.code = byte := by
  constructor
  · intro hFound
    simpa using List.find?_some hFound
  · rintro rfl
    exact ofCode?_code kind

end ReferenceKind

end ClassFormat
