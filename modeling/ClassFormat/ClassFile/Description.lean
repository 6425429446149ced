import ClassFormat.ClassFile.Layout
import ClassFormat.Descriptor

namespace ClassFormat

/-!
# Names and declarations of classes and members

The names that a class file gives to its class and its members are references
into the pool.  This file looks them up and writes the declarations as they
would stand in source.

A class, a field or a method carries sixteen access flags.  Some bits mean one
thing on a class and another on a method, so a flag has a keyword only together
with the kind of declaration that carries it.
-/

/-! ## Modifiers -/

/-- What a set of access flags belongs to. -/
inductive Declaration where
  | type
  | field
  | method
  deriving DecidableEq

/-- The keyword of each flag that a declaration understands, in the order in
which modifiers are written. -/
def Declaration.keywords : Declaration → List (UInt16 × String)
  | type =>
      [(0x0001, "public"), (0x0010, "final"), (0x0020, "super"),
        (0x0200, "interface"), (0x0400, "abstract"), (0x1000, "synthetic"),
        (0x2000, "annotation"), (0x4000, "enum"), (0x8000, "module")]
  | field =>
      [(0x0001, "public"), (0x0002, "private"), (0x0004, "protected"),
        (0x0008, "static"), (0x0010, "final"), (0x0040, "volatile"),
        (0x0080, "transient"), (0x0400, "abstract"), (0x1000, "synthetic"),
        (0x4000, "enum")]
  | method =>
      [(0x0001, "public"), (0x0002, "private"), (0x0004, "protected"),
        (0x0008, "static"), (0x0010, "final"), (0x0020, "synchronized"),
        (0x0040, "bridge"), (0x0080, "varargs"), (0x0100, "native"),
        (0x0400, "abstract"), (0x0800, "strict"), (0x1000, "synthetic")]

namespace AccessFlags

/-- Whether the flag is set. -/
def has (flags : AccessFlags) (flag : UInt16) : Bool :=
  flags.bits &&& flag == flag

/-- The keywords of the flags that are set and that the declaration
understands. -/
def keywords (flags : AccessFlags) (declaration : Declaration) : List String :=
  (declaration.keywords.filter fun entry => flags.has entry.1).map Prod.snd

/-- The keywords as they stand before a declaration, separated by blanks. -/
def modifiers (flags : AccessFlags) (declaration : Declaration) : String :=
  " ".intercalate (flags.keywords declaration)

end AccessFlags

/-- The kind of declaration that a member is. -/
def MemberKind.declaration : MemberKind → Declaration
  | field => .field
  | method => .method

/-! ## Declarations -/

namespace Member

/-- The name of a member. -/
def nameIn (pool : Pool) (member : Member) : Except Fault String :=
  pool.text "member name" member.name

/-- The descriptor of a member. -/
def descriptorIn (pool : Pool) (member : Member) : Except Fault String :=
  pool.text "member descriptor" member.descriptor

/-- The modifiers of a member. -/
def modifiers (member : Member) : String :=
  member.flags.modifiers member.kind.declaration

/-- The declaration of a member, such as `private final int size`. -/
def describe (pool : Pool) (member : Member) : Except Fault String := do
  let name ← member.nameIn pool
  let descriptor ← member.descriptorIn pool
  let declaration ← Descriptor.declaration name descriptor
  if member.modifiers.isEmpty then return declaration
  else return member.modifiers ++ " " ++ declaration

end Member

/-- A class name with dots for slashes. -/
def dottedName (name : String) : String :=
  String.ofList (dotted name.toList)

/-- The class that the header of a class need not mention. -/
def rootClass : String := "java/lang/Object"

namespace ClassFile

/-- The name of the class. -/
def className (file : ClassFile) : Except Fault String :=
  file.pool.className "this class" file.thisClass

/-- The name of the superclass, if there is one. -/
def superClassName (file : ClassFile) : Except Fault (Option String) :=
  if file.superClass = 0 then .ok none
  else (file.pool.className "super class" file.superClass).map some

/-- The names of the interfaces. -/
def interfaceNames (file : ClassFile) : Except Fault (List String) :=
  file.interfaces.mapM (file.pool.className "interface")

/-- The modifiers of the class. -/
def modifiers (file : ClassFile) : String :=
  file.flags.modifiers .type

/-- What the header of a class says of its superclass. -/
def extendsClause : Option String → String
  | none => ""
  | some name =>
      if name = rootClass then "" else " extends " ++ dottedName name

/-- What the header of a class says of its interfaces. -/
def implementsClause (names : List String) : String :=
  if names.isEmpty then ""
  else " implements " ++ ", ".intercalate (names.map dottedName)

/-- The header of the class, such as `public final a.B extends a.C`. -/
def describe (file : ClassFile) : Except Fault String := do
  let name ← file.className
  let superClass ← file.superClassName
  let interfaces ← file.interfaceNames
  let modifiers :=
    if file.modifiers.isEmpty then "" else file.modifiers ++ " "
  return modifiers ++ dottedName name ++ extendsClause superClass ++
    implementsClause interfaces

end ClassFile

end ClassFormat
