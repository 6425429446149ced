import ClassFormat.Pool.Linking

namespace ClassFormat

/-!
# Annotations

An annotation has a type and a list of named element values.  A value is a
constant of the pool, or it holds other values: as a nested annotation or as an
array.  A type annotation also tells which type it stands on.

The type of an annotation and the names of its elements are texts, and each value
refers to the kind of entry that its letter promises.  A class literal is given by a
text and not by a class.  The values of a nested annotation and of an array lie one
level deeper.
-/

/-- The constants that an element value can be, told apart by their letter. -/
inductive ConstantKind where
  | byte
  | char
  | double
  | float
  | int
  | long
  | short
  | boolean
  | string
  deriving DecidableEq

/-- The kind of pool entry that holds a constant. -/
def ConstantKind.entryTag : ConstantKind → Tag
  | byte | char | int | short | boolean => .integer
  | double => .double
  | float => .float
  | long => .long
  | string => .utf8

mutual

/-- The value of an annotation element. -/
inductive ElementValue where
  | constant (kind : ConstantKind) (index : UInt16)
  | enumeration (type constant : UInt16)
  /-- A class, given by the text of its descriptor. -/
  | classLiteral (descriptor : UInt16)
  | nested (use : AnnotationUse)
  | array (values : List ElementValue)

/-- An annotation as it is used on a declaration: the annotation type, and the
values of its elements. -/
structure AnnotationUse where
  type : UInt16
  elements : List Element

/-- A named element of an annotation. -/
structure Element where
  name : UInt16
  value : ElementValue

end

/-- A stretch of code in which a local variable has a place. -/
structure LocalRange where
  start : UInt16
  length : UInt16
  index : UInt16
  deriving DecidableEq

/-- Which type of a declaration or an expression an annotation stands on. -/
inductive Target where
  | typeParameter (index : UInt8)
  | supertype (index : UInt16)
  | typeParameterBound (parameter bound : UInt8)
  | empty
  | formalParameter (index : UInt8)
  | throws (index : UInt16)
  | localVariable (ranges : List LocalRange)
  | handler (index : UInt16)
  | offset (start : UInt16)
  | typeArgument (start : UInt16) (index : UInt8)
  deriving DecidableEq

/-- The layout of a target, which several target types share. -/
inductive TargetForm where
  | typeParameter
  | supertype
  | typeParameterBound
  | empty
  | formalParameter
  | throws
  | localVariable
  | handler
  | offset
  | typeArgument
  deriving DecidableEq

/-- The layout of a target. -/
def Target.form : Target → TargetForm
  | typeParameter _ => .typeParameter
  | supertype _ => .supertype
  | typeParameterBound _ _ => .typeParameterBound
  | empty => .empty
  | formalParameter _ => .formalParameter
  | throws _ => .throws
  | localVariable _ => .localVariable
  | handler _ => .handler
  | offset _ => .offset
  | typeArgument _ _ => .typeArgument

/-- The layout that belongs to a target type, if the type is known. -/
def TargetForm.ofCode? (code : UInt8) : Option TargetForm :=
  if code ≤ 0x01 then some typeParameter
  else if code = 0x10 then some supertype
  else if code = 0x11 ∨ code = 0x12 then some typeParameterBound
  else if 0x13 ≤ code ∧ code ≤ 0x15 then some empty
  else if code = 0x16 then some formalParameter
  else if code = 0x17 then some throws
  else if code = 0x40 ∨ code = 0x41 then some localVariable
  else if code = 0x42 then some handler
  else if 0x43 ≤ code ∧ code ≤ 0x46 then some offset
  else if 0x47 ≤ code ∧ code ≤ 0x4b then some typeArgument
  else none

/-- One step from a type to a part of it. -/
structure PathStep where
  kind : UInt8
  argument : UInt8
  deriving DecidableEq

/-- An annotation as it is used on a type. -/
structure TypeAnnotationUse where
  targetType : UInt8
  target : Target
  path : List PathStep
  use : AnnotationUse

/-! ## The references that annotations make -/

mutual

/-- Checks the references that a value makes. -/
def ElementValue.check (pool : Pool) : ElementValue → Walk Unit
  | .constant kind index => pool.check "element value" [kind.entryTag] index
  | .enumeration type constant => do
      pool.check "enum type name" [.utf8] type
      pool.check "enum constant name" [.utf8] constant
  | .classLiteral descriptor => pool.check "class literal" [.utf8] descriptor
  | .nested use => Walk.nested (use.check pool)
  | .array values => Walk.nested (ElementValue.checkAll pool values)

/-- Checks the references that values make, value by value. -/
def ElementValue.checkAll (pool : Pool) : List ElementValue → Walk Unit
  | [] => pure ()
  | value :: rest => do
      value.check pool
      ElementValue.checkAll pool rest

/-- Checks the references that an annotation makes. -/
def AnnotationUse.check (pool : Pool) : AnnotationUse → Walk Unit
  | ⟨type, elements⟩ => do
      pool.check "annotation type" [.utf8] type
      Element.checkAll pool elements

/-- Checks the references that a named element makes. -/
def Element.check (pool : Pool) : Element → Walk Unit
  | ⟨name, value⟩ => do
      pool.check "annotation element name" [.utf8] name
      value.check pool

/-- Checks the references that elements make, element by element. -/
def Element.checkAll (pool : Pool) : List Element → Walk Unit
  | [] => pure ()
  | element :: rest => do
      element.check pool
      Element.checkAll pool rest

end

end ClassFormat
