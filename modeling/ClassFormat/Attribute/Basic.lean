import ClassFormat.Annotations.Basic
import ClassFormat.Attribute.Kind
import ClassFormat.Frame
import ClassFormat.Module
import ClassFormat.Pool.Basic

namespace ClassFormat

/-!
# Attributes

Attributes are the part of a class file that can grow: each has a name, a length
and a payload, and whoever does not know the name can pass over the payload.
Code and record components hold attributes again, so attributes form a tree.
-/

/-- A stretch of code whose exceptions are caught.  The catch type zero catches
all of them. -/
structure ExceptionHandler where
  start : UInt16
  stop : UInt16
  handler : UInt16
  catchType : UInt16
  deriving DecidableEq

/-- A class that is declared inside another one. -/
structure InnerClass where
  inner : UInt16
  outer : UInt16
  name : UInt16
  flags : UInt16
  deriving DecidableEq

/-- A line of the source and the offset at which its code starts. -/
structure LineNumber where
  start : UInt16
  line : UInt16
  deriving DecidableEq

/-- A local variable.  Its type is a descriptor or a signature, depending on the
table. -/
structure LocalVariable where
  start : UInt16
  length : UInt16
  name : UInt16
  type : UInt16
  index : UInt16
  deriving DecidableEq

/-- A method that computes constants or call sites, with its arguments. -/
structure BootstrapMethod where
  handle : UInt16
  arguments : List UInt16
  deriving DecidableEq

/-- The name and the flags of a parameter. -/
structure MethodParameter where
  name : UInt16
  flags : UInt16
  deriving DecidableEq

mutual

/-- An attribute with its name, its announced length and its payload. -/
structure Attribute where
  name : UInt16
  length : UInt32
  payload : Payload

/-- What an attribute holds. -/
inductive Payload where
  | reference (role : ReferenceRole) (index : UInt16)
  | references (role : ReferenceListRole) (indices : List UInt16)
  | marker (kind : Marker)
  | code (body : Code)
  | stackMapTable (frames : List Frame)
  | innerClasses (classes : List InnerClass)
  | enclosingMethod (owner method : UInt16)
  | sourceDebugExtension (bytes : List UInt8)
  | lineNumbers (lines : List LineNumber)
  | localVariables (table : VariableTable) (entries : List LocalVariable)
  | annotations (visibility : Visibility) (annotations : List AnnotationUse)
  | parameterAnnotations (visibility : Visibility)
      (parameters : List (List AnnotationUse))
  | typeAnnotations (visibility : Visibility)
      (annotations : List TypeAnnotationUse)
  | annotationDefault (value : ElementValue)
  | bootstrapMethods (methods : List BootstrapMethod)
  | methodParameters (parameters : List MethodParameter)
  | module (descriptor : ModuleDescriptor)
  | record (components : List RecordComponent)
  /-- The bytes of an attribute whose name is not known. -/
  | unknown (bytes : List UInt8)

/-- The body of a method. -/
structure Code where
  maxStack : UInt16
  maxLocals : UInt16
  instructions : List UInt8
  handlers : List ExceptionHandler
  attributes : List Attribute

/-- One component of a record class. -/
structure RecordComponent where
  name : UInt16
  descriptor : UInt16
  attributes : List Attribute

end

/-- The kind of attribute that holds such a payload; `none` for an unknown
one. -/
def Payload.kind? : Payload → Option AttributeKind
  | reference role _ => some (.reference role)
  | references role _ => some (.references role)
  | marker kind => some (.marker kind)
  | code _ => some .code
  | stackMapTable _ => some .stackMapTable
  | innerClasses _ => some .innerClasses
  | enclosingMethod _ _ => some .enclosingMethod
  | sourceDebugExtension _ => some .sourceDebugExtension
  | lineNumbers _ => some .lineNumbers
  | localVariables table _ => some (.localVariables table)
  | annotations visibility _ => some (.annotations visibility)
  | parameterAnnotations visibility _ => some (.parameterAnnotations visibility)
  | typeAnnotations visibility _ => some (.typeAnnotations visibility)
  | annotationDefault _ => some .annotationDefault
  | bootstrapMethods _ => some .bootstrapMethods
  | methodParameters _ => some .methodParameters
  | module _ => some .module
  | record _ => some .record
  | unknown _ => none

/-- The kind of attribute that the name at an index selects, if the name is a
text and the text is known. -/
def Pool.attributeKind? (pool : Pool) (name : UInt16) : Option AttributeKind :=
  (pool.text? name).bind AttributeKind.ofName?

/-- What is shown of a run of bytes that nobody interprets: how long it is. -/
def runCaption (bytes : List UInt8) : String := s!"({bytes.length} bytes)"

namespace Attribute

/-- Whether the attribute goes by a name. -/
def isNamed (pool : Pool) (name : String) (attr : Attribute) : Bool :=
  pool.text? attr.name == some name

/-- The first attribute of a list that goes by a name. -/
def findNamed? (pool : Pool) (name : String) (attributes : List Attribute) :
    Option Attribute :=
  attributes.find? (isNamed pool name)

/-- The place in a list of the attribute that `findNamed?` finds. -/
def findNamedIdx? (pool : Pool) (name : String)
    (attributes : List Attribute) : Option Nat :=
  attributes.findIdx? (isNamed pool name)

/-- The method body in an attribute, if it holds one. -/
def code? (attr : Attribute) : Option Code :=
  match attr.payload with
  | .code body => some body
  | _ => none

/-- The first method body in a list of attributes. -/
def findCode? (attributes : List Attribute) : Option Code :=
  attributes.findSome? code?

end Attribute

end ClassFormat
