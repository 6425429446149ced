import ClassFormat.Annotations.Basic
import ClassFormat.Attribute.Basic
import ClassFormat.Module
import ClassFormat.Text

namespace ClassFormat

/-!
# The references that attributes make

The name of an attribute is a text.  What its payload refers to depends on the
layout.  The attributes of a method body and of a record component lie one level
deeper than the attribute around them.

Checks go through an attribute from front to back.  The handlers of a method
body are checked before the attributes inside it.
-/

/-! ## Payloads without attributes inside -/

/-- The context of a payload that is one reference. -/
def ReferenceRole.context : ReferenceRole → String
  | constantValue => "constant value"
  | signature => "signature"
  | sourceFile => "source file"
  | moduleMainClass => "module main class"
  | nestHost => "nest host"

/-- What a payload that is one reference may refer to. -/
def ReferenceRole.targets : ReferenceRole → List Tag
  | constantValue => [.integer, .float, .long, .double, .string]
  | signature | sourceFile => [.utf8]
  | moduleMainClass | nestHost => [.classRef]

/-- The context of a payload that is a list of references. -/
def ReferenceListRole.context : ReferenceListRole → String
  | exceptions => "exception class"
  | modulePackages => "module package"
  | nestMembers => "nest member"
  | permittedSubclasses => "permitted subclass"

/-- What a payload that is a list of references may refer to. -/
def ReferenceListRole.targets : ReferenceListRole → List Tag
  | modulePackages => [.package]
  | exceptions | nestMembers | permittedSubclasses => [.classRef]

/-- Checks the class that an object in a frame belongs to. -/
def VerificationType.check (pool : Pool) :
    VerificationType → Verdict
  | object index => pool.check "verification type object" [.classRef] index
  | _ => .ok ()

/-- Checks the types of a frame. -/
def Frame.check (pool : Pool) (frame : Frame) : Verdict :=
  Verdict.each (VerificationType.check pool) frame.types

/-- Checks the references of an inner class. -/
def InnerClass.check (pool : Pool) (innerClass : InnerClass) :
    Verdict := do
  pool.check "inner class info" [.classRef] innerClass.inner
  pool.checkOptional "outer class info" [.classRef] innerClass.outer
  pool.checkOptional "inner class name" [.utf8] innerClass.name

/-- The contexts of the name and the type of a local variable. -/
def VariableTable.contexts : VariableTable → String × String
  | descriptors => ("local variable name", "local variable descriptor")
  | signatures =>
      ("local variable type name", "local variable type signature")

/-- Checks the references of a local variable. -/
def LocalVariable.check (pool : Pool) (table : VariableTable)
    (entry : LocalVariable) : Verdict := do
  pool.check table.contexts.1 [.utf8] entry.name
  pool.check table.contexts.2 [.utf8] entry.type

/-- Checks the references of a bootstrap method.  Its arguments may be entries
of any kind. -/
def BootstrapMethod.check (pool : Pool) (method : BootstrapMethod) :
    Verdict := do
  pool.check "bootstrap method" [.methodHandle] method.handle
  Verdict.each (pool.checkUsable "bootstrap argument") method.arguments

/-- Checks the name of a parameter, which may be missing. -/
def MethodParameter.check (pool : Pool) (parameter : MethodParameter) :
    Verdict :=
  pool.checkOptional "method parameter name" [.utf8] parameter.name

/-- Checks that an offset does not lie behind the end of the code. -/
def checkOffset (codeLength : Nat) (context : String) (offset : UInt16) :
    Verdict :=
  if codeLength < offset.toNat then
    .error (.offsetOutsideCode context offset codeLength)
  else .ok ()

/-- Checks the range, the code and the catch type of a handler. -/
def ExceptionHandler.check (pool : Pool) (codeLength : Nat)
    (handler : ExceptionHandler) : Verdict := do
  checkOffset codeLength "exception handler end" handler.stop
  if handler.stop < handler.start then
    throw (.rangeReversed "exception handler" handler.start handler.stop)
  checkOffset codeLength "exception handler" handler.handler
  pool.checkOptional "exception catch type" [.classRef] handler.catchType

/-- Checks that a marker announces no payload. -/
def checkMarker (name : String) (length : UInt32) : Verdict :=
  if length = 0 then .ok () else .error (.markerNotEmpty name length)

/-- Checks that a debug extension is a text. -/
def checkDebugExtension (bytes : List UInt8) : Verdict :=
  if (ModifiedUtf8.decode bytes).isSome then .ok ()
  else .error .malformedDebugExtension

/-! ## The tree of attributes -/

mutual

/-- Checks the references that an attribute makes. -/
def Attribute.check (pool : Pool) : Attribute → Walk Unit
  | ⟨name, length, payload⟩ => do
      let text ← pool.text "attribute name" name
      payload.check pool text length

/-- Checks the references that attributes make, attribute by attribute. -/
def Attribute.checkAll (pool : Pool) : List Attribute → Walk Unit
  | [] => pure ()
  | attr :: rest => do
      attr.check pool
      Attribute.checkAll pool rest

/-- Checks the references that a payload makes, given the name and the length of
its attribute. -/
def Payload.check (pool : Pool) (name : String) (length : UInt32) :
    Payload → Walk Unit
  | .reference role index => pool.check role.context role.targets index
  | .references role indices =>
      Verdict.each (pool.check role.context role.targets) indices
  | .marker _ => checkMarker name length
  | .code body => body.check pool
  | .stackMapTable frames => Verdict.each (Frame.check pool) frames
  | .innerClasses classes => Verdict.each (InnerClass.check pool) classes
  | .enclosingMethod owner method => do
      pool.check "enclosing method class" [.classRef] owner
      pool.checkOptional "enclosing method" [.nameAndType] method
  | .sourceDebugExtension bytes => checkDebugExtension bytes
  | .lineNumbers _ => pure ()
  | .localVariables table entries =>
      Verdict.each (LocalVariable.check pool table) entries
  | .annotations _ annotations => Walk.each (AnnotationUse.check pool) annotations
  | .parameterAnnotations _ parameters =>
      Walk.each (Walk.each (AnnotationUse.check pool)) parameters
  | .typeAnnotations _ annotations =>
      Walk.each (fun typeUse => typeUse.use.check pool) annotations
  | .annotationDefault value => value.check pool
  | .bootstrapMethods methods => Verdict.each (BootstrapMethod.check pool) methods
  | .methodParameters parameters =>
      Verdict.each (MethodParameter.check pool) parameters
  | .module descriptor => descriptor.check pool
  | .record components => RecordComponent.checkAll pool components
  | .unknown _ => pure ()

/-- Checks the references that a method body makes. -/
def Code.check (pool : Pool) : Code → Walk Unit
  | ⟨_, _, instructions, handlers, attributes⟩ => do
      Verdict.each (ExceptionHandler.check pool instructions.length) handlers
      Walk.nested (Attribute.checkAll pool attributes)

/-- Checks the references that a record component makes. -/
def RecordComponent.check (pool : Pool) : RecordComponent → Walk Unit
  | ⟨name, descriptor, attributes⟩ => do
      pool.check "record component name" [.utf8] name
      pool.check "record component descriptor" [.utf8] descriptor
      Walk.nested (Attribute.checkAll pool attributes)

/-- Checks the references that record components make, one by one. -/
def RecordComponent.checkAll (pool : Pool) : List RecordComponent → Walk Unit
  | [] => pure ()
  | component :: rest => do
      component.check pool
      RecordComponent.checkAll pool rest

end

end ClassFormat
