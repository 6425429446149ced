import Mathlib
import ClassFormat.Validator

namespace ClassFormat

/-!
# The checks of a class file, one by one

The checks that a class file has to pass are listed here in the order of the file.
A `Check` is about one index, one offset, one length or one level, and it tells
without the others what is wrong if it fails.  A level that is entered is a check
too, and it stands where the level is entered.

* `ClassFile.checks` is the list for a class file.
-/

/-! ## Single checks -/

/-- A single check. -/
inductive Check where
  /-- The index names a usable entry. -/
  | usable (context : String) (index : UInt16)
  /-- The index names an entry of one of the kinds. -/
  | names (context : String) (expected : List Tag) (index : UInt16)
  /-- The index names an entry of one of the kinds, or it is zero. -/
  | namesOrZero (context : String) (expected : List Tag) (index : UInt16)
  /-- The code selects a use of a method handle. -/
  | referenceKind (code : UInt8)
  /-- A method of this name may be called by handles of the kind. -/
  | calledName (kind : ReferenceKind) (name : String)
  /-- The offset does not lie behind the end of the code. -/
  | offset (context : String) (offset : UInt16) (codeLength : Nat)
  /-- The range does not end before it starts. -/
  | range (context : String) (start stop : UInt16)
  /-- The marker whose name is at the index has no payload. -/
  | marker (name : UInt16) (length : UInt32)
  /-- The bytes spell a text. -/
  | debugExtension (bytes : List UInt8)
  /-- The level may be entered. -/
  | level (number : Nat)

namespace Pool

/-- What is wrong with an index that has to name a usable entry. -/
def usableFault? (pool : Pool) (context : String) (index : UInt16) : Option Fault :=
  match pool.get? index with
  | none => some (.indexOutOfRange context index)
  | some none => some (.indexUnusable context index)
  | some (some _) => none

/-- What is wrong with an index that has to name an entry of one of the kinds. -/
def namesFault? (pool : Pool) (context : String) (expected : List Tag)
    (index : UInt16) : Option Fault :=
  match pool.get? index with
  | none => some (.indexOutOfRange context index)
  | some none => some (.indexUnusable context index)
  | some (some entry) =>
      if entry.tag ∈ expected then none
      else some (.unexpectedEntry context index expected entry.tag)

end Pool

namespace Check

/-- What is wrong when the check fails against a pool. -/
def fault? (pool : Pool) : Check → Option Fault
  | usable context index => pool.usableFault? context index
  | names context expected index => pool.namesFault? context expected index
  | namesOrZero context expected index =>
      if index = 0 then none else pool.namesFault? context expected index
  | referenceKind code =>
      if 1 ≤ code ∧ code ≤ 9 then none else some (.unknownReferenceKind code)
  | calledName kind name =>
      if kind = .newInvokeSpecial then
        if name = "<init>" then none else some (.constructorNotNamed kind name)
      else if name = "<init>" ∨ name = "<clinit>" then
        some (.initializerNamed kind name)
      else none
  | offset context position codeLength =>
      if position.toNat ≤ codeLength then none
      else some (.offsetOutsideCode context position codeLength)
  | range context start stop =>
      if start ≤ stop then none else some (.rangeReversed context start stop)
  | marker name length =>
      if length = 0 then none
      else some (.markerNotEmpty ((pool.text? name).getD "") length)
  | debugExtension bytes =>
      if (ModifiedUtf8.decode bytes).isSome then none
      else some .malformedDebugExtension
  | level number => if number ≤ maxNesting then none else some .nestedTooDeep

end Check

/-! ## The pool -/

namespace Pool

/-- The checks of the member that a handle calls: its name and type, its name, and
what the name is.  They go as far as the references lead. -/
def calledChecks (pool : Pool) (kind : ReferenceKind) (reference : UInt16) :
    List Check :=
  match pool.get? reference with
  | some (some (.memberRef _ _ nameAndType)) =>
      .names "method handle name and type" [.nameAndType] nameAndType ::
        match pool.get? nameAndType with
        | some (some (.nameAndType name _)) =>
            .names "method handle name" [.utf8] name ::
              (pool.text? name).toList.map (.calledName kind)
        | _ => []
  | _ => []

/-- The checks of a method handle. -/
def handleChecks (pool : Pool) (major : UInt16) (code : UInt8)
    (reference : UInt16) : List Check :=
  .referenceKind code ::
    match ReferenceKind.ofCode? code with
    | none => []
    | some kind =>
        .names "method handle reference" (kind.targets major) reference ::
          if kind.isInvoke then pool.calledChecks kind reference else []

/-- The checks of a slot. -/
def slotChecks (pool : Pool) (major : UInt16) : Slot → List Check
  | none => []
  | some entry =>
      match entry with
      | .utf8 _ | .integer _ | .float _ | .long _ | .double _ => []
      | .textRef kind text => [.names kind.context [.utf8] text]
      | .memberRef _ owner nameAndType =>
          [.names "member reference class" [.classRef] owner,
            .names "member reference name and type" [.nameAndType] nameAndType]
      | .nameAndType name descriptor =>
          [.names "name and type name" [.utf8] name,
            .names "name and type descriptor" [.utf8] descriptor]
      | .methodHandle code reference => pool.handleChecks major code reference
      | .dynamic _ _ nameAndType =>
          [.names "dynamic name and type" [.nameAndType] nameAndType]

/-- The checks of all slots. -/
def checks (pool : Pool) (major : UInt16) : List Check :=
  pool.slots.toList.flatMap (pool.slotChecks major)

end Pool

/-! ## Parts of payloads -/

/-- The checks of a frame. -/
def Frame.checks (frame : Frame) : List Check :=
  frame.types.flatMap fun
    | .object index => [.names "verification type object" [.classRef] index]
    | _ => []

/-- The checks of an exception handler. -/
def ExceptionHandler.checks (codeLength : Nat) (handler : ExceptionHandler) :
    List Check :=
  [.offset "exception handler end" handler.stop codeLength,
    .range "exception handler" handler.start handler.stop,
    .offset "exception handler" handler.handler codeLength,
    .namesOrZero "exception catch type" [.classRef] handler.catchType]

/-- The checks of an inner class. -/
def InnerClass.checks (innerClass : InnerClass) : List Check :=
  [.names "inner class info" [.classRef] innerClass.inner,
    .namesOrZero "outer class info" [.classRef] innerClass.outer,
    .namesOrZero "inner class name" [.utf8] innerClass.name]

/-- The checks of a local variable. -/
def LocalVariable.checks (table : VariableTable) (entry : LocalVariable) :
    List Check :=
  [.names table.contexts.1 [.utf8] entry.name,
    .names table.contexts.2 [.utf8] entry.type]

/-- The checks of a bootstrap method. -/
def BootstrapMethod.checks (method : BootstrapMethod) : List Check :=
  .names "bootstrap method" [.methodHandle] method.handle ::
    method.arguments.map (.usable "bootstrap argument")

/-- The checks of a required module. -/
def Requirement.checks (requirement : Requirement) : List Check :=
  [.names "requires" [.module] requirement.module,
    .namesOrZero "requires version" [.utf8] requirement.version]

/-- The checks of an exported or opened package. -/
def PackageGrant.checks (packageContext moduleContext : String)
    (grant : PackageGrant) : List Check :=
  .names packageContext [.package] grant.package ::
    grant.modules.map (.names moduleContext [.module])

/-- The checks of a provided service. -/
def Provision.checks (provision : Provision) : List Check :=
  .names "provides" [.classRef] provision.service ::
    provision.providers.map (.names "provides with" [.classRef])

/-- The checks of a module descriptor. -/
def ModuleDescriptor.checks (module : ModuleDescriptor) : List Check :=
  .names "module name" [.module] module.name ::
    .namesOrZero "module version" [.utf8] module.version ::
    (module.requires.flatMap Requirement.checks ++
      module.exports.flatMap (PackageGrant.checks "exports" "exports to") ++
      module.opens.flatMap (PackageGrant.checks "opens" "opens to") ++
      module.uses.map (.names "uses" [.classRef]) ++
      module.provides.flatMap Provision.checks)

/-! ## Annotations -/

mutual

/-- The checks of a value at a level. -/
def ElementValue.checks (level : Nat) : ElementValue → List Check
  | .constant kind index => [.names "element value" [kind.entryTag] index]
  | .enumeration type constant =>
      [.names "enum type name" [.utf8] type,
        .names "enum constant name" [.utf8] constant]
  | .classLiteral descriptor => [.names "class literal" [.utf8] descriptor]
  | .nested use => .level (level + 1) :: use.checks (level + 1)
  | .array values => .level (level + 1) :: ElementValue.checksAll (level + 1) values

/-- The checks of values, value by value. -/
def ElementValue.checksAll (level : Nat) : List ElementValue → List Check
  | [] => []
  | value :: rest => value.checks level ++ ElementValue.checksAll level rest

/-- The checks of an annotation. -/
def AnnotationUse.checks (level : Nat) : AnnotationUse → List Check
  | ⟨type, elements⟩ =>
      .names "annotation type" [.utf8] type :: Element.checksAll level elements

/-- The checks of a named element. -/
def Element.checks (level : Nat) : Element → List Check
  | ⟨name, value⟩ =>
      .names "annotation element name" [.utf8] name :: value.checks level

/-- The checks of elements, element by element. -/
def Element.checksAll (level : Nat) : List Element → List Check
  | [] => []
  | element :: rest => element.checks level ++ Element.checksAll level rest

end

/-! ## Attributes -/

mutual

/-- The checks of an attribute in a list at a level: first its name, then its
payload. -/
def Attribute.checks (level : Nat) : Attribute → List Check
  | ⟨name, length, payload⟩ =>
      .names "attribute name" [.utf8] name :: payload.checks level name length

/-- The checks of attributes, attribute by attribute. -/
def Attribute.checksAll (level : Nat) : List Attribute → List Check
  | [] => []
  | attr :: rest => attr.checks level ++ Attribute.checksAll level rest

/-- The checks of a payload, given the name and the length of its attribute. -/
def Payload.checks (level : Nat) (name : UInt16) (length : UInt32) :
    Payload → List Check
  | .reference role index => [.names role.context role.targets index]
  | .references role indices => indices.map (.names role.context role.targets)
  | .marker _ => [.marker name length]
  | .code body => body.checks level
  | .stackMapTable frames => frames.flatMap Frame.checks
  | .innerClasses classes => classes.flatMap InnerClass.checks
  | .enclosingMethod owner method =>
      [.names "enclosing method class" [.classRef] owner,
        .namesOrZero "enclosing method" [.nameAndType] method]
  | .sourceDebugExtension bytes => [.debugExtension bytes]
  | .lineNumbers _ => []
  | .localVariables table entries => entries.flatMap (LocalVariable.checks table)
  | .annotations _ uses => uses.flatMap (AnnotationUse.checks level)
  | .parameterAnnotations _ parameters =>
      parameters.flatMap fun uses => uses.flatMap (AnnotationUse.checks level)
  | .typeAnnotations _ typeUses =>
      typeUses.flatMap fun typeUse => typeUse.use.checks level
  | .annotationDefault value => value.checks level
  | .bootstrapMethods methods => methods.flatMap BootstrapMethod.checks
  | .methodParameters parameters =>
      parameters.map fun parameter =>
        .namesOrZero "method parameter name" [.utf8] parameter.name
  | .module descriptor => descriptor.checks
  | .record components => RecordComponent.checksAll level components
  | .unknown _ => []

/-- The checks of a method body: all handlers come before the attributes. -/
def Code.checks (level : Nat) : Code → List Check
  | ⟨_, _, instructions, handlers, attributes⟩ =>
      handlers.flatMap (ExceptionHandler.checks instructions.length) ++
        .level (level + 1) :: Attribute.checksAll (level + 1) attributes

/-- The checks of a record component. -/
def RecordComponent.checks (level : Nat) : RecordComponent → List Check
  | ⟨name, descriptor, attributes⟩ =>
      .names "record component name" [.utf8] name ::
        .names "record component descriptor" [.utf8] descriptor ::
        .level (level + 1) :: Attribute.checksAll (level + 1) attributes

/-- The checks of record components, one by one. -/
def RecordComponent.checksAll (level : Nat) : List RecordComponent → List Check
  | [] => []
  | component :: rest =>
      component.checks level ++ RecordComponent.checksAll level rest

end

/-! ## Class files -/

/-- The checks of a member. -/
def Member.checks (member : Member) : List Check :=
  .names "member name" [.utf8] member.name ::
    .names "member descriptor" [.utf8] member.descriptor ::
    Attribute.checksAll 0 member.attributes

/-- The checks of a class file under a major version. -/
def ClassFile.checks (major : UInt16) (file : ClassFile) : List Check :=
  file.pool.checks major ++
    .names "this class" [.classRef] file.thisClass ::
    .namesOrZero "super class" [.classRef] file.superClass ::
    (file.interfaces.map (.names "interface" [.classRef]) ++
      file.fields.flatMap Member.checks ++ file.methods.flatMap Member.checks ++
      Attribute.checksAll 0 file.attributes)

end ClassFormat
