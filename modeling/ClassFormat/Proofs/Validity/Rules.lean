import Mathlib
import ClassFormat.Attribute.Basic
import ClassFormat.ClassFile.Layout
import ClassFormat.Pool.Linking
import ClassFormat.Proofs.Spelling.ClassFiles
import ClassFormat.Text

namespace ClassFormat

/-!
# The rules of valid class files

The rules are told here without the checks: which kinds of entry each reference
may name, where zero stands for nothing, and what else a payload must obey.  The
rule of an attribute is about the attribute alone.  A class file is valid when
every attribute that is anywhere in it obeys its rule.
-/

/-! ## References -/

namespace Pool

/-- The index names a usable entry of one of the kinds. -/
def Names (pool : Pool) (tags : List Tag) (index : UInt16) : Prop :=
  ∃ entry, pool.get? index = some (some entry) ∧ entry.tag ∈ tags

/-- The index names an entry of one of the kinds, or it is zero. -/
def NamesOrZero (pool : Pool) (tags : List Tag) (index : UInt16) : Prop :=
  index = 0 ∨ pool.Names tags index

/-- The index names a usable entry of any kind. -/
def NamesAny (pool : Pool) (index : UInt16) : Prop :=
  ∃ entry, pool.get? index = some (some entry)

end Pool

/-! ## Parts of payloads -/

/-- An object belongs to a class. -/
def VerificationType.Obeys (pool : Pool) : VerificationType → Prop
  | object index => pool.Names [.classRef] index
  | _ => True

/-- The objects among the locals and the operands of a frame belong to classes. -/
def Frame.Obeys (pool : Pool) : Frame → Prop
  | same _ | chop _ _ | sameWide _ => True
  | sameOneOperand _ operand | sameOneOperandWide _ operand => operand.Obeys pool
  | append _ locals => ∀ type ∈ locals, type.Obeys pool
  | full _ locals operands =>
      (∀ type ∈ locals, type.Obeys pool) ∧ ∀ type ∈ operands, type.Obeys pool

/-- The handler lies in the code, and it catches a class or everything. -/
@[mk_iff obeys_iff]
structure ExceptionHandler.Obeys (pool : Pool) (codeLength : Nat)
    (handler : ExceptionHandler) : Prop where
  start_le_stop : handler.start ≤ handler.stop
  stop_le : handler.stop.toNat ≤ codeLength
  handler_le : handler.handler.toNat ≤ codeLength
  catchType : pool.NamesOrZero [.classRef] handler.catchType

/-- The references of an inner class. -/
@[mk_iff obeys_iff]
structure InnerClass.Obeys (pool : Pool) (innerClass : InnerClass) : Prop where
  inner : pool.Names [.classRef] innerClass.inner
  outer : pool.NamesOrZero [.classRef] innerClass.outer
  name : pool.NamesOrZero [.utf8] innerClass.name

/-- The references of a local variable. -/
@[mk_iff obeys_iff]
structure LocalVariable.Obeys (pool : Pool) (entry : LocalVariable) : Prop where
  name : pool.Names [.utf8] entry.name
  type : pool.Names [.utf8] entry.type

/-- The references of a bootstrap method, whose arguments may be anything. -/
@[mk_iff obeys_iff]
structure BootstrapMethod.Obeys (pool : Pool) (method : BootstrapMethod) : Prop where
  handle : pool.Names [.methodHandle] method.handle
  arguments : ∀ index ∈ method.arguments, pool.NamesAny index

/-- The references of a required module. -/
@[mk_iff obeys_iff]
structure Requirement.Obeys (pool : Pool) (requirement : Requirement) : Prop where
  module : pool.Names [.module] requirement.module
  version : pool.NamesOrZero [.utf8] requirement.version

/-- The references of an exported or opened package. -/
@[mk_iff obeys_iff]
structure PackageGrant.Obeys (pool : Pool) (grant : PackageGrant) : Prop where
  package : pool.Names [.package] grant.package
  modules : ∀ index ∈ grant.modules, pool.Names [.module] index

/-- The references of a provided service. -/
@[mk_iff obeys_iff]
structure Provision.Obeys (pool : Pool) (provision : Provision) : Prop where
  service : pool.Names [.classRef] provision.service
  providers : ∀ index ∈ provision.providers, pool.Names [.classRef] index

/-- The references of a module descriptor. -/
@[mk_iff obeys_iff]
structure ModuleDescriptor.Obeys (pool : Pool) (module : ModuleDescriptor) : Prop where
  name : pool.Names [.module] module.name
  version : pool.NamesOrZero [.utf8] module.version
  requires : ∀ requirement ∈ module.requires, requirement.Obeys pool
  exports : ∀ grant ∈ module.exports, grant.Obeys pool
  opens : ∀ grant ∈ module.opens, grant.Obeys pool
  uses : ∀ index ∈ module.uses, pool.Names [.classRef] index
  provides : ∀ provision ∈ module.provides, provision.Obeys pool

/-! ## Annotations -/

mutual

/-- Every reference in a value names what its letter promises. -/
def ElementValue.Obeys (pool : Pool) : ElementValue → Prop
  | .constant .byte index | .constant .char index | .constant .int index
  | .constant .short index | .constant .boolean index => pool.Names [.integer] index
  | .constant .double index => pool.Names [.double] index
  | .constant .float index => pool.Names [.float] index
  | .constant .long index => pool.Names [.long] index
  | .constant .string index => pool.Names [.utf8] index
  | .enumeration type constant =>
      pool.Names [.utf8] type ∧ pool.Names [.utf8] constant
  | .classLiteral descriptor => pool.Names [.utf8] descriptor
  | .nested use => use.Obeys pool
  | .array values => ElementValue.AllObey pool values

/-- Every reference in some values names what it should. -/
def ElementValue.AllObey (pool : Pool) : List ElementValue → Prop
  | [] => True
  | value :: rest => value.Obeys pool ∧ ElementValue.AllObey pool rest

/-- The type of an annotation and everything in its elements is as it should be. -/
def AnnotationUse.Obeys (pool : Pool) : AnnotationUse → Prop
  | ⟨type, elements⟩ => pool.Names [.utf8] type ∧ Element.AllObey pool elements

/-- The name and the value of an element are as they should be. -/
def Element.Obeys (pool : Pool) : Element → Prop
  | ⟨name, value⟩ => pool.Names [.utf8] name ∧ value.Obeys pool

/-- Some elements are as they should be. -/
def Element.AllObey (pool : Pool) : List Element → Prop
  | [] => True
  | element :: rest => element.Obeys pool ∧ Element.AllObey pool rest

end

/-! ## Attributes -/

/-- The rule of a payload, given the announced length.  The attributes inside the
payload have their own rules. -/
def Payload.Obeys (pool : Pool) (length : UInt32) : Payload → Prop
  | reference .constantValue index =>
      pool.Names [.integer, .float, .long, .double, .string] index
  | reference .signature index | reference .sourceFile index =>
      pool.Names [.utf8] index
  | reference .moduleMainClass index | reference .nestHost index =>
      pool.Names [.classRef] index
  | references .modulePackages indices =>
      ∀ index ∈ indices, pool.Names [.package] index
  | references .exceptions indices | references .nestMembers indices
  | references .permittedSubclasses indices =>
      ∀ index ∈ indices, pool.Names [.classRef] index
  | marker _ => length = 0
  | code body =>
      ∀ handler ∈ body.handlers, handler.Obeys pool body.instructions.length
  | stackMapTable frames => ∀ frame ∈ frames, frame.Obeys pool
  | innerClasses classes => ∀ innerClass ∈ classes, innerClass.Obeys pool
  | enclosingMethod owner method =>
      pool.Names [.classRef] owner ∧ pool.NamesOrZero [.nameAndType] method
  | sourceDebugExtension bytes => ∃ text, ModifiedUtf8.decode bytes = some text
  | localVariables _ entries => ∀ entry ∈ entries, entry.Obeys pool
  | annotations _ uses => ∀ use ∈ uses, use.Obeys pool
  | parameterAnnotations _ parameters =>
      ∀ uses ∈ parameters, ∀ use ∈ uses, use.Obeys pool
  | typeAnnotations _ typeUses => ∀ typeUse ∈ typeUses, typeUse.use.Obeys pool
  | annotationDefault value => value.Obeys pool
  | bootstrapMethods methods => ∀ method ∈ methods, method.Obeys pool
  | methodParameters parameters =>
      ∀ parameter ∈ parameters, pool.NamesOrZero [.utf8] parameter.name
  | module descriptor => descriptor.Obeys pool
  | record components =>
      ∀ component ∈ components, pool.Names [.utf8] component.name ∧
        pool.Names [.utf8] component.descriptor
  | lineNumbers _ | unknown _ => True

/-- The name of an attribute is a text, and its payload obeys its rule. -/
structure Attribute.Obeys (pool : Pool) (attr : Attribute) : Prop where
  name : pool.Names [.utf8] attr.name
  payload : attr.payload.Obeys pool attr.length

mutual

/-- An attribute and all attributes inside it. -/
def Attribute.within : Attribute → List Attribute
  | ⟨name, length, payload⟩ => ⟨name, length, payload⟩ :: payload.within

/-- Some attributes and all attributes inside them. -/
def Attribute.withinAll : List Attribute → List Attribute
  | [] => []
  | attr :: rest => attr.within ++ Attribute.withinAll rest

/-- All attributes inside a payload. -/
def Payload.within : Payload → List Attribute
  | .code body => body.within
  | .record components => RecordComponent.withinAll components
  | _ => []

/-- All attributes inside a method body. -/
def Code.within : Code → List Attribute
  | ⟨_, _, _, _, attributes⟩ => Attribute.withinAll attributes

/-- All attributes inside a record component. -/
def RecordComponent.within : RecordComponent → List Attribute
  | ⟨_, _, attributes⟩ => Attribute.withinAll attributes

/-- All attributes inside some record components. -/
def RecordComponent.withinAll : List RecordComponent → List Attribute
  | [] => []
  | component :: rest => component.within ++ RecordComponent.withinAll rest

end

/-! ## Class files -/

namespace ClassFile

/-- All fields and methods. -/
def members (file : ClassFile) : List Member := file.fields ++ file.methods

/-- All attributes of the class and its members, at every depth. -/
def attributesWithin (file : ClassFile) : List Attribute :=
  file.members.flatMap (fun member => Attribute.withinAll member.attributes) ++
    Attribute.withinAll file.attributes

/-- A class file that obeys the rules under a major version. -/
structure IsValid (file : ClassFile) (major : UInt16) : Prop where
  links : file.pool.checkLinks major = .ok ()
  thisClass : file.pool.Names [.classRef] file.thisClass
  superClass : file.pool.NamesOrZero [.classRef] file.superClass
  interfaces : ∀ index ∈ file.interfaces, file.pool.Names [.classRef] index
  members : ∀ member ∈ file.members, file.pool.Names [.utf8] member.name ∧
    file.pool.Names [.utf8] member.descriptor
  attributes : ∀ attr ∈ file.attributesWithin, attr.Obeys file.pool
  nesting : file.depth ≤ maxNesting

end ClassFile

end ClassFormat
