import Mathlib
import ClassFormat.Proofs.Spelling.Attributes

namespace ClassFormat

/-!
# The sizes of payloads

The number of bytes of a payload follows from the contents of the payload, and it is
told here without writing a byte.  An attribute inside a payload counts with the length
that it announces, and with six bytes for its name and its length.  A marker has nothing
but the announced length to tell its size.

* `Payload.length_write` says that this is the number of bytes that are written for a
  well-formed payload.
-/

/-! ## Words and lists -/

theorem BigEndian.length_bytes16 (word : UInt16) : (bytes16 word).length = 2 := rfl

theorem BigEndian.length_bytes32 (word : UInt32) : (bytes32 word).length = 4 := rfl

namespace Writer

variable {α : Type} {write : Writer α} {size : α → Nat}

theorem length_flatMap (hItem : ∀ item, (write item).length = size item)
    (items : List α) : (items.flatMap write).length = (items.map size).sum := by
  rw [List.length_flatMap]
  simp only [hItem]

/-- The length of a list takes two bytes. -/
theorem length_list16 (hItem : ∀ item, (write item).length = size item)
    (items : List α) : (list16 write items).length = 2 + (items.map size).sum := by
  rw [list16, List.length_append, length_flatMap hItem]
  rfl

/-- The length of a list takes one byte. -/
theorem length_list8 (hItem : ∀ item, (write item).length = size item)
    (items : List α) : (list8 write items).length = 1 + (items.map size).sum := by
  rw [list8, List.length_cons, length_flatMap hItem, Nat.add_comm]

/-- A list of items of one size. -/
theorem length_list16_const {n : Nat} (hItem : ∀ item, (write item).length = n)
    (items : List α) : (list16 write items).length = 2 + n * items.length := by
  rw [length_list16 hItem, List.map_const', List.sum_replicate, smul_eq_mul, Nat.mul_comm]

theorem length_list8_const {n : Nat} (hItem : ∀ item, (write item).length = n)
    (items : List α) : (list8 write items).length = 1 + n * items.length := by
  rw [length_list8 hItem, List.map_const', List.sum_replicate, smul_eq_mul, Nat.mul_comm]

end Writer

open Writer

/-! ## Parts of payloads -/

/-- The number of bytes of a type. -/
def VerificationType.size : VerificationType → Nat
  | object _ | uninitialized _ => 3
  | _ => 1

theorem VerificationType.length_write (type : VerificationType) :
    type.write.length = type.size := by
  cases type <;> rfl

/-- The number of bytes of a frame. -/
def Frame.size : Frame → Nat
  | same _ => 1
  | sameOneOperand _ operand => 1 + operand.size
  | sameOneOperandWide _ operand => 3 + operand.size
  | chop _ _ | sameWide _ => 3
  | append _ locals => 3 + (locals.map VerificationType.size).sum
  | full _ locals operands =>
      7 + (locals.map VerificationType.size).sum +
        (operands.map VerificationType.size).sum

theorem Frame.length_write (frame : Frame) : frame.write.length = frame.size := by
  have hTypes := VerificationType.length_write
  cases frame with
  | same | chop | sameWide => rfl
  | sameOneOperand offset operand =>
      rw [write, size, List.length_cons, hTypes, Nat.add_comm]
  | sameOneOperandWide offset operand =>
      rw [write, size, List.length_cons, List.length_append, hTypes,
        BigEndian.length_bytes16]
      omega
  | append offset locals =>
      rw [write, size, List.length_cons, List.length_append, length_flatMap hTypes,
        BigEndian.length_bytes16]
      omega
  | full offset locals operands =>
      rw [write, size, List.length_cons, List.length_append, List.length_append,
        length_list16 hTypes, length_list16 hTypes, BigEndian.length_bytes16]
      omega

/-- The number of bytes of a bootstrap method. -/
def BootstrapMethod.size (method : BootstrapMethod) : Nat :=
  4 + 2 * method.arguments.length

theorem BootstrapMethod.length_write (method : BootstrapMethod) :
    method.write.length = method.size := by
  rw [write, size, List.length_append, length_list16_const BigEndian.length_bytes16,
    BigEndian.length_bytes16]
  omega

/-- The number of bytes of an exported or opened package. -/
def PackageGrant.size (grant : PackageGrant) : Nat := 6 + 2 * grant.modules.length

theorem PackageGrant.length_write (grant : PackageGrant) :
    grant.write.length = grant.size := by
  simp only [write, size, List.length_append,
    length_list16_const BigEndian.length_bytes16, BigEndian.length_bytes16]
  omega

/-- The number of bytes of a provided service. -/
def Provision.size (provision : Provision) : Nat := 4 + 2 * provision.providers.length

theorem Provision.length_write (provision : Provision) :
    provision.write.length = provision.size := by
  simp only [write, size, List.length_append,
    length_list16_const BigEndian.length_bytes16, BigEndian.length_bytes16]
  omega

/-- The number of bytes of a module descriptor. -/
def ModuleDescriptor.size (module : ModuleDescriptor) : Nat :=
  16 + 6 * module.requires.length + (module.exports.map PackageGrant.size).sum +
    (module.opens.map PackageGrant.size).sum + 2 * module.uses.length +
    (module.provides.map Provision.size).sum

theorem ModuleDescriptor.length_write (module : ModuleDescriptor) :
    module.write.length = module.size := by
  have hRequirement (requirement : Requirement) : requirement.write.length = 6 := rfl
  simp only [write, size, List.length_append, length_list16_const hRequirement,
    length_list16 PackageGrant.length_write, length_list16 Provision.length_write,
    length_list16_const BigEndian.length_bytes16, BigEndian.length_bytes16]
  omega

/-! ## Annotations -/

mutual

/-- The number of bytes of a value. -/
def ElementValue.size : ElementValue → Nat
  | .constant _ _ | .classLiteral _ => 3
  | .enumeration _ _ => 5
  | .nested use => 1 + use.size
  | .array values => 3 + ElementValue.sizeAll values

/-- The number of bytes of some values. -/
def ElementValue.sizeAll : List ElementValue → Nat
  | [] => 0
  | value :: rest => value.size + ElementValue.sizeAll rest

/-- The number of bytes of an annotation. -/
def AnnotationUse.size : AnnotationUse → Nat
  | ⟨_, elements⟩ => 4 + Element.sizeAll elements

/-- The number of bytes of a named element. -/
def Element.size : Element → Nat
  | ⟨_, value⟩ => 2 + value.size

/-- The number of bytes of some elements. -/
def Element.sizeAll : List Element → Nat
  | [] => 0
  | element :: rest => element.size + Element.sizeAll rest

end

mutual

theorem ElementValue.length_write :
    (value : ElementValue) → value.write.length = value.size
  | .constant _ _ | .classLiteral _ | .enumeration _ _ => rfl
  | .nested use => by
      rw [ElementValue.write, ElementValue.size, List.length_cons, use.length_write,
        Nat.add_comm]
  | .array values => by
      rw [ElementValue.write, ElementValue.size, List.length_cons, List.length_append,
        ElementValue.length_writeAll values, BigEndian.length_bytes16]
      omega

theorem ElementValue.length_writeAll :
    (values : List ElementValue) →
      (ElementValue.writeAll values).length = ElementValue.sizeAll values
  | [] => rfl
  | value :: rest => by
      rw [ElementValue.writeAll, ElementValue.sizeAll, List.length_append,
        value.length_write, ElementValue.length_writeAll rest]

/-- An annotation takes as many bytes as are told. -/
theorem AnnotationUse.length_write :
    (use : AnnotationUse) → use.write.length = use.size
  | ⟨_, elements⟩ => by
      rw [AnnotationUse.write, AnnotationUse.size, List.length_append, List.length_append,
        Element.length_writeAll elements]
      rfl

theorem Element.length_write : (element : Element) → element.write.length = element.size
  | ⟨_, value⟩ => by
      rw [Element.write, Element.size, List.length_append, value.length_write]
      rfl

theorem Element.length_writeAll :
    (elements : List Element) →
      (Element.writeAll elements).length = Element.sizeAll elements
  | [] => rfl
  | element :: rest => by
      rw [Element.writeAll, Element.sizeAll, List.length_append, element.length_write,
        Element.length_writeAll rest]

end

/-- The number of bytes of a target. -/
def Target.size : Target → Nat
  | empty => 0
  | typeParameter _ | formalParameter _ => 1
  | supertype _ | typeParameterBound _ _ | throws _ | handler _ | offset _ => 2
  | typeArgument _ _ => 3
  | localVariable ranges => 2 + 6 * ranges.length

theorem Target.length_write (target : Target) : target.write.length = target.size := by
  have hRange (range : LocalRange) : range.write.length = 6 := rfl
  cases target with
  | localVariable ranges => exact length_list16_const hRange ranges
  | _ => rfl

/-- The number of bytes of a type annotation. -/
def TypeAnnotationUse.size (typeUse : TypeAnnotationUse) : Nat :=
  2 + typeUse.target.size + 2 * typeUse.path.length + typeUse.use.size

theorem TypeAnnotationUse.length_write (typeUse : TypeAnnotationUse) :
    typeUse.write.length = typeUse.size := by
  have hStep (step : PathStep) : step.write.length = 2 := rfl
  rw [write, size, List.length_cons, List.length_append, List.length_append,
    typeUse.target.length_write, length_list8_const hStep, typeUse.use.length_write]
  omega

/-! ## Attributes -/

/-- The number of bytes that attributes take by the lengths that they announce. -/
def Attribute.announcedSize (attributes : List Attribute) : Nat :=
  (attributes.map fun attr => 6 + attr.length.toNat).sum

/-- The number of bytes of a method body. -/
def Code.size (code : Code) : Nat :=
  12 + code.instructions.length + 8 * code.handlers.length +
    Attribute.announcedSize code.attributes

/-- The number of bytes of a record component. -/
def RecordComponent.size (component : RecordComponent) : Nat :=
  6 + Attribute.announcedSize component.attributes

/-- The number of bytes of a payload under an announced length. -/
def Payload.size (length : UInt32) : Payload → Nat
  | reference _ _ => 2
  | references _ indices => 2 + 2 * indices.length
  | marker _ => length.toNat
  | code body => body.size
  | stackMapTable frames => 2 + (frames.map Frame.size).sum
  | innerClasses classes => 2 + 8 * classes.length
  | enclosingMethod _ _ => 4
  | sourceDebugExtension bytes | unknown bytes => bytes.length
  | lineNumbers lines => 2 + 4 * lines.length
  | localVariables _ entries => 2 + 10 * entries.length
  | annotations _ uses => 2 + (uses.map AnnotationUse.size).sum
  | parameterAnnotations _ parameters =>
      1 + (parameters.map fun uses => 2 + (uses.map AnnotationUse.size).sum).sum
  | typeAnnotations _ typeUses => 2 + (typeUses.map TypeAnnotationUse.size).sum
  | annotationDefault value => value.size
  | bootstrapMethods methods => 2 + (methods.map BootstrapMethod.size).sum
  | methodParameters parameters => 1 + 4 * parameters.length
  | module descriptor => descriptor.size
  | record components => 2 + (components.map RecordComponent.size).sum

section

variable {pool : Pool}

/-- Well-formed attributes take as many bytes as they announce. -/
theorem Attribute.length_writeAll {attributes : List Attribute}
    (hAll : AllWellFormed pool attributes) :
    (writeAll attributes).length = announcedSize attributes := by
  induction attributes with
  | nil => rfl
  | cons attr rest ih =>
      obtain ⟨name, length, payload⟩ := attr
      obtain ⟨⟨-, hLength, -⟩, hRest⟩ := hAll
      rw [writeAll, List.length_append, ih hRest, Attribute.write, List.length_append, hLength]
      rfl

theorem Code.length_write {code : Code} (hCode : code.WellFormed pool) :
    code.write.length = code.size := by
  obtain ⟨maxStack, maxLocals, instructions, handlers, attributes⟩ := code
  obtain ⟨-, -, -, hAll⟩ := hCode
  have hHandler (handler : ExceptionHandler) : handler.write.length = 8 := rfl
  simp only [write, size, List.length_append, length_list16_const hHandler,
    Attribute.length_writeAll hAll, BigEndian.length_bytes16, BigEndian.length_bytes32]
  omega

theorem RecordComponent.length_writeAll {components : List RecordComponent}
    (hAll : AllWellFormed pool components) :
    (writeAll components).length = (components.map size).sum := by
  induction components with
  | nil => rfl
  | cons component rest ih =>
      obtain ⟨name, descriptor, attributes⟩ := component
      obtain ⟨⟨-, hInside⟩, hRest⟩ := hAll
      rw [writeAll, List.length_append, ih hRest, RecordComponent.write, List.length_append,
        Attribute.length_writeAll hInside]
      rfl

/-- A well-formed payload of the announced length takes as many bytes as are told. -/
theorem Payload.length_write {payload : Payload} (hPayload : payload.WellFormed pool)
    (length : UInt32) : (payload.write length).length = payload.size length := by
  cases payload with
  | reference | enclosingMethod | sourceDebugExtension | unknown => rfl
  | references role indices => exact length_list16_const BigEndian.length_bytes16 indices
  | marker kind => exact List.length_replicate
  | code body => exact body.length_write hPayload
  | stackMapTable frames => exact length_list16 Frame.length_write frames
  | innerClasses classes =>
      have hClass (innerClass : InnerClass) : innerClass.write.length = 8 := rfl
      exact length_list16_const hClass classes
  | lineNumbers lines =>
      have hLine (line : LineNumber) : line.write.length = 4 := rfl
      exact length_list16_const hLine lines
  | localVariables table entries =>
      have hEntry (entry : LocalVariable) : entry.write.length = 10 := rfl
      exact length_list16_const hEntry entries
  | annotations visibility uses => exact length_list16 AnnotationUse.length_write uses
  | parameterAnnotations visibility parameters =>
      exact length_list8 (length_list16 AnnotationUse.length_write) parameters
  | typeAnnotations visibility typeUses =>
      exact length_list16 TypeAnnotationUse.length_write typeUses
  | annotationDefault value => exact value.length_write
  | bootstrapMethods methods => exact length_list16 BootstrapMethod.length_write methods
  | methodParameters parameters =>
      have hParameter (parameter : MethodParameter) : parameter.write.length = 4 := rfl
      exact length_list8_const hParameter parameters
  | module descriptor => exact descriptor.length_write
  | record components =>
      rw [write, size, List.length_append, RecordComponent.length_writeAll hPayload.2]
      rfl

/-- What a well-formed attribute announces is the size of its payload. -/
theorem Attribute.WellFormed.length_eq {attr : Attribute} (hAttr : attr.WellFormed pool) :
    attr.length.toNat = attr.payload.size attr.length := by
  obtain ⟨name, length, payload⟩ := attr
  obtain ⟨-, hLength, hPayload⟩ := hAttr
  exact hLength.symm.trans (Payload.length_write hPayload length)

end

end ClassFormat
