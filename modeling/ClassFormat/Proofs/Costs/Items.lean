import Mathlib
import ClassFormat.ClassFile.Layout

namespace ClassFormat

/-!
# How much a class file holds

The items of a class file are the slots of its pool, the things in its lists, the values
of annotations, and the bytes that nobody interprets, at every depth.  Their number tells
how large the tree is.  Texts are told apart from the items, by the number of their bytes.

What is inside a thing does not count the thing itself; the list that holds the thing
counts it.
-/

/-- The number of items in a list of things, with what is inside them. -/
def itemsOf {α : Type} (inside : α → Nat) (things : List α) : Nat :=
  (things.map fun thing => inside thing + 1).sum

@[simp] theorem itemsOf_zero {α : Type} (things : List α) :
    itemsOf (fun _ => 0) things = things.length := by
  simp [itemsOf]

/-- What is counted thing by thing is the number of items. -/
theorem eq_itemsOf {α : Type} {inside : α → Nat} {count : List α → Nat}
    (hNil : count [] = 0)
    (hCons : ∀ thing rest, count (thing :: rest) = inside thing + 1 + count rest)
    (things : List α) : count things = itemsOf inside things := by
  induction things with
  | nil => exact hNil
  | cons thing rest ih =>
      rw [hCons, ih]
      rfl

/-- The number of items in a frame. -/
def Frame.items (frame : Frame) : Nat := frame.types.length

/-- The number of items in a bootstrap method. -/
def BootstrapMethod.items (method : BootstrapMethod) : Nat := method.arguments.length

/-- The number of items in an exported or opened package. -/
def PackageGrant.items (grant : PackageGrant) : Nat := grant.modules.length

/-- The number of items in a provided service. -/
def Provision.items (provision : Provision) : Nat := provision.providers.length

/-- The number of items in a module descriptor. -/
def ModuleDescriptor.items (module : ModuleDescriptor) : Nat :=
  module.requires.length + itemsOf PackageGrant.items module.exports +
    itemsOf PackageGrant.items module.opens + module.uses.length +
    itemsOf Provision.items module.provides

/-! ## Annotations -/

mutual

/-- The number of items in a value.  A nested annotation is one. -/
def ElementValue.items : ElementValue → Nat
  | .constant _ _ | .enumeration _ _ | .classLiteral _ => 0
  | .nested use => use.items + 1
  | .array values => ElementValue.itemsAll values

/-- The number of items in a list of values. -/
def ElementValue.itemsAll : List ElementValue → Nat
  | [] => 0
  | value :: rest => value.items + 1 + ElementValue.itemsAll rest

/-- The number of items in an annotation. -/
def AnnotationUse.items : AnnotationUse → Nat
  | ⟨_, elements⟩ => Element.itemsAll elements

/-- The number of items in an element.  Its value is one. -/
def Element.items : Element → Nat
  | ⟨_, value⟩ => value.items + 1

/-- The number of items in a list of elements. -/
def Element.itemsAll : List Element → Nat
  | [] => 0
  | element :: rest => element.items + 1 + Element.itemsAll rest

end

theorem ElementValue.itemsAll_eq_itemsOf (values : List ElementValue) :
    itemsAll values = itemsOf items values :=
  eq_itemsOf rfl (fun _ _ => rfl) values

theorem Element.itemsAll_eq_itemsOf (elements : List Element) :
    itemsAll elements = itemsOf items elements :=
  eq_itemsOf rfl (fun _ _ => rfl) elements

/-- The number of items in a target. -/
def Target.items : Target → Nat
  | localVariable ranges => ranges.length
  | _ => 0

/-- The number of items in a type annotation.  The annotation itself is one. -/
def TypeAnnotationUse.items (typeUse : TypeAnnotationUse) : Nat :=
  typeUse.target.items + typeUse.path.length + (typeUse.use.items + 1)

/-! ## Attributes -/

mutual

/-- The number of items in an attribute. -/
def Attribute.items : Attribute → Nat
  | ⟨_, _, payload⟩ => payload.items

/-- The number of items in a list of attributes. -/
def Attribute.itemsAll : List Attribute → Nat
  | [] => 0
  | attr :: rest => attr.items + 1 + Attribute.itemsAll rest

/-- The number of items in a payload. -/
def Payload.items : Payload → Nat
  | .reference _ _ | .marker _ | .enclosingMethod _ _ => 0
  | .references _ indices => indices.length
  | .code body => body.items
  | .stackMapTable frames => itemsOf Frame.items frames
  | .innerClasses classes => classes.length
  | .sourceDebugExtension bytes => bytes.length
  | .lineNumbers lines => lines.length
  | .localVariables _ entries => entries.length
  | .annotations _ uses => itemsOf AnnotationUse.items uses
  | .parameterAnnotations _ parameters => itemsOf (itemsOf AnnotationUse.items) parameters
  | .typeAnnotations _ typeUses => itemsOf TypeAnnotationUse.items typeUses
  | .annotationDefault value => value.items + 1
  | .bootstrapMethods methods => itemsOf BootstrapMethod.items methods
  | .methodParameters parameters => parameters.length
  | .module descriptor => descriptor.items
  | .record components => RecordComponent.itemsAll components
  | .unknown bytes => bytes.length

/-- The number of items in a method body, its instructions counted in bytes. -/
def Code.items : Code → Nat
  | ⟨_, _, instructions, handlers, attributes⟩ =>
      instructions.length + handlers.length + Attribute.itemsAll attributes

/-- The number of items in a record component. -/
def RecordComponent.items : RecordComponent → Nat
  | ⟨_, _, attributes⟩ => Attribute.itemsAll attributes

/-- The number of items in a list of record components. -/
def RecordComponent.itemsAll : List RecordComponent → Nat
  | [] => 0
  | component :: rest => component.items + 1 + RecordComponent.itemsAll rest

end

theorem Attribute.itemsAll_eq_itemsOf (attributes : List Attribute) :
    itemsAll attributes = itemsOf items attributes :=
  eq_itemsOf rfl (fun _ _ => rfl) attributes

theorem RecordComponent.itemsAll_eq_itemsOf (components : List RecordComponent) :
    itemsAll components = itemsOf items components :=
  eq_itemsOf rfl (fun _ _ => rfl) components

/-! ## Class files -/

/-- The number of bytes of the text in a slot, in ordinary UTF-8. -/
def Slot.textBytes : Slot → Nat
  | some (.utf8 text) => text.utf8ByteSize
  | _ => 0

/-- The number of bytes of the texts of a pool. -/
def Pool.textBytes (pool : Pool) : Nat := (pool.slots.toList.map Slot.textBytes).sum

/-- The number of items in a member. -/
def Member.items (member : Member) : Nat := itemsOf Attribute.items member.attributes

/-- The number of items in a class file.  The unusable slots of its pool are items too. -/
def ClassFile.items (file : ClassFile) : Nat :=
  file.pool.slots.size + file.interfaces.length + itemsOf Member.items file.fields +
    itemsOf Member.items file.methods + itemsOf Attribute.items file.attributes

end ClassFormat
