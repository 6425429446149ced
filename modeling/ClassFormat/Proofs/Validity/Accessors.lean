import Mathlib
import ClassFormat.ClassFile.Description
import ClassFormat.Proofs.Validity.Links

namespace ClassFormat

/-!
# Names in valid class files

The name of a class is two references away: an index names a class entry, and the
class entry names a text.  The checks of a class file look at the first reference,
and the checks of its pool at the second, whatever the entry is used for.  In a
class file that passes, every index that has to name a class therefore leads to a
name.

* `Payload.names_of_classReference` says that obeying the rules covers every place
  where a payload names a class.
* `ClassFile.names_of_validate` says what can be read off a class file that passes.
-/

/-! ## Where classes are named -/

/-- The places where a payload names a class.  A catch type or an outer class of
zero names none. -/
inductive Payload.ClassReference : Payload → UInt16 → Prop where
  | mainClass (index : UInt16) :
      ClassReference (.reference .moduleMainClass index) index
  | nestHost (index : UInt16) : ClassReference (.reference .nestHost index) index
  | thrown {indices : List UInt16} {index : UInt16} (hIndex : index ∈ indices) :
      ClassReference (.references .exceptions indices) index
  | nestMember {indices : List UInt16} {index : UInt16} (hIndex : index ∈ indices) :
      ClassReference (.references .nestMembers indices) index
  | permitted {indices : List UInt16} {index : UInt16} (hIndex : index ∈ indices) :
      ClassReference (.references .permittedSubclasses indices) index
  | caught {body : Code} {handler : ExceptionHandler}
      (hHandler : handler ∈ body.handlers) (hSome : handler.catchType ≠ 0) :
      ClassReference (.code body) handler.catchType
  | object {frames : List Frame} {frame : Frame} {index : UInt16}
      (hFrame : frame ∈ frames) (hType : .object index ∈ frame.types) :
      ClassReference (.stackMapTable frames) index
  | inner {classes : List InnerClass} {innerClass : InnerClass}
      (hClass : innerClass ∈ classes) :
      ClassReference (.innerClasses classes) innerClass.inner
  | outer {classes : List InnerClass} {innerClass : InnerClass}
      (hClass : innerClass ∈ classes) (hSome : innerClass.outer ≠ 0) :
      ClassReference (.innerClasses classes) innerClass.outer
  | enclosing (owner method : UInt16) :
      ClassReference (.enclosingMethod owner method) owner
  | used {module : ModuleDescriptor} {index : UInt16} (hIndex : index ∈ module.uses) :
      ClassReference (.module module) index
  | service {module : ModuleDescriptor} {provision : Provision}
      (hProvision : provision ∈ module.provides) :
      ClassReference (.module module) provision.service
  | provider {module : ModuleDescriptor} {provision : Provision} {index : UInt16}
      (hProvision : provision ∈ module.provides) (hIndex : index ∈ provision.providers) :
      ClassReference (.module module) index

/-- The places where a class file names a class, at every depth. -/
inductive ClassFile.ClassReference (file : ClassFile) : UInt16 → Prop where
  | owner {kind : MemberRefKind} {owner nameAndType : UInt16}
      (hEntry : some (.memberRef kind owner nameAndType) ∈ file.pool.slots) :
      ClassReference file owner
  | thisClass : ClassReference file file.thisClass
  | superClass (hSome : file.superClass ≠ 0) : ClassReference file file.superClass
  | interface {index : UInt16} (hIndex : index ∈ file.interfaces) :
      ClassReference file index
  | inAttribute {attr : Attribute} {index : UInt16} (hAttr : attr ∈ file.attributesWithin)
      (hReference : attr.payload.ClassReference index) : ClassReference file index

/-! ## Lookups -/

namespace Pool

variable {pool : Pool}

/-- An entry that is found is in a slot. -/
theorem mem_slots_of_get? {index : UInt16} {slot : Slot}
    (hFound : pool.get? index = some slot) : slot ∈ pool.slots := by
  unfold get? at hFound
  split at hFound
  · cases hFound
  · exact Array.mem_of_getElem? hFound

/-- An index that is zero or names an entry names one if it is not zero. -/
theorem NamesOrZero.names {tags : List Tag} {index : UInt16}
    (hNames : pool.NamesOrZero tags index) (hSome : index ≠ 0) : pool.Names tags index :=
  hNames.resolve_left hSome

/-- In a linked pool, every index that names a class leads to its name. -/
theorem IsLinked.exists_className {major : UInt16} {index : UInt16}
    (hLinked : pool.IsLinked major) (hNames : pool.Names [.classRef] index)
    (context : String) : ∃ name, pool.className context index = .ok name := by
  obtain ⟨entry, hEntry, hTag⟩ := hNames
  obtain ⟨text, rfl⟩ := Entry.tag_eq_classRef_iff.mp (List.mem_singleton.mp hTag)
  -- The entry itself was checked as part of the pool.
  have hText : pool.Names [.utf8] text := hLinked _ (mem_slots_of_get? hEntry)
  obtain ⟨name, hName⟩ := (@exists_text_eq_ok_iff pool context text).mpr hText
  refine ⟨name, ?_⟩
  rw [className, resolve_eq_ok_iff.mpr hEntry]
  exact hName

end Pool

/-- An object among the types of a frame that obeys its rule belongs to a class. -/
theorem Frame.Obeys.object {pool : Pool} {frame : Frame} {index : UInt16}
    (hObeys : frame.Obeys pool) (hType : .object index ∈ frame.types) :
    pool.Names [.classRef] index := by
  have hTypes := Frame.check_eq_ok_iff.mpr hObeys
  rw [Frame.check, Verdict.each_eq_ok_iff] at hTypes
  exact VerificationType.check_eq_ok_iff.mp (hTypes _ hType)

/-- Every place where a payload names a class is under its rule. -/
theorem Payload.names_of_classReference {pool : Pool} {length : UInt32}
    {payload : Payload} {index : UInt16} (hObeys : payload.Obeys pool length)
    (hReference : payload.ClassReference index) : pool.Names [.classRef] index := by
  cases hReference with
  | mainClass | nestHost => exact hObeys
  | thrown hIndex | nestMember hIndex | permitted hIndex => exact hObeys _ hIndex
  | caught hHandler hSome => exact (hObeys _ hHandler).catchType.names hSome
  | object hFrame hType => exact (hObeys _ hFrame).object hType
  | inner hClass => exact (hObeys _ hClass).inner
  | outer hClass hSome => exact (hObeys _ hClass).outer.names hSome
  | enclosing owner method => exact hObeys.1
  | used hIndex => exact ModuleDescriptor.Obeys.uses hObeys _ hIndex
  | service hProvision => exact (ModuleDescriptor.Obeys.provides hObeys _ hProvision).service
  | provider hProvision hIndex =>
      exact (ModuleDescriptor.Obeys.provides hObeys _ hProvision).providers _ hIndex

/-! ## Declarations -/

/-- A lookup and a step that goes on with what is found fail when one of them
does. -/
theorem Verdict.lookup_eq_error_iff {α β : Type} {lookup : Except Fault α}
    {next : α → Except Fault β} {fault : Fault} :
    (lookup >>= next) = .error fault ↔
      lookup = .error fault ∨ ∃ a, lookup = .ok a ∧ next a = .error fault := by
  cases lookup <;> simp [bind, Except.bind]

namespace Descriptor

theorem eq_malformed_of_typesOf_eq_error {run : List Char} {fault : Fault}
    (hFault : typesOf run = .error fault) :
    fault = .malformedDescriptor (String.ofList run) := by
  unfold typesOf at hFault
  split at hFault
  · cases hFault
  · exact (Except.error.inj hFault).symm

/-- Nothing but its descriptor can be wrong with a declaration. -/
theorem exists_malformed_of_declaration_eq_error {name descriptor : String}
    {fault : Fault} (hFault : declaration name descriptor = .error fault) :
    ∃ text, fault = .malformedDescriptor text := by
  unfold declaration at hFault
  split at hFault
  · split at hFault
    · exact ⟨_, (Except.error.inj hFault).symm⟩
    · simp only [Verdict.lookup_eq_error_iff] at hFault
      obtain hResult | ⟨_, -, hParameters | ⟨_, -, hDone⟩⟩ := hFault
      · exact ⟨_, eq_malformed_of_typesOf_eq_error hResult⟩
      · exact ⟨_, eq_malformed_of_typesOf_eq_error hParameters⟩
      · cases hDone
  · simp only [Verdict.lookup_eq_error_iff] at hFault
    obtain hTypes | ⟨_, -, hDone⟩ := hFault
    · exact ⟨_, eq_malformed_of_typesOf_eq_error hTypes⟩
    · cases hDone

end Descriptor

/-- A member whose name and descriptor are texts can only fail to be declared
because its descriptor is malformed. -/
theorem Member.exists_malformed_of_describe_eq_error {pool : Pool} {member : Member}
    {fault : Fault} (hName : pool.Names [.utf8] member.name)
    (hDescriptor : pool.Names [.utf8] member.descriptor)
    (hFault : member.describe pool = .error fault) :
    ∃ text, fault = .malformedDescriptor text := by
  obtain ⟨name, hNameIn⟩ := Pool.exists_text_eq_ok_iff.mpr hName
  obtain ⟨descriptor, hDescriptorIn⟩ := Pool.exists_text_eq_ok_iff.mpr hDescriptor
  simp only [describe, nameIn, descriptorIn, Verdict.lookup_eq_error_iff] at hFault
  obtain hText | ⟨_, -, hText | ⟨_, -, hDeclaration | ⟨_, -, hDone⟩⟩⟩ := hFault
  · rw [hNameIn] at hText
    cases hText
  · rw [hDescriptorIn] at hText
    cases hText
  · exact Descriptor.exists_malformed_of_declaration_eq_error hDeclaration
  · split at hDone <;> cases hDone

/-! ## Class files -/

/-- A list of lookups succeeds when each of them does. -/
theorem exists_mapM_eq_ok {α β : Type} {lookup : α → Except Fault β} {items : List α}
    (hItems : ∀ item ∈ items, ∃ b, lookup item = .ok b) :
    ∃ found, items.mapM lookup = .ok found := by
  induction items with
  | nil => exact ⟨[], rfl⟩
  | cons item rest ih =>
      obtain ⟨⟨b, hItem⟩, hRest⟩ := List.forall_mem_cons.mp hItems
      obtain ⟨found, hFound⟩ := ih hRest
      refine ⟨b :: found, ?_⟩
      rw [List.mapM_cons, hItem, hFound]
      rfl

namespace ClassFile

variable {file : ClassFile} {major : UInt16}

/-- In a valid class file, whatever names a class names a class entry. -/
theorem IsValid.names_of_classReference (hValid : file.IsValid major) {index : UInt16}
    (hReference : file.ClassReference index) : file.pool.Names [.classRef] index := by
  cases hReference with
  | owner hEntry =>
      have hLinked := (file.pool.passes_iff_isLinked major).mp hValid.links
      exact (hLinked _ hEntry).1
  | thisClass => exact hValid.thisClass
  | superClass hSome => exact hValid.superClass.names hSome
  | interface hIndex => exact hValid.interfaces _ hIndex
  | inAttribute hAttr hReference =>
      exact Payload.names_of_classReference (hValid.attributes _ hAttr).payload hReference

/-- In a class file that passes, everything that names a class leads to a name.  The
name, the superclass, the interfaces and the header of the class can be read, and so
can the names and descriptors of its members; a member can only fail to be declared
because its descriptor is malformed. -/
theorem names_of_validate (file : ClassFile) (major : UInt16)
    (hPasses : file.validate major = .ok ()) :
    (∀ index, file.ClassReference index → ∀ context,
      ∃ name, file.pool.className context index = .ok name) ∧
    (∃ name, file.className = .ok name) ∧
    (∃ superClass, file.superClassName = .ok superClass ∧
      (superClass = none ↔ file.superClass = 0)) ∧
    (∃ names, file.interfaceNames = .ok names) ∧
    (∃ header, file.describe = .ok header) ∧
    ∀ member ∈ file.members,
      (∃ name, member.nameIn file.pool = .ok name) ∧
      (∃ descriptor, member.descriptorIn file.pool = .ok descriptor) ∧
      ∀ fault, member.describe file.pool = .error fault →
        ∃ text, fault = .malformedDescriptor text := by
  have hValid := isValid_of_validate hPasses
  have hLinked := (file.pool.passes_iff_isLinked major).mp hValid.links
  have hNames : ∀ index, file.ClassReference index → ∀ context,
      ∃ name, file.pool.className context index = .ok name := fun index hReference =>
    hLinked.exists_className (hValid.names_of_classReference hReference)
  have hClass : ∃ name, file.className = .ok name := hNames _ .thisClass _
  have hSuper : ∃ superClass, file.superClassName = .ok superClass ∧
      (superClass = none ↔ file.superClass = 0) := by
    unfold superClassName
    by_cases hNone : file.superClass = 0
    · exact ⟨none, if_pos hNone, by simp [hNone]⟩
    · obtain ⟨name, hName⟩ := hNames _ (.superClass hNone) "super class"
      exact ⟨some name, by rw [if_neg hNone, hName]; rfl, by simp [hNone]⟩
  have hInterfaces : ∃ names, file.interfaceNames = .ok names :=
    exists_mapM_eq_ok fun index hIndex => hNames _ (.interface hIndex) _
  refine ⟨hNames, hClass, hSuper, hInterfaces, ?_, fun member hMember => ?_⟩
  · obtain ⟨name, hName⟩ := hClass
    obtain ⟨superClass, hSuperName, -⟩ := hSuper
    obtain ⟨interfaces, hInterfaceNames⟩ := hInterfaces
    rw [describe, hName, hSuperName, hInterfaceNames]
    exact ⟨_, rfl⟩
  · obtain ⟨hName, hDescriptor⟩ := hValid.members member hMember
    exact ⟨Pool.exists_text_eq_ok_iff.mpr hName, Pool.exists_text_eq_ok_iff.mpr hDescriptor,
      fun fault => Member.exists_malformed_of_describe_eq_error hName hDescriptor⟩

/-- A method body with a handler for one class and one for everything. -/
def workerBody : Code where
  maxStack := 1
  maxLocals := 1
  instructions := [0xb1]
  handlers := [⟨0, 1, 0, 8⟩, ⟨0, 1, 0, 0⟩]
  attributes := []

/-- A class with a superclass and an interface, and with a field whose descriptor is
malformed. -/
def workerClass : ClassFile where
  minor := 0
  major := 52
  pool := ⟨#[some (.utf8 "a/Worker"), some (.textRef .classRef 1),
    some (.utf8 "java/lang/Thread"), some (.textRef .classRef 3),
    some (.utf8 "java/lang/Runnable"), some (.textRef .classRef 5),
    some (.utf8 "java/lang/Error"), some (.textRef .classRef 7),
    some (.utf8 "run"), some (.utf8 "()V"), some (.utf8 "Code"), some (.utf8 "Q")]⟩
  flags := ⟨0x21⟩
  thisClass := 2
  superClass := 4
  interfaces := [6]
  fields := [⟨.field, ⟨2⟩, 9, 12, []⟩]
  methods := [⟨.method, ⟨1⟩, 9, 10, [⟨11, 29, .code workerBody⟩]⟩]
  attributes := []

/-- The class that the handler catches has a name, and so have the interfaces.  The
field has a name too, but it cannot be declared. -/
theorem names_workerClass : workerClass.validate 52 = .ok () ∧
    (∃ name, workerClass.pool.className "exception catch type" 8 = .ok name) ∧
    (∃ superClass, workerClass.superClassName = .ok superClass ∧
      (superClass = none ↔ workerClass.superClass = 0)) ∧
    (∃ names, workerClass.interfaceNames = .ok names) ∧
    ∀ member ∈ workerClass.fields,
      (∃ name, member.nameIn workerClass.pool = .ok name) ∧
      member.describe workerClass.pool = .error (.malformedDescriptor "Q") := by
  have hPasses : workerClass.validate 52 = .ok () := by decide
  obtain ⟨hNames, -, hSuper, hInterfaces, -, hMembers⟩ :=
    names_of_validate workerClass 52 hPasses
  have hAttr : ⟨11, 29, .code workerBody⟩ ∈ workerClass.attributesWithin :=
    List.mem_singleton_self _
  have hCaught : (Payload.code workerBody).ClassReference 8 :=
    @Payload.ClassReference.caught workerBody ⟨0, 1, 0, 8⟩ List.mem_cons_self (by decide)
  refine ⟨hPasses, hNames 8 (.inAttribute hAttr hCaught) _, hSuper, hInterfaces, ?_⟩
  intro member hField
  refine ⟨(hMembers member (List.mem_append_left _ hField)).1, ?_⟩
  obtain rfl := List.mem_singleton.mp hField
  rfl

end ClassFile

end ClassFormat
