import Mathlib
import ClassFormat.Proofs.Validity.FirstFault

namespace ClassFormat

/-!
# The references of a class file

Every field of a class file that holds an index into the pool is listed here, in the
order of the file.  A `Check` is about at most one index, and the checks of a part are
about the references of that part: none is left out, and nothing else is looked up.  The
pool is an exception, because the checks of a method handle follow what it refers to.

* `Attribute.poolIndices_checks` says so of an attribute with everything inside it.
* `ClassFile.namesAny_of_validate` says that in a class file that passes every
  reference but zero names a usable entry.
-/

/-! ## Lists of references -/

/-- The references of an entry.  The number of a bootstrap method is not one. -/
def Entry.poolIndices : Entry → List UInt16
  | .utf8 _ | .integer _ | .float _ | .long _ | .double _ => []
  | .textRef _ text => [text]
  | .memberRef _ owner nameType => [owner, nameType]
  | .nameAndType name descriptor => [name, descriptor]
  | .methodHandle _ reference => [reference]
  | .dynamic _ _ nameType => [nameType]

namespace Pool

/-- The usable entries in order. -/
def entries (pool : Pool) : List Entry := pool.slots.toList.reduceOption

/-- An entry of some kind is an entry. -/
theorem Names.namesAny {pool : Pool} {tags : List Tag} {index : UInt16}
    (hNames : pool.Names tags index) : pool.NamesAny index := by
  obtain ⟨entry, hEntry, -⟩ := hNames
  exact ⟨entry, hEntry⟩

theorem mem_entries_iff {pool : Pool} {entry : Entry} :
    entry ∈ pool.entries ↔ some entry ∈ pool.slots := by
  rw [entries, List.reduceOption_mem_iff, Array.mem_toList_iff]

/-- The references of all entries. -/
def poolIndices (pool : Pool) : List UInt16 := pool.entries.flatMap Entry.poolIndices

end Pool

/-- The reference of a verification type. -/
def VerificationType.reference? : VerificationType → Option UInt16
  | object index => some index
  | _ => none

/-- The references of a frame. -/
def Frame.poolIndices (frame : Frame) : List UInt16 :=
  frame.types.filterMap VerificationType.reference?

/-- The references of an inner class. -/
def InnerClass.poolIndices (innerClass : InnerClass) : List UInt16 :=
  [innerClass.inner, innerClass.outer, innerClass.name]

/-- The references of a local variable. -/
def LocalVariable.poolIndices (entry : LocalVariable) : List UInt16 :=
  [entry.name, entry.type]

/-- The references of a bootstrap method. -/
def BootstrapMethod.poolIndices (method : BootstrapMethod) : List UInt16 :=
  method.handle :: method.arguments

/-- The references of a required module. -/
def Requirement.poolIndices (requirement : Requirement) : List UInt16 :=
  [requirement.module, requirement.version]

/-- The references of an exported or opened package. -/
def PackageGrant.poolIndices (grant : PackageGrant) : List UInt16 :=
  grant.package :: grant.modules

/-- The references of a provided service. -/
def Provision.poolIndices (provision : Provision) : List UInt16 :=
  provision.service :: provision.providers

/-- The references of a module descriptor. -/
def ModuleDescriptor.poolIndices (module : ModuleDescriptor) : List UInt16 :=
  module.name :: module.version ::
    (module.requires.flatMap Requirement.poolIndices ++
      module.exports.flatMap PackageGrant.poolIndices ++
      module.opens.flatMap PackageGrant.poolIndices ++ module.uses ++
      module.provides.flatMap Provision.poolIndices)

mutual

/-- The references of a value. -/
def ElementValue.poolIndices : ElementValue → List UInt16
  | .constant _ index => [index]
  | .enumeration type constant => [type, constant]
  | .classLiteral descriptor => [descriptor]
  | .nested use => use.poolIndices
  | .array values => ElementValue.poolIndicesAll values

/-- The references of some values. -/
def ElementValue.poolIndicesAll : List ElementValue → List UInt16
  | [] => []
  | value :: rest => value.poolIndices ++ ElementValue.poolIndicesAll rest

/-- The references of an annotation. -/
def AnnotationUse.poolIndices : AnnotationUse → List UInt16
  | ⟨type, elements⟩ => type :: Element.poolIndicesAll elements

/-- The references of a named element. -/
def Element.poolIndices : Element → List UInt16
  | ⟨name, value⟩ => name :: value.poolIndices

/-- The references of some elements. -/
def Element.poolIndicesAll : List Element → List UInt16
  | [] => []
  | element :: rest => element.poolIndices ++ Element.poolIndicesAll rest

end

mutual

/-- The references of an attribute and of everything inside it. -/
def Attribute.poolIndices : Attribute → List UInt16
  | ⟨name, _, payload⟩ => name :: payload.poolIndices

/-- The references of some attributes. -/
def Attribute.poolIndicesAll : List Attribute → List UInt16
  | [] => []
  | attr :: rest => attr.poolIndices ++ Attribute.poolIndicesAll rest

/-- The references of a payload. -/
def Payload.poolIndices : Payload → List UInt16
  | .reference _ index => [index]
  | .references _ indices => indices
  | .code body => body.poolIndices
  | .stackMapTable frames => frames.flatMap Frame.poolIndices
  | .innerClasses classes => classes.flatMap InnerClass.poolIndices
  | .enclosingMethod owner method => [owner, method]
  | .localVariables _ entries => entries.flatMap LocalVariable.poolIndices
  | .annotations _ uses => uses.flatMap AnnotationUse.poolIndices
  | .parameterAnnotations _ parameters =>
      parameters.flatMap fun uses => uses.flatMap AnnotationUse.poolIndices
  | .typeAnnotations _ typeUses => typeUses.flatMap fun typeUse => typeUse.use.poolIndices
  | .annotationDefault value => value.poolIndices
  | .bootstrapMethods methods => methods.flatMap BootstrapMethod.poolIndices
  | .methodParameters parameters => parameters.map MethodParameter.name
  | .module descriptor => descriptor.poolIndices
  | .record components => RecordComponent.poolIndicesAll components
  | .marker _ | .sourceDebugExtension _ | .lineNumbers _ | .unknown _ => []

/-- The references of a method body: what its handlers catch, and its attributes. -/
def Code.poolIndices : Code → List UInt16
  | ⟨_, _, _, handlers, attributes⟩ =>
      handlers.map ExceptionHandler.catchType ++ Attribute.poolIndicesAll attributes

/-- The references of a record component. -/
def RecordComponent.poolIndices : RecordComponent → List UInt16
  | ⟨name, descriptor, attributes⟩ =>
      name :: descriptor :: Attribute.poolIndicesAll attributes

/-- The references of some record components. -/
def RecordComponent.poolIndicesAll : List RecordComponent → List UInt16
  | [] => []
  | component :: rest => component.poolIndices ++ RecordComponent.poolIndicesAll rest

end

/-- The references of a field or a method. -/
def Member.poolIndices (member : Member) : List UInt16 :=
  member.name :: member.descriptor :: Attribute.poolIndicesAll member.attributes

/-- The references of a class file behind its pool. -/
def ClassFile.bodyIndices (file : ClassFile) : List UInt16 :=
  file.thisClass :: file.superClass :: (file.interfaces ++
    file.fields.flatMap Member.poolIndices ++ file.methods.flatMap Member.poolIndices ++
    Attribute.poolIndicesAll file.attributes)

/-- All references of a class file. -/
def ClassFile.poolIndices (file : ClassFile) : List UInt16 :=
  file.pool.poolIndices ++ file.bodyIndices

/-! ## The indices that are checked -/

namespace Check

/-- The index that a check looks up. -/
def poolIndex? : Check → Option UInt16
  | usable _ index | names _ _ index | namesOrZero _ _ index => some index
  | _ => none

/-- The indices that some checks look up. -/
def poolIndices (checks : List Check) : List UInt16 := checks.filterMap poolIndex?

@[simp] theorem poolIndices_nil : poolIndices [] = [] := rfl

@[simp] theorem poolIndices_cons (check : Check) (rest : List Check) :
    poolIndices (check :: rest) = check.poolIndex?.toList ++ poolIndices rest := by
  unfold poolIndices
  rw [List.filterMap_cons]
  cases check.poolIndex? <;> rfl

@[simp] theorem poolIndices_append (checks rest : List Check) :
    poolIndices (checks ++ rest) = poolIndices checks ++ poolIndices rest :=
  List.filterMap_append

theorem poolIndices_flatMap {α : Type} {checks : α → List Check}
    {indices : α → List UInt16}
    (hItem : ∀ item, poolIndices (checks item) = indices item) (items : List α) :
    poolIndices (items.flatMap checks) = items.flatMap indices := by
  unfold poolIndices at hItem ⊢
  rw [List.filterMap_flatMap]
  simp only [hItem]

theorem poolIndices_map {α : Type} {check : α → Check} {index : α → UInt16}
    (hItem : ∀ item, (check item).poolIndex? = some (index item)) (items : List α) :
    poolIndices (items.map check) = items.map index := by
  induction items with
  | nil => rfl
  | cons item rest ih => simp [hItem, ih]

/-- The checks of a list of indices are about those indices. -/
theorem poolIndices_map_id {check : UInt16 → Check}
    (hItem : ∀ index, (check index).poolIndex? = some index) (indices : List UInt16) :
    poolIndices (indices.map check) = indices := by
  rw [poolIndices_map hItem, List.map_id']

/-- An index that is looked up by a check that passes is zero or names an entry. -/
theorem namesAny_of_passes {pool : Pool} {check : Check} {index : UInt16}
    (hIndex : check.poolIndex? = some index) (hPasses : check.fault? pool = none) :
    index = 0 ∨ pool.NamesAny index := by
  have hVerdict : verdict pool [check] = .ok () :=
    verdict_eq_ok_iff.mpr (List.forall_mem_singleton.mpr hPasses)
  cases check with
  | usable context checked =>
      obtain rfl : checked = index := Option.some.inj hIndex
      rw [← Pool.checkUsable_eq_verdict, Pool.checkUsable_eq_ok_iff] at hVerdict
      exact .inr hVerdict
  | names context expected checked =>
      obtain rfl : checked = index := Option.some.inj hIndex
      rw [← Pool.check_eq_verdict, Pool.check_eq_ok_iff] at hVerdict
      exact .inr hVerdict.namesAny
  | namesOrZero context expected checked =>
      obtain rfl : checked = index := Option.some.inj hIndex
      rw [← Pool.checkOptional_eq_verdict, Pool.checkOptional_eq_ok_iff] at hVerdict
      rcases hVerdict with hZero | hNames
      · exact .inl hZero
      · exact .inr hNames.namesAny
  | _ => cases hIndex

end Check

open Check

/-! ## Parts of payloads -/

theorem Frame.poolIndices_checks (frame : Frame) :
    Check.poolIndices frame.checks = frame.poolIndices := by
  rw [checks, poolIndices, List.filterMap_eq_flatMap_toList]
  refine poolIndices_flatMap (fun type => ?_) frame.types
  cases type <;> rfl

theorem ExceptionHandler.poolIndices_checks (codeLength : Nat)
    (handlers : List ExceptionHandler) :
    Check.poolIndices (handlers.flatMap (ExceptionHandler.checks codeLength)) =
      handlers.map ExceptionHandler.catchType := by
  rw [List.map_eq_flatMap]
  exact poolIndices_flatMap (fun handler => rfl) handlers

theorem InnerClass.poolIndices_checks (innerClass : InnerClass) :
    Check.poolIndices innerClass.checks = innerClass.poolIndices := rfl

theorem LocalVariable.poolIndices_checks (table : VariableTable) (entry : LocalVariable) :
    Check.poolIndices (entry.checks table) = entry.poolIndices := rfl

theorem BootstrapMethod.poolIndices_checks (method : BootstrapMethod) :
    Check.poolIndices method.checks = method.poolIndices := by
  rw [checks, poolIndices_cons, poolIndices_map_id fun _ => rfl]
  rfl

theorem Requirement.poolIndices_checks (requirement : Requirement) :
    Check.poolIndices requirement.checks = requirement.poolIndices := rfl

theorem PackageGrant.poolIndices_checks (packageContext moduleContext : String)
    (grant : PackageGrant) :
    Check.poolIndices (grant.checks packageContext moduleContext) = grant.poolIndices := by
  rw [checks, poolIndices_cons, poolIndices_map_id fun _ => rfl]
  rfl

theorem Provision.poolIndices_checks (provision : Provision) :
    Check.poolIndices provision.checks = provision.poolIndices := by
  rw [checks, poolIndices_cons, poolIndices_map_id fun _ => rfl]
  rfl

theorem ModuleDescriptor.poolIndices_checks (module : ModuleDescriptor) :
    Check.poolIndices module.checks = module.poolIndices := by
  have hGrants (packageContext moduleContext : String) :=
    poolIndices_flatMap (PackageGrant.poolIndices_checks packageContext moduleContext)
  have hUses : Check.poolIndices (module.uses.map (.names "uses" [.classRef])) =
      module.uses := poolIndices_map_id (fun _ => rfl) module.uses
  rw [checks, poolIndices_cons, poolIndices_cons]
  simp only [poolIndices_append, hGrants, hUses,
    poolIndices_flatMap Requirement.poolIndices_checks,
    poolIndices_flatMap Provision.poolIndices_checks]
  rfl

/-! ## Annotations -/

mutual

theorem ElementValue.poolIndices_checks (level : Nat) :
    (value : ElementValue) → Check.poolIndices (value.checks level) = value.poolIndices
  | .constant _ _ | .enumeration _ _ | .classLiteral _ => rfl
  | .nested use => use.poolIndices_checks (level + 1)
  | .array values => ElementValue.poolIndices_checksAll (level + 1) values

theorem ElementValue.poolIndices_checksAll (level : Nat) :
    (values : List ElementValue) →
      Check.poolIndices (ElementValue.checksAll level values) =
        ElementValue.poolIndicesAll values
  | [] => rfl
  | value :: rest => by
      rw [ElementValue.checksAll, ElementValue.poolIndicesAll, poolIndices_append,
        value.poolIndices_checks, ElementValue.poolIndices_checksAll]

theorem AnnotationUse.poolIndices_checks (level : Nat) :
    (use : AnnotationUse) → Check.poolIndices (use.checks level) = use.poolIndices
  | ⟨type, elements⟩ => by
      rw [AnnotationUse.checks, AnnotationUse.poolIndices, poolIndices_cons,
        Element.poolIndices_checksAll]
      rfl

theorem Element.poolIndices_checks (level : Nat) :
    (element : Element) → Check.poolIndices (element.checks level) = element.poolIndices
  | ⟨name, value⟩ => by
      rw [Element.checks, Element.poolIndices, poolIndices_cons, value.poolIndices_checks]
      rfl

theorem Element.poolIndices_checksAll (level : Nat) :
    (elements : List Element) →
      Check.poolIndices (Element.checksAll level elements) = Element.poolIndicesAll elements
  | [] => rfl
  | element :: rest => by
      rw [Element.checksAll, Element.poolIndicesAll, poolIndices_append,
        element.poolIndices_checks, Element.poolIndices_checksAll]

end

/-! ## Attributes -/

mutual

/-- The checks of an attribute are about its references, at every level. -/
theorem Attribute.poolIndices_checks (level : Nat) :
    (attr : Attribute) → Check.poolIndices (attr.checks level) = attr.poolIndices
  | ⟨name, length, payload⟩ => by
      rw [Attribute.checks, Attribute.poolIndices, poolIndices_cons,
        payload.poolIndices_checks]
      rfl

theorem Attribute.poolIndices_checksAll (level : Nat) :
    (attributes : List Attribute) →
      Check.poolIndices (Attribute.checksAll level attributes) =
        Attribute.poolIndicesAll attributes
  | [] => rfl
  | attr :: rest => by
      rw [Attribute.checksAll, Attribute.poolIndicesAll, poolIndices_append,
        attr.poolIndices_checks, Attribute.poolIndices_checksAll]

theorem Payload.poolIndices_checks (level : Nat) (name : UInt16) (length : UInt32)
    (payload : Payload) :
    Check.poolIndices (payload.checks level name length) = payload.poolIndices := by
  cases payload with
  | references role indices => exact poolIndices_map_id (fun _ => rfl) indices
  | code body => exact body.poolIndices_checks level
  | stackMapTable frames => exact poolIndices_flatMap Frame.poolIndices_checks frames
  | innerClasses classes =>
      exact poolIndices_flatMap InnerClass.poolIndices_checks classes
  | localVariables table entries =>
      exact poolIndices_flatMap (LocalVariable.poolIndices_checks table) entries
  | annotations visibility uses =>
      exact poolIndices_flatMap (AnnotationUse.poolIndices_checks level) uses
  | parameterAnnotations visibility parameters =>
      exact poolIndices_flatMap
        (poolIndices_flatMap (AnnotationUse.poolIndices_checks level)) parameters
  | typeAnnotations visibility typeUses =>
      exact poolIndices_flatMap
        (fun typeUse => typeUse.use.poolIndices_checks level) typeUses
  | annotationDefault value => exact value.poolIndices_checks level
  | bootstrapMethods methods =>
      exact poolIndices_flatMap BootstrapMethod.poolIndices_checks methods
  | methodParameters parameters => exact poolIndices_map (fun _ => rfl) parameters
  | module descriptor => exact descriptor.poolIndices_checks
  | record components => exact RecordComponent.poolIndices_checksAll level components
  | _ => rfl

theorem Code.poolIndices_checks (level : Nat) :
    (code : Code) → Check.poolIndices (code.checks level) = code.poolIndices
  | ⟨_, _, instructions, handlers, attributes⟩ => by
      rw [Code.checks, Code.poolIndices, poolIndices_append, poolIndices_cons,
        ExceptionHandler.poolIndices_checks, Attribute.poolIndices_checksAll]
      rfl

theorem RecordComponent.poolIndices_checks (level : Nat) :
    (component : RecordComponent) →
      Check.poolIndices (component.checks level) = component.poolIndices
  | ⟨name, descriptor, attributes⟩ => by
      rw [RecordComponent.checks, RecordComponent.poolIndices, poolIndices_cons,
        poolIndices_cons, poolIndices_cons, Attribute.poolIndices_checksAll]
      rfl

theorem RecordComponent.poolIndices_checksAll (level : Nat) :
    (components : List RecordComponent) →
      Check.poolIndices (RecordComponent.checksAll level components) =
        RecordComponent.poolIndicesAll components
  | [] => rfl
  | component :: rest => by
      rw [RecordComponent.checksAll, RecordComponent.poolIndicesAll, poolIndices_append,
        component.poolIndices_checks, RecordComponent.poolIndices_checksAll]

end

/-! ## Class files -/

theorem Member.poolIndices_checks (member : Member) :
    Check.poolIndices member.checks = member.poolIndices := by
  rw [Member.checks, Member.poolIndices, poolIndices_cons, poolIndices_cons,
    Attribute.poolIndices_checksAll]
  rfl

namespace ClassFile

theorem poolIndices_bodyChecks (file : ClassFile) :
    Check.poolIndices file.bodyChecks = file.bodyIndices := by
  have hInterfaces : Check.poolIndices
      (file.interfaces.map (.names "interface" [.classRef])) = file.interfaces :=
    poolIndices_map_id (fun _ => rfl) file.interfaces
  rw [bodyChecks, bodyIndices, poolIndices_cons, poolIndices_cons]
  simp only [poolIndices_append, hInterfaces,
    poolIndices_flatMap Member.poolIndices_checks, Attribute.poolIndices_checksAll]
  rfl

end ClassFile

/-- In a linked pool the references of every entry name usable entries. -/
theorem Entry.namesAny_of_isLinked {pool : Pool} {major : UInt16} {entry : Entry}
    (hLinked : entry.IsLinked pool major) :
    ∀ index ∈ entry.poolIndices, pool.NamesAny index := by
  cases entry with
  | textRef kind text =>
      have hText : pool.Names [.utf8] text := hLinked
      exact List.forall_mem_singleton.mpr hText.namesAny
  | memberRef kind owner nameType =>
      have hMember : pool.Names [.classRef] owner ∧ pool.Names [.nameAndType] nameType :=
        hLinked
      exact List.forall_mem_cons.mpr ⟨hMember.1.namesAny,
        List.forall_mem_singleton.mpr hMember.2.namesAny⟩
  | nameAndType name descriptor =>
      have hTexts : pool.Names [.utf8] name ∧ pool.Names [.utf8] descriptor := hLinked
      exact List.forall_mem_cons.mpr ⟨hTexts.1.namesAny,
        List.forall_mem_singleton.mpr hTexts.2.namesAny⟩
  | methodHandle code reference =>
      have hHandle : pool.HandleIsLinked major code reference := hLinked
      exact List.forall_mem_singleton.mpr hHandle.target.namesAny
  | dynamic kind bootstrap nameType =>
      have hType : pool.Names [.nameAndType] nameType := hLinked
      exact List.forall_mem_singleton.mpr hType.namesAny
  | _ => exact List.forall_mem_nil _

/-- In a class file that passes, every reference is zero or names a usable entry. -/
theorem ClassFile.namesAny_of_validate {file : ClassFile} {major : UInt16}
    (hPasses : file.validate major = .ok ()) :
    ∀ index ∈ file.poolIndices, index = 0 ∨ file.pool.NamesAny index := by
  rw [validate_eq_bind, Verdict.lookup_eq_ok_iff] at hPasses
  obtain ⟨_, hLinks, hBody⟩ := hPasses
  have hLinked := (file.pool.passes_iff_isLinked major).mp hLinks
  intro index hIndex
  rcases List.mem_append.mp hIndex with hInPool | hInBody
  · obtain ⟨entry, hEntry, hReference⟩ := List.mem_flatMap.mp hInPool
    have hSlot : some entry ∈ file.pool.slots := Pool.mem_entries_iff.mp hEntry
    exact .inr (Entry.namesAny_of_isLinked (hLinked entry hSlot) index hReference)
  · rw [← poolIndices_bodyChecks] at hInBody
    obtain ⟨check, hCheck, hLooked⟩ := List.mem_filterMap.mp hInBody
    exact Check.namesAny_of_passes hLooked (Check.verdict_eq_ok_iff.mp hBody check hCheck)

end ClassFormat
