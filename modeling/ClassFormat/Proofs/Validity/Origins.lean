import Mathlib
import ClassFormat.Proofs.Validity.Rules
import ClassFormat.Proofs.Validity.SingleChecks

namespace ClassFormat

/-!
# Where checks come from

Most checks of a class file are plain: they are about an entry, a text or a level, and
they can stand anywhere.  A marker is checked for the attribute that it is, and a
question about the code of a method is asked for one of the method's handlers.

* `Payload.isPlain_checks` says which payloads make plain checks alone.
* `ClassFile.sourced_checks` finds the handler behind a check about code.
-/

namespace Check

/-- The check is about an entry, a text or a level. -/
def IsPlain : Check → Prop
  | usable .. | names .. | namesOrZero .. | debugExtension _ | level _ => True
  | _ => False

/-- The check is about an offset or a range in the code of a method. -/
def IsAboutCode : Check → Prop
  | offset .. | range .. => True
  | _ => False

theorem IsPlain.not_isAboutCode {check : Check} (hPlain : check.IsPlain) :
    ¬check.IsAboutCode := by
  intro hCode
  cases check with
  | offset | range => exact hPlain
  | _ => exact hCode

end Check

open Check

/-! ## Annotations -/

mutual

theorem ElementValue.isPlain_checks (level : Nat) :
    (value : ElementValue) → ∀ check ∈ value.checks level, check.IsPlain
  | .constant _ _ => List.forall_mem_singleton.mpr trivial
  | .enumeration _ _ =>
      List.forall_mem_cons.mpr ⟨trivial, List.forall_mem_singleton.mpr trivial⟩
  | .classLiteral _ => List.forall_mem_singleton.mpr trivial
  | .nested use => List.forall_mem_cons.mpr ⟨trivial, use.isPlain_checks (level + 1)⟩
  | .array values =>
      List.forall_mem_cons.mpr ⟨trivial, ElementValue.isPlain_checksAll (level + 1) values⟩

theorem ElementValue.isPlain_checksAll (level : Nat) :
    (values : List ElementValue) →
      ∀ check ∈ ElementValue.checksAll level values, check.IsPlain
  | [] => List.forall_mem_nil _
  | value :: rest => List.forall_mem_append.mpr
      ⟨value.isPlain_checks level, ElementValue.isPlain_checksAll level rest⟩

/-- The checks of an annotation are about entries that must be there and levels. -/
theorem AnnotationUse.isPlain_checks (level : Nat) :
    (use : AnnotationUse) → ∀ check ∈ use.checks level, check.IsPlain
  | ⟨_, elements⟩ =>
      List.forall_mem_cons.mpr ⟨trivial, Element.isPlain_checksAll level elements⟩

theorem Element.isPlain_checks (level : Nat) :
    (element : Element) → ∀ check ∈ element.checks level, check.IsPlain
  | ⟨_, value⟩ => List.forall_mem_cons.mpr ⟨trivial, value.isPlain_checks level⟩

theorem Element.isPlain_checksAll (level : Nat) :
    (elements : List Element) →
      ∀ check ∈ Element.checksAll level elements, check.IsPlain
  | [] => List.forall_mem_nil _
  | element :: rest => List.forall_mem_append.mpr
      ⟨element.isPlain_checks level, Element.isPlain_checksAll level rest⟩

end

/-! ## Payloads -/

theorem Frame.isPlain_checks (frame : Frame) : ∀ check ∈ frame.checks, check.IsPlain := by
  refine List.forall_mem_flatMap.mpr fun type _ => ?_
  cases type with
  | object index => exact List.forall_mem_singleton.mpr trivial
  | _ => exact List.forall_mem_nil _

/-- The payload is no marker, and there are no attributes inside it. -/
def Payload.IsPlain : Payload → Prop
  | marker _ | code _ | record _ => False
  | _ => True

/-- All checks of such a payload are plain. -/
theorem Payload.isPlain_checks (level : Nat) (name : UInt16) (length : UInt32)
    {payload : Payload} (hPayload : payload.IsPlain) :
    ∀ check ∈ payload.checks level name length, check.IsPlain := by
  cases payload with
  | marker | code | record => exact hPayload.elim
  | stackMapTable frames =>
      exact List.forall_mem_flatMap.mpr fun frame _ => frame.isPlain_checks
  | annotations visibility uses =>
      exact List.forall_mem_flatMap.mpr fun use _ => use.isPlain_checks level
  | parameterAnnotations visibility parameters =>
      exact List.forall_mem_flatMap.mpr fun uses _ =>
        List.forall_mem_flatMap.mpr fun use _ => use.isPlain_checks level
  | typeAnnotations visibility typeUses =>
      exact List.forall_mem_flatMap.mpr fun typeUse _ => typeUse.use.isPlain_checks level
  | annotationDefault value => exact value.isPlain_checks level
  | _ =>
      simp only [Payload.checks, InnerClass.checks, LocalVariable.checks,
        BootstrapMethod.checks, ModuleDescriptor.checks, Requirement.checks,
        PackageGrant.checks, Provision.checks, List.forall_mem_flatMap,
        List.forall_mem_append, List.forall_mem_cons, List.forall_mem_map,
        List.not_mem_nil, false_implies, Check.IsPlain, implies_true, and_self]

/-! ## Attributes -/

/-- The check stands for a handler of the method body that the attribute holds. -/
def Attribute.ChecksHandler (attr : Attribute) (check : Check) : Prop :=
  ∃ body, attr.payload = .code body ∧
    ∃ handler ∈ body.handlers, check ∈ handler.checks body.instructions.length

namespace Check

/-- Every check about code stands for a handler in one of the attributes. -/
def Sourced (attributes : List Attribute) (checks : List Check) : Prop :=
  ∀ check ∈ checks, check.IsAboutCode → ∃ attr ∈ attributes, attr.ChecksHandler check

variable {attributes : List Attribute}

theorem Sourced.of_not_aboutCode {checks : List Check}
    (hOther : ∀ check ∈ checks, ¬check.IsAboutCode) : Sourced attributes checks :=
  fun check hCheck hCode => absurd hCode (hOther check hCheck)

theorem Sourced.cons {check : Check} {checks : List Check} (hOther : ¬check.IsAboutCode)
    (hChecks : Sourced attributes checks) : Sourced attributes (check :: checks) :=
  List.forall_mem_cons.mpr ⟨fun hCode => absurd hCode hOther, hChecks⟩

/-- More attributes are more places to come from. -/
theorem Sourced.mono {more : List Attribute} {checks : List Check}
    (hChecks : Sourced attributes checks) (hMore : attributes ⊆ more) :
    Sourced more checks := by
  intro check hCheck hCode
  obtain ⟨attr, hAttr, hHandler⟩ := hChecks check hCheck hCode
  exact ⟨attr, hMore hAttr, hHandler⟩

theorem Sourced.append {more : List Attribute} {checks rest : List Check}
    (hChecks : Sourced attributes checks) (hRest : Sourced more rest) :
    Sourced (attributes ++ more) (checks ++ rest) :=
  List.forall_mem_append.mpr ⟨hChecks.mono (List.subset_append_left ..),
    hRest.mono (List.subset_append_right ..)⟩

theorem Sourced.flatMap {α : Type} {inside : α → List Attribute} {checks : α → List Check}
    (hItem : ∀ item, Sourced (inside item) (checks item)) (items : List α) :
    Sourced (items.flatMap inside) (items.flatMap checks) := by
  induction items with
  | nil => exact fun check hCheck => absurd hCheck List.not_mem_nil
  | cons item rest ih => exact (hItem item).append ih

end Check

mutual

theorem Attribute.sourced_checks (level : Nat) :
    (attr : Attribute) → Sourced attr.within (attr.checks level)
  | ⟨name, length, payload⟩ =>
      (payload.sourced_checks level name length).cons id

theorem Attribute.sourced_checksAll (level : Nat) :
    (attributes : List Attribute) →
      Sourced (Attribute.withinAll attributes) (Attribute.checksAll level attributes)
  | [] => fun _ hCheck => absurd hCheck List.not_mem_nil
  | attr :: rest =>
      (attr.sourced_checks level).append (Attribute.sourced_checksAll level rest)

/-- The handlers of a payload are those of the attribute around it. -/
theorem Payload.sourced_checks (level : Nat) (name : UInt16) (length : UInt32)
    (payload : Payload) :
    Sourced (Attribute.within ⟨name, length, payload⟩)
      (payload.checks level name length) := by
  cases payload with
  | code body => exact body.sourced_checks level name length
  | record components =>
      exact (RecordComponent.sourced_checksAll level components).mono
        (List.subset_cons_self ..)
  | marker kind => exact .of_not_aboutCode (List.forall_mem_singleton.mpr id)
  | _ =>
      refine .of_not_aboutCode fun check hCheck => ?_
      have hPlain := Payload.isPlain_checks level name length (by trivial) check hCheck
      exact hPlain.not_isAboutCode

theorem Code.sourced_checks (level : Nat) (name : UInt16) (length : UInt32) :
    (body : Code) → Sourced (Attribute.within ⟨name, length, .code body⟩) (body.checks level)
  | ⟨_, _, instructions, handlers, attributes⟩ => by
      refine List.forall_mem_append.mpr ⟨fun check hCheck _ => ?_, ?_⟩
      · obtain ⟨handler, hHandler, hCheck⟩ := List.mem_flatMap.mp hCheck
        exact ⟨_, List.mem_cons_self, _, rfl, handler, hHandler, hCheck⟩
      · have hInside := Attribute.sourced_checksAll (level + 1) attributes
        exact (hInside.mono (List.subset_cons_self ..)).cons id

theorem RecordComponent.sourced_checks (level : Nat) :
    (component : RecordComponent) → Sourced component.within (component.checks level)
  | ⟨_, _, attributes⟩ =>
      (((Attribute.sourced_checksAll (level + 1) attributes).cons id).cons id).cons id

theorem RecordComponent.sourced_checksAll (level : Nat) :
    (components : List RecordComponent) →
      Sourced (RecordComponent.withinAll components)
        (RecordComponent.checksAll level components)
  | [] => fun _ hCheck => absurd hCheck List.not_mem_nil
  | component :: rest =>
      (component.sourced_checks level).append
        (RecordComponent.sourced_checksAll level rest)

end

/-! ## Class files -/

/-- Nothing in a pool is about code. -/
theorem Pool.not_isAboutCode_checks (pool : Pool) (major : UInt16) :
    ∀ check ∈ pool.checks major, ¬check.IsAboutCode := by
  have hCalled (kind : ReferenceKind) (reference : UInt16) :
      ∀ check ∈ pool.calledChecks kind reference, ¬check.IsAboutCode := by
    unfold calledChecks
    split
    · split <;> simp [IsAboutCode]
    · exact List.forall_mem_nil _
  refine List.forall_mem_flatMap.mpr fun slot _ => ?_
  rcases slot with _ | entry
  · exact List.forall_mem_nil _
  · cases entry with
    | methodHandle code reference =>
        refine List.forall_mem_cons.mpr ⟨id, ?_⟩
        cases ReferenceKind.ofCode? code with
        | none => exact List.forall_mem_nil _
        | some kind =>
            refine List.forall_mem_cons.mpr ⟨id, ?_⟩
            split
            · exact hCalled kind reference
            · exact List.forall_mem_nil _
    | _ => simp [slotChecks, IsAboutCode]

theorem Member.sourced_checks (member : Member) :
    Sourced (Attribute.withinAll member.attributes) member.checks :=
  ((Attribute.sourced_checksAll 0 member.attributes).cons id).cons id

/-- What is asked about code in a class file is asked for a handler in one of its
attributes. -/
theorem ClassFile.sourced_checks (file : ClassFile) (major : UInt16) :
    Sourced file.attributesWithin (file.checks major) := by
  have hWithin : file.attributesWithin = [] ++ ([] ++
      file.fields.flatMap (fun member => Attribute.withinAll member.attributes) ++
      file.methods.flatMap (fun member => Attribute.withinAll member.attributes) ++
      Attribute.withinAll file.attributes) := by
    simp [attributesWithin, members]
  rw [hWithin]
  have hMembers := Sourced.flatMap Member.sourced_checks
  have hInterfaces : Sourced [] (file.interfaces.map (.names "interface" [.classRef])) :=
    .of_not_aboutCode (List.forall_mem_map.mpr fun index _ => id)
  have hBody := ((hInterfaces.append (hMembers file.fields)).append
    (hMembers file.methods)).append (Attribute.sourced_checksAll 0 file.attributes)
  exact Sourced.append (.of_not_aboutCode (file.pool.not_isAboutCode_checks major))
    ((hBody.cons id).cons id)

end ClassFormat
