import Mathlib
import ClassFormat.Proofs.Validity.Verdicts
import ClassFormat.Validator

namespace ClassFormat

/-!
# The first fault

At a level, a walk follows a list of checks when it stops at the first of them that
fails, with the fault of that check, and passes when none fails.  It ends where it
starts in any case.  Walks that follow lists are put together as the lists are.

* `ClassFile.check_follows` says that the check of a class file follows its list.
* `ClassFile.validate_eq_firstFault` says which fault is reported.
-/

/-! ## Walks that follow lists -/

namespace Walk

variable {pool : Pool} {level : Nat}

/-- From the level, the walk finds what the checks find, and it comes back there. -/
def Follows (pool : Pool) (level : Nat) (walk : Walk Unit) (checks : List Check) :
    Prop :=
  walk.runAt level = (Check.verdict pool checks, level)

theorem Follows.pure : Follows pool level (pure ()) [] := rfl

/-- A check that does not walk is followed at all levels. -/
theorem Follows.check {check : Verdict} {checks : List Check}
    (hCheck : check = Check.verdict pool checks) :
    Follows pool level (liftM check) checks := by
  rw [Follows, runAt_liftM, hCheck]

/-- Walks one after the other follow the lists one after the other. -/
theorem Follows.andThen {walk next : Walk Unit} {checks rest : List Check}
    (hWalk : Follows pool level walk checks) (hNext : Follows pool level next rest) :
    Follows pool level (walk >>= fun _ => next) (checks ++ rest) := by
  rw [Follows, runAt_bind, hWalk, Check.verdict_append]
  cases Check.verdict pool checks with
  | error fault => rfl
  | ok _ => exact hNext

/-- A text is looked up, and the walk goes on with what is found. -/
theorem Follows.text {context : String} {index : UInt16} {next : String → Walk Unit}
    {rest : List Check}
    (hNext : ∀ content, pool.get? index = some (some (.utf8 content)) →
      Follows pool level (next content) rest) :
    Follows pool level (liftM (pool.text context index) >>= next)
      (.names context [.utf8] index :: rest) := by
  rw [Follows, runAt_bind, runAt_liftM, Check.verdict_cons, ← Pool.text_eq_verdict]
  cases hFound : pool.text context index with
  | error fault => rfl
  | ok content => exact hNext content (Pool.text_eq_ok_iff.mp hFound)

/-- Entering a level is a check of its own, and the walk inside starts there. -/
theorem Follows.nested {walk : Walk Unit} {checks : List Check}
    (hWalk : Follows pool (level + 1) walk checks) :
    Follows pool level (nested walk) (.level (level + 1) :: checks) := by
  rw [Follows, runAt_nested, hWalk, Check.verdict_cons, Check.verdict_singleton,
    Check.fault?]
  by_cases hRoom : level + 1 ≤ maxNesting
  · rw [if_pos hRoom, if_neg (Nat.not_le.mpr hRoom)]
    rfl
  · rw [if_neg hRoom, if_pos (Nat.le_of_lt_succ (Nat.lt_of_not_le hRoom))]
    rfl

/-- A walk over a list follows the lists of the items. -/
theorem Follows.each {α : Type} {walk : α → Walk Unit} {checks : α → List Check}
    (hItem : ∀ item, Follows pool level (walk item) (checks item)) (items : List α) :
    Follows pool level (each walk items) (items.flatMap checks) := by
  induction items with
  | nil => exact .pure
  | cons item rest ih => exact (hItem item).andThen ih

end Walk

open Walk

/-! ## Annotations -/

section

variable (pool : Pool)

mutual

/-- The check of a value follows its list. -/
theorem ElementValue.check_follows (level : Nat) :
    (value : ElementValue) → Follows pool level (value.check pool) (value.checks level)
  | .constant _ _ => .check (pool.check_eq_verdict ..)
  | .enumeration _ _ =>
      (Follows.check (pool.check_eq_verdict ..)).andThen
        (.check (pool.check_eq_verdict ..))
  | .classLiteral _ => .check (pool.check_eq_verdict ..)
  | .nested use => (use.check_follows (level + 1)).nested
  | .array values => (ElementValue.checkAll_follows (level + 1) values).nested

theorem ElementValue.checkAll_follows (level : Nat) :
    (values : List ElementValue) →
      Follows pool level (ElementValue.checkAll pool values)
        (ElementValue.checksAll level values)
  | [] => .pure
  | value :: rest =>
      (value.check_follows level).andThen (ElementValue.checkAll_follows level rest)

/-- The check of an annotation follows its list. -/
theorem AnnotationUse.check_follows (level : Nat) :
    (use : AnnotationUse) → Follows pool level (use.check pool) (use.checks level)
  | ⟨_, elements⟩ =>
      (Follows.check (pool.check_eq_verdict ..)).andThen
        (Element.checkAll_follows level elements)

theorem Element.check_follows (level : Nat) :
    (element : Element) →
      Follows pool level (element.check pool) (element.checks level)
  | ⟨_, value⟩ =>
      (Follows.check (pool.check_eq_verdict ..)).andThen (value.check_follows level)

theorem Element.checkAll_follows (level : Nat) :
    (elements : List Element) →
      Follows pool level (Element.checkAll pool elements)
        (Element.checksAll level elements)
  | [] => .pure
  | element :: rest =>
      (element.check_follows level).andThen (Element.checkAll_follows level rest)

end

end

/-! ## Attributes -/

section

variable (pool : Pool)

mutual

/-- The check of an attribute follows its list. -/
theorem Attribute.check_follows (level : Nat) :
    (attr : Attribute) → Follows pool level (attr.check pool) (attr.checks level)
  | ⟨_, length, payload⟩ => .text fun _ hName => payload.check_follows level length hName

theorem Attribute.checkAll_follows (level : Nat) :
    (attributes : List Attribute) →
      Follows pool level (Attribute.checkAll pool attributes)
        (Attribute.checksAll level attributes)
  | [] => .pure
  | attr :: rest =>
      (attr.check_follows level).andThen (Attribute.checkAll_follows level rest)

/-- The check of a payload under the name that was looked up follows its list. -/
theorem Payload.check_follows (level : Nat) (length : UInt32) (payload : Payload)
    {name : UInt16} {content : String}
    (hName : pool.get? name = some (some (.utf8 content))) :
    Follows pool level (payload.check pool content length)
      (payload.checks level name length) := by
  cases payload with
  | reference role index => exact .check (pool.check_eq_verdict ..)
  | references role indices => exact .check (pool.checkEach_eq_verdict ..)
  | marker kind => exact .check (checkMarker_eq_verdict hName length)
  | code body => exact body.check_follows level
  | stackMapTable frames =>
      exact .check (Check.each_eq_verdict Frame.check_eq_verdict frames)
  | innerClasses classes =>
      exact .check (Check.each_eq_verdict InnerClass.check_eq_verdict classes)
  | enclosingMethod owner method =>
      exact (Follows.check (pool.check_eq_verdict ..)).andThen
        (.check (pool.checkOptional_eq_verdict ..))
  | sourceDebugExtension bytes => exact .check (checkDebugExtension_eq_verdict bytes)
  | lineNumbers lines => exact .pure
  | localVariables table entries =>
      exact .check (Check.each_eq_verdict (LocalVariable.check_eq_verdict table) entries)
  | annotations visibility uses =>
      exact .each (AnnotationUse.check_follows pool level) uses
  | parameterAnnotations visibility parameters =>
      exact .each (.each (AnnotationUse.check_follows pool level)) parameters
  | typeAnnotations visibility typeUses =>
      exact .each (fun typeUse => typeUse.use.check_follows pool level) typeUses
  | annotationDefault value => exact value.check_follows pool level
  | bootstrapMethods methods =>
      exact .check (Check.each_eq_verdict BootstrapMethod.check_eq_verdict methods)
  | methodParameters parameters =>
      exact .check (Check.each_eq_verdict_map MethodParameter.check_eq_verdict parameters)
  | module descriptor => exact .check descriptor.check_eq_verdict
  | record components => exact RecordComponent.checkAll_follows level components
  | unknown bytes => exact .pure

/-- The check of a method body follows its list. -/
theorem Code.check_follows (level : Nat) :
    (code : Code) → Follows pool level (code.check pool) (code.checks level)
  | ⟨_, _, instructions, handlers, attributes⟩ =>
      (Follows.check (Check.each_eq_verdict
        (ExceptionHandler.check_eq_verdict instructions.length) handlers)).andThen
          (Attribute.checkAll_follows (level + 1) attributes).nested

/-- The check of a record component follows its list. -/
theorem RecordComponent.check_follows (level : Nat) :
    (component : RecordComponent) →
      Follows pool level (component.check pool) (component.checks level)
  | ⟨_, _, attributes⟩ =>
      (Follows.check (pool.check_eq_verdict ..)).andThen
        ((Follows.check (pool.check_eq_verdict ..)).andThen
          (Attribute.checkAll_follows (level + 1) attributes).nested)

theorem RecordComponent.checkAll_follows (level : Nat) :
    (components : List RecordComponent) →
      Follows pool level (RecordComponent.checkAll pool components)
        (RecordComponent.checksAll level components)
  | [] => .pure
  | component :: rest =>
      (component.check_follows level).andThen
        (RecordComponent.checkAll_follows level rest)

end

end

/-! ## Class files -/

/-- The attributes of a member are at level zero. -/
theorem Member.check_follows (pool : Pool) (member : Member) :
    Follows pool 0 (member.check pool) member.checks :=
  (Follows.check (pool.check_eq_verdict ..)).andThen
    ((Follows.check (pool.check_eq_verdict ..)).andThen
      (Attribute.checkAll_follows pool 0 member.attributes))

namespace ClassFile

/-- The check of a class file against its own pool follows the list of the file. -/
theorem check_follows (file : ClassFile) (major : UInt16) :
    Follows file.pool 0 (file.check file.pool major) (file.checks major) := by
  have hParts : file.checks major = file.pool.checks major ++
      ([.names "this class" [.classRef] file.thisClass] ++
      ([.namesOrZero "super class" [.classRef] file.superClass] ++
      (file.interfaces.map (.names "interface" [.classRef]) ++
      (file.fields.flatMap Member.checks ++ (file.methods.flatMap Member.checks ++
      Attribute.checksAll 0 file.attributes))))) := by
    simp [checks]
  rw [hParts]
  have hMembers := Follows.each (Member.check_follows file.pool)
  exact .andThen (.check file.pool.checkLinks_eq_verdict)
    (.andThen (.check (file.pool.check_eq_verdict ..))
    (.andThen (.check (file.pool.checkOptional_eq_verdict ..))
    (.andThen (.check (file.pool.checkEach_eq_verdict ..))
    (.andThen (hMembers file.fields) (.andThen (hMembers file.methods)
    (Attribute.checkAll_follows file.pool 0 file.attributes))))))

theorem validate_eq_verdict (file : ClassFile) (major : UInt16) :
    file.validate major = Check.verdict file.pool (file.checks major) :=
  congrArg Prod.fst (check_follows file major)

/-- The checks behind those of the pool, which do not depend on the version. -/
def bodyChecks (file : ClassFile) : List Check :=
  .names "this class" [.classRef] file.thisClass ::
    .namesOrZero "super class" [.classRef] file.superClass ::
    (file.interfaces.map (.names "interface" [.classRef]) ++
      file.fields.flatMap Member.checks ++ file.methods.flatMap Member.checks ++
      Attribute.checksAll 0 file.attributes)

/-- First the pool is checked, and then the rest. -/
theorem validate_eq_bind (file : ClassFile) (major : UInt16) :
    file.validate major =
      file.pool.checkLinks major >>= fun _ => Check.verdict file.pool file.bodyChecks := by
  have hParts : file.checks major = file.pool.checks major ++ file.bodyChecks := rfl
  rw [validate_eq_verdict, hParts, Check.verdict_append, ← Pool.checkLinks_eq_verdict]

end ClassFile

end ClassFormat
