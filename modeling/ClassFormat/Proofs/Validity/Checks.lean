import Mathlib
import ClassFormat.Proofs.Validity.Decisions
import ClassFormat.Proofs.Validity.Rules
import ClassFormat.Validator

namespace ClassFormat

/-!
# The checks decide the rules

Each check passes exactly when its rule is obeyed.  A check that walks also needs
room for the levels below: at a level it passes when the rule is obeyed and the
depth is at most what is left of `maxNesting`.

A validator goes down and up the levels while it answers a request.  Wherever it
stops, and for whatever reason, it is back where it was when the answer is there.  So
the requests before it have no influence on an answer.

* `ClassFile.validate_eq_ok_iff` says that a class file passes under a version
  exactly when it is valid.
* `Validator.performAll_new` says what a new validator answers to many requests.
-/

/-! ## References -/

/-- Two checks one after the other pass when both do. -/
@[simp] theorem Verdict.andThen_eq_ok_iff {check next : Verdict} :
    (check >>= fun _ => next) = .ok () ↔ check = .ok () ∧ next = .ok () := by
  cases check <;> simp [bind, Except.bind]

/-- A lookup whose result is not used passes when it finds something. -/
theorem Verdict.discard_eq_ok_iff {α : Type} {lookup : Except Fault α} :
    (lookup >>= fun _ => pure ()) = (.ok () : Verdict) ↔ ∃ a, lookup = .ok a := by
  cases lookup <;> simp [bind, Except.bind, pure, Except.pure]

theorem Entry.tag_eq_utf8_iff {entry : Entry} :
    entry.tag = .utf8 ↔ ∃ content, entry = .utf8 content := by
  rcases entry with content | value | bits | value | bits | ⟨_ | _⟩ | ⟨_ | _⟩ | _ | _ |
    ⟨_ | _⟩ <;> simp [tag, TextRefKind.tag, MemberRefKind.tag, DynamicKind.tag]

theorem Entry.tag_eq_classRef_iff {entry : Entry} :
    entry.tag = .classRef ↔ ∃ name, entry = .textRef .classRef name := by
  rcases entry with content | value | bits | value | bits | ⟨_ | _⟩ | ⟨_ | _⟩ | _ | _ |
    ⟨_ | _⟩ <;> simp [tag, TextRefKind.tag, MemberRefKind.tag, DynamicKind.tag]

namespace Pool

variable {pool : Pool} {context : String} {tags : List Tag} {index : UInt16}

theorem resolve_eq_ok_iff {entry : Entry} :
    pool.resolve context index = .ok entry ↔ pool.get? index = some (some entry) := by
  unfold resolve
  rcases pool.get? index with _ | _ | found <;> simp

theorem require_eq_ok_iff {entry : Entry} :
    pool.require context tags index = .ok entry ↔
      pool.get? index = some (some entry) ∧ entry.tag ∈ tags := by
  rw [← @resolve_eq_ok_iff pool context index]
  unfold require
  cases pool.resolve context index with
  | error fault => simp [bind, Except.bind]
  | ok found =>
      show (if tags.contains found.tag then pure found else throw _) = _ ↔ _
      split
      · next hTag =>
          have hMember : found.tag ∈ tags := List.contains_iff_mem.mp hTag
          constructor
          · intro hFound
            cases hFound
            exact ⟨rfl, hMember⟩
          · intro hFound
            cases hFound.1
            rfl
      · next hTag =>
          constructor
          · intro hFound
            cases hFound
          · intro hFound
            cases hFound.1
            exact absurd (List.contains_iff_mem.mpr hFound.2) hTag

@[simp] theorem checkUsable_eq_ok_iff :
    pool.checkUsable context index = .ok () ↔ pool.NamesAny index := by
  unfold checkUsable NamesAny
  rw [Verdict.discard_eq_ok_iff]
  simp only [resolve_eq_ok_iff]

@[simp] theorem check_eq_ok_iff :
    pool.check context tags index = .ok () ↔ pool.Names tags index := by
  unfold check Names
  rw [Verdict.discard_eq_ok_iff]
  simp only [require_eq_ok_iff]

@[simp] theorem checkOptional_eq_ok_iff :
    pool.checkOptional context tags index = .ok () ↔ pool.NamesOrZero tags index := by
  unfold checkOptional requireOptional NamesOrZero
  rw [Verdict.discard_eq_ok_iff, ← @check_eq_ok_iff pool context]
  unfold check
  rw [Verdict.discard_eq_ok_iff]
  by_cases hZero : index = 0
  · simp [hZero]
  · cases pool.require context tags index <;> simp [hZero, Except.map]

theorem text_eq_ok_iff {content : String} :
    pool.text context index = .ok content ↔
      pool.get? index = some (some (.utf8 content)) := by
  rw [← @resolve_eq_ok_iff pool context index]
  unfold text
  rcases pool.resolve context index with fault | entry
  · simp [bind, Except.bind]
  · cases entry <;> simp [bind, Except.bind, pure, Except.pure, throw, throwThe,
      MonadExceptOf.throw]

/-- A text is found where the index names one. -/
theorem exists_text_eq_ok_iff :
    (∃ content, pool.text context index = .ok content) ↔ pool.Names [.utf8] index := by
  simp only [text_eq_ok_iff, Names, List.mem_singleton]
  constructor
  · intro hText
    obtain ⟨content, hContent⟩ := hText
    exact ⟨.utf8 content, hContent, rfl⟩
  · intro hNames
    obtain ⟨entry, hEntry, hTag⟩ := hNames
    obtain ⟨content, rfl⟩ := Entry.tag_eq_utf8_iff.mp hTag
    exact ⟨content, hEntry⟩

end Pool

/-! ## Parts of payloads -/

theorem VerificationType.check_eq_ok_iff {pool : Pool} {type : VerificationType} :
    type.check pool = .ok () ↔ type.Obeys pool := by
  cases type <;> simp [check, Obeys]

theorem Frame.check_eq_ok_iff {pool : Pool} {frame : Frame} :
    frame.check pool = .ok () ↔ frame.Obeys pool := by
  simp only [check, Verdict.each_eq_ok_iff, VerificationType.check_eq_ok_iff]
  cases frame with
  | full offset locals operands =>
      simp only [types, Obeys, List.forall_mem_append]
  | _ => simp [types, Obeys]

theorem checkOffset_eq_ok_iff {codeLength : Nat} {context : String}
    {offset : UInt16} :
    checkOffset codeLength context offset = .ok () ↔ offset.toNat ≤ codeLength := by
  unfold checkOffset
  split
  · next hOutside => simp [hOutside]
  · next hInside => simpa using hInside

theorem ExceptionHandler.check_eq_ok_iff {pool : Pool} {codeLength : Nat}
    {handler : ExceptionHandler} :
    handler.check pool codeLength = .ok () ↔ handler.Obeys pool codeLength := by
  unfold check
  rw [obeys_iff]
  by_cases hReversed : handler.stop < handler.start
  · have hRange : ¬handler.start ≤ handler.stop := UInt16.not_le.mpr hReversed
    simp [hReversed, hRange, throw, throwThe, MonadExceptOf.throw]
  · have hRange : handler.start ≤ handler.stop := UInt16.not_lt.mp hReversed
    simp [hReversed, hRange, checkOffset_eq_ok_iff]

theorem InnerClass.check_eq_ok_iff {pool : Pool} {innerClass : InnerClass} :
    innerClass.check pool = .ok () ↔ innerClass.Obeys pool := by
  simp [check, obeys_iff]

theorem LocalVariable.check_eq_ok_iff {pool : Pool} {table : VariableTable}
    {entry : LocalVariable} :
    entry.check pool table = .ok () ↔ entry.Obeys pool := by
  simp [check, obeys_iff]

theorem BootstrapMethod.check_eq_ok_iff {pool : Pool} {method : BootstrapMethod} :
    method.check pool = .ok () ↔ method.Obeys pool := by
  simp [check, obeys_iff, Verdict.each_eq_ok_iff]

theorem MethodParameter.check_eq_ok_iff {pool : Pool} {parameter : MethodParameter} :
    parameter.check pool = .ok () ↔ pool.NamesOrZero [.utf8] parameter.name :=
  Pool.checkOptional_eq_ok_iff

theorem Requirement.check_eq_ok_iff {pool : Pool} {requirement : Requirement} :
    requirement.check pool = .ok () ↔ requirement.Obeys pool := by
  simp [check, obeys_iff]

theorem PackageGrant.check_eq_ok_iff {pool : Pool}
    {packageContext moduleContext : String} {grant : PackageGrant} :
    grant.check pool packageContext moduleContext = .ok () ↔ grant.Obeys pool := by
  simp [check, obeys_iff, Verdict.each_eq_ok_iff]

theorem Provision.check_eq_ok_iff {pool : Pool} {provision : Provision} :
    provision.check pool = .ok () ↔ provision.Obeys pool := by
  simp [check, obeys_iff, Verdict.each_eq_ok_iff]

theorem ModuleDescriptor.check_eq_ok_iff {pool : Pool} {module : ModuleDescriptor} :
    module.check pool = .ok () ↔ module.Obeys pool := by
  simp [check, obeys_iff, Verdict.each_eq_ok_iff, Requirement.check_eq_ok_iff,
    PackageGrant.check_eq_ok_iff, Provision.check_eq_ok_iff]

theorem checkMarker_eq_ok_iff {name : String} {length : UInt32} :
    checkMarker name length = .ok () ↔ length = 0 := by
  unfold checkMarker
  split <;> simp [*]

theorem checkDebugExtension_eq_ok_iff {bytes : List UInt8} :
    checkDebugExtension bytes = .ok () ↔
      ∃ text, ModifiedUtf8.decode bytes = some text := by
  unfold checkDebugExtension
  rw [← Option.isSome_iff_exists]
  split <;> simp [*]

/-! ## Annotations -/

open Walk

mutual

/-- The check of a value decides the rule of the value. -/
theorem ElementValue.decides_check (pool : Pool) :
    (value : ElementValue) →
      (value.check pool).Decides (value.Obeys pool) value.depth
  | .constant kind index => by
      refine Decides.check ?_
      rw [Pool.check_eq_ok_iff]
      cases kind <;> rfl
  | .enumeration type constant =>
      (Decides.check Pool.check_eq_ok_iff).andThen (.check Pool.check_eq_ok_iff)
  | .classLiteral descriptor => .check Pool.check_eq_ok_iff
  | .nested use => (use.decides_check pool).nested
  | .array values => (ElementValue.decides_checkAll pool values).nested

theorem ElementValue.decides_checkAll (pool : Pool) :
    (values : List ElementValue) →
      (ElementValue.checkAll pool values).Decides (ElementValue.AllObey pool values)
        (ElementValue.depthAll values)
  | [] => .pure
  | value :: rest =>
      (value.decides_check pool).andThen (ElementValue.decides_checkAll pool rest)

/-- The check of an annotation decides the rule of the annotation. -/
theorem AnnotationUse.decides_check (pool : Pool) :
    (use : AnnotationUse) → (use.check pool).Decides (use.Obeys pool) use.depth
  | ⟨_, elements⟩ =>
      ((Decides.check Pool.check_eq_ok_iff).andThen
        (Element.decides_checkAll pool elements)).congr Iff.rfl (Nat.zero_max _)

theorem Element.decides_check (pool : Pool) :
    (element : Element) →
      (element.check pool).Decides (element.Obeys pool) element.depth
  | ⟨_, value⟩ =>
      ((Decides.check Pool.check_eq_ok_iff).andThen
        (value.decides_check pool)).congr Iff.rfl (Nat.zero_max _)

theorem Element.decides_checkAll (pool : Pool) :
    (elements : List Element) →
      (Element.checkAll pool elements).Decides (Element.AllObey pool elements)
        (Element.depthAll elements)
  | [] => .pure
  | element :: rest =>
      (element.decides_check pool).andThen (Element.decides_checkAll pool rest)

end

/-! ## Attributes -/

/-- A list of references is checked reference by reference. -/
theorem Pool.checkEach_eq_ok_iff {pool : Pool} {context : String} {tags : List Tag}
    {indices : List UInt16} :
    Verdict.each (pool.check context tags) indices = .ok () ↔
      ∀ index ∈ indices, pool.Names tags index := by
  simp only [Verdict.each_eq_ok_iff, check_eq_ok_iff]

/-- A payload without attributes inside is checked by its own rule alone. -/
theorem Payload.decides_of_leaf {pool : Pool} {walk : Walk Unit} {payload : Payload}
    {length : UInt32} (hLeaf : payload.within = [])
    (hWalk : walk.Decides (payload.Obeys pool length) payload.depth) :
    walk.Decides (payload.Obeys pool length ∧
      ∀ attr ∈ payload.within, attr.Obeys pool) payload.depth :=
  hWalk.congr (by simp [hLeaf]) rfl

mutual

/-- The check of an attribute decides the rules of the attribute and of all
attributes inside it. -/
theorem Attribute.decides_check (pool : Pool) :
    (attr : Attribute) → (attr.check pool).Decides
      (∀ inner ∈ attr.within, inner.Obeys pool) attr.depth
  | ⟨name, length, payload⟩ => by
      refine (Decides.lookup Pool.exists_text_eq_ok_iff fun text =>
        payload.decides_check pool text length).congr ?_ rfl
      rw [Attribute.within, List.forall_mem_cons, ← and_assoc]
      exact and_congr_left fun _ => ⟨fun h => ⟨h.1, h.2⟩, fun h => ⟨h.1, h.2⟩⟩

theorem Attribute.decides_checkAll (pool : Pool) :
    (attributes : List Attribute) → (Attribute.checkAll pool attributes).Decides
      (∀ inner ∈ Attribute.withinAll attributes, inner.Obeys pool)
      (Attribute.depthAll attributes)
  | [] => Decides.pure.congr (by simp [Attribute.withinAll]) rfl
  | attr :: rest =>
      ((attr.decides_check pool).andThen
        (Attribute.decides_checkAll pool rest)).congr List.forall_mem_append.symm rfl

/-- The check of a payload decides its rule and those of all attributes inside
it. -/
theorem Payload.decides_check (pool : Pool) (name : String) (length : UInt32)
    (payload : Payload) :
    (payload.check pool name length).Decides (payload.Obeys pool length ∧
      ∀ inner ∈ payload.within, inner.Obeys pool) payload.depth := by
  have hLeaf := @Payload.decides_of_leaf pool (payload.check pool name length) payload length
  cases payload with
  | reference role index =>
      -- The table of the checks agrees with the rules for each role.
      refine hLeaf rfl (.check (Pool.check_eq_ok_iff.trans ?_))
      cases role <;> rfl
  | references role indices =>
      refine hLeaf rfl (.check (Pool.checkEach_eq_ok_iff.trans ?_))
      cases role <;> rfl
  | marker marker => exact hLeaf rfl (.check checkMarker_eq_ok_iff)
  | code body => exact body.decides_check pool
  | stackMapTable frames =>
      refine hLeaf rfl (.check ?_)
      simp only [Verdict.each_eq_ok_iff, Frame.check_eq_ok_iff, Payload.Obeys]
  | innerClasses classes =>
      refine hLeaf rfl (.check ?_)
      simp only [Verdict.each_eq_ok_iff, InnerClass.check_eq_ok_iff, Payload.Obeys]
  | enclosingMethod owner method =>
      exact hLeaf rfl ((Decides.check Pool.check_eq_ok_iff).andThen
        (.check Pool.checkOptional_eq_ok_iff))
  | sourceDebugExtension bytes => exact hLeaf rfl (.check checkDebugExtension_eq_ok_iff)
  | lineNumbers lines => exact hLeaf rfl .pure
  | localVariables table entries =>
      refine hLeaf rfl (.check ?_)
      simp only [Verdict.each_eq_ok_iff, LocalVariable.check_eq_ok_iff, Payload.Obeys]
  | annotations visibility uses =>
      exact hLeaf rfl (.each (AnnotationUse.decides_check pool) uses)
  | parameterAnnotations visibility parameters =>
      exact hLeaf rfl (.each (.each (AnnotationUse.decides_check pool)) parameters)
  | typeAnnotations visibility typeUses =>
      exact hLeaf rfl (.each (fun typeUse => typeUse.use.decides_check pool) typeUses)
  | annotationDefault value => exact hLeaf rfl (value.decides_check pool)
  | bootstrapMethods methods =>
      refine hLeaf rfl (.check ?_)
      simp only [Verdict.each_eq_ok_iff, BootstrapMethod.check_eq_ok_iff, Payload.Obeys]
  | methodParameters parameters =>
      refine hLeaf rfl (.check ?_)
      simp only [Verdict.each_eq_ok_iff, MethodParameter.check_eq_ok_iff, Payload.Obeys]
  | module descriptor => exact hLeaf rfl (.check ModuleDescriptor.check_eq_ok_iff)
  | record components => exact RecordComponent.decides_checkAll pool components
  | unknown bytes => exact hLeaf rfl .pure

theorem Code.decides_check (pool : Pool) :
    (code : Code) → (code.check pool).Decides
      ((∀ handler ∈ code.handlers, handler.Obeys pool code.instructions.length) ∧
        ∀ inner ∈ code.within, inner.Obeys pool) code.depth
  | ⟨_, _, instructions, handlers, attributes⟩ => by
      refine ((Decides.check ?_).andThen
        (Attribute.decides_checkAll pool attributes).nested).congr Iff.rfl
          (Nat.zero_max _)
      simp only [Verdict.each_eq_ok_iff, ExceptionHandler.check_eq_ok_iff]

theorem RecordComponent.decides_check (pool : Pool) :
    (component : RecordComponent) → (component.check pool).Decides
      ((pool.Names [.utf8] component.name ∧ pool.Names [.utf8] component.descriptor) ∧
        ∀ inner ∈ component.within, inner.Obeys pool) component.depth
  | ⟨_, _, attributes⟩ =>
      ((Decides.check Pool.check_eq_ok_iff).andThen
        ((Decides.check Pool.check_eq_ok_iff).andThen
          (Attribute.decides_checkAll pool attributes).nested)).congr
        (and_assoc).symm (by simp [RecordComponent.depth])

theorem RecordComponent.decides_checkAll (pool : Pool) :
    (components : List RecordComponent) →
      (RecordComponent.checkAll pool components).Decides
        ((∀ component ∈ components, pool.Names [.utf8] component.name ∧
            pool.Names [.utf8] component.descriptor) ∧
          ∀ inner ∈ RecordComponent.withinAll components, inner.Obeys pool)
        (RecordComponent.depthAll components)
  | [] => Decides.pure.congr (by simp [RecordComponent.withinAll]) rfl
  | component :: rest => by
      refine ((component.decides_check pool).andThen
        (RecordComponent.decides_checkAll pool rest)).congr ?_ rfl
      rw [RecordComponent.withinAll, List.forall_mem_append, List.forall_mem_cons]
      tauto

end

/-! ## Class files -/

/-- The name and the descriptor of a member are texts, and all attributes inside it
obey their rules. -/
def Member.ObeysWithin (pool : Pool) (member : Member) : Prop :=
  (pool.Names [.utf8] member.name ∧ pool.Names [.utf8] member.descriptor) ∧
    ∀ attr ∈ Attribute.withinAll member.attributes, attr.Obeys pool

theorem Member.decides_check (pool : Pool) (member : Member) :
    (member.check pool).Decides (member.ObeysWithin pool) member.depth :=
  ((Decides.check Pool.check_eq_ok_iff).andThen
    ((Decides.check Pool.check_eq_ok_iff).andThen
      (Attribute.decides_checkAll pool member.attributes))).congr
    (and_assoc).symm (by simp [depth])

namespace ClassFile

/-- The check of a class file against a pool decides the rules of the class, of its
members and of all attributes. -/
theorem decides_check (file : ClassFile) (pool : Pool) (major : UInt16) :
    (file.check pool major).Decides
      (pool.checkLinks major = .ok () ∧
        pool.Names [.classRef] file.thisClass ∧
        pool.NamesOrZero [.classRef] file.superClass ∧
        (∀ index ∈ file.interfaces, pool.Names [.classRef] index) ∧
        (∀ member ∈ file.fields, member.ObeysWithin pool) ∧
        (∀ member ∈ file.methods, member.ObeysWithin pool) ∧
        ∀ attr ∈ Attribute.withinAll file.attributes, attr.Obeys pool)
      file.depth := by
  have hMembers := Decides.each (Member.decides_check pool)
  -- The parts in the order in which they are checked.
  refine Decides.congr (.andThen (.check Iff.rfl) (.andThen (.check Pool.check_eq_ok_iff)
    (.andThen (.check Pool.checkOptional_eq_ok_iff)
    (.andThen (.check Pool.checkEach_eq_ok_iff) (.andThen (hMembers file.fields)
    (.andThen (hMembers file.methods)
    (Attribute.decides_checkAll pool file.attributes))))))) Iff.rfl ?_
  simp [depth]

/-- A class file that passes obeys all rules. -/
theorem isValid_of_validate {file : ClassFile} {major : UInt16}
    (hPasses : file.validate major = .ok ()) : file.IsValid major := by
  obtain ⟨⟨hLinks, hThis, hSuper, hInterfaces, hFields, hMethods, hAttributes⟩, hDepth⟩ :=
    ((decides_check file file.pool major).passes_iff 0).mp hPasses
  have hMembers := List.forall_mem_append.mpr ⟨hFields, hMethods⟩
  exact {
    links := hLinks
    thisClass := hThis
    superClass := hSuper
    interfaces := hInterfaces
    members := fun member hMember => (hMembers member hMember).1
    attributes := List.forall_mem_append.mpr
      ⟨List.forall_mem_flatMap.mpr fun member hMember => (hMembers member hMember).2,
        hAttributes⟩
    nesting := hDepth }

/-- A class file passes under a version exactly when it is valid. -/
theorem validate_eq_ok_iff (file : ClassFile) (major : UInt16) :
    file.validate major = .ok () ↔ file.IsValid major := by
  constructor
  · exact isValid_of_validate
  · intro hValid
    obtain ⟨hLinks, hThis, hSuper, hInterfaces, hNames, hWithin, hDepth⟩ := hValid
    obtain ⟨hInMembers, hAttributes⟩ := List.forall_mem_append.mp hWithin
    rw [List.forall_mem_flatMap] at hInMembers
    have hMembers : ∀ member ∈ file.fields ++ file.methods,
        member.ObeysWithin file.pool := fun member hMember =>
      ⟨hNames member hMember, hInMembers member hMember⟩
    obtain ⟨hFields, hMethods⟩ := List.forall_mem_append.mp hMembers
    exact ((decides_check file file.pool major).passes_iff 0).mpr
      ⟨⟨hLinks, hThis, hSuper, hInterfaces, hFields, hMethods, hAttributes⟩, hDepth⟩

end ClassFile

/-! ## Validators can be used again -/

namespace Validator

/-- The walk that answers a request ends at the level where it starts. -/
theorem runAt_walk_snd (validator : Validator) (request : Request) (level : Nat) :
    ((validator.walk request).runAt level).2 = level := by
  cases request with
  | links => rfl
  | attributes attributes =>
      exact (Attribute.decides_checkAll validator.pool attributes).level_eq level
  | member member => exact (member.decides_check validator.pool).level_eq level
  | classFile file =>
      exact (file.decides_check validator.pool validator.major).level_eq level

/-- An answer leaves the validator as it was, at whatever level. -/
theorem perform_snd (validator : Validator) (request : Request) :
    (validator.perform request).2 = validator := by
  have hLevel := validator.runAt_walk_snd request validator.level
  unfold perform
  rcases hRun : (validator.walk request).runAt validator.level with ⟨verdict, reached⟩
  rw [hRun] at hLevel
  obtain rfl : reached = validator.level := hLevel
  rfl

/-- The answers of one validator to requests one after another, each with the
validator behind it, which is asked next. -/
def performAll : Validator → List Request → List (Verdict × Validator)
  | _, [] => []
  | validator, request :: rest =>
      validator.perform request :: (validator.perform request).2.performAll rest

/-- Every request is answered as if it were the first one. -/
theorem performAll_eq_map (validator : Validator) (requests : List Request) :
    validator.performAll requests = requests.map validator.perform := by
  induction requests with
  | nil => rfl
  | cons request rest ih => rw [performAll, perform_snd, ih, List.map_cons]

/-- Whatever a new validator has been asked before, it answers as a new one does, and
every answer leaves it at level zero. -/
theorem performAll_new (pool : Pool) (major : UInt16) (requests : List Request) :
    (performAll { pool, major } requests =
        requests.map fun request => perform { pool, major } request) ∧
      ∀ answer ∈ performAll { pool, major } requests, answer.2.level = 0 := by
  have hAnswers := performAll_eq_map { pool, major } requests
  refine ⟨hAnswers, fun answer hAnswer => ?_⟩
  rw [hAnswers] at hAnswer
  obtain ⟨request, -, rfl⟩ := List.mem_map.mp hAnswer
  rw [perform_snd]

/-- A request that fails inside the component of a record, and one that passes. -/
example :
    (performAll { pool := ⟨#[some (.utf8 "Record")]⟩, major := 61 }
      [.attributes [⟨1, 10, .record [⟨1, 1, [⟨0, 0, .unknown []⟩]⟩]⟩], .links]).map Prod.fst =
      [.error (.indexOutOfRange "attribute name" 0), .ok ()] := by
  rfl

end Validator

end ClassFormat
