import Mathlib
import ClassFormat.ClassFile.Layout
import ClassFormat.Proofs.Spelling.Basic

namespace ClassFormat

/-!
# What readers are composed of

The reader of class files takes bytes and runs of bytes, stops at some faults, counts
and measures, and does one thing after another.  It does nothing else, so whatever
these steps preserve holds of every reader of the format, by induction on how it is
composed.

* `ClassFile.composed_read` says that the reader of class files is composed so.
-/

/-- A reader can stop at this fault before the end of the input is in question. -/
def Fault.StopsReading : Fault → Prop
  | truncated _ | unknownMagic _ | unknownPoolTag _ | unknownFrameType _
  | unknownVerificationTag _ | unknownElementTag _ | unknownTargetType _
  | malformedText | codeLengthOutOfBounds _ | lengthMismatch .. | nestedTooDeep => True
  | _ => False

namespace Reader

variable {α β : Type}

/-- The reader is composed of the single steps of the format. -/
inductive Composed : {α : Type} → Reader α → Prop
  | pure {α : Type} (a : α) : Composed (pure a : Reader α)
  | fail {α : Type} {fault : Fault} (hFault : fault.StopsReading) :
      Composed (Reader.fail fault : Reader α)
  | byte : Composed Reader.byte
  | take (n : Nat) : Composed (Reader.take n)
  | bind {α β : Type} {p : Reader α} {f : α → Reader β} (hFirst : Composed p)
      (hNext : ∀ a, Composed (f a)) : Composed (p >>= f)
  | count {α : Type} {p : Reader α} (hItem : Composed p) (n : Nat) :
      Composed (Reader.count p n)
  | measure {α : Type} {p : Reader α} (hMeasured : Composed p) :
      Composed (Reader.measure p)

attribute [simp] Composed.pure Composed.byte Composed.take Composed.bind
  Composed.count Composed.measure

@[simp] theorem Composed.map {p : Reader α} {f : α → β} (hFirst : p.Composed) :
    (f <$> p).Composed :=
  hFirst.bind fun a => .pure (f a)

@[simp] theorem Composed.word16 : word16.Composed := by simp [Reader.word16]

@[simp] theorem Composed.word32 : word32.Composed := by simp [Reader.word32]

@[simp] theorem Composed.word64 : word64.Composed := by simp [Reader.word64]

@[simp] theorem Composed.list16 {p : Reader α} (hItem : p.Composed) :
    (list16 p).Composed := by
  simp [Reader.list16, hItem]

@[simp] theorem Composed.list8 {p : Reader α} (hItem : p.Composed) :
    (list8 p).Composed := by
  simp [Reader.list8, hItem]

/-! ## Where steps stop -/

/-- A sequence of two steps stops in the first one, or in the second one behind a
result of the first one. -/
theorem run_bind_eq_error {p : Reader α} {f : α → Reader β} {fault : Fault}
    {bytes : List UInt8} :
    run (p >>= f) bytes = .error fault ↔ run p bytes = .error fault ∨
      ∃ a middle, run p bytes = .ok (a, middle) ∧ run (f a) middle = .error fault := by
  rw [run_bind]
  cases run p bytes with
  | error fault' => simp
  | ok result =>
      obtain ⟨a, middle⟩ := result
      simp

theorem run_measure_eq_error {p : Reader α} {fault : Fault} {bytes : List UInt8} :
    run (measure p) bytes = .error fault ↔ run p bytes = .error fault := by
  rw [run_measure]
  cases run p bytes <;> simp [Except.map]

/-- The reader stops at no other faults than these. -/
def StopsOnlyAt (p : Reader α) (faults : Fault → Prop) : Prop :=
  ∀ ⦃bytes fault⦄, p.run bytes = .error fault → faults fault

section

variable {faults : Fault → Prop} {p : Reader α}

theorem StopsOnlyAt.pure (a : α) : (pure a : Reader α).StopsOnlyAt faults := by
  intro bytes fault hRun
  cases hRun

theorem StopsOnlyAt.fail {fault : Fault} (hFault : faults fault) :
    (fail fault : Reader α).StopsOnlyAt faults := by
  intro bytes fault' hRun
  obtain rfl := Except.error.inj hRun
  exact hFault

theorem StopsOnlyAt.byte (hShort : ∀ shortage, faults (.truncated shortage)) :
    byte.StopsOnlyAt faults := by
  intro bytes fault hRun
  cases bytes with
  | nil =>
      obtain rfl := Except.error.inj hRun
      exact hShort .field
  | cons first rest => cases hRun

theorem StopsOnlyAt.take (hShort : ∀ shortage, faults (.truncated shortage)) (n : Nat) :
    (take n).StopsOnlyAt faults := by
  intro bytes fault hRun
  rw [run_take] at hRun
  split at hRun
  · cases hRun
  · obtain rfl := Except.error.inj hRun
    exact hShort _

theorem StopsOnlyAt.bind {f : α → Reader β} (hFirst : p.StopsOnlyAt faults)
    (hNext : ∀ a, (f a).StopsOnlyAt faults) : (p >>= f).StopsOnlyAt faults := by
  intro bytes fault hRun
  rcases run_bind_eq_error.mp hRun with hRun | ⟨a, middle, -, hRest⟩
  · exact hFirst hRun
  · exact hNext a hRest

theorem StopsOnlyAt.map (f : α → β) (hFirst : p.StopsOnlyAt faults) :
    (f <$> p).StopsOnlyAt faults :=
  hFirst.bind fun a => .pure (f a)

theorem StopsOnlyAt.count (hItem : p.StopsOnlyAt faults) (n : Nat) :
    (count p n).StopsOnlyAt faults := by
  induction n with
  | zero => exact .pure []
  | succ n ih =>
      rw [count_succ]
      exact hItem.bind fun a => ih.map (a :: ·)

theorem StopsOnlyAt.measure (hMeasured : p.StopsOnlyAt faults) :
    (measure p).StopsOnlyAt faults := by
  intro bytes fault hRun
  exact hMeasured (run_measure_eq_error.mp hRun)

end

end Reader

open Reader

/-! ## Parts of payloads -/

theorem VerificationType.composed_read : read.Composed := by
  refine .bind .byte fun code => ?_
  split
  all_goals first | exact .fail trivial | simp

theorem Frame.composed_read : read.Composed := by
  have hOperand := VerificationType.composed_read
  refine .bind .byte fun code => ?_
  split
  · exact .pure _
  split
  · exact hOperand.map
  split
  · exact .fail trivial
  refine .bind .word16 fun offset => ?_
  split
  · exact hOperand.map
  split
  · exact .pure _
  split
  · exact .pure _
  split
  · exact (hOperand.count _).map
  · exact .bind hOperand.list16 fun _ => .bind hOperand.list16 fun _ => .pure _

theorem ExceptionHandler.composed_read : read.Composed :=
  .bind .word16 fun _ => .bind .word16 fun _ => .bind .word16 fun _ =>
    .bind .word16 fun _ => .pure _

theorem InnerClass.composed_read : read.Composed :=
  .bind .word16 fun _ => .bind .word16 fun _ => .bind .word16 fun _ =>
    .bind .word16 fun _ => .pure _

theorem LineNumber.composed_read : read.Composed :=
  .bind .word16 fun _ => .bind .word16 fun _ => .pure _

theorem LocalVariable.composed_read : read.Composed :=
  .bind .word16 fun _ => .bind .word16 fun _ => .bind .word16 fun _ =>
    .bind .word16 fun _ => .bind .word16 fun _ => .pure _

theorem BootstrapMethod.composed_read : read.Composed :=
  .bind .word16 fun _ => .bind (.list16 .word16) fun _ => .pure _

theorem MethodParameter.composed_read : read.Composed :=
  .bind .word16 fun _ => .bind .word16 fun _ => .pure _

theorem Requirement.composed_read : read.Composed :=
  .bind .word16 fun _ => .bind .word16 fun _ => .bind .word16 fun _ => .pure _

theorem PackageGrant.composed_read : read.Composed :=
  .bind .word16 fun _ => .bind .word16 fun _ => .bind (.list16 .word16) fun _ =>
    .pure _

theorem Provision.composed_read : read.Composed :=
  .bind .word16 fun _ => .bind (.list16 .word16) fun _ => .pure _

theorem ModuleDescriptor.composed_read : read.Composed :=
  .bind .word16 fun _ => .bind .word16 fun _ => .bind .word16 fun _ =>
    .bind Requirement.composed_read.list16 fun _ =>
    .bind PackageGrant.composed_read.list16 fun _ =>
    .bind PackageGrant.composed_read.list16 fun _ =>
    .bind (.list16 .word16) fun _ =>
    .bind Provision.composed_read.list16 fun _ => .pure _

@[simp] theorem LocalRange.composed_read : read.Composed :=
  .bind .word16 fun _ => .bind .word16 fun _ => .bind .word16 fun _ => .pure _

theorem PathStep.composed_read : read.Composed :=
  .bind .byte fun _ => .bind .byte fun _ => .pure _

theorem Target.composed_read (code : UInt8) : (read code).Composed := by
  rw [read]
  cases TargetForm.ofCode? code with
  | none => exact .fail trivial
  | some form => cases form <;> simp [readFields]

/-! ## The constant pool -/

@[simp] theorem Reader.composed_text : text.Composed := by
  refine .bind .word16 fun length => .bind (.take _) fun bytes => ?_
  split
  · exact .pure _
  · exact .fail trivial

theorem Entry.composed_read : read.Composed := by
  refine .bind .byte fun code => ?_
  cases Tag.ofCode? code with
  | none => exact .fail trivial
  | some tag =>
      cases tag <;>
        simp [readFields, readFields.readMember, readFields.readDynamic]

theorem Pool.composed_readSlots (filled : Array Slot) (room : Nat) :
    (readSlots filled room).Composed := by
  fun_induction readSlots filled room with
  | case1 filled => exact .pure filled
  | case2 filled => exact .bind Entry.composed_read fun entry => .pure _
  | case3 filled room ihWide ihNarrow =>
      refine .bind Entry.composed_read fun entry => ?_
      split
      · exact ihWide entry
      · exact ihNarrow entry

theorem Pool.composed_read : read.Composed := by
  refine .bind .word16 fun count => ?_
  exact .bind (composed_readSlots #[] _) fun slots => .pure _

/-! ## Annotations -/

/-- What may be inside a value or an attribute is read by a composed reader, if it is
read. -/
def Reader.InnerComposed {α : Type} (inner : Option (Reader α)) : Prop :=
  ∀ p ∈ inner, p.Composed

theorem Element.composed_readWith {value : Reader ElementValue}
    (hValue : value.Composed) : (readWith value).Composed :=
  .bind .word16 fun _ => .bind hValue fun _ => .pure _

theorem AnnotationUse.composed_readWith {value : Reader ElementValue}
    (hValue : value.Composed) : (readWith value).Composed :=
  .bind .word16 fun _ => .bind (Element.composed_readWith hValue).list16 fun _ =>
    .pure _

theorem ElementValue.composed_readWith {inner : Option (Reader ElementValue)}
    (hInner : InnerComposed inner) : (readWith inner).Composed := by
  refine .bind .byte fun code => ?_
  cases ElementForm.ofCode? code with
  | none => exact .fail trivial
  | some form =>
      cases form with
      | constant kind => exact Composed.word16.map
      | enumeration => exact .bind .word16 fun _ => .bind .word16 fun _ => .pure _
      | classLiteral => exact Composed.word16.map
      | nested =>
          cases inner with
          | none => exact .fail trivial
          | some value =>
              exact (AnnotationUse.composed_readWith (hInner value rfl)).map
      | array =>
          refine .bind .word16 fun length => ?_
          cases inner with
          | none => exact .fail trivial
          | some value => exact ((hInner value rfl).count _).map

theorem ElementValue.composed_read (room : Nat) : (read room).Composed := by
  induction room with
  | zero => exact composed_readWith fun _ hNone => by cases hNone
  | succ room ih =>
      refine composed_readWith fun value hValue => ?_
      obtain rfl := Option.some.inj hValue
      exact ih

theorem AnnotationUse.composed_read (room : Nat) : (read room).Composed :=
  composed_readWith (ElementValue.composed_read room)

theorem TypeAnnotationUse.composed_read (room : Nat) : (read room).Composed :=
  .bind .byte fun code => .bind (Target.composed_read code) fun _ =>
    .bind PathStep.composed_read.list8 fun _ =>
    .bind (AnnotationUse.composed_read room) fun _ => .pure _

/-! ## Attributes -/

section

variable {pool : Pool} {room : Nat} {inner : Option (Reader Attribute)}
  (hInner : InnerComposed inner)

include hInner

theorem Attribute.composed_readInner : (readInner inner).Composed := by
  refine .bind .word16 fun length => ?_
  cases inner with
  | none => exact .fail trivial
  | some attr => exact (hInner attr rfl).count _

theorem Code.composed_readWith : (readWith inner).Composed := by
  refine .bind .word16 fun _ => .bind .word16 fun _ => .bind .word32 fun length => ?_
  split
  · exact .fail trivial
  · exact .bind (.take _) fun _ => .bind ExceptionHandler.composed_read.list16 fun _ =>
      .bind (Attribute.composed_readInner hInner) fun _ => .pure _

theorem RecordComponent.composed_readWith : (readWith inner).Composed :=
  .bind .word16 fun _ => .bind .word16 fun _ =>
    .bind (Attribute.composed_readInner hInner) fun _ => .pure _

theorem Payload.composed_readWith (length : UInt32) (kind : AttributeKind) :
    (readWith room inner length kind).Composed := by
  have hAnnotation := AnnotationUse.composed_read room
  cases kind with
  | reference role => exact Composed.word16.map
  | references role => exact Composed.word16.list16.map
  | marker marker => exact .bind (.take _) fun _ => .pure _
  | code => exact (Code.composed_readWith hInner).map
  | stackMapTable => exact Frame.composed_read.list16.map
  | innerClasses => exact InnerClass.composed_read.list16.map
  | enclosingMethod => exact .bind .word16 fun _ => .bind .word16 fun _ => .pure _
  | sourceDebugExtension => exact (Composed.take _).map
  | lineNumbers => exact LineNumber.composed_read.list16.map
  | localVariables table => exact LocalVariable.composed_read.list16.map
  | annotations visibility => exact hAnnotation.list16.map
  | parameterAnnotations visibility => exact hAnnotation.list16.list8.map
  | typeAnnotations visibility =>
      exact (TypeAnnotationUse.composed_read room).list16.map
  | annotationDefault => exact (ElementValue.composed_read room).map
  | bootstrapMethods => exact BootstrapMethod.composed_read.list16.map
  | methodParameters => exact MethodParameter.composed_read.list8.map
  | module => exact ModuleDescriptor.composed_read.map
  | record => exact (RecordComponent.composed_readWith hInner).list16.map

theorem Attribute.composed_readWith : (readWith pool room inner).Composed := by
  refine .bind .word16 fun name => .bind .word32 fun length => ?_
  cases pool.attributeKind? name with
  | none => exact .bind (.take _) fun _ => .pure _
  | some kind =>
      refine .bind (Payload.composed_readWith hInner length kind).measure ?_
      intro result
      obtain ⟨payload, actual⟩ := result
      show (if actual = length.toNat then _ else _ : Reader Attribute).Composed
      split
      · exact .pure _
      · exact .fail trivial

end

theorem Attribute.composed_read (pool : Pool) (room : Nat) :
    (read pool room).Composed := by
  induction room with
  | zero => exact composed_readWith fun _ hNone => by cases hNone
  | succ room ih =>
      refine composed_readWith fun attr hAttr => ?_
      obtain rfl := Option.some.inj hAttr
      exact ih

/-! ## Class files -/

theorem Member.composed_read (pool : Pool) (kind : MemberKind) :
    (read pool kind).Composed :=
  .bind .word16 fun _ => .bind .word16 fun _ => .bind .word16 fun _ =>
    .bind (Attribute.composed_read pool maxNesting).list16 fun _ => .pure _

namespace ClassFile

theorem composed_readMagic : readMagic.Composed := by
  refine .bind .word32 fun found => ?_
  split
  · exact .pure _
  · exact .fail trivial

/-- The reader of class files is composed of the single steps. -/
theorem composed_read : ClassFile.read.Composed :=
  .bind composed_readMagic fun _ => .bind .word16 fun _ => .bind .word16 fun _ =>
    .bind Pool.composed_read fun pool =>
    .bind .word16 fun _ => .bind .word16 fun _ => .bind .word16 fun _ =>
    .bind (.list16 .word16) fun _ =>
    .bind (Member.composed_read pool .field).list16 fun _ =>
    .bind (Member.composed_read pool .method).list16 fun _ =>
    .bind (Attribute.composed_read pool maxNesting).list16 fun _ => .pure _

end ClassFile

end ClassFormat
