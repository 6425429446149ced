import Mathlib
import ClassFormat.Attribute.Layout
import ClassFormat.Proofs.Costs.Basic

namespace ClassFormat

/-!
# What attributes cost

Every item in an attribute is paid for by a byte of its own, at every depth: by the first
byte of a frame or a type, by the letter of a value, by the name or the type of whatever
else is in a list.

* `ElementValue.pays_read` and `Attribute.pays_read`, by induction on the room, are the
  main statements.
-/

open Reader

/-! ## Parts of payloads -/

theorem VerificationType.pays_read : read.Pays 0 fun _ => 1 := by
  refine .bind .byte fun code => ?_
  split
  case h_10 => exact .fail
  case h_8 | h_9 => exact (Pays.word16.withCredit 1).map fun _ => by omega
  all_goals exact .pure le_rfl

/-- The types in a frame pay for themselves, and the first byte for the frame. -/
theorem Frame.pays_read : read.Pays 0 fun frame => frame.items + 1 := by
  have hOperand := VerificationType.pays_read
  have hTypes := hOperand.plain16 le_rfl
  refine .bind .byte fun code => ?_
  split
  · exact .pure le_rfl
  split
  · exact (hOperand.withCredit 1).map fun operand => le_rfl
  split
  · exact .fail
  refine .bind .word16 fun offset => ?_
  split
  · exact (hOperand.withCredit _).map fun operand => by
      show 1 + 1 ≤ 1 + (0 + 1 + 2)
      omega
  split
  · exact .pure (by show 0 + 1 ≤ _; omega)
  split
  · exact .pure (by show 0 + 1 ≤ _; omega)
  split
  · have hPlain : VerificationType.read.Pays 0 fun _ => 0 + 1 := hOperand
    refine ((hPlain.count (code.toNat - 251)).withCredit _).map fun locals => ?_
    show locals.length + 1 ≤ _
    rw [itemsOf_zero]
    omega
  · refine .bind hTypes fun locals => .bind hTypes fun operands => .pure ?_
    show (locals ++ operands).length + 1 ≤ _
    rw [List.length_append]
    omega

theorem ExceptionHandler.pays_read : read.Pays 0 fun _ => 8 :=
  .bind .word16 fun _ => .bind .word16 fun _ => .bind .word16 fun _ =>
    .bind .word16 fun _ => .pure le_rfl

theorem InnerClass.pays_read : read.Pays 0 fun _ => 8 :=
  .bind .word16 fun _ => .bind .word16 fun _ => .bind .word16 fun _ =>
    .bind .word16 fun _ => .pure le_rfl

theorem LineNumber.pays_read : read.Pays 0 fun _ => 4 :=
  .bind .word16 fun _ => .bind .word16 fun _ => .pure le_rfl

theorem LocalVariable.pays_read : read.Pays 0 fun _ => 10 :=
  .bind .word16 fun _ => .bind .word16 fun _ => .bind .word16 fun _ =>
    .bind .word16 fun _ => .bind .word16 fun _ => .pure le_rfl

theorem MethodParameter.pays_read : read.Pays 0 fun _ => 4 :=
  .bind .word16 fun _ => .bind .word16 fun _ => .pure le_rfl

theorem Reader.pays_indices : (list16 word16).Pays 0 fun items => items.length + 2 :=
  Pays.word16.plain16 (by omega)

theorem BootstrapMethod.pays_read : read.Pays 0 fun method => method.items + 1 := by
  refine .bind .word16 fun handle => .bind pays_indices fun arguments => .pure ?_
  show arguments.length + 1 ≤ 0 + 2 + (arguments.length + 2)
  omega

/-! ## Modules -/

theorem Requirement.pays_read : read.Pays 0 fun _ => 6 :=
  .bind .word16 fun _ => .bind .word16 fun _ => .bind .word16 fun _ => .pure le_rfl

theorem PackageGrant.pays_read : read.Pays 0 fun grant => grant.items + 1 := by
  refine .bind .word16 fun package => .bind .word16 fun flags =>
    .bind pays_indices fun modules => .pure ?_
  show modules.length + 1 ≤ 0 + 2 + 2 + (modules.length + 2)
  omega

theorem Provision.pays_read : read.Pays 0 fun provision => provision.items + 1 := by
  refine .bind .word16 fun service => .bind pays_indices fun providers => .pure ?_
  show providers.length + 1 ≤ 0 + 2 + (providers.length + 2)
  omega

theorem ModuleDescriptor.pays_read : read.Pays 0 items := by
  have hRequires := Requirement.pays_read.plain16 (by omega)
  refine .bind .word16 fun name => .bind .word16 fun flags => .bind .word16 fun version =>
    .bind hRequires fun requires => .bind PackageGrant.pays_read.list16 fun exports =>
    .bind PackageGrant.pays_read.list16 fun opens => .bind pays_indices fun uses =>
    .bind Provision.pays_read.list16 fun provides => .pure ?_
  simp only [items]
  omega

/-! ## Annotations -/

/-- What may be inside a value is paid for by its reader, if it is read. -/
def Reader.InnerPays {α : Type} (inner : Option (Reader α)) (items : α → Nat) : Prop :=
  ∀ p ∈ inner, p.Pays 0 fun a => items a + 1

theorem Element.pays_readWith {value : Reader ElementValue}
    (hValue : value.Pays 0 fun value => value.items + 1) :
    (readWith value).Pays 0 fun element => element.items + 1 := by
  refine .bind .word16 fun name => .bind hValue fun value => .pure ?_
  simp only [items]
  omega

theorem AnnotationUse.pays_readWith {value : Reader ElementValue}
    (hValue : value.Pays 0 fun value => value.items + 1) :
    (readWith value).Pays 0 fun use => use.items + 2 := by
  refine .bind .word16 fun type => .bind (Element.pays_readWith hValue).list16
    fun elements => .pure ?_
  simp only [items, Element.itemsAll_eq_itemsOf]
  omega

/-- Every form of a value is paid for by its first byte and by what is behind it. -/
theorem ElementValue.pays_readWith {inner : Option (Reader ElementValue)}
    (hInner : InnerPays inner items) :
    (readWith inner).Pays 0 fun value => value.items + 1 := by
  refine .bind .byte fun code => ?_
  cases ElementForm.ofCode? code with
  | none => exact .fail
  | some form =>
      cases form with
      | constant kind => exact (Pays.word16.withCredit _).map fun _ => by simp only [items]; omega
      | enumeration =>
          exact .bind .word16 fun _ => .bind .word16 fun _ => .pure (by simp only [items]; omega)
      | classLiteral => exact (Pays.word16.withCredit _).map fun _ => by simp only [items]; omega
      | nested =>
          cases inner with
          | none => exact .fail
          | some value =>
              refine ((AnnotationUse.pays_readWith (hInner value rfl)).withCredit _).map
                fun use => ?_
              simp only [items]
              omega
      | array =>
          refine .bind .word16 fun length => ?_
          cases inner with
          | none => exact .fail
          | some value =>
              refine (((hInner value rfl).count _).withCredit _).map fun values => ?_
              simp only [items, itemsAll_eq_itemsOf]
              omega

theorem ElementValue.pays_read (room : Nat) :
    (read room).Pays 0 fun value => value.items + 1 := by
  induction room with
  | zero => exact pays_readWith fun _ hNone => by cases hNone
  | succ room ih =>
      refine pays_readWith fun value hValue => ?_
      obtain rfl := Option.some.inj hValue
      exact ih

theorem AnnotationUse.pays_read (room : Nat) :
    (read room).Pays 0 fun use => use.items + 2 :=
  pays_readWith (ElementValue.pays_read room)

theorem LocalRange.pays_read : read.Pays 0 fun _ => 6 :=
  .bind .word16 fun _ => .bind .word16 fun _ => .bind .word16 fun _ => .pure le_rfl

theorem PathStep.pays_read : read.Pays 0 fun _ => 2 :=
  .bind .byte fun _ => .bind .byte fun _ => .pure le_rfl

theorem Target.pays_read (code : UInt8) : (read code).Pays 0 items := by
  rw [read]
  cases TargetForm.ofCode? code with
  | none => exact .fail
  | some form =>
      cases form with
      | localVariable =>
          have hRanges := LocalRange.pays_read.plain16 (by omega)
          exact hRanges.map fun ranges => Nat.le_add_right _ _
      | typeParameter | formalParameter => exact Pays.byte.map fun _ => Nat.zero_le _
      | supertype | throws | handler | offset => exact Pays.word16.map fun _ => Nat.zero_le _
      | empty => exact .pure le_rfl
      | typeParameterBound => exact .bind .byte fun _ => .bind .byte fun _ => .pure (Nat.zero_le _)
      | typeArgument => exact .bind .word16 fun _ => .bind .byte fun _ => .pure (Nat.zero_le _)

theorem TypeAnnotationUse.pays_read (room : Nat) :
    (read room).Pays 0 fun typeUse => typeUse.items + 1 := by
  have hPath := PathStep.pays_read.plain8 (by omega)
  refine .bind .byte fun code => .bind (Target.pays_read code) fun target =>
    .bind hPath fun path => .bind (AnnotationUse.pays_read room) fun use => .pure ?_
  simp only [items]
  omega

/-! ## Attributes -/

section

variable {pool : Pool} {room : Nat} {inner : Option (Reader Attribute)}
  (hInner : InnerPays inner Attribute.items)

include hInner

theorem Attribute.pays_readInner :
    (readInner inner).Pays 0 fun attributes => itemsAll attributes + 2 := by
  refine .bind .word16 fun length => ?_
  cases inner with
  | none => exact .fail
  | some attr =>
      refine (((hInner attr rfl).count _).withCredit _).cheaper fun attributes => ?_
      rw [itemsAll_eq_itemsOf]

theorem Code.pays_readWith : (readWith inner).Pays 0 items := by
  have hHandlers := ExceptionHandler.pays_read.plain16 (by omega)
  refine .bind .word16 fun maxStack => .bind .word16 fun maxLocals =>
    .bind .word32 fun length => ?_
  split
  · exact .fail
  · refine .bind (.take _) fun instructions => .bind hHandlers fun handlers =>
      .bind (Attribute.pays_readInner hInner) fun attributes => .pure ?_
    simp only [items]
    omega

theorem RecordComponent.pays_readWith :
    (readWith inner).Pays 0 fun component => component.items + 1 := by
  refine .bind .word16 fun name => .bind .word16 fun descriptor =>
    .bind (Attribute.pays_readInner hInner) fun attributes => .pure ?_
  simp only [items]
  omega

/-- Whatever a payload is, its reader pays for what is inside it.  The run of bytes behind
a marker is paid for and not kept. -/
theorem Payload.pays_readWith (length : UInt32) (kind : AttributeKind) :
    (readWith room inner length kind).Pays 0 items := by
  have hUses : (AnnotationUse.read room).Pays 0 fun use => use.items + 1 :=
    (AnnotationUse.pays_read room).cheaper fun use => Nat.le_succ _
  cases kind with
  | reference role => exact Pays.word16.map fun _ => Nat.zero_le _
  | references role => exact pays_indices.map fun indices => Nat.le_add_right _ _
  | marker marker => exact .bind (.take _) fun _ => .pure (Nat.zero_le _)
  | code => exact (Code.pays_readWith hInner).map fun body => le_rfl
  | stackMapTable => exact Frame.pays_read.list16.map fun frames => Nat.le_add_right _ _
  | innerClasses =>
      exact (InnerClass.pays_read.plain16 (by omega)).map fun classes => Nat.le_add_right _ _
  | enclosingMethod =>
      exact .bind .word16 fun _ => .bind .word16 fun _ => .pure (Nat.zero_le _)
  | sourceDebugExtension => exact (Pays.take _).map fun bytes => le_rfl
  | lineNumbers =>
      exact (LineNumber.pays_read.plain16 (by omega)).map fun lines => Nat.le_add_right _ _
  | localVariables table =>
      exact (LocalVariable.pays_read.plain16 (by omega)).map fun entries =>
        Nat.le_add_right _ _
  | annotations visibility => exact hUses.list16.map fun uses => Nat.le_add_right _ _
  | parameterAnnotations visibility =>
      have hParameter := hUses.list16.cheaper fun uses => Nat.le_succ _
      exact hParameter.list8.map fun parameters => Nat.le_add_right _ _
  | typeAnnotations visibility =>
      exact (TypeAnnotationUse.pays_read room).list16.map fun typeUses =>
        Nat.le_add_right _ _
  | annotationDefault => exact (ElementValue.pays_read room).map fun value => le_rfl
  | bootstrapMethods =>
      exact BootstrapMethod.pays_read.list16.map fun methods => Nat.le_add_right _ _
  | methodParameters =>
      exact (MethodParameter.pays_read.plain8 (by omega)).map fun parameters =>
        Nat.le_add_right _ _
  | module => exact ModuleDescriptor.pays_read.map fun descriptor => le_rfl
  | record =>
      refine (RecordComponent.pays_readWith hInner).list16.map fun components => ?_
      rw [items, RecordComponent.itemsAll_eq_itemsOf]
      exact Nat.le_add_right _ _

theorem Attribute.pays_readWith :
    (readWith pool room inner).Pays 0 fun attr => attr.items + 1 := by
  refine .bind .word16 fun name => .bind .word32 fun length => ?_
  cases pool.attributeKind? name with
  | none =>
      refine .bind (.take _) fun bytes => .pure ?_
      simp only [items, Payload.items]
      omega
  | some kind =>
      refine .bind (Payload.pays_readWith hInner length kind).measure fun result => ?_
      obtain ⟨payload, actual⟩ := result
      show (if actual = length.toNat then _ else _ : Reader Attribute).Pays _ _
      split
      · refine .pure ?_
        simp only [items]
        omega
      · exact .fail

end

/-- An attribute pays for itself and for all that is inside it, at every depth. -/
theorem Attribute.pays_read (pool : Pool) (room : Nat) :
    (read pool room).Pays 0 fun attr => attr.items + 1 := by
  induction room with
  | zero => exact pays_readWith fun _ hNone => by cases hNone
  | succ room ih =>
      refine pays_readWith fun attr hAttr => ?_
      obtain rfl := Option.some.inj hAttr
      exact ih

end ClassFormat
