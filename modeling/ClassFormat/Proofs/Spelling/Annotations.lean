import Mathlib
import ClassFormat.Annotations.Layout
import ClassFormat.Proofs.Spelling.Basic

namespace ClassFormat

/-!
# The spelling of annotations

The depth of a value is the number of levels that lie below it: a nested
annotation and an array open one each, an array also when it is empty.  The
reader that may descend `room` levels reads the values whose depth is at most
`room` and whose lists can be counted, and inverts the writer on them.

* `ElementValue.inverts_read`, by induction on the room, is the main statement.
-/

open Reader

/-! ## Depth -/

mutual

/-- The number of levels below a value. -/
def ElementValue.depth : ElementValue → Nat
  | .constant _ _ | .enumeration _ _ | .classLiteral _ => 0
  | .nested use => use.depth + 1
  | .array values => ElementValue.depthAll values + 1

/-- The greatest depth of some values. -/
def ElementValue.depthAll : List ElementValue → Nat
  | [] => 0
  | value :: rest => max value.depth (ElementValue.depthAll rest)

/-- The number of levels below an annotation. -/
def AnnotationUse.depth : AnnotationUse → Nat
  | ⟨_, elements⟩ => Element.depthAll elements

/-- The number of levels below an element. -/
def Element.depth : Element → Nat
  | ⟨_, value⟩ => value.depth

/-- The greatest depth of some elements. -/
def Element.depthAll : List Element → Nat
  | [] => 0
  | element :: rest => max element.depth (Element.depthAll rest)

end

theorem ElementValue.depthAll_le_iff {values : List ElementValue} {n : Nat} :
    ElementValue.depthAll values ≤ n ↔ ∀ value ∈ values, value.depth ≤ n := by
  induction values with
  | nil => simp [depthAll]
  | cons value rest ih => simp [depthAll, ih]

theorem Element.depthAll_le_iff {elements : List Element} {n : Nat} :
    Element.depthAll elements ≤ n ↔ ∀ element ∈ elements, element.depth ≤ n := by
  induction elements with
  | nil => simp [depthAll]
  | cons element rest ih => simp [depthAll, ih]

/-! ## Lists that can be counted -/

mutual

/-- All lists in a value can be counted. -/
def ElementValue.WellFormed : ElementValue → Prop
  | .constant _ _ | .enumeration _ _ | .classLiteral _ => True
  | .nested use => use.WellFormed
  | .array values =>
      values.length < 0x10000 ∧ ElementValue.AllWellFormed values

/-- All lists in some values can be counted. -/
def ElementValue.AllWellFormed : List ElementValue → Prop
  | [] => True
  | value :: rest => value.WellFormed ∧ ElementValue.AllWellFormed rest

/-- All lists in an annotation can be counted. -/
def AnnotationUse.WellFormed : AnnotationUse → Prop
  | ⟨_, elements⟩ => elements.length < 0x10000 ∧ Element.AllWellFormed elements

/-- All lists in an element can be counted. -/
def Element.WellFormed : Element → Prop
  | ⟨_, value⟩ => value.WellFormed

/-- All lists in some elements can be counted. -/
def Element.AllWellFormed : List Element → Prop
  | [] => True
  | element :: rest => element.WellFormed ∧ Element.AllWellFormed rest

end

theorem ElementValue.allWellFormed_iff {values : List ElementValue} :
    ElementValue.AllWellFormed values ↔ ∀ value ∈ values, value.WellFormed := by
  induction values with
  | nil => simp [AllWellFormed]
  | cons value rest ih => simp [AllWellFormed, ih]

theorem Element.allWellFormed_iff {elements : List Element} :
    Element.AllWellFormed elements ↔ ∀ element ∈ elements, element.WellFormed := by
  induction elements with
  | nil => simp [AllWellFormed]
  | cons element rest ih => simp [AllWellFormed, ih]

theorem ElementValue.writeAll_eq_flatMap (values : List ElementValue) :
    ElementValue.writeAll values = values.flatMap ElementValue.write := by
  induction values with
  | nil => rfl
  | cons value rest ih => rw [writeAll, ih, List.flatMap_cons]

theorem Element.writeAll_eq_flatMap (elements : List Element) :
    Element.writeAll elements = elements.flatMap Element.write := by
  induction elements with
  | nil => rfl
  | cons element rest ih => rw [writeAll, ih, List.flatMap_cons]

theorem AnnotationUse.write_eq_list16 (type : UInt16) (elements : List Element) :
    AnnotationUse.write ⟨type, elements⟩ =
      BigEndian.bytes16 type ++ Writer.list16 Element.write elements := by
  rw [write, Writer.list16, Element.writeAll_eq_flatMap, List.append_assoc]

theorem ElementValue.write_array_eq_list16 (values : List ElementValue) :
    ElementValue.write (.array values) =
      '['.toUInt8 :: Writer.list16 ElementValue.write values := by
  rw [write, Writer.list16, writeAll_eq_flatMap]

/-! ## Values and annotations -/

/-- The values that a reader with so much room is for. -/
def ElementValue.Fits (room : Nat) (value : ElementValue) : Prop :=
  value.WellFormed ∧ value.depth ≤ room

/-- The annotations that a reader with so much room is for. -/
def AnnotationUse.Fits (room : Nat) (use : AnnotationUse) : Prop :=
  use.WellFormed ∧ use.depth ≤ room

/-- The elements that a reader with so much room is for. -/
def Element.Fits (room : Nat) (element : Element) : Prop :=
  element.WellFormed ∧ element.depth ≤ room

theorem AnnotationUse.fits_iff {room : Nat} {type : UInt16}
    {elements : List Element} :
    AnnotationUse.Fits room ⟨type, elements⟩ ↔
      Counted16 (Element.Fits room) elements := by
  have hElements : AnnotationUse.WellFormed ⟨type, elements⟩ ↔
      Counted16 Element.WellFormed elements := by
    rw [WellFormed, Element.allWellFormed_iff, Counted16]
  rw [Fits, hElements, depth, Element.depthAll_le_iff]
  exact counted16_and.symm

theorem ElementValue.array_fits_iff {room : Nat} {values : List ElementValue} :
    ElementValue.Fits (room + 1) (.array values) ↔
      Counted16 (ElementValue.Fits room) values := by
  have hValues : ElementValue.WellFormed (.array values) ↔
      Counted16 ElementValue.WellFormed values := by
    rw [WellFormed, allWellFormed_iff, Counted16]
  rw [Fits, hValues, depth, Nat.add_le_add_iff_right, depthAll_le_iff]
  exact counted16_and.symm

section

variable {room : Nat} {value : Reader ElementValue}
  (hValue : value.Inverts (ElementValue.Fits room) ElementValue.write)

include hValue

theorem Element.inverts_readWith :
    (Element.readWith value).Inverts (Element.Fits room) Element.write := by
  refine .of_run fun bytes element rest => ?_
  obtain ⟨name, inner⟩ := element
  simp [readWith, hValue.run_eq_ok, Fits, ElementValue.Fits, WellFormed, depth, write,
    and_comm, and_left_comm]

theorem AnnotationUse.inverts_readWith :
    (AnnotationUse.readWith value).Inverts (AnnotationUse.Fits room)
      AnnotationUse.write := by
  refine .of_run fun bytes use rest => ?_
  obtain ⟨type, elements⟩ := use
  rw [fits_iff, write_eq_list16]
  simp [readWith, (Element.inverts_readWith hValue).list16.run_eq_ok, and_comm]

end

namespace ElementValue

/-- What may be inside a value that may descend `room` levels: nothing without
room, and otherwise the values that fit one level less. -/
inductive InnerInverts : Option (Reader ElementValue) → Nat → Prop where
  | none : InnerInverts none 0
  | some {value : Reader ElementValue} {room : Nat}
      (hValue : value.Inverts (Fits room) write) :
      InnerInverts (some value) (room + 1)

variable {room : Nat} {inner : Option (Reader ElementValue)}

/-- A reader of the only contents that the values of a form have, when such a value
is written as its letter and its contents. -/
theorem run_map_written_eq_ok {α : Type} (build : α → ElementValue) {p : Reader α}
    {good : α → Prop} {writeContent : Writer α} {form : ElementForm}
    (hInverts : p.Inverts good writeContent)
    (hForm : ∀ value, value.form = form ↔ ∃ content, build content = value)
    (hContent : ∀ content, (good content ↔ (build content).Fits room) ∧
      (build content).write = form.code :: writeContent content)
    {value : ElementValue} {bytes rest : List UInt8} :
    (build <$> p).run bytes = .ok (value, rest) ↔
      value.form = form ∧ value.Fits room ∧
        form.code :: bytes = value.write ++ rest := by
  simp only [run_map_eq_ok, hInverts.run_eq_ok, hForm]
  constructor
  · intro hRun
    obtain ⟨content, ⟨hGood, rfl⟩, rfl⟩ := hRun
    obtain ⟨hFits, hWrite⟩ := hContent content
    rw [hWrite]
    exact ⟨⟨content, rfl⟩, hFits.mp hGood, rfl⟩
  · intro hSpelled
    obtain ⟨⟨content, rfl⟩, hFits, hBytes⟩ := hSpelled
    obtain ⟨hGood, hWrite⟩ := hContent content
    rw [hWrite] at hBytes
    exact ⟨content, ⟨hGood.mpr hFits, List.tail_eq_of_cons_eq hBytes⟩, rfl⟩

/-- The fields of a value are read behind the letter of its form. -/
theorem run_readFields_eq_ok (hInner : InnerInverts inner room)
    {form : ElementForm} {value : ElementValue} {bytes rest : List UInt8} :
    (readFields inner form).run bytes = .ok (value, rest) ↔
      value.form = form ∧ value.Fits room ∧
        form.code :: bytes = value.write ++ rest := by
  cases form with
  | constant kind =>
      refine run_map_written_eq_ok (constant kind) inverts_word16
        (fun value => ?_) (fun index => ⟨?_, rfl⟩)
      · cases value <;> simp [ElementValue.form, eq_comm]
      · simp [Fits, WellFormed, depth]
  -- Two words that are not one record.
  | enumeration =>
      simp only [readFields, run_bind_eq_ok, run_word16_eq_ok, run_pure_eq_ok]
      constructor
      · intro hRun
        obtain ⟨type, _, rfl, name, _, rfl, rfl, rfl⟩ := hRun
        exact ⟨rfl, ⟨trivial, Nat.zero_le room⟩, by simp [write, ElementForm.code]⟩
      · intro hSpelled
        obtain ⟨hForm, -, hBytes⟩ := hSpelled
        cases value with
        | enumeration type name =>
            refine ⟨type, _, (List.tail_eq_of_cons_eq hBytes).trans ?_,
              name, _, rfl, rfl, rfl⟩
            simp
        | _ => simp [ElementValue.form] at hForm
  | classLiteral =>
      refine run_map_written_eq_ok classLiteral inverts_word16
        (fun value => ?_) (fun descriptor => ⟨?_, rfl⟩)
      · cases value <;> simp [ElementValue.form]
      · simp [Fits, WellFormed, depth]
  | nested =>
      cases hInner with
      | none =>
          simp only [readFields, run_fail_eq_ok, false_iff]
          intro hRun
          obtain ⟨hForm, hFits, -⟩ := hRun
          cases value with
          | nested use => exact absurd hFits.2 (Nat.not_succ_le_zero _)
          | _ => simp [ElementValue.form] at hForm
      | @some inner room hValue =>
          refine run_map_written_eq_ok nested (AnnotationUse.inverts_readWith hValue)
            (fun value => ?_) (fun use => ⟨?_, rfl⟩)
          · cases value <;> simp [ElementValue.form]
          · simp [Fits, AnnotationUse.Fits, WellFormed, depth]
  | array =>
      cases hInner with
      | none =>
          simp only [readFields, run_bind_eq_ok, run_fail_eq_ok, and_false,
            exists_false, false_iff]
          intro hRun
          obtain ⟨hForm, hFits, -⟩ := hRun
          cases value with
          | array values => exact absurd hFits.2 (Nat.not_succ_le_zero _)
          | _ => simp [ElementValue.form] at hForm
      | @some inner room hValue =>
          -- Behind the letter an array is a list with its length in front.
          have hList : (readFields (some inner) .array).run bytes = .ok (value, rest) ↔
              (array <$> list16 inner).run bytes = .ok (value, rest) := by
            simp only [readFields, list16, run_bind_eq_ok, run_map_eq_ok]
            tauto
          rw [hList]
          refine run_map_written_eq_ok array hValue.list16
            (fun value => ?_) (fun values => ⟨array_fits_iff.symm, ?_⟩)
          · cases value <;> simp [ElementValue.form]
          · exact write_array_eq_list16 values

theorem write_eq_cons (value : ElementValue) :
    ∃ tail, value.write = value.form.code :: tail := by
  cases value <;> exact ⟨_, rfl⟩

theorem inverts_readWith (hInner : InnerInverts inner room) :
    (readWith inner).Inverts (Fits room) write := by
  refine .of_run fun bytes value rest => ?_
  simp only [readWith, run_bind_eq_ok, run_byte_eq_ok]
  constructor
  · intro hRun
    obtain ⟨code, tail, rfl, hRun⟩ := hRun
    cases hForm : ElementForm.ofCode? code with
    | none =>
        rw [hForm] at hRun
        exact (run_fail_eq_ok.mp hRun).elim
    | some form =>
        rw [hForm] at hRun
        obtain ⟨-, hFits, hBytes⟩ := (run_readFields_eq_ok hInner).mp hRun
        rw [ElementForm.ofCode?_eq_some_iff.mp hForm] at hBytes
        exact ⟨hFits, hBytes⟩
  · intro hSpelled
    obtain ⟨hFits, rfl⟩ := hSpelled
    obtain ⟨tail, hTail⟩ := value.write_eq_cons
    refine ⟨value.form.code, tail ++ rest, by rw [hTail, List.cons_append], ?_⟩
    rw [ElementForm.ofCode?_code]
    exact (run_readFields_eq_ok hInner).mpr
      ⟨rfl, hFits, by rw [hTail, List.cons_append]⟩

/-- The reader of values inverts their writer on the values that it has room
for. -/
theorem inverts_read (room : Nat) : (read room).Inverts (Fits room) write := by
  induction room with
  | zero => exact inverts_readWith .none
  | succ room ih => exact inverts_readWith (.some ih)

end ElementValue

theorem AnnotationUse.inverts_read (room : Nat) :
    (AnnotationUse.read room).Inverts (AnnotationUse.Fits room)
      AnnotationUse.write :=
  inverts_readWith (ElementValue.inverts_read room)

/-! ## Type annotations -/

theorem LocalRange.inverts_read :
    LocalRange.read.Inverts (fun _ => True) LocalRange.write := by
  refine .of_run fun bytes range rest => ?_
  obtain ⟨start, length, index⟩ := range
  simp [read, write]

theorem PathStep.inverts_read :
    PathStep.read.Inverts (fun _ => True) PathStep.write := by
  refine .of_run fun bytes step rest => ?_
  obtain ⟨kind, argument⟩ := step
  simp [read, write]

/-- The ranges of a target can be counted. -/
def Target.WellFormed : Target → Prop
  | localVariable ranges => ranges.length < 0x10000
  | _ => True

theorem Target.run_readFields_eq_ok {form : TargetForm} {target : Target}
    {bytes rest : List UInt8} :
    (readFields form).run bytes = .ok (target, rest) ↔
      target.form = form ∧ target.WellFormed ∧ bytes = target.write ++ rest := by
  cases form <;> cases target <;>
    simp [readFields, Target.form, WellFormed, write,
      LocalRange.inverts_read.list16.run_eq_ok]

theorem Target.run_read_eq_ok {code : UInt8} {target : Target}
    {bytes rest : List UInt8} :
    (Target.read code).run bytes = .ok (target, rest) ↔
      TargetForm.ofCode? code = some target.form ∧ target.WellFormed ∧
        bytes = target.write ++ rest := by
  rw [Target.read]
  cases TargetForm.ofCode? code with
  | none => simp
  | some form => rw [run_readFields_eq_ok, Option.some.injEq, eq_comm (a := form)]

/-- A type annotation whose target belongs to its target type, and all whose
lists can be counted. -/
structure TypeAnnotationUse.WellFormed (typeUse : TypeAnnotationUse) : Prop where
  target_form : TargetForm.ofCode? typeUse.targetType = some typeUse.target.form
  target : typeUse.target.WellFormed
  path : typeUse.path.length < 0x100
  use : typeUse.use.WellFormed

/-- The number of levels below a type annotation. -/
def TypeAnnotationUse.depth (typeUse : TypeAnnotationUse) : Nat :=
  typeUse.use.depth

/-- The type annotations that a reader with so much room is for. -/
def TypeAnnotationUse.Fits (room : Nat) (typeUse : TypeAnnotationUse) : Prop :=
  typeUse.WellFormed ∧ typeUse.depth ≤ room

theorem TypeAnnotationUse.inverts_read (room : Nat) :
    (TypeAnnotationUse.read room).Inverts (TypeAnnotationUse.Fits room)
      TypeAnnotationUse.write := by
  refine .of_run fun bytes typeUse rest => ?_
  obtain ⟨targetType, target, path, use⟩ := typeUse
  simp only [read, write, run_bind_eq_ok, run_byte_eq_ok, run_pure_eq_ok,
    Target.run_read_eq_ok, PathStep.inverts_read.list8.run_eq_ok,
    (AnnotationUse.inverts_read room).run_eq_ok, counted8_true]
  constructor
  · intro hRun
    obtain ⟨_, _, rfl, _, _, ⟨hForm, hTarget, rfl⟩, _, _, ⟨hPath, rfl⟩, _, _, ⟨hUse,
      rfl⟩, hParts, rfl⟩ := hRun
    injection hParts with hType hTarget' hPath' hUse'
    subst hType hTarget' hPath' hUse'
    exact ⟨⟨⟨hForm, hTarget, hPath, hUse.1⟩, hUse.2⟩, by simp⟩
  · intro hSpelled
    obtain ⟨⟨hWellFormed, hDepth⟩, rfl⟩ := hSpelled
    obtain ⟨hForm, hTarget, hPath, hUse⟩ := hWellFormed
    exact ⟨_, _, rfl, _, _, ⟨hForm, hTarget, by simp⟩, _, _, ⟨hPath, rfl⟩, _, _,
      ⟨⟨hUse, hDepth⟩, rfl⟩, rfl, rfl⟩

end ClassFormat
