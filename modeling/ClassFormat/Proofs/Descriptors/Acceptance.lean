import Mathlib
import ClassFormat.Proofs.Descriptors.Declarations

namespace ClassFormat

/-!
# Which descriptors are accepted

A descriptor proper is that of a field, which is one type, or that of a method, which has
any number of parameters and one result.  `void` is a result only, and the name of a class
has at least one segment.  The reader is more generous: wherever a type may stand it takes
a run of types, `void` is one of them, and a class may have any name without a semicolon.

* `Descriptor.FieldType` and `Descriptor.IsDescriptor` say what is a proper descriptor.
* `TypeName.fieldType_iff` says the same of a type, by what is read.
* `Descriptor.declaration_of_runs` says what is accepted and what is not.
-/

/-! ## Proper descriptors -/

namespace Descriptor

/-- A name between two slashes. -/
structure IsSegment (name : List Char) : Prop where
  nonempty : name ≠ []
  allowed : ∀ char ∈ name, char ∉ ['.', ';', '[', '/']

/-- The name of a class: segments with slashes between them. -/
inductive ClassName : List Char → Prop
  | last {name : List Char} (hName : IsSegment name) : ClassName name
  | cons {name rest : List Char} (hName : IsSegment name) (hRest : ClassName rest) :
      ClassName (name ++ '/' :: rest)

/-- The characters spell the type of a field. -/
inductive FieldType : List Char → Prop
  | letter {letter : Char} (hLetter : letter ∈ ['B', 'C', 'D', 'F', 'I', 'J', 'S', 'Z']) :
      FieldType [letter]
  | object {name : List Char} (hName : ClassName name) : FieldType ('L' :: (name ++ [';']))
  | array {spelling : List Char} (hItem : FieldType spelling) : FieldType ('[' :: spelling)

/-- The characters spell types of fields, one after another. -/
inductive FieldTypes : List Char → Prop
  | nil : FieldTypes []
  | cons {spelling rest : List Char} (hType : FieldType spelling) (hRest : FieldTypes rest) :
      FieldTypes (spelling ++ rest)

/-- A proper descriptor of a field or of a method. -/
inductive IsDescriptor : List Char → Prop
  | field {chars : List Char} (hType : FieldType chars) : IsDescriptor chars
  | method {parameters result : List Char} (hParameters : FieldTypes parameters)
      (hResult : FieldType result ∨ result = ['V']) :
      IsDescriptor ('(' :: (parameters ++ ')' :: result))

/-- Runs where a proper descriptor has types: one for a field, two for a method. -/
inductive HasRuns : List Char → Prop
  | field {chars : List Char} (hTypes : IsRun chars) : HasRuns chars
  | method {parameters result : List Char} (hParameters : IsRun parameters)
      (hResult : IsRun result) : HasRuns ('(' :: (parameters ++ ')' :: result))

theorem ClassName.not_mem_semicolon {name : List Char} (hName : ClassName name) :
    ';' ∉ name := by
  have hSegment : ∀ {name : List Char}, IsSegment name → ';' ∉ name := fun hName hEnd =>
    hName.allowed ';' hEnd (by decide)
  induction hName with
  | last hName => exact hSegment hName
  | cons hName _ ih =>
      intro hEnd
      obtain hEnd | hEnd := List.mem_append.mp hEnd
      · exact hSegment hName hEnd
      · exact ih (List.mem_of_ne_of_mem (by decide) hEnd)

theorem ClassName.ne_nil {name : List Char} (hName : ClassName name) : name ≠ [] := by
  cases hName with
  | last hName => exact hName.nonempty
  | cons _ _ => exact List.append_ne_nil_of_right_ne_nil _ (List.cons_ne_nil _ _)

end Descriptor

/-! ## Proper types, as they are read -/

namespace TypeName

/-- Whether a field may have the type. -/
def IsField (type : TypeName) : Prop :=
  match type.base with
  | .primitive primitive => primitive ≠ .void
  | .reference name => Descriptor.ClassName name

theorem IsField.hasSpelling {type : TypeName} (hType : type.IsField) : type.HasSpelling := by
  intro name hName
  rw [IsField, hName] at hType
  exact hType.not_mem_semicolon

/-- A type is spelled as that of a field if a field may have it. -/
theorem fieldType_spelling {type : TypeName} (hType : type.IsField) :
    Descriptor.FieldType type.spelling := by
  obtain ⟨base, dimensions⟩ := type
  induction dimensions with
  | zero =>
      cases base with
      | primitive primitive =>
          have hLetter : primitive.letter ∈ ['B', 'C', 'D', 'F', 'I', 'J', 'S', 'Z'] := by
            cases primitive with
            | void => exact absurd rfl hType
            | _ => decide
          exact .letter hLetter
      | reference name => exact .object hType
  | succ dimensions ih => exact .array (ih hType)

/-- The characters spell the type of a field exactly when one such type is read. -/
theorem fieldType_iff {chars : List Char} :
    Descriptor.FieldType chars ↔
      ∃ type : TypeName, type.IsField ∧ runOf? chars = some [type] := by
  simp only [runOf?_eq_some_iff, List.forall_mem_singleton, List.flatMap_singleton]
  constructor
  · intro hType
    induction hType with
    | @letter letter hLetter =>
        simp only [List.mem_cons, List.not_mem_nil, or_false] at hLetter
        obtain ⟨primitive, hVoid, rfl⟩ :
            ∃ primitive : Primitive, primitive ≠ .void ∧ primitive.letter = letter := by
          rcases hLetter with rfl | rfl | rfl | rfl | rfl | rfl | rfl | rfl
          · exact ⟨.byte, by decide, rfl⟩
          · exact ⟨.char, by decide, rfl⟩
          · exact ⟨.double, by decide, rfl⟩
          · exact ⟨.float, by decide, rfl⟩
          · exact ⟨.int, by decide, rfl⟩
          · exact ⟨.long, by decide, rfl⟩
          · exact ⟨.short, by decide, rfl⟩
          · exact ⟨.boolean, by decide, rfl⟩
        exact ⟨⟨.primitive primitive, 0⟩, hVoid, hasSpelling_primitive _ _, rfl⟩
    | @object name hName =>
        exact ⟨⟨.reference name, 0⟩, hName,
          hasSpelling_reference hName.not_mem_semicolon _, rfl⟩
    | array _ ih =>
        obtain ⟨⟨base, dimensions⟩, hType, hSpelling, rfl⟩ := ih
        exact ⟨⟨base, dimensions + 1⟩, hType, hSpelling, rfl⟩
  · intro hType
    obtain ⟨type, hType, -, rfl⟩ := hType
    exact fieldType_spelling hType

/-- The characters spell types of fields exactly when such types are read. -/
theorem fieldTypes_iff {chars : List Char} :
    Descriptor.FieldTypes chars ↔
      ∃ types : List TypeName, (∀ type ∈ types, type.IsField) ∧ runOf? chars = some types := by
  simp only [runOf?_eq_some_iff]
  constructor
  · intro hTypes
    induction hTypes with
    | nil => exact ⟨[], List.forall_mem_nil _, List.forall_mem_nil _, rfl⟩
    | cons hType _ ih =>
        obtain ⟨type, hField, hRead⟩ := fieldType_iff.mp hType
        obtain ⟨hSpelling, rfl⟩ := runOf?_eq_some_iff.mp hRead
        obtain ⟨types, hFields, hSpellings, rfl⟩ := ih
        exact ⟨type :: types, List.forall_mem_cons.mpr ⟨hField, hFields⟩,
          List.forall_mem_cons.mpr ⟨hField.hasSpelling, hSpellings⟩, by simp⟩
  · intro hTypes
    obtain ⟨types, hFields, -, rfl⟩ := hTypes
    induction types with
    | nil => exact .nil
    | cons type types ih =>
        obtain ⟨hField, hOthers⟩ := List.forall_mem_cons.mp hFields
        exact .cons (fieldType_spelling hField) (ih hOthers)

end TypeName

/-! ## What is accepted -/

namespace Descriptor

theorem FieldType.isRun {chars : List Char} (hType : FieldType chars) : IsRun chars := by
  obtain ⟨type, -, hRun⟩ := TypeName.fieldType_iff.mp hType
  exact isRun_iff.mpr ⟨[type], hRun⟩

theorem FieldTypes.isRun {chars : List Char} (hTypes : FieldTypes chars) : IsRun chars := by
  obtain ⟨types, -, hRun⟩ := TypeName.fieldTypes_iff.mp hTypes
  exact isRun_iff.mpr ⟨types, hRun⟩

theorem isRun_void : IsRun ['V'] := isRun_iff.mpr ⟨[⟨.primitive .void, 0⟩], rfl⟩

theorem FieldType.isField {chars : List Char} {types : List TypeName} (hType : FieldType chars)
    (hRun : TypeName.runOf? chars = some types) : ∃ type, types = [type] ∧ type.IsField := by
  obtain ⟨type, hField, hRead⟩ := TypeName.fieldType_iff.mp hType
  exact ⟨type, Option.some.inj (hRun.symm.trans hRead), hField⟩

theorem FieldTypes.areFields {chars : List Char} {types : List TypeName}
    (hTypes : FieldTypes chars) (hRun : TypeName.runOf? chars = some types) :
    ∀ type ∈ types, type.IsField := by
  obtain ⟨others, hFields, hRead⟩ := TypeName.fieldTypes_iff.mp hTypes
  obtain rfl := Option.some.inj (hRun.symm.trans hRead)
  exact hFields

/-- No type begins with a parenthesis. -/
theorem IsRun.head?_ne {chars : List Char} (hRun : IsRun chars) : chars.head? ≠ some '(' := by
  intro hHead
  obtain ⟨rest, rfl⟩ := List.head?_eq_some_iff.mp hHead
  obtain ⟨types, hTypes⟩ := isRun_iff.mp hRun
  cases hTypes

/-- What is declared consists of runs. -/
theorem Declares.hasRuns {name text : String} {chars : List Char}
    (hText : Declares name chars text) : HasRuns chars := by
  cases hText with
  | field _ hTypes => exact .field ⟨_, hTypes⟩
  | method _ hResult hParameters => exact .method ⟨_, hParameters⟩ ⟨_, hResult⟩

variable {name descriptor : String}

theorem declaration_of_isRun (hRun : IsRun descriptor.toList) :
    ∃ text, declaration name descriptor = .ok text := by
  have hField := hRun.head?_ne
  obtain ⟨types, hTypes⟩ := hRun
  exact ⟨_, declaration_of_declares (.field hField hTypes)⟩

theorem declaration_of_isRun_isRun {parameters result : List Char} (hFirst : ')' ∉ parameters)
    (hParameters : IsRun parameters) (hResult : IsRun result)
    (hChars : descriptor.toList = '(' :: (parameters ++ ')' :: result)) :
    ∃ text, declaration name descriptor = .ok text := by
  obtain ⟨parameterTypes, hParameters⟩ := hParameters
  obtain ⟨resultTypes, hResult⟩ := hResult
  have hText : Declares name ('(' :: (parameters ++ ')' :: result)) _ :=
    .method hFirst hResult hParameters
  exact ⟨_, declaration_of_declares (hChars ▸ hText)⟩

theorem isDescriptor_field_iff {chars : List Char} (hField : chars.head? ≠ some '(') :
    IsDescriptor chars ↔ FieldType chars := by
  constructor
  · intro hChars
    cases hChars with
    | field hType => exact hType
    | method _ _ => exact absurd rfl hField
  · exact .field

theorem isDescriptor_method_iff {parameters result : List Char} (hFirst : ')' ∉ parameters)
    (hLast : ')' ∉ result) :
    IsDescriptor ('(' :: (parameters ++ ')' :: result)) ↔
      FieldTypes parameters ∧ (FieldType result ∨ result = ['V']) := by
  constructor
  · intro hChars
    generalize hShape : '(' :: (parameters ++ ')' :: result) = chars at hChars
    cases hChars with
    | field hType => exact absurd (hShape ▸ rfl) hType.isRun.head?_ne
    | method hParameters hResult =>
        obtain ⟨rfl, -, rfl⟩ :=
          (List.append_cons_inj_of_notMem hFirst hLast).mp (List.cons.inj hShape).2
        exact ⟨hParameters, hResult⟩
  · intro hTypes
    exact .method hTypes.1 hTypes.2

/-- A run is accepted, and so are two runs with parentheses around the first, if the first
has no closing one itself; among these are the proper descriptors of fields, and those of
methods whose parameters have no closing parenthesis.  What does not consist of runs is not
accepted. -/
theorem declaration_of_runs (name descriptor : String) :
    (IsRun descriptor.toList → ∃ text, declaration name descriptor = .ok text) ∧
    (∀ parameters result, ')' ∉ parameters → IsRun parameters → IsRun result →
      descriptor.toList = '(' :: (parameters ++ ')' :: result) →
      ∃ text, declaration name descriptor = .ok text) ∧
    (FieldType descriptor.toList → ∃ text, declaration name descriptor = .ok text) ∧
    (∀ parameters result, ')' ∉ parameters → FieldTypes parameters →
      FieldType result ∨ result = ['V'] →
      descriptor.toList = '(' :: (parameters ++ ')' :: result) →
      ∃ text, declaration name descriptor = .ok text) ∧
    (¬ HasRuns descriptor.toList →
      ∃ part, declaration name descriptor = .error (.malformedDescriptor part)) := by
  refine ⟨declaration_of_isRun, fun _ _ => declaration_of_isRun_isRun,
    fun hType => declaration_of_isRun hType.isRun, ?_, ?_⟩
  · intro parameters result hFirst hParameters hResult hChars
    have hResult : IsRun result := by
      obtain hType | rfl := hResult
      · exact hType.isRun
      · exact isRun_void
    exact declaration_of_isRun_isRun hFirst hParameters.isRun hResult hChars
  · intro hRuns
    obtain ⟨text, hText⟩ | ⟨part, hPart⟩ := declares_or_blames name descriptor.toList
    · exact absurd hText.hasRuns hRuns
    · exact ⟨_, declaration_of_blames hPart⟩

/-- A class whose name is no proper one, two proper descriptors, and a letter of no type. -/
theorem declaration_of_runs_oddName :
    (∃ text, declaration "f" "[L[é;I" = .ok text) ∧
    (∃ text, declaration "f" "(L[é;V)II" = .ok text) ∧
    (∃ text, declaration "f" "[I" = .ok text) ∧
    (∃ text, declaration "f" "(I)V" = .ok text) ∧
    ∃ part, declaration "f" "Q" = .error (.malformedDescriptor part) := by
  have hInt : FieldType ['I'] := .letter (by decide)
  have hInts : FieldTypes ['I'] := .cons hInt .nil
  refine ⟨(declaration_of_runs "f" "[L[é;I").1 ?_,
    (declaration_of_runs "f" "(L[é;V)II").2.1 ['L', '[', 'é', ';', 'V'] ['I', 'I'] (by decide)
      ?_ ?_ rfl,
    (declaration_of_runs "f" "[I").2.2.1 (.array hInt),
    (declaration_of_runs "f" "(I)V").2.2.2.1 ['I'] ['V'] (by decide) hInts (.inr rfl) rfl,
    (declaration_of_runs "f" "Q").2.2.2.2 ?_⟩
  · exact isRun_iff.mpr ⟨_, rfl⟩
  · exact isRun_iff.mpr ⟨_, rfl⟩
  · exact isRun_iff.mpr ⟨_, rfl⟩
  · intro hRuns
    generalize hChars : "Q".toList = chars at hRuns
    cases hRuns with
    | field hTypes =>
        obtain ⟨types, hTypes⟩ := isRun_iff.mp hTypes
        rw [← hChars] at hTypes
        cases hTypes
    | method _ _ => exact absurd (congrArg List.head? hChars) (by simp)

/-- The reader accepts no type, two types, `void`, and a class without a name where a
descriptor has one proper type, and it refuses a proper descriptor with a parenthesis in
the name of a class. -/
theorem declaration_not_proper :
    (declaration "x" "II" = .ok "int, int x" ∧ ¬ IsDescriptor "II".toList) ∧
    (declaration "x" "V" = .ok "void x" ∧ ¬ IsDescriptor "V".toList) ∧
    (declaration "x" "L;" = .ok " x" ∧ ¬ IsDescriptor "L;".toList) ∧
    (declaration "x" "()" = .ok " x()" ∧ ¬ IsDescriptor "()".toList) ∧
    (declaration "x" "(V)I" = .ok "int x(void)" ∧ ¬ IsDescriptor "(V)I".toList) ∧
    (declaration "x" "(La)b;)V" = .error (.malformedDescriptor "b;)V") ∧
      IsDescriptor "(La)b;)V".toList) := by
  have hParenthesis : FieldTypes ['L', 'a', ')', 'b', ';'] :=
    .cons (.object (.last ⟨List.cons_ne_nil _ _, by simp⟩ : ClassName ['a', ')', 'b'])) .nil
  refine ⟨⟨by rfl, fun hProper => ?_⟩, ⟨by rfl, fun hProper => ?_⟩,
    ⟨by rfl, fun hProper => ?_⟩, ⟨by rfl, fun hProper => ?_⟩, ⟨by rfl, fun hProper => ?_⟩,
    by rfl, .method hParenthesis (.inr rfl)⟩
  · have hType := (isDescriptor_field_iff (by decide)).mp hProper
    obtain ⟨type, hTypes, -⟩ := hType.isField (rfl : _ = some [_, _])
    cases hTypes
  · have hType := (isDescriptor_field_iff (by decide)).mp hProper
    obtain ⟨type, hTypes, hField⟩ := hType.isField rfl
    obtain rfl := List.singleton_inj.mp hTypes
    exact hField rfl
  · have hType := (isDescriptor_field_iff (by decide)).mp hProper
    obtain ⟨type, hTypes, hField⟩ := hType.isField rfl
    obtain rfl := List.singleton_inj.mp hTypes
    exact hField.ne_nil rfl
  · have hResult := ((isDescriptor_method_iff List.not_mem_nil List.not_mem_nil).mp hProper).2
    obtain hType | hVoid := hResult
    · obtain ⟨type, hTypes, -⟩ := hType.isField rfl
      cases hTypes
    · cases hVoid
  · have hMethod : IsDescriptor ('(' :: (['V'] ++ ')' :: ['I'])) := hProper
    have hParameters := ((isDescriptor_method_iff (by decide) (by decide)).mp hMethod).1
    exact hParameters.areFields rfl _ (List.mem_singleton_self _) rfl

end Descriptor

end ClassFormat
