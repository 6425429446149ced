import Mathlib
import ClassFormat.Descriptor

namespace ClassFormat

/-!
# Runs of types

A run is any number of types, one after another.  The grammar of runs says which
characters spell a type and how the type is written in source, by going down into the
type.  The reader goes over the characters once; it finds the types of a run if the
characters are one, and nothing otherwise.

* `TypeName.runOf?_eq_some_iff` says that reading a run undoes spelling it.
* `Descriptor.runText_iff` says that what is read and written back is what the grammar
  says.
-/

/-! ## The grammar -/

namespace Descriptor

/-- The letters that spell a type, each with the keyword of the type. -/
def letterTypes : List (Char × String) :=
  [('B', "byte"), ('C', "char"), ('D', "double"), ('F', "float"), ('I', "int"),
    ('J', "long"), ('S', "short"), ('Z', "boolean"), ('V', "void")]

/-- The characters spell a type that is written so in source. -/
inductive TypeText : List Char → String → Prop
  | letter {letter : Char} {keyword : String} (hType : (letter, keyword) ∈ letterTypes) :
      TypeText [letter] keyword
  /-- The name of a class ends at the first semicolon. -/
  | object {name : List Char} (hName : ';' ∉ name) :
      TypeText ('L' :: (name ++ [';']))
        (String.ofList (name.map fun char => if char = '/' then '.' else char))
  | array {spelling : List Char} {text : String} (hItem : TypeText spelling text) :
      TypeText ('[' :: spelling) (text ++ "[]")

/-- The characters spell types, one after another, that are written so in source. -/
inductive RunText : List Char → List String → Prop
  | nil : RunText [] []
  | cons {spelling rest : List Char} {text : String} {texts : List String}
      (hType : TypeText spelling text) (hRest : RunText rest texts) :
      RunText (spelling ++ rest) (text :: texts)

/-- The characters spell any number of types, one after another. -/
def IsRun (chars : List Char) : Prop := ∃ texts, RunText chars texts

end Descriptor

/-! ## Reading a run -/

theorem Primitive.ofLetter?_eq_some_iff {char : Char} {primitive : Primitive} :
    ofLetter? char = some primitive ↔ char = primitive.letter := by
  constructor
  · intro hLetter
    unfold ofLetter? at hLetter
    split at hLetter
    all_goals cases hLetter
    all_goals rfl
  · rintro rfl
    exact ofLetter?_letter primitive

namespace TypeName

/-- Whether the type has a spelling: the name of a class ends at the first semicolon. -/
def HasSpelling (type : TypeName) : Prop :=
  ∀ name, type.base = .reference name → ';' ∉ name

/-- The characters of the type that the reader is in the middle of. -/
def Place.taken : Place → List Char
  | between dimensions => List.replicate dimensions '['
  | within dimensions name => List.replicate dimensions '[' ++ 'L' :: name.reverse

/-- Whether the name of a class goes on. -/
def Place.GoesOn : Place → Prop
  | between _ => True
  | within _ name => ';' ∉ name

theorem hasSpelling_primitive (primitive : Primitive) (dimensions : Nat) :
    HasSpelling ⟨.primitive primitive, dimensions⟩ := by
  intro name hName
  cases hName

theorem hasSpelling_reference {name : List Char} (hName : ';' ∉ name) (dimensions : Nat) :
    HasSpelling ⟨.reference name, dimensions⟩ := by
  intro other hOther
  obtain rfl := BaseType.reference.inj hOther
  exact hName

/-- What is read was spelled: first the rest of the type that the reader is in the middle
of, and then the others. -/
theorem spelled_of_runAfter {done types : List TypeName} {place : Place}
    {chars : List Char} (hPlace : place.GoesOn)
    (hRun : runAfter done place chars = some types) :
    ∃ added, types = done.reverse ++ added ∧ (∀ type ∈ added, type.HasSpelling) ∧
      place.taken ++ chars = added.flatMap spelling := by
  -- A type that is finished is the first of those that are added.
  have hFinish : ∀ {done : List TypeName} {type : TypeName} {rest : List Char},
      type.HasSpelling →
      (∃ added, types = (type :: done).reverse ++ added ∧
        (∀ type ∈ added, type.HasSpelling) ∧ rest = added.flatMap spelling) →
      ∃ added, types = done.reverse ++ added ∧ (∀ type ∈ added, type.HasSpelling) ∧
        type.spelling ++ rest = added.flatMap spelling := by
    intro done type rest hType hRest
    obtain ⟨added, rfl, hAdded, rfl⟩ := hRest
    exact ⟨type :: added, by simp, List.forall_mem_cons.mpr ⟨hType, hAdded⟩, rfl⟩
  fun_induction runAfter done place chars with
  | case1 done =>
      obtain rfl := Option.some.inj hRun
      exact ⟨[], (List.append_nil _).symm, List.forall_mem_nil _, rfl⟩
  | case2 | case3 => cases hRun
  | case4 done dimensions rest ih =>
      obtain ⟨added, hTypes, hAdded, hChars⟩ := ih trivial hRun
      refine ⟨added, hTypes, hAdded, hChars ▸ ?_⟩
      simp [Place.taken, List.replicate_succ']
  | case5 done dimensions rest hBracket ih =>
      obtain ⟨added, hTypes, hAdded, hChars⟩ := ih List.not_mem_nil hRun
      refine ⟨added, hTypes, hAdded, hChars ▸ ?_⟩
      simp [Place.taken]
  | case6 done dimensions char rest hBracket hClass primitive hLetter ih =>
      obtain rfl := Primitive.ofLetter?_eq_some_iff.mp hLetter
      have hAdded := hFinish (hasSpelling_primitive primitive dimensions) (ih trivial hRun)
      simpa [spelling, Place.taken] using hAdded
  | case7 => cases hRun
  | case8 done dimensions name rest ih =>
      have hName : ';' ∉ name.reverse := fun hEnd => hPlace (List.mem_reverse.mp hEnd)
      have hAdded := hFinish (hasSpelling_reference hName dimensions) (ih trivial hRun)
      simpa [spelling, Place.taken] using hAdded
  | case9 done dimensions name char rest hEnd ih =>
      have hName : ';' ∉ char :: name :=
        List.not_mem_cons_of_ne_of_not_mem (Ne.symm hEnd) hPlace
      obtain ⟨added, hTypes, hAdded, hChars⟩ := ih hName hRun
      refine ⟨added, hTypes, hAdded, hChars ▸ ?_⟩
      simp [Place.taken]

/-! ## Reading what is spelled -/

variable {done : List TypeName} {dimensions : Nat}

theorem runAfter_brackets (more : Nat) (rest : List Char) :
    runAfter done (.between dimensions) (List.replicate more '[' ++ rest) =
      runAfter done (.between (dimensions + more)) rest := by
  induction more generalizing dimensions with
  | zero => rfl
  | succ more ih =>
      rw [List.replicate_succ, List.cons_append, runAfter, if_pos rfl, ih]
      congr 2
      omega

theorem runAfter_letter (primitive : Primitive) (rest : List Char) :
    runAfter done (.between dimensions) (primitive.letter :: rest) =
      runAfter (⟨.primitive primitive, dimensions⟩ :: done) (.between 0) rest := by
  have hBracket : primitive.letter ≠ '[' := by cases primitive <;> decide
  have hClass : primitive.letter ≠ 'L' := by cases primitive <;> decide
  rw [runAfter, if_neg hBracket, if_neg hClass, Primitive.ofLetter?_letter]

/-- The name of a class is read up to the first semicolon. -/
theorem runAfter_name {name : List Char} (hName : ';' ∉ name) (before rest : List Char) :
    runAfter done (.within dimensions before) (name ++ ';' :: rest) =
      runAfter (⟨.reference (before.reverse ++ name), dimensions⟩ :: done) (.between 0)
        rest := by
  induction name generalizing before with
  | nil => rw [List.nil_append, runAfter, if_pos rfl, List.append_nil]
  | cons char name ih =>
      obtain ⟨hFirst, hOthers⟩ := List.ne_and_not_mem_of_not_mem_cons hName
      rw [List.cons_append, runAfter, if_neg hFirst.symm, ih hOthers]
      simp

theorem runAfter_class {name : List Char} (hName : ';' ∉ name) (rest : List Char) :
    runAfter done (.between dimensions) ('L' :: (name ++ ';' :: rest)) =
      runAfter (⟨.reference name, dimensions⟩ :: done) (.between 0) rest := by
  rw [runAfter, if_neg (by decide), if_pos rfl, runAfter_name hName]
  rfl

/-- Without a semicolon the name of a class does not end. -/
theorem runAfter_openClass {name rest : List Char} (hRest : ';' ∉ rest) :
    runAfter done (.within dimensions name) rest = none := by
  induction rest generalizing name with
  | nil => rfl
  | cons char rest ih =>
      obtain ⟨hFirst, hOthers⟩ := List.ne_and_not_mem_of_not_mem_cons hRest
      rw [runAfter, if_neg hFirst.symm, ih hOthers]

theorem runAfter_spelling {type : TypeName} (hType : type.HasSpelling)
    (rest : List Char) :
    runAfter done (.between 0) (type.spelling ++ rest) =
      runAfter (type :: done) (.between 0) rest := by
  obtain ⟨base, dimensions⟩ := type
  rw [spelling, List.append_assoc, runAfter_brackets, Nat.zero_add]
  cases base with
  | primitive primitive => exact runAfter_letter primitive rest
  | reference name =>
      have hClass : runAfter done (.between dimensions) ('L' :: (name ++ ';' :: rest)) =
          runAfter (⟨.reference name, dimensions⟩ :: done) (.between 0) rest :=
        runAfter_class (hType name rfl) rest
      simpa using hClass

theorem runAfter_flatMap_spelling {types : List TypeName}
    (hTypes : ∀ type ∈ types, type.HasSpelling) :
    runAfter done (.between 0) (types.flatMap spelling) = some (done.reverse ++ types) := by
  induction types generalizing done with
  | nil => rw [List.append_nil]; rfl
  | cons type types ih =>
      obtain ⟨hType, hOthers⟩ := List.forall_mem_cons.mp hTypes
      rw [List.flatMap_cons, runAfter_spelling hType, ih hOthers, List.reverse_cons,
        List.append_assoc, List.singleton_append]

/-- Reading a run undoes spelling it. -/
theorem runOf?_eq_some_iff {chars : List Char} {types : List TypeName} :
    runOf? chars = some types ↔
      (∀ type ∈ types, type.HasSpelling) ∧ chars = types.flatMap spelling := by
  constructor
  · intro hRun
    have hPlace : (Place.between 0).GoesOn := trivial
    obtain ⟨added, hAdded, hSpelled, hChars⟩ := spelled_of_runAfter hPlace hRun
    rw [List.reverse_nil, List.nil_append] at hAdded
    subst hAdded
    exact ⟨hSpelled, hChars⟩
  · intro hSpelled
    obtain ⟨hTypes, rfl⟩ := hSpelled
    exact runAfter_flatMap_spelling hTypes

/-! ## What is written for a type -/

/-- Every bracket in front of the spelling is a pair of brackets behind the type. -/
theorem render_succ (base : BaseType) (dimensions : Nat) :
    render ⟨base, dimensions + 1⟩ = render ⟨base, dimensions⟩ ++ "[]" := by
  have hBrackets : "".intercalate (List.replicate (dimensions + 1) "[]") =
      "".intercalate (List.replicate dimensions "[]") ++ "[]" := by
    cases dimensions with
    | zero => rfl
    | succ dimensions =>
        rw [List.replicate_succ', String.intercalate_append_of_ne_nil (by simp) (by simp),
          String.intercalate_singleton, String.append_empty]
  rw [render, hBrackets, ← String.append_assoc]
  rfl

end TypeName

namespace Descriptor

theorem mem_letterTypes_iff {letter : Char} {keyword : String} :
    (letter, keyword) ∈ letterTypes ↔
      ∃ primitive : Primitive, letter = primitive.letter ∧ keyword = primitive.keyword := by
  constructor
  · intro hType
    simp only [letterTypes, List.mem_cons, Prod.mk.injEq, List.not_mem_nil, or_false] at hType
    rcases hType with h | h | h | h | h | h | h | h | h
    · exact ⟨.byte, h⟩
    · exact ⟨.char, h⟩
    · exact ⟨.double, h⟩
    · exact ⟨.float, h⟩
    · exact ⟨.int, h⟩
    · exact ⟨.long, h⟩
    · exact ⟨.short, h⟩
    · exact ⟨.boolean, h⟩
    · exact ⟨.void, h⟩
  · intro hPrimitive
    obtain ⟨primitive, rfl, rfl⟩ := hPrimitive
    cases primitive <;> simp [letterTypes, Primitive.letter, Primitive.keyword]

/-- The grammar spells and writes the types that have a spelling. -/
theorem typeText_iff {chars : List Char} {text : String} :
    TypeText chars text ↔
      ∃ type : TypeName, type.HasSpelling ∧ chars = type.spelling ∧ text = type.render := by
  constructor
  · intro hText
    induction hText with
    | letter hType =>
        obtain ⟨primitive, rfl, rfl⟩ := mem_letterTypes_iff.mp hType
        refine ⟨⟨.primitive primitive, 0⟩, TypeName.hasSpelling_primitive _ _, rfl, ?_⟩
        simp [TypeName.render]
    | @object name hName =>
        refine ⟨⟨.reference name, 0⟩, TypeName.hasSpelling_reference hName _, rfl, ?_⟩
        simp [TypeName.render, dotted]
    | array _ ih =>
        obtain ⟨⟨base, dimensions⟩, hType, rfl, rfl⟩ := ih
        exact ⟨⟨base, dimensions + 1⟩, hType, rfl, (TypeName.render_succ _ _).symm⟩
  · intro hType
    obtain ⟨⟨base, dimensions⟩, hType, rfl, rfl⟩ := hType
    induction dimensions with
    | zero =>
        cases base with
        | primitive primitive =>
            have hLetter : TypeText [primitive.letter] primitive.keyword :=
              .letter (mem_letterTypes_iff.mpr ⟨primitive, rfl, rfl⟩)
            simpa [TypeName.spelling, TypeName.render] using hLetter
        | reference name =>
            have hObject := TypeText.object (hType name rfl)
            simpa [TypeName.spelling, TypeName.render, dotted] using hObject
    | succ dimensions ih =>
        rw [TypeName.render_succ]
        exact .array (ih hType)

/-- The grammar spells and writes runs of types. -/
theorem runText_iff {chars : List Char} {texts : List String} :
    RunText chars texts ↔ ∃ types : List TypeName,
      TypeName.runOf? chars = some types ∧ texts = types.map TypeName.render := by
  simp only [TypeName.runOf?_eq_some_iff]
  constructor
  · intro hRun
    induction hRun with
    | nil => exact ⟨[], ⟨List.forall_mem_nil _, rfl⟩, rfl⟩
    | cons hType _ ih =>
        obtain ⟨type, hSpelling, rfl, rfl⟩ := typeText_iff.mp hType
        obtain ⟨types, ⟨hTypes, rfl⟩, rfl⟩ := ih
        exact ⟨type :: types, ⟨List.forall_mem_cons.mpr ⟨hSpelling, hTypes⟩, rfl⟩, rfl⟩
  · intro hTypes
    obtain ⟨types, ⟨hTypes, rfl⟩, rfl⟩ := hTypes
    induction types with
    | nil => exact .nil
    | cons type types ih =>
        obtain ⟨hType, hOthers⟩ := List.forall_mem_cons.mp hTypes
        exact .cons (typeText_iff.mpr ⟨type, hType, rfl, rfl⟩) (ih hOthers)

/-- A run of types is what the reader of runs accepts. -/
theorem isRun_iff {chars : List Char} :
    IsRun chars ↔ ∃ types, TypeName.runOf? chars = some types := by
  constructor
  · intro hRun
    obtain ⟨texts, hTexts⟩ := hRun
    obtain ⟨types, hTypes, -⟩ := runText_iff.mp hTexts
    exact ⟨types, hTypes⟩
  · intro hRun
    obtain ⟨types, hTypes⟩ := hRun
    exact ⟨_, runText_iff.mpr ⟨types, hTypes, rfl⟩⟩

end Descriptor

end ClassFormat
