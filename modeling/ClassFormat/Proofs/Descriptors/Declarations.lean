import Mathlib
import ClassFormat.Proofs.Descriptors.Offsets

namespace ClassFormat

/-!
# What a declaration says

A descriptor that begins with an open parenthesis is cut at its first closing one, and
each part is a run of types; every other descriptor is a run by itself.  The grammar says
what is declared, and which part of a descriptor is blamed when it declares nothing: every
text does one or the other.  The reader does what the grammar says.

* `Descriptor.declares_or_blames` says that the grammar has an answer for every text.
* `Descriptor.declaration_iff` says that the answer is the one of the reader, and that
  reading by offsets comes to the same.
-/

namespace Descriptor

/-! ## The grammar -/

/-- A descriptor declares a field or method of the given name, in this text. -/
inductive Declares (name : String) : List Char → String → Prop
  | field {chars : List Char} {types : List String} (hField : chars.head? ≠ some '(')
      (hTypes : RunText chars types) :
      Declares name chars (", ".intercalate types ++ " " ++ name)
  | method {parameters result : List Char} {parameterTypes resultTypes : List String}
      (hFirst : ')' ∉ parameters) (hResult : RunText result resultTypes)
      (hParameters : RunText parameters parameterTypes) :
      Declares name ('(' :: (parameters ++ ')' :: result))
        (", ".intercalate resultTypes ++ " " ++ name ++ "(" ++
          ", ".intercalate parameterTypes ++ ")")

/-- A descriptor declares nothing, and this part of it is blamed. -/
inductive Blames : List Char → List Char → Prop
  | field {chars : List Char} (hField : chars.head? ≠ some '(') (hTypes : ¬ IsRun chars) :
      Blames chars chars
  | unclosed {rest : List Char} (hOpen : ')' ∉ rest) : Blames ('(' :: rest) ('(' :: rest)
  | result {parameters result : List Char} (hFirst : ')' ∉ parameters)
      (hResult : ¬ IsRun result) : Blames ('(' :: (parameters ++ ')' :: result)) result
  /-- Of two parts that are not runs the result is blamed. -/
  | parameters {parameters result : List Char} (hFirst : ')' ∉ parameters)
      (hResult : IsRun result) (hParameters : ¬ IsRun parameters) :
      Blames ('(' :: (parameters ++ ')' :: result)) parameters

/-- A text is a descriptor of a field, an unclosed one, or is cut at its first closing
parenthesis. -/
theorem shape_cases (chars : List Char) :
    chars.head? ≠ some '(' ∨ (∃ rest, ')' ∉ rest ∧ chars = '(' :: rest) ∨
      ∃ parameters result, ')' ∉ parameters ∧ chars = '(' :: (parameters ++ ')' :: result) := by
  by_cases hField : chars.head? = some '('
  · obtain ⟨rest, rfl⟩ := List.head?_eq_some_iff.mp hField
    by_cases hClosed : ')' ∈ rest
    · obtain ⟨parameters, result, rfl, hFirst⟩ := List.eq_append_cons_of_mem hClosed
      exact .inr (.inr ⟨parameters, result, hFirst, rfl⟩)
    · exact .inr (.inl ⟨rest, hClosed, rfl⟩)
  · exact .inl hField

/-- Every text declares something, or a part of it is blamed. -/
theorem declares_or_blames (name : String) (chars : List Char) :
    (∃ text, Declares name chars text) ∨ ∃ part, Blames chars part := by
  obtain hField | ⟨rest, hOpen, rfl⟩ | ⟨parameters, result, hFirst, rfl⟩ := shape_cases chars
  · by_cases hTypes : IsRun chars
    · obtain ⟨types, hTypes⟩ := hTypes
      exact .inl ⟨_, .field hField hTypes⟩
    · exact .inr ⟨chars, .field hField hTypes⟩
  · exact .inr ⟨_, .unclosed hOpen⟩
  · by_cases hResult : IsRun result
    · by_cases hParameters : IsRun parameters
      · obtain ⟨resultTypes, hResult⟩ := hResult
        obtain ⟨parameterTypes, hParameters⟩ := hParameters
        exact .inl ⟨_, .method hFirst hResult hParameters⟩
      · exact .inr ⟨parameters, .parameters hFirst hResult hParameters⟩
    · exact .inr ⟨result, .result hFirst hResult⟩

/-! ## The reader -/

theorem typesOf_of_runText {chars : List Char} {texts : List String}
    (hTexts : RunText chars texts) :
    ∃ types, typesOf chars = .ok types ∧ TypeName.renderRun types = ", ".intercalate texts := by
  obtain ⟨types, hRun, rfl⟩ := runText_iff.mp hTexts
  exact ⟨types, by rw [typesOf, hRun], rfl⟩

theorem typesOf_of_not_isRun {chars : List Char} (hRun : ¬ IsRun chars) :
    typesOf chars = .error (.malformedDescriptor (String.ofList chars)) := by
  rw [typesOf]
  cases hTypes : TypeName.runOf? chars with
  | some types => exact absurd (isRun_iff.mpr ⟨types, hTypes⟩) hRun
  | none => rfl

theorem splitParameters?_of_not_mem {chars : List Char} (hOpen : ')' ∉ chars) :
    splitParameters? chars = none := by
  have hAll : ∀ char ∈ chars, (decide (char ≠ ')')) = true := fun char hChar =>
    decide_eq_true (ne_of_mem_of_not_mem hChar hOpen)
  rw [splitParameters?, List.span_eq_takeWhile_dropWhile, List.dropWhile_eq_nil_iff.mpr hAll]

theorem splitParameters?_append {parameters : List Char} (hFirst : ')' ∉ parameters)
    (result : List Char) :
    splitParameters? (parameters ++ ')' :: result) = some (parameters, result) := by
  have hAll : ∀ char ∈ parameters, (decide (char ≠ ')')) = true := fun char hChar =>
    decide_eq_true (ne_of_mem_of_not_mem hChar hFirst)
  rw [splitParameters?, List.span_eq_takeWhile_dropWhile, List.takeWhile_append_of_pos hAll,
    List.dropWhile_append_of_pos hAll]
  simp

variable {name descriptor : String}

theorem declaration_field (hField : descriptor.toList.head? ≠ some '(') :
    declaration name descriptor = (do
      let types ← typesOf descriptor.toList
      return TypeName.renderRun types ++ " " ++ name) := by
  unfold declaration
  split
  · next rest hRest => exact absurd (by rw [hRest]; rfl) hField
  · rfl

theorem declaration_method {parameters result : List Char} (hFirst : ')' ∉ parameters)
    (hText : descriptor.toList = '(' :: (parameters ++ ')' :: result)) :
    declaration name descriptor = (do
      let result ← typesOf result
      let parameters ← typesOf parameters
      return TypeName.renderRun result ++ " " ++ name ++ "(" ++
        TypeName.renderRun parameters ++ ")") := by
  rw [declaration, hText]
  simp only [splitParameters?_append hFirst]

/-- The reader writes what is declared. -/
theorem declaration_of_declares {text : String}
    (hText : Declares name descriptor.toList text) :
    declaration name descriptor = .ok text := by
  generalize hChars : descriptor.toList = chars at hText
  cases hText with
  | field hField hTypes =>
      obtain ⟨types, hTypes, hRender⟩ := typesOf_of_runText hTypes
      rw [declaration_field (hChars ▸ hField), hChars, hTypes, ← hRender]
      rfl
  | method hFirst hResult hParameters =>
      obtain ⟨resultTypes, hResult, hRenderResult⟩ := typesOf_of_runText hResult
      obtain ⟨parameterTypes, hParameters, hRenderParameters⟩ := typesOf_of_runText hParameters
      rw [declaration_method hFirst hChars, hResult, hParameters, ← hRenderResult,
        ← hRenderParameters]
      rfl

/-- The reader complains about the part that is blamed. -/
theorem declaration_of_blames {part : List Char} (hPart : Blames descriptor.toList part) :
    declaration name descriptor = .error (.malformedDescriptor (String.ofList part)) := by
  generalize hChars : descriptor.toList = chars at hPart
  cases hPart with
  | field hField hTypes =>
      rw [declaration_field (hChars ▸ hField), hChars, typesOf_of_not_isRun hTypes]
      rfl
  | unclosed hOpen =>
      rw [declaration, ← hChars, String.ofList_toList, hChars]
      simp only [splitParameters?_of_not_mem hOpen]
  | result hFirst hResult =>
      rw [declaration_method hFirst hChars, typesOf_of_not_isRun hResult]
      rfl
  | parameters hFirst hResult hParameters =>
      obtain ⟨resultTexts, hResult⟩ := hResult
      obtain ⟨resultTypes, hResult, -⟩ := typesOf_of_runText hResult
      rw [declaration_method hFirst hChars, hResult, typesOf_of_not_isRun hParameters]
      rfl

/-- A declaration is written, or a part of the descriptor is blamed, exactly as the grammar
says.  Reading by offsets never cuts inside a character, finds the same types, and behind
a class it goes on right behind the semicolon. -/
theorem declaration_iff (name descriptor : String) :
    (∀ text, declaration name descriptor = .ok text ↔
      Declares name descriptor.toList text) ∧
    (∀ fault, declaration name descriptor = .error fault ↔
      ∃ part, Blames descriptor.toList part ∧
        fault = .malformedDescriptor (String.ofList part)) ∧
    (∀ run, scan run = .ok (TypeName.runOf? run.toList)) ∧
    ∀ (run : String) (front name rest : List Char) (dimensions : Nat) (done : List TypeName),
      ';' ∉ name → run.toList = front ++ 'L' :: (name ++ ';' :: rest) →
      scanFrom run dimensions done (charsFrom (size front) ('L' :: (name ++ ';' :: rest))) =
        scanFrom run 0 (⟨.reference name, dimensions⟩ :: done)
          (charsFrom (size (front ++ 'L' :: (name ++ [';']))) rest) := by
  refine ⟨fun text => ⟨?_, declaration_of_declares⟩, fun fault => ⟨?_, ?_⟩, scan_eq_runOf?,
    fun _ _ _ _ _ _ hName hRun => scanFrom_class hName hRun⟩
  · intro hText
    obtain ⟨other, hOther⟩ | ⟨part, hPart⟩ := declares_or_blames name descriptor.toList
    · have hSame : text = other :=
        Except.ok.inj (hText.symm.trans (declaration_of_declares hOther))
      exact hSame ▸ hOther
    · cases hText.symm.trans (declaration_of_blames hPart)
  · intro hFault
    obtain ⟨text, hText⟩ | ⟨part, hPart⟩ := declares_or_blames name descriptor.toList
    · cases hFault.symm.trans (declaration_of_declares hText)
    · exact ⟨part, hPart,
        Except.error.inj (hFault.symm.trans (declaration_of_blames hPart))⟩
  · intro hPart
    obtain ⟨part, hPart, rfl⟩ := hPart
    exact declaration_of_blames hPart

/-- A class whose name has an open parenthesis, a bracket and a letter of two bytes, among
the parameters of a method. -/
theorem declaration_iff_wideName :
    Declares "f" "(L[é(L;I)V".toList "void f([é(L, int)" ∧
      scanFrom "L[é(L;I" 0 [] (charsFrom 0 "L[é(L;I".toList) =
        scanFrom "L[é(L;I" 0 [⟨.reference ['[', 'é', '(', 'L'], 0⟩] (charsFrom 7 ['I']) := by
  obtain ⟨hDeclared, -, -, hBehind⟩ := declaration_iff "f" "(L[é(L;I)V"
  refine ⟨(hDeclared _).mp (by rfl), ?_⟩
  exact hBehind "L[é(L;I" [] ['[', 'é', '(', 'L'] ['I'] 0 [] (by decide) (by rfl)

end Descriptor

end ClassFormat
