import Mathlib
import ClassFormat.Proofs.Descriptors.Runs

namespace ClassFormat

/-!
# Reading a run by offsets

A run of types may also be read without taking the text apart into lists: the reader goes
over the characters with the byte offsets at which they begin, and when it comes to a
class name it looks for the semicolon, cuts the name out of the text, and skips as many
characters as it has cut out.  A cut between two offsets is possible only where both are
between characters and in order.  The characters in front of the reader take as many bytes
as its offset says, whatever they are, so no cut goes wrong, and both ways of reading find
the same types.

* `Descriptor.scanFrom_class` says that the reader goes on right behind the semicolon.
* `Descriptor.scan_eq_runOf?` says that reading by offsets is reading.
-/

namespace Descriptor

/-! ## Cutting -/

/-- Two offsets between which a text cannot be cut: one of them is inside a character or
outside the text, or they are in the wrong order. -/
structure BadCut where
  start : Nat
  stop : Nat

/-- The part of a text between two byte offsets. -/
def cut (text : String) (start stop : Nat) : Except BadCut String :=
  match text.pos? ⟨start⟩, text.pos? ⟨stop⟩ with
  | some first, some last =>
      if first ≤ last then .ok (text.extract first last) else .error ⟨start, stop⟩
  | _, _ => .error ⟨start, stop⟩

/-- The positions of a text are the offsets between its characters. -/
theorem pos?_eq_some_iff {text : String} {offset : Nat} {position : text.Pos} :
    text.pos? ⟨offset⟩ = some position ↔ position.offset = ⟨offset⟩ := by
  rw [String.pos?, Option.map_eq_some_iff, String.Slice.pos?]
  constructor
  · intro hPosition
    obtain ⟨slicePosition, hFound, rfl⟩ := hPosition
    split at hFound
    · exact Option.some.inj hFound ▸ rfl
    · cases hFound
  · intro hOffset
    refine ⟨position.toSlice, ?_, rfl⟩
    have hValid : String.Pos.Raw.isValidForSlice text.toSlice ⟨offset⟩ = true :=
      String.Pos.Raw.isValidForSlice_eq_true_iff.mpr
        (hOffset ▸ position.toSlice.isValidForSlice)
    rw [dif_pos hValid]
    congr 1
    ext
    simp [← hOffset]

/-- A cut is possible where the text is the part between two others, whose sizes are the
offsets. -/
theorem cut_eq_ok_iff {text part : String} {start stop : Nat} :
    cut text start stop = .ok part ↔ ∃ front back : String, text = front ++ (part ++ back) ∧
      start = front.utf8ByteSize ∧ stop = (front ++ part).utf8ByteSize := by
  unfold cut
  constructor
  · intro hCut
    split at hCut
    · next first last hFirst hLast =>
        split at hCut
        · next hOrder =>
            have hPart : (text.slice first last hOrder).copy = part := by
              rw [← String.extract_eq_copy_slice]
              exact Except.ok.inj hCut
            obtain ⟨front, back, hBefore, hBehind⟩ :=
              String.copy_slice_eq_iff_splits.mp ⟨hOrder, hPart⟩
            have hStart := hBefore.offset_eq_rawEndPos
            have hStop := hBehind.offset_eq_rawEndPos
            rw [pos?_eq_some_iff.mp hFirst] at hStart
            rw [pos?_eq_some_iff.mp hLast] at hStop
            exact ⟨front, back, hBefore.eq_append, congrArg String.Pos.Raw.byteIdx hStart,
              congrArg String.Pos.Raw.byteIdx hStop⟩
        · cases hCut
    · cases hCut
  · intro hText
    obtain ⟨front, back, hText, rfl, rfl⟩ := hText
    have hText' : text = front ++ part ++ back := by rw [hText, String.append_assoc]
    have hBefore := String.Pos.splits_ofEqAppend hText
    have hBehind := String.Pos.splits_ofEqAppend hText'
    obtain ⟨hOrder, hPart⟩ :=
      String.copy_slice_eq_iff_splits.mpr ⟨front, back, hBefore, hBehind⟩
    have hFirst := pos?_eq_some_iff.mpr hBefore.offset_eq_rawEndPos
    have hLast := pos?_eq_some_iff.mpr hBehind.offset_eq_rawEndPos
    rw [hFirst, hLast]
    dsimp only
    rw [if_pos hOrder, String.extract_eq_copy_slice _ _ hOrder, hPart]

/-! ## Offsets of characters -/

/-- The number of bytes that the characters take. -/
def size (chars : List Char) : Nat := (String.ofList chars).utf8ByteSize

@[simp] theorem size_nil : size [] = 0 := rfl

theorem size_append (front back : List Char) :
    size (front ++ back) = size front + size back := by
  rw [size, String.ofList_append, String.utf8ByteSize_append]
  rfl

theorem size_singleton (char : Char) : size [char] = char.utf8Size := by
  rw [size, ← String.singleton_eq_ofList, String.utf8ByteSize_singleton]

theorem size_cons (char : Char) (rest : List Char) :
    size (char :: rest) = char.utf8Size + size rest := by
  rw [← List.singleton_append, size_append, size_singleton]

theorem size_toList (text : String) : size text.toList = text.utf8ByteSize := by
  rw [size, String.ofList_toList]

/-- Cutting a text whose characters are known. -/
theorem cut_toList {text : String} {front part back : List Char}
    (hText : text.toList = front ++ (part ++ back)) :
    cut text (size front) (size (front ++ part)) = .ok (String.ofList part) := by
  refine cut_eq_ok_iff.mpr ⟨String.ofList front, String.ofList back, ?_, rfl, ?_⟩
  · rw [← String.ofList_append, ← String.ofList_append, ← hText, String.ofList_toList]
  · rw [← String.ofList_append]
    rfl

/-- Cutting off the end of a text. -/
theorem cut_end {text : String} {front back : List Char} (hText : text.toList = front ++ back) :
    cut text (size front) text.utf8ByteSize = .ok (String.ofList back) := by
  rw [← size_toList, hText]
  exact cut_toList (by rw [hText, List.append_nil])

/-- The characters with the offsets at which they begin, the first one at the given
offset. -/
def charsFrom (offset : Nat) : List Char → List (Nat × Char)
  | [] => []
  | char :: rest => (offset, char) :: charsFrom (offset + char.utf8Size) rest

theorem length_charsFrom (offset : Nat) (chars : List Char) :
    (charsFrom offset chars).length = chars.length := by
  induction chars generalizing offset with
  | nil => rfl
  | cons char rest ih => rw [charsFrom, List.length_cons, List.length_cons, ih]

theorem charsFrom_append (offset : Nat) (front back : List Char) :
    charsFrom offset (front ++ back) =
      charsFrom offset front ++ charsFrom (offset + size front) back := by
  induction front generalizing offset with
  | nil => rfl
  | cons char front ih =>
      rw [List.cons_append, charsFrom, charsFrom, ih, size_cons, List.cons_append,
        Nat.add_assoc]

/-- The offset of the first character of a kind. -/
def offsetOf? (wanted : Char) : List Char → Option Nat
  | [] => none
  | char :: rest =>
      if char = wanted then some 0 else (offsetOf? wanted rest).map (char.utf8Size + ·)

theorem offsetOf?_eq_none {wanted : Char} {chars : List Char} (hNone : wanted ∉ chars) :
    offsetOf? wanted chars = none := by
  induction chars with
  | nil => rfl
  | cons char rest ih =>
      obtain ⟨hFirst, hOthers⟩ := List.ne_and_not_mem_of_not_mem_cons hNone
      rw [offsetOf?, if_neg hFirst.symm, ih hOthers]
      rfl

theorem offsetOf?_append {wanted : Char} {front : List Char} (hFront : wanted ∉ front)
    (back : List Char) : offsetOf? wanted (front ++ wanted :: back) = some (size front) := by
  induction front with
  | nil => exact if_pos rfl
  | cons char front ih =>
      obtain ⟨hFirst, hOthers⟩ := List.ne_and_not_mem_of_not_mem_cons hFront
      rw [List.cons_append, offsetOf?, if_neg hFirst.symm, ih hOthers, size_cons]
      rfl

/-! ## Reading -/

/-- The types spelled by the rest of a text, put behind those already read, which are given
last first.  The characters of the rest come with their offsets. -/
def scanFrom (text : String) (dimensions : Nat) (done : List TypeName) :
    List (Nat × Char) → Except BadCut (Option (List TypeName))
  | [] => .ok (if dimensions = 0 then some done.reverse else none)
  | (offset, char) :: rest =>
      if char = '[' then scanFrom text (dimensions + 1) done rest
      else if char = 'L' then do
        let ahead ← cut text offset text.utf8ByteSize
        match offsetOf? ';' ahead.toList with
        | none => return none
        | some found =>
            let stop := offset + found
            let skipped ← cut text (offset + 1) (stop + 1)
            let name ← cut text (offset + 1) stop
            scanFrom text 0 (⟨.reference name.toList, dimensions⟩ :: done)
              (rest.drop skipped.length)
      else
        match Primitive.ofLetter? char with
        | some primitive => scanFrom text 0 (⟨.primitive primitive, dimensions⟩ :: done) rest
        | none => .ok none
termination_by chars => chars.length

/-- The types that a text spells, one after another. -/
def scan (text : String) : Except BadCut (Option (List TypeName)) :=
  scanFrom text 0 [] (charsFrom 0 text.toList)

variable {text : String} {done : List TypeName} {dimensions : Nat}

/-- At a class name, the reader cuts the name out of the text and goes on right behind its
semicolon. -/
theorem scanFrom_class {front name rest : List Char} (hName : ';' ∉ name)
    (hText : text.toList = front ++ 'L' :: (name ++ ';' :: rest)) :
    scanFrom text dimensions done
        (charsFrom (size front) ('L' :: (name ++ ';' :: rest))) =
      scanFrom text 0 (⟨.reference name, dimensions⟩ :: done)
        (charsFrom (size (front ++ 'L' :: (name ++ [';']))) rest) := by
  -- The letter and the semicolon take one byte each.
  have hStart : size front + 1 = size (front ++ ['L']) := by
    rw [size_append, size_singleton]
    rfl
  have hStop : size front + size ('L' :: name) = size (front ++ ['L'] ++ name) := by
    rw [← size_append, List.append_assoc, List.singleton_append]
  have hBehind : size (front ++ ['L'] ++ name) + 1 =
      size (front ++ ['L'] ++ (name ++ [';'])) := by
    rw [← List.append_assoc, size_append _ [';'], size_singleton]
    rfl
  have hFound : offsetOf? ';' ('L' :: (name ++ ';' :: rest)) = some (size ('L' :: name)) :=
    offsetOf?_append (List.not_mem_cons_of_ne_of_not_mem (by decide) hName) rest
  have hSkipped : cut text (size (front ++ ['L'])) (size (front ++ ['L'] ++ (name ++ [';']))) =
      .ok (String.ofList (name ++ [';'])) :=
    cut_toList (hText.trans (by simp) : text.toList = _ ++ (_ ++ rest))
  have hPart : cut text (size (front ++ ['L'])) (size (front ++ ['L'] ++ name)) =
      .ok (String.ofList name) :=
    cut_toList (hText.trans (by simp) : text.toList = _ ++ (_ ++ ';' :: rest))
  have hRest : (charsFrom (size front + Char.utf8Size 'L') (name ++ ';' :: rest)).drop
        (name ++ [';']).length =
      charsFrom (size (front ++ 'L' :: (name ++ [';']))) rest := by
    have hChars : name ++ ';' :: rest = name ++ [';'] ++ rest := by simp
    rw [hChars, charsFrom_append, List.drop_left' (length_charsFrom _ _), size_append front,
      size_cons, Nat.add_assoc]
  rw [charsFrom, scanFrom, if_neg (by decide), if_pos rfl, cut_end hText]
  simp only [bind, Except.bind, String.toList_ofList, hFound, hStart, hStop, hBehind, hSkipped,
    hPart, String.length_ofList, hRest]

/-- A class name that does not end is found out where it begins. -/
theorem scanFrom_openClass {front rest : List Char} (hRest : ';' ∉ rest)
    (hText : text.toList = front ++ 'L' :: rest) :
    scanFrom text dimensions done (charsFrom (size front) ('L' :: rest)) = .ok none := by
  have hMissing : offsetOf? ';' ('L' :: rest) = none :=
    offsetOf?_eq_none (List.not_mem_cons_of_ne_of_not_mem (by decide) hRest)
  rw [charsFrom, scanFrom, if_neg (by decide), if_pos rfl, cut_end hText]
  simp only [bind, Except.bind, String.toList_ofList, hMissing, pure, Except.pure]

/-- Reading by offsets makes no bad cut, and it finds what reading finds. -/
theorem scanFrom_eq_runAfter {front chars : List Char}
    (hText : text.toList = front ++ chars) :
    scanFrom text dimensions done (charsFrom (size front) chars) =
      .ok (TypeName.runAfter done (.between dimensions) chars) := by
  induction hLength : chars.length using Nat.strong_induction_on
    generalizing front chars dimensions done with
  | _ length ih =>
  cases chars with
  | nil =>
      rw [charsFrom, scanFrom]
      cases dimensions <;> rfl
  | cons char rest =>
      rw [List.length_cons] at hLength
      -- What is read next begins behind this character.
      have hNext : size front + char.utf8Size = size (front ++ [char]) := by
        rw [size_append, size_singleton]
      have hBehind : text.toList = front ++ [char] ++ rest := by simp [hText]
      have hRest (dimensions : Nat) (done : List TypeName) :
          scanFrom text dimensions done (charsFrom (size (front ++ [char])) rest) =
            .ok (TypeName.runAfter done (.between dimensions) rest) :=
        ih rest.length (by omega) hBehind rfl
      by_cases hBracket : char = '['
      · subst hBracket
        rw [charsFrom, scanFrom, if_pos rfl, hNext, hRest, TypeName.runAfter, if_pos rfl]
      by_cases hClass : char = 'L'
      · subst hClass
        by_cases hEnd : ';' ∈ rest
        · obtain ⟨name, after, rfl, hName⟩ := List.eq_append_cons_of_mem hEnd
          rw [scanFrom_class hName hText, TypeName.runAfter_class hName]
          refine ih after.length ?_ ?_ rfl
          · rw [List.length_append, List.length_cons] at hLength
            omega
          · simp [hText]
        · rw [scanFrom_openClass hEnd hText, TypeName.runAfter, if_neg (by decide), if_pos rfl,
            TypeName.runAfter_openClass hEnd]
      · rw [charsFrom, scanFrom, if_neg hBracket, if_neg hClass, TypeName.runAfter,
          if_neg hBracket, if_neg hClass]
        cases hLetter : Primitive.ofLetter? char with
        | some primitive =>
            rw [hNext]
            exact hRest 0 _
        | none => rfl

/-- Reading by offsets is reading. -/
theorem scan_eq_runOf? (text : String) : scan text = .ok (TypeName.runOf? text.toList) := by
  have hText : text.toList = [] ++ text.toList := rfl
  exact scanFrom_eq_runAfter hText

end Descriptor

end ClassFormat
