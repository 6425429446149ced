import Mathlib
import ClassFormat.Proofs.Spelling.ClassFiles

namespace ClassFormat

/-!
# What is nested too deep

A reader with less room cuts short a reader with more: on the same input it does
the same, unless it stops because something is nested too deep.  So whatever is well
formed but has no room is refused for this reason and for no other, because with
more room it would have been read.

* `Attribute.cuts_read`, by induction on the room, compares readers of attributes.
* `ClassFile.limits_read` says what becomes of a well-formed class file.
-/

/-! ## Readers with less room -/

namespace Reader

variable {α β : Type}

/-- The reader does what the other one does, or it stops because of nesting. -/
def Cuts (p q : Reader α) : Prop :=
  ∀ bytes, p.run bytes = .error .nestedTooDeep ∨ p.run bytes = q.run bytes

theorem Cuts.refl (p : Reader α) : p.Cuts p := fun _ => .inr rfl

/-- Where there is no room, nothing is read. -/
theorem Cuts.fail (q : Reader α) : (fail .nestedTooDeep).Cuts q := fun _ => .inl rfl

theorem Cuts.bind {p q : Reader α} {f g : α → Reader β} (hFirst : p.Cuts q)
    (hNext : ∀ a, (f a).Cuts (g a)) : (p >>= f).Cuts (q >>= g) := by
  intro bytes
  rw [run_bind, run_bind]
  rcases hFirst bytes with hDeep | hSame
  · rw [hDeep]
    exact .inl rfl
  · rw [hSame]
    cases q.run bytes with
    | error fault => exact .inr rfl
    | ok result => exact hNext result.1 result.2

theorem Cuts.map {p q : Reader α} (f : α → β) (hCuts : p.Cuts q) :
    (f <$> p).Cuts (f <$> q) :=
  hCuts.bind fun a => .refl (pure (f a))

theorem Cuts.count {p q : Reader α} (hCuts : p.Cuts q) (n : Nat) :
    (count p n).Cuts (count q n) := by
  induction n with
  | zero => exact .refl _
  | succ n ih =>
      rw [count_succ, count_succ]
      exact hCuts.bind fun a => ih.map (a :: ·)

theorem Cuts.list16 {p q : Reader α} (hCuts : p.Cuts q) :
    (list16 p).Cuts (list16 q) :=
  (Cuts.refl word16).bind fun length => hCuts.count length.toNat

theorem Cuts.list8 {p q : Reader α} (hCuts : p.Cuts q) :
    (list8 p).Cuts (list8 q) :=
  (Cuts.refl byte).bind fun length => hCuts.count length.toNat

theorem Cuts.measure {p q : Reader α} (hCuts : p.Cuts q) :
    (measure p).Cuts (measure q) := by
  intro bytes
  rw [run_measure, run_measure]
  rcases hCuts bytes with hDeep | hSame
  · rw [hDeep]
    exact .inl rfl
  · rw [hSame]
    exact .inr rfl

/-- What may be inside: nothing in place of anything, or a reader with less room. -/
inductive InnerCuts : Option (Reader α) → Option (Reader α) → Prop where
  | none (other : Option (Reader α)) : InnerCuts none other
  | some {p q : Reader α} (hCuts : p.Cuts q) : InnerCuts (some p) (some q)

end Reader

open Reader

/-! ## Annotations -/

theorem AnnotationUse.cuts_readWith {value value' : Reader ElementValue}
    (hValue : value.Cuts value') :
    (AnnotationUse.readWith value).Cuts (AnnotationUse.readWith value') := by
  have hElement : (Element.readWith value).Cuts (Element.readWith value') :=
    (Cuts.refl word16).bind fun _ => hValue.bind fun _ => .refl _
  exact (Cuts.refl word16).bind fun _ => hElement.list16.bind fun _ => .refl _

namespace ElementValue

theorem cuts_readFields {inner inner' : Option (Reader ElementValue)}
    (hInner : InnerCuts inner inner') (form : ElementForm) :
    (readFields inner form).Cuts (readFields inner' form) := by
  cases form with
  | nested =>
      cases hInner with
      | none => exact .fail _
      | some hValue => exact (AnnotationUse.cuts_readWith hValue).map nested
  | array =>
      refine (Cuts.refl word16).bind fun length => ?_
      cases hInner with
      | none => exact .fail _
      | some hValue => exact (hValue.count length.toNat).map array
  | _ => exact .refl _

theorem cuts_readWith {inner inner' : Option (Reader ElementValue)}
    (hInner : InnerCuts inner inner') : (readWith inner).Cuts (readWith inner') := by
  refine (Cuts.refl byte).bind fun code => ?_
  cases ElementForm.ofCode? code with
  | none => exact .refl _
  | some form => exact cuts_readFields hInner form

/-- The reader of values with less room cuts short the one with more. -/
theorem cuts_read {room room' : Nat} (hRoom : room ≤ room') :
    (read room).Cuts (read room') := by
  induction room generalizing room' with
  | zero =>
      cases room' with
      | zero => exact .refl _
      | succ room' => exact cuts_readWith (.none _)
  | succ room ih =>
      obtain ⟨room', rfl⟩ := Nat.exists_eq_succ_of_ne_zero (Nat.ne_zero_of_lt hRoom)
      exact cuts_readWith (.some (ih (Nat.le_of_succ_le_succ hRoom)))

end ElementValue

theorem AnnotationUse.cuts_read {room room' : Nat} (hRoom : room ≤ room') :
    (AnnotationUse.read room).Cuts (AnnotationUse.read room') :=
  cuts_readWith (ElementValue.cuts_read hRoom)

theorem TypeAnnotationUse.cuts_read {room room' : Nat} (hRoom : room ≤ room') :
    (TypeAnnotationUse.read room).Cuts (TypeAnnotationUse.read room') :=
  (Cuts.refl byte).bind fun _ => (Cuts.refl _).bind fun _ => (Cuts.refl _).bind fun _ =>
    (AnnotationUse.cuts_read hRoom).bind fun _ => .refl _

/-! ## Attributes -/

section

variable {pool : Pool} {room room' : Nat} {inner inner' : Option (Reader Attribute)}
  (hInner : InnerCuts inner inner')

include hInner

theorem Attribute.cuts_readInner : (readInner inner).Cuts (readInner inner') := by
  refine (Cuts.refl word16).bind fun length => ?_
  cases hInner with
  | none => exact .fail _
  | some hAttr => exact hAttr.count length.toNat

theorem Code.cuts_readWith : (Code.readWith inner).Cuts (Code.readWith inner') := by
  refine (Cuts.refl word16).bind fun _ => (Cuts.refl word16).bind fun _ =>
    (Cuts.refl word32).bind fun length => ?_
  split
  · exact .refl _
  · exact (Cuts.refl _).bind fun _ => (Cuts.refl _).bind fun _ =>
      (Attribute.cuts_readInner hInner).bind fun _ => .refl _

theorem RecordComponent.cuts_readWith :
    (RecordComponent.readWith inner).Cuts (RecordComponent.readWith inner') :=
  (Cuts.refl word16).bind fun _ => (Cuts.refl word16).bind fun _ =>
    (Attribute.cuts_readInner hInner).bind fun _ => .refl _

/-- Only the payloads that hold annotations or attributes depend on the room. -/
theorem Payload.cuts_readWith (hRoom : room ≤ room') (length : UInt32)
    (kind : AttributeKind) :
    (readWith room inner length kind).Cuts (readWith room' inner' length kind) := by
  cases kind with
  | code => exact (Code.cuts_readWith hInner).map code
  | annotations visibility =>
      exact (AnnotationUse.cuts_read hRoom).list16.map (annotations visibility)
  | parameterAnnotations visibility =>
      exact (AnnotationUse.cuts_read hRoom).list16.list8.map
        (parameterAnnotations visibility)
  | typeAnnotations visibility =>
      exact (TypeAnnotationUse.cuts_read hRoom).list16.map (typeAnnotations visibility)
  | annotationDefault => exact (ElementValue.cuts_read hRoom).map annotationDefault
  | record => exact (RecordComponent.cuts_readWith hInner).list16.map record
  | _ => exact .refl _

theorem Attribute.cuts_readWith (hRoom : room ≤ room') :
    (readWith pool room inner).Cuts (readWith pool room' inner') := by
  refine (Cuts.refl word16).bind fun name => (Cuts.refl word32).bind fun length => ?_
  cases pool.attributeKind? name with
  | none => exact .refl _
  | some kind =>
      exact (Payload.cuts_readWith hInner hRoom length kind).measure.bind fun _ => .refl _

end

namespace Attribute

/-- The reader of attributes with less room cuts short the one with more. -/
theorem cuts_read (pool : Pool) {room room' : Nat} (hRoom : room ≤ room') :
    (read pool room).Cuts (read pool room') := by
  induction room generalizing room' with
  | zero =>
      cases room' with
      | zero => exact .refl _
      | succ room' => exact cuts_readWith (.none _) (Nat.zero_le _)
  | succ room ih =>
      obtain ⟨room', rfl⟩ := Nat.exists_eq_succ_of_ne_zero (Nat.ne_zero_of_lt hRoom)
      exact cuts_readWith (.some (ih (Nat.le_of_succ_le_succ hRoom))) hRoom

end Attribute

/-! ## Limits -/

namespace Reader

variable {α β : Type}

/-- Of what is spelled for a thing, the reader returns the thing, unless it is deeper
than the limit; then the reader stops for this reason. -/
def Limits (p : Reader α) (limit : Nat) (spells : Spelling α) (depth : α → Nat) : Prop :=
  ∀ a head rest, spells a head →
    p.run (head ++ rest) =
      if depth a ≤ limit then .ok (a, rest) else .error .nestedTooDeep

/-- The same depth may be told in other words. -/
theorem Limits.congr {p : Reader α} {limit : Nat} {spells : Spelling α}
    {depth depth' : α → Nat} (hLimits : p.Limits limit spells depth)
    (hDepth : ∀ a, depth a = depth' a) : p.Limits limit spells depth' := by
  intro a head rest hSpells
  rw [← hDepth]
  exact hLimits a head rest hSpells

/-- What comes behind a thing is read unless the thing is too deep. -/
theorem Limits.andThen {p : Reader α} {limit : Nat} {spells : Spelling α}
    {depth : α → Nat} (hLimits : p.Limits limit spells depth) {a : α}
    {head : List UInt8} (hSpells : spells a head) (f : α → Reader β) (rest : List UInt8) :
    (p >>= f).run (head ++ rest) =
      if depth a ≤ limit then (f a).run rest else .error .nestedTooDeep := by
  rw [run_bind, hLimits a head rest hSpells]
  by_cases hDepth : depth a ≤ limit
  · rw [if_pos hDepth, if_pos hDepth]
  · rw [if_neg hDepth, if_neg hDepth]

/-- The first item that is too deep ends the reading of a list. -/
theorem Limits.count {p : Reader α} {limit : Nat} {spells : Spelling α}
    {depth : α → Nat} (hLimits : p.Limits limit spells depth) {items : List α}
    {pieces : List (List UInt8)} (hPieces : List.Forall₂ spells items pieces)
    (rest : List UInt8) :
    (count p items.length).run (pieces.flatten ++ rest) =
      if (items.map depth).foldr max 0 ≤ limit then .ok (items, rest)
      else .error .nestedTooDeep := by
  induction hPieces with
  | nil => exact (if_pos (Nat.zero_le limit)).symm
  | @cons item piece items pieces hPiece hPieces ih =>
      rw [List.length_cons, run_count_succ, List.flatten_cons, List.append_assoc,
        hLimits item piece _ hPiece, List.map_cons, List.foldr_cons]
      by_cases hItem : depth item ≤ limit
      · rw [if_pos hItem]
        simp only [ih, max_le_iff, hItem, true_and]
        split <;> rfl
      · rw [if_neg hItem, if_neg fun hAll => hItem (max_le_iff.mp hAll).1]

theorem Limits.list16 {p : Reader α} {limit : Nat} {good : α → Prop}
    {outlineOf : α → Outline} {depth : α → Nat}
    (hLimits : p.Limits limit (fun a head => good a ∧ (outlineOf a).Spells head) depth) :
    (list16 p).Limits limit
      (fun items head => Counted16 good items ∧ (Outline.list16 outlineOf items).Spells head)
      (fun items => (items.map depth).foldr max 0) := by
  intro items head rest hSpelled
  obtain ⟨⟨hBound, hGood⟩, hSpells⟩ := hSpelled
  obtain ⟨tail, hTail, rfl⟩ := Outline.spells_fixed_cons.mp hSpells
  obtain ⟨pieces, hPieces, rfl⟩ := Outline.spells_flatMap.mpr ⟨hGood, hTail⟩
  have hLength : (UInt16.ofNat items.length).toNat = items.length :=
    UInt16.toNat_ofNat_of_lt' hBound
  rw [Reader.list16, run_bind, List.append_assoc, run_word16_eq_ok.mpr rfl]
  simp only [hLength, hLimits.count hPieces]

end Reader

theorem Attribute.depthAll_eq_foldr (attributes : List Attribute) :
    depthAll attributes = (attributes.map depth).foldr max 0 := by
  induction attributes with
  | nil => rfl
  | cons attr rest ih => rw [depthAll, ih, List.map_cons, List.foldr_cons]

/-- With more room, an attribute that has too little would be read. -/
theorem Attribute.limits_read (pool : Pool) (room : Nat) :
    (read pool room).Limits room
      (fun attr head => attr.WellFormed pool ∧ attr.outline.Spells head) depth := by
  intro attr head rest hSpelled
  obtain ⟨hWellFormed, hSpells⟩ := hSpelled
  have hReads : ∀ n, attr.depth ≤ n →
      (read pool n).run (head ++ rest) = .ok (attr, rest) := fun n hDepth =>
    (reads_read pool n).run_append ⟨⟨hWellFormed, hDepth⟩, hSpells⟩ rest
  by_cases hDepth : attr.depth ≤ room
  · rw [if_pos hDepth, hReads room hDepth]
  · rw [if_neg hDepth]
    have hRoom : room ≤ attr.depth := Nat.le_of_not_le hDepth
    rcases cuts_read pool hRoom (head ++ rest) with hDeep | hSame
    · exact hDeep
    · -- What is read without being cut short fits into the room.
      rw [hReads _ le_rfl] at hSame
      obtain ⟨_, ⟨⟨-, hFits⟩, -⟩, -⟩ := (reads_read pool room _ _ _).mp hSame
      exact absurd hFits hDepth

theorem Attribute.limits_readList (pool : Pool) :
    (readList pool).Limits maxNesting
      (fun attributes head => Counted16 (WellFormed pool) attributes ∧
        (Outline.list16 outline attributes).Spells head) depthAll :=
  (limits_read pool maxNesting).list16.congr fun attributes =>
    (depthAll_eq_foldr attributes).symm

theorem Member.limits_read (pool : Pool) (kind : MemberKind) :
    (read pool kind).Limits maxNesting
      (fun member head => (member.kind = kind ∧ member.WellFormed pool) ∧
        member.outline.Spells head) depth := by
  intro member head rest hSpelled
  obtain ⟨kind', ⟨flags⟩, name, descriptor, attributes⟩ := member
  obtain ⟨⟨rfl, hWellFormed⟩, hSpells⟩ := hSpelled
  obtain ⟨tail, hTail, rfl⟩ := Outline.spells_fixed_cons.mp hSpells
  simp only [read, run_bind, List.append_assoc, run_word16_eq_ok.mpr rfl]
  rw [← run_bind, (Attribute.limits_readList pool).andThen ⟨hWellFormed, hTail⟩]
  rfl

namespace ClassFile

/-- A well-formed class file is read back unless it is nested too deep, and otherwise
it is refused for this reason. -/
theorem limits_read :
    ClassFile.read.Limits maxNesting
      (fun file head => file.WellFormed ∧ file.outline.Spells head) depth := by
  intro file head rest hSpelled
  obtain ⟨minor, major, pool, ⟨flags⟩, this, super, interfaces, fields, methods,
      attributes⟩ := file
  obtain ⟨hWellFormed, hSpells⟩ := hSpelled
  obtain ⟨hLaidOut, hInterfaces, hFields, hMethods, hAttributes⟩ := hWellFormed
  obtain ⟨slots, first, second, third, hSlots, hFirst, hSecond, hThird, rfl⟩ :=
    spells_outline.mp hSpells
  -- The parts in front of the lists of members have no depth.
  have hMagic : ∀ tail, readMagic.run (BigEndian.bytes32 magic ++ tail) = .ok ((), tail) :=
    fun _ => run_readMagic_eq_ok.mpr rfl
  have hPool : ∀ tail, Pool.read.run (slots ++ tail) = .ok (pool, tail) :=
    Pool.reads_read.run_append ⟨hLaidOut, hSlots⟩
  have hFieldsRun := fun tail =>
    (Member.limits_read pool .field).list16 fields first tail ⟨hFields, hFirst⟩
  have hMethodsRun := fun tail =>
    (Member.limits_read pool .method).list16 methods second tail ⟨hMethods, hSecond⟩
  have hAttributesRun := fun tail =>
    Attribute.limits_readList pool attributes third tail ⟨hAttributes, hThird⟩
  have hWords : ∀ tail, (list16 word16).run
      (Writer.list16 BigEndian.bytes16 interfaces ++ tail) = .ok (interfaces, tail) :=
    fun _ => run_words_eq_ok.mpr ⟨hInterfaces, rfl⟩
  simp only [read, run_bind, List.append_assoc, run_word16_eq_ok.mpr rfl, hMagic, hPool,
    hWords, hFieldsRun, depth, max_le_iff]
  by_cases hInFields : (fields.map Member.depth).foldr max 0 ≤ maxNesting
  · simp only [hInFields, if_true, true_and, hMethodsRun]
    by_cases hInMethods : (methods.map Member.depth).foldr max 0 ≤ maxNesting
    · simp only [hInMethods, if_true, true_and, hAttributesRun]
      by_cases hInside : Attribute.depthAll attributes ≤ maxNesting
      · simp only [hInside, if_true, run_pure]
      · simp only [hInside, if_false]
    · simp only [hInMethods, if_false, false_and]
  · simp only [hInFields, if_false, false_and]

end ClassFile

end ClassFormat
