import Mathlib
import ClassFormat.Proofs.RoundTrip
import ClassFormat.Proofs.Validity.Rules

namespace ClassFormat

/-!
# Places of attributes

A place is a class file with one attribute left out, at any depth.  The outline of a class
file with an attribute in a place is that of the attribute, between two outlines that
belong to the place.  An attribute may be exchanged for another one of the same shape:
the class file stays well formed and is not nested deeper, so that it is decoded with the
other attribute when the bytes of the attribute are exchanged too.

* `Attribute.Place.outlineAll_fill` and `ClassFile.Place.outline_fill` say where the bytes
  of an attribute are.
* `ClassFile.Place.decode_fill` finds them in an input, and
  `ClassFile.Place.decode_exchanged` exchanges them.
* `ClassFile.exists_place` says that every attribute of a class file is in a place.
-/

/-! ## Shapes -/

/-- The other attribute is as long and as deep, and well formed if the first one is. -/
structure Attribute.SameShape (pool : Pool) (attr other : Attribute) : Prop where
  wellFormed : attr.WellFormed pool → other.WellFormed pool
  length_eq : attr.write.length = other.write.length
  depth_eq : attr.depth = other.depth

/-- The other list is as long, as an input and as a list, and as deep, and well formed if
the first one is. -/
structure Attribute.SameShapeAll (pool : Pool) (attributes others : List Attribute) :
    Prop where
  wellFormed : AllWellFormed pool attributes → AllWellFormed pool others
  count_eq : attributes.length = others.length
  length_eq : (writeAll attributes).length = (writeAll others).length
  depth_eq : depthAll attributes = depthAll others

namespace Attribute

variable {pool : Pool}

theorem allWellFormed_append {attributes rest : List Attribute} :
    AllWellFormed pool (attributes ++ rest) ↔
      AllWellFormed pool attributes ∧ AllWellFormed pool rest := by
  simp only [allWellFormed_iff, List.forall_mem_append]

theorem writeAll_append (attributes rest : List Attribute) :
    writeAll (attributes ++ rest) = writeAll attributes ++ writeAll rest := by
  induction attributes with
  | nil => rfl
  | cons attr attributes ih => rw [List.cons_append, writeAll, writeAll, ih, List.append_assoc]

theorem depthAll_append (attributes rest : List Attribute) :
    depthAll (attributes ++ rest) = max (depthAll attributes) (depthAll rest) := by
  induction attributes with
  | nil => rw [List.nil_append, depthAll, Nat.zero_max]
  | cons attr attributes ih => rw [List.cons_append, depthAll, depthAll, ih, Nat.max_assoc]

theorem outlineAll_append (attributes rest : List Attribute) :
    outlineAll (attributes ++ rest) = outlineAll attributes ++ outlineAll rest := by
  rw [outlineAll_eq_flatMap, outlineAll_eq_flatMap, outlineAll_eq_flatMap,
    List.flatMap_append]

/-- One attribute of a list is exchanged. -/
theorem SameShape.among {attr other : Attribute} (hShape : SameShape pool attr other)
    (before after : List Attribute) :
    SameShapeAll pool (before ++ attr :: after) (before ++ other :: after) where
  wellFormed := by
    intro hAll
    obtain ⟨hBefore, hAttr, hAfter⟩ := allWellFormed_append.mp hAll
    exact allWellFormed_append.mpr ⟨hBefore, hShape.wellFormed hAttr, hAfter⟩
  count_eq := by simp
  length_eq := by
    simp only [writeAll_append, writeAll, List.length_append, hShape.length_eq]
  depth_eq := by
    simp only [depthAll_append, depthAll, hShape.depth_eq]

/-- The attributes of a method body are exchanged. -/
theorem SameShapeAll.inCode {attributes others : List Attribute}
    (hShape : SameShapeAll pool attributes others) (name : UInt16) (length : UInt32)
    (shell : Code) :
    SameShape pool ⟨name, length, .code { shell with attributes }⟩
      ⟨name, length, .code { shell with attributes := others }⟩ := by
  -- The announced length counts the attributes inside, so they must be as long.
  have hLength : (Code.write { shell with attributes }).length =
      (Code.write { shell with attributes := others }).length := by
    simp only [Code.write, hShape.count_eq, List.length_append, hShape.length_eq]
  refine ⟨fun hWellFormed => ?_, ?_, ?_⟩
  · obtain ⟨hKind, hWritten, hBounds, hHandlers, hFew, hAll⟩ := hWellFormed
    refine ⟨hKind, hLength.symm.trans hWritten, hBounds, hHandlers, ?_,
      hShape.wellFormed hAll⟩
    rw [← hShape.count_eq]
    exact hFew
  · simp only [Attribute.write, Payload.write, List.length_append, hLength]
  · simp only [Attribute.depth, Payload.depth, Code.depth, hShape.depth_eq]

end Attribute

namespace RecordComponent

variable {pool : Pool}

theorem allWellFormed_append {components rest : List RecordComponent} :
    AllWellFormed pool (components ++ rest) ↔
      AllWellFormed pool components ∧ AllWellFormed pool rest := by
  simp only [allWellFormed_iff, List.forall_mem_append]

theorem writeAll_append (components rest : List RecordComponent) :
    writeAll (components ++ rest) = writeAll components ++ writeAll rest := by
  induction components with
  | nil => rfl
  | cons component components ih =>
      rw [List.cons_append, writeAll, writeAll, ih, List.append_assoc]

theorem depthAll_append (components rest : List RecordComponent) :
    depthAll (components ++ rest) = max (depthAll components) (depthAll rest) := by
  induction components with
  | nil => rw [List.nil_append, depthAll, Nat.zero_max]
  | cons component components ih =>
      rw [List.cons_append, depthAll, depthAll, ih, Nat.max_assoc]

theorem outlineAll_append (components rest : List RecordComponent) :
    outlineAll (components ++ rest) = outlineAll components ++ outlineAll rest := by
  rw [outlineAll_eq_flatMap, outlineAll_eq_flatMap, outlineAll_eq_flatMap,
    List.flatMap_append]

end RecordComponent

/-- The attributes of a record component are exchanged. -/
theorem Attribute.SameShapeAll.inComponent {pool : Pool}
    {attributes others : List Attribute} (hShape : SameShapeAll pool attributes others)
    (name : UInt16) (length : UInt32) (earlier later : List RecordComponent)
    (shell : RecordComponent) :
    SameShape pool
      ⟨name, length, .record (earlier ++ { shell with attributes } :: later)⟩
      ⟨name, length, .record (earlier ++ { shell with attributes := others } :: later)⟩ := by
  have hLength : (RecordComponent.write { shell with attributes }).length =
      (RecordComponent.write { shell with attributes := others }).length := by
    simp only [RecordComponent.write, hShape.count_eq, List.length_append, hShape.length_eq]
  have hPayload : (Payload.write length
        (.record (earlier ++ { shell with attributes } :: later))).length =
      (Payload.write length
        (.record (earlier ++ { shell with attributes := others } :: later))).length := by
    simp only [Payload.write, RecordComponent.writeAll_append, RecordComponent.writeAll,
      List.length_append, List.length_cons, hLength]
  refine ⟨fun hWellFormed => ?_, ?_, ?_⟩
  · obtain ⟨hKind, hWritten, hCount, hComponents⟩ := hWellFormed
    obtain ⟨hEarlier, ⟨hFew, hAll⟩, hLater⟩ :=
      RecordComponent.allWellFormed_append.mp hComponents
    refine ⟨hKind, hPayload.symm.trans hWritten, by simpa using hCount, ?_⟩
    refine RecordComponent.allWellFormed_append.mpr ⟨hEarlier, ⟨?_, hShape.wellFormed hAll⟩,
      hLater⟩
    rw [← hShape.count_eq]
    exact hFew
  · simp only [Attribute.write, List.length_append, hPayload]
  · simp only [Attribute.depth, Payload.depth, RecordComponent.depthAll_append,
      RecordComponent.depthAll, RecordComponent.depth, hShape.depth_eq]

/-! ## Places in lists of attributes -/

/-- A place in a list of attributes: among the attributes of the list, or in the list of a
method body or of a record component that is held by one of them.  Of the method body and
of the component, the attributes are left out. -/
inductive Attribute.Place where
  | here (before after : List Attribute)
  | inCode (before : List Attribute) (name : UInt16) (length : UInt32) (shell : Code)
      (inner : Attribute.Place) (after : List Attribute)
  | inComponent (before : List Attribute) (name : UInt16) (length : UInt32)
      (earlier : List RecordComponent) (shell : RecordComponent)
      (inner : Attribute.Place) (later : List RecordComponent) (after : List Attribute)

namespace Attribute.Place

/-- The list with an attribute in the place. -/
def fill : Place → Attribute → List Attribute
  | here before after, attr => before ++ attr :: after
  | inCode before name length shell inner after, attr =>
      before ++ ⟨name, length, .code { shell with attributes := inner.fill attr }⟩ :: after
  | inComponent before name length earlier shell inner later after, attr =>
      before ++ ⟨name, length, .record
        (earlier ++ { shell with attributes := inner.fill attr } :: later)⟩ :: after

/-- The number of attributes in the list. -/
def count : Place → Nat
  | here before after => before.length + 1 + after.length
  | inCode before _ _ _ _ after => before.length + 1 + after.length
  | inComponent before _ _ _ _ _ _ after => before.length + 1 + after.length

/-- What is in front of the attribute, segment by segment. -/
def front : Place → Outline
  | here before _ => outlineAll before
  | inCode before name length shell inner _ =>
      outlineAll before ++
        .fixed (BigEndian.bytes16 name ++ BigEndian.bytes32 length) ::
        .fixed (BigEndian.bytes16 shell.maxStack ++ BigEndian.bytes16 shell.maxLocals ++
          BigEndian.bytes32 (UInt32.ofNat shell.instructions.length) ++
          shell.instructions ++ Writer.list16 ExceptionHandler.write shell.handlers) ::
        .fixed (BigEndian.bytes16 (UInt16.ofNat inner.count)) :: inner.front
  | inComponent before name length earlier shell inner later _ =>
      outlineAll before ++
        .fixed (BigEndian.bytes16 name ++ BigEndian.bytes32 length) ::
        .fixed (BigEndian.bytes16 (UInt16.ofNat (earlier.length + 1 + later.length))) ::
        (RecordComponent.outlineAll earlier ++
          .fixed (BigEndian.bytes16 shell.name ++ BigEndian.bytes16 shell.descriptor) ::
          .fixed (BigEndian.bytes16 (UInt16.ofNat inner.count)) :: inner.front)

/-- What is behind the attribute, segment by segment. -/
def back : Place → Outline
  | here _ after => outlineAll after
  | inCode _ _ _ _ inner after => inner.back ++ outlineAll after
  | inComponent _ _ _ _ _ inner later after =>
      inner.back ++ (RecordComponent.outlineAll later ++ outlineAll after)

theorem length_fill (place : Place) (attr : Attribute) :
    (place.fill attr).length = place.count := by
  cases place <;> simp only [fill, count, List.length_append, List.length_cons] <;> omega

/-- An attribute in a place is spelled between what is in front of it and what is behind
it. -/
theorem outlineAll_fill (place : Place) (attr : Attribute) :
    outlineAll (place.fill attr) = place.front ++ (attr.outline ++ place.back) := by
  induction place with
  | here before after => rw [fill, outlineAll_append, outlineAll, front, back]
  | inCode before name length shell inner after ih =>
      simp only [fill, front, back, outlineAll_append, outlineAll, Attribute.outline,
        Payload.outline, Code.outline, length_fill, ih, List.append_assoc, List.cons_append]
  | inComponent before name length earlier shell inner later after ih =>
      -- The number of components in front does not depend on the one with the place.
      have hCount (component : RecordComponent) :
          (earlier ++ component :: later).length = earlier.length + 1 + later.length := by
        rw [List.length_append, List.length_cons]
        omega
      simp only [fill, front, back, outlineAll_append, outlineAll, Attribute.outline,
        Payload.outline, RecordComponent.outlineAll_append, RecordComponent.outlineAll,
        RecordComponent.outline, length_fill, hCount, ih, List.append_assoc,
        List.cons_append]

/-- Exchanging an attribute in a place keeps the shape of the list. -/
theorem sameShapeAll_fill {pool : Pool} {attr other : Attribute}
    (hShape : SameShape pool attr other) (place : Place) :
    SameShapeAll pool (place.fill attr) (place.fill other) := by
  induction place with
  | here before after => exact hShape.among before after
  | inCode before name length shell inner after ih =>
      exact (ih.inCode name length shell).among before after
  | inComponent before name length earlier shell inner later after ih =>
      exact (ih.inComponent name length earlier later shell).among before after

end Attribute.Place

/-! ## Places in fields and methods -/

/-- A place in one of some fields or methods.  Of that one, the attributes are left
out. -/
structure Member.Place where
  earlier : List Member
  shell : Member
  inner : Attribute.Place
  later : List Member

namespace Member.Place

/-- The fields or methods with an attribute in the place. -/
def fill (place : Place) (attr : Attribute) : List Member :=
  place.earlier ++ { place.shell with attributes := place.inner.fill attr } :: place.later

/-- The number of fields or methods. -/
def count (place : Place) : Nat := place.earlier.length + 1 + place.later.length

/-- What is in front of the attribute, segment by segment. -/
def front (place : Place) : Outline :=
  place.earlier.flatMap Member.outline ++
    .fixed (BigEndian.bytes16 place.shell.flags.bits ++
      BigEndian.bytes16 place.shell.name ++ BigEndian.bytes16 place.shell.descriptor) ::
    .fixed (BigEndian.bytes16 (UInt16.ofNat place.inner.count)) :: place.inner.front

/-- What is behind the attribute, segment by segment. -/
def back (place : Place) : Outline :=
  place.inner.back ++ place.later.flatMap Member.outline

theorem length_fill (place : Place) (attr : Attribute) :
    (place.fill attr).length = place.count := by
  rw [fill, count, List.length_append, List.length_cons]
  omega

theorem flatMap_outline_fill (place : Place) (attr : Attribute) :
    (place.fill attr).flatMap Member.outline =
      place.front ++ (attr.outline ++ place.back) := by
  simp only [fill, front, back, List.flatMap_append, List.flatMap_cons, Member.outline,
    Outline.list16, ← Attribute.outlineAll_eq_flatMap, Attribute.Place.length_fill,
    Attribute.Place.outlineAll_fill, List.append_assoc, List.cons_append]

variable {pool : Pool} {attr other : Attribute}

/-- Exchanging an attribute keeps fields or methods well formed. -/
theorem counted_fill (hShape : Attribute.SameShape pool attr other) (place : Place)
    {kind : MemberKind}
    (hCounted : Counted16 (fun member => member.kind = kind ∧ member.WellFormed pool)
      (place.fill attr)) :
    Counted16 (fun member => member.kind = kind ∧ member.WellFormed pool)
      (place.fill other) := by
  have hInner := Attribute.Place.sameShapeAll_fill hShape place.inner
  obtain ⟨hFew, hMembers⟩ := hCounted
  obtain ⟨hEarlier, ⟨hKind, hCount, hAll⟩, hLater⟩ := by
    simpa only [fill, List.forall_mem_append, List.forall_mem_cons] using hMembers
  refine ⟨?_, List.forall_mem_append.mpr ⟨hEarlier, List.forall_mem_cons.mpr
    ⟨⟨hKind, ?_, ?_⟩, hLater⟩⟩⟩
  · rw [length_fill] at hFew ⊢
    exact hFew
  · exact hInner.count_eq ▸ hCount
  · have hWellFormed := hInner.wellFormed (Attribute.allWellFormed_iff.mpr hAll)
    exact Attribute.allWellFormed_iff.mp hWellFormed

/-- Exchanging an attribute makes no field or method deeper. -/
theorem depth_fill_le (hShape : Attribute.SameShape pool attr other) (place : Place)
    {n : Nat} (hDepth : ∀ member ∈ place.fill attr, member.depth ≤ n) :
    ∀ member ∈ place.fill other, member.depth ≤ n := by
  have hInner := Attribute.Place.sameShapeAll_fill hShape place.inner
  simp only [fill, List.forall_mem_append, List.forall_mem_cons, Member.depth] at hDepth ⊢
  rw [← hInner.depth_eq]
  exact hDepth

end Member.Place

/-! ## Places in class files -/

/-- A place in the attributes of a class, or in one of its fields or methods.  Of the
class file, the attributes, the fields or the methods are left out. -/
inductive ClassFile.Place where
  | ofClass (shell : ClassFile) (inner : Attribute.Place)
  | ofField (shell : ClassFile) (members : Member.Place)
  | ofMethod (shell : ClassFile) (members : Member.Place)

/-- The version, the pool, and the class with its interfaces, segment by segment. -/
def ClassFile.headOutline (file : ClassFile) : Outline :=
  .fixed (BigEndian.bytes32 magic ++ BigEndian.bytes16 file.minor ++
      BigEndian.bytes16 file.major) ::
    (file.pool.outline ++
      [.fixed (BigEndian.bytes16 file.flags.bits ++ BigEndian.bytes16 file.thisClass ++
        BigEndian.bytes16 file.superClass ++
        Writer.list16 BigEndian.bytes16 file.interfaces)])

namespace ClassFile.Place

/-- The class file with an attribute in the place. -/
def fill : Place → Attribute → ClassFile
  | ofClass shell inner, attr => { shell with attributes := inner.fill attr }
  | ofField shell members, attr => { shell with fields := members.fill attr }
  | ofMethod shell members, attr => { shell with methods := members.fill attr }

/-- The pool of the class file. -/
def pool : Place → Pool
  | ofClass shell _ | ofField shell _ | ofMethod shell _ => shell.pool

/-- What is in front of the attribute, segment by segment. -/
def front : Place → Outline
  | ofClass shell inner =>
      shell.headOutline ++ (Outline.list16 Member.outline shell.fields ++
        Outline.list16 Member.outline shell.methods ++
        .fixed (BigEndian.bytes16 (UInt16.ofNat inner.count)) :: inner.front)
  | ofField shell members =>
      shell.headOutline ++
        .fixed (BigEndian.bytes16 (UInt16.ofNat members.count)) :: members.front
  | ofMethod shell members =>
      shell.headOutline ++ (Outline.list16 Member.outline shell.fields ++
        .fixed (BigEndian.bytes16 (UInt16.ofNat members.count)) :: members.front)

/-- What is behind the attribute, segment by segment. -/
def back : Place → Outline
  | ofClass _ inner => inner.back
  | ofField shell members =>
      members.back ++ (Outline.list16 Member.outline shell.methods ++
        Outline.list16 Attribute.outline shell.attributes)
  | ofMethod shell members =>
      members.back ++ Outline.list16 Attribute.outline shell.attributes

theorem pool_fill (place : Place) (attr : Attribute) :
    (place.fill attr).pool = place.pool := by
  cases place <;> rfl

/-- An attribute in a place of a class file is spelled between what is in front of it and
what is behind it. -/
theorem outline_fill (place : Place) (attr : Attribute) :
    (place.fill attr).outline = place.front ++ (attr.outline ++ place.back) := by
  cases place with
  | ofClass shell inner =>
      simp only [fill, front, back, ClassFile.outline, ClassFile.headOutline,
        Outline.list16, ← Attribute.outlineAll_eq_flatMap, Attribute.Place.length_fill,
        Attribute.Place.outlineAll_fill, List.append_assoc, List.cons_append,
        List.nil_append]
  | ofField shell members =>
      simp only [fill, front, back, ClassFile.outline, ClassFile.headOutline,
        Outline.list16, Member.Place.length_fill, Member.Place.flatMap_outline_fill,
        List.append_assoc, List.cons_append, List.nil_append]
  | ofMethod shell members =>
      simp only [fill, front, back, ClassFile.outline, ClassFile.headOutline,
        Outline.list16, Member.Place.length_fill, Member.Place.flatMap_outline_fill,
        List.append_assoc, List.cons_append, List.nil_append]

/-- Exchanging an attribute keeps a class file well formed. -/
theorem wellFormed_fill {place : Place} {attr other : Attribute}
    (hShape : Attribute.SameShape place.pool attr other)
    (hWellFormed : (place.fill attr).WellFormed) : (place.fill other).WellFormed := by
  obtain ⟨hPool, hInterfaces, hFields, hMethods, hAttributes⟩ := hWellFormed
  cases place with
  | ofClass shell inner =>
      have hInner := Attribute.Place.sameShapeAll_fill hShape inner
      obtain ⟨hFew, hAll⟩ := hAttributes
      have hOthers := hInner.wellFormed (Attribute.allWellFormed_iff.mpr hAll)
      exact ⟨hPool, hInterfaces, hFields, hMethods, hInner.count_eq ▸ hFew,
        Attribute.allWellFormed_iff.mp hOthers⟩
  | ofField shell members =>
      exact ⟨hPool, hInterfaces, members.counted_fill hShape hFields, hMethods, hAttributes⟩
  | ofMethod shell members =>
      exact ⟨hPool, hInterfaces, hFields, members.counted_fill hShape hMethods, hAttributes⟩

/-- Exchanging an attribute makes a class file no deeper. -/
theorem depth_fill_le {place : Place} {attr other : Attribute} {n : Nat}
    (hShape : Attribute.SameShape place.pool attr other)
    (hDepth : (place.fill attr).depth ≤ n) : (place.fill other).depth ≤ n := by
  obtain ⟨hFields, hMethods, hAttributes⟩ := depth_le_iff.mp hDepth
  refine depth_le_iff.mpr ?_
  cases place with
  | ofClass shell inner =>
      have hInner := Attribute.Place.sameShapeAll_fill hShape inner
      exact ⟨hFields, hMethods, hInner.depth_eq ▸ hAttributes⟩
  | ofField shell members =>
      exact ⟨members.depth_fill_le hShape hFields, hMethods, hAttributes⟩
  | ofMethod shell members =>
      exact ⟨hFields, members.depth_fill_le hShape hMethods, hAttributes⟩

/-- An input that is decoded with an attribute in a place has the bytes of the attribute
between those in front of it and those behind it. -/
theorem decode_fill {place : Place} {attr : Attribute} {bytes : List UInt8}
    (hDecode : decode bytes = .ok (place.fill attr)) :
    ∃ front middle back, bytes = front ++ (middle ++ back) ∧ place.front.Spells front ∧
      attr.outline.Spells middle ∧ place.back.Spells back := by
  obtain ⟨-, hSpells⟩ := decode_eq_ok_iff.mp hDecode
  rw [outline_fill] at hSpells
  obtain ⟨front, _, hFront, hRest, rfl⟩ := Outline.spells_append.mp hSpells
  obtain ⟨middle, back, hMiddle, hBack, rfl⟩ := Outline.spells_append.mp hRest
  exact ⟨front, middle, back, rfl, hFront, hMiddle, hBack⟩

/-- When the attribute is exchanged for one of the same shape, the input with the bytes of
the other one is decoded as the class file with the other one. -/
theorem decode_exchanged {place : Place} {attr other : Attribute}
    {bytes front middle back : List UInt8}
    (hDecode : decode bytes = .ok (place.fill attr))
    (hShape : Attribute.SameShape place.pool attr other)
    (hFront : place.front.Spells front) (hMiddle : other.outline.Spells middle)
    (hBack : place.back.Spells back) :
    decode (front ++ (middle ++ back)) = .ok (place.fill other) := by
  obtain ⟨⟨hWellFormed, hDepth⟩, -⟩ := decode_eq_ok_iff.mp hDecode
  refine decode_eq_ok_iff.mpr
    ⟨⟨wellFormed_fill hShape hWellFormed, depth_fill_le hShape hDepth⟩, ?_⟩
  rw [outline_fill]
  exact Outline.spells_append.mpr ⟨front, _, hFront,
    Outline.spells_append.mpr ⟨middle, back, hMiddle, hBack, rfl⟩, rfl⟩

end ClassFile.Place

/-! ## Every attribute is in a place -/

section

variable {attr : Attribute}

mutual

/-- An attribute inside another one is in a place of every list with the other one. -/
theorem Attribute.exists_place :
    (outer : Attribute) → attr ∈ outer.within → ∀ before after : List Attribute,
      ∃ place : Attribute.Place, place.fill attr = before ++ outer :: after
  | ⟨name, length, payload⟩, hWithin, before, after => by
      rcases List.mem_cons.mp hWithin with rfl | hInside
      · exact ⟨.here before after, rfl⟩
      · exact payload.exists_place hInside name length before after

theorem Attribute.exists_placeAll :
    (attributes : List Attribute) → attr ∈ Attribute.withinAll attributes →
      ∀ before : List Attribute,
        ∃ place : Attribute.Place, place.fill attr = before ++ attributes
  | [], hWithin, _ => absurd hWithin List.not_mem_nil
  | outer :: rest, hWithin, before => by
      rcases List.mem_append.mp hWithin with hFirst | hRest
      · exact outer.exists_place hFirst before rest
      -- The place is found behind the first attribute, which is one more before it.
      · obtain ⟨place, hPlace⟩ := Attribute.exists_placeAll rest hRest (before ++ [outer])
        exact ⟨place, hPlace.trans (List.append_assoc ..)⟩

theorem Payload.exists_place (payload : Payload) (hWithin : attr ∈ payload.within)
    (name : UInt16) (length : UInt32) (before after : List Attribute) :
    ∃ place : Attribute.Place,
      place.fill attr = before ++ ⟨name, length, payload⟩ :: after := by
  cases payload with
  | code body =>
      obtain ⟨inner, hInner⟩ := body.exists_place hWithin
      refine ⟨.inCode before name length body inner after, ?_⟩
      rw [Attribute.Place.fill, hInner]
  | record components =>
      obtain ⟨earlier, shell, inner, later, rfl⟩ :=
        RecordComponent.exists_placeAll components hWithin
      exact ⟨.inComponent before name length earlier shell inner later after, rfl⟩
  | _ => exact absurd hWithin List.not_mem_nil

theorem Code.exists_place :
    (code : Code) → attr ∈ code.within →
      ∃ inner : Attribute.Place, { code with attributes := inner.fill attr } = code
  | ⟨_, _, _, _, attributes⟩, hWithin => by
      obtain ⟨inner, hInner⟩ := Attribute.exists_placeAll attributes hWithin []
      exact ⟨inner, by rw [hInner, List.nil_append]⟩

theorem RecordComponent.exists_place :
    (component : RecordComponent) → attr ∈ component.within →
      ∃ inner : Attribute.Place, { component with attributes := inner.fill attr } = component
  | ⟨_, _, attributes⟩, hWithin => by
      obtain ⟨inner, hInner⟩ := Attribute.exists_placeAll attributes hWithin []
      exact ⟨inner, by rw [hInner, List.nil_append]⟩

theorem RecordComponent.exists_placeAll :
    (components : List RecordComponent) → attr ∈ RecordComponent.withinAll components →
      ∃ (earlier : List RecordComponent) (shell : RecordComponent)
        (inner : Attribute.Place) (later : List RecordComponent),
        components = earlier ++ { shell with attributes := inner.fill attr } :: later
  | [], hWithin => absurd hWithin List.not_mem_nil
  | component :: rest, hWithin => by
      rcases List.mem_append.mp hWithin with hFirst | hRest
      · obtain ⟨inner, hInner⟩ := component.exists_place hFirst
        exact ⟨[], component, inner, rest, by rw [hInner, List.nil_append]⟩
      · obtain ⟨earlier, shell, inner, later, rfl⟩ :=
          RecordComponent.exists_placeAll rest hRest
        exact ⟨component :: earlier, shell, inner, later, rfl⟩

end

/-- An attribute inside one of some fields or methods is in a place of them. -/
theorem Member.exists_place {members : List Member} {member : Member}
    (hMember : member ∈ members) (hWithin : attr ∈ Attribute.withinAll member.attributes) :
    ∃ place : Member.Place, place.fill attr = members := by
  obtain ⟨earlier, later, rfl⟩ := List.append_of_mem hMember
  obtain ⟨inner, hInner⟩ := Attribute.exists_placeAll member.attributes hWithin []
  rw [List.nil_append] at hInner
  exact ⟨⟨earlier, member, inner, later⟩, by rw [Member.Place.fill, hInner]⟩

/-- Every attribute of a class file is in a place of it. -/
theorem ClassFile.exists_place {file : ClassFile} (hWithin : attr ∈ file.attributesWithin) :
    ∃ place : ClassFile.Place, place.fill attr = file := by
  rcases List.mem_append.mp hWithin with hInMembers | hInClass
  · obtain ⟨member, hMember, hInside⟩ := List.mem_flatMap.mp hInMembers
    rcases List.mem_append.mp hMember with hField | hMethod
    · obtain ⟨place, hPlace⟩ := Member.exists_place hField hInside
      exact ⟨.ofField file place, by rw [Place.fill, hPlace]⟩
    · obtain ⟨place, hPlace⟩ := Member.exists_place hMethod hInside
      exact ⟨.ofMethod file place, by rw [Place.fill, hPlace]⟩
  · obtain ⟨inner, hInner⟩ := Attribute.exists_placeAll file.attributes hInClass []
    rw [List.nil_append] at hInner
    exact ⟨.ofClass file inner, by rw [Place.fill, hInner]⟩

end

end ClassFormat
