import Mathlib
import ClassFormat.Attribute.Layout
import ClassFormat.Proofs.Spelling.Annotations
import ClassFormat.Proofs.Spelling.Frames
import ClassFormat.Proofs.Spelling.Parts
import ClassFormat.Proofs.Spelling.Segments

namespace ClassFormat

/-!
# The spelling of attributes

An attribute is well formed when its name selects the layout of its payload,
when its length is that of its payload, and when the payload can be written
without loss.  The payload of a marker is the only part of it that nobody looks
at, so its outline consists of padding and of bytes that are determined.

* `Attribute.reads_read`, by induction on the room, says that the reader that
  may descend `room` levels reads the well-formed attributes that are no deeper.
-/

open Reader

/-! ## Depth -/

mutual

/-- The number of levels below an attribute. -/
def Attribute.depth : Attribute → Nat
  | ⟨_, _, payload⟩ => payload.depth

/-- The greatest depth of some attributes. -/
def Attribute.depthAll : List Attribute → Nat
  | [] => 0
  | attr :: rest => max attr.depth (Attribute.depthAll rest)

/-- The number of levels below a payload. -/
def Payload.depth : Payload → Nat
  | .code body => body.depth
  | .record components => RecordComponent.depthAll components
  | .annotations _ uses => (uses.map AnnotationUse.depth).foldr max 0
  | .parameterAnnotations _ parameters =>
      (parameters.map fun uses => (uses.map AnnotationUse.depth).foldr max 0).foldr max 0
  | .typeAnnotations _ typeUses => (typeUses.map TypeAnnotationUse.depth).foldr max 0
  | .annotationDefault value => value.depth
  | _ => 0

/-- The number of levels below a method body: its attributes are one level down,
even if there are none. -/
def Code.depth : Code → Nat
  | ⟨_, _, _, _, attributes⟩ => Attribute.depthAll attributes + 1

/-- The number of levels below a record component. -/
def RecordComponent.depth : RecordComponent → Nat
  | ⟨_, _, attributes⟩ => Attribute.depthAll attributes + 1

/-- The greatest depth of some record components. -/
def RecordComponent.depthAll : List RecordComponent → Nat
  | [] => 0
  | component :: rest => max component.depth (RecordComponent.depthAll rest)

end

theorem Attribute.depthAll_le_iff {attributes : List Attribute} {n : Nat} :
    Attribute.depthAll attributes ≤ n ↔ ∀ attr ∈ attributes, attr.depth ≤ n := by
  induction attributes with
  | nil => simp [depthAll]
  | cons attr rest ih => simp [depthAll, ih]

theorem RecordComponent.depthAll_le_iff {components : List RecordComponent}
    {n : Nat} :
    RecordComponent.depthAll components ≤ n ↔
      ∀ component ∈ components, component.depth ≤ n := by
  induction components with
  | nil => simp [depthAll]
  | cons component rest ih => simp [depthAll, ih]

/-- The greatest of some depths is bounded when all of them are. -/
theorem foldr_max_le_iff {α : Type} {depth : α → Nat} {items : List α} {n : Nat} :
    (items.map depth).foldr max 0 ≤ n ↔ ∀ item ∈ items, depth item ≤ n := by
  induction items with
  | nil => simp
  | cons item rest ih => simp [ih]

/-! ## Well-formed attributes -/

mutual

/-- The name of the attribute selects the layout of its payload, and its length
is that of its payload. -/
def Attribute.WellFormed (pool : Pool) : Attribute → Prop
  | ⟨name, length, payload⟩ =>
      pool.attributeKind? name = payload.kind? ∧
        (payload.write length).length = length.toNat ∧ payload.WellFormed pool

/-- Some attributes are well formed. -/
def Attribute.AllWellFormed (pool : Pool) : List Attribute → Prop
  | [] => True
  | attr :: rest => attr.WellFormed pool ∧ Attribute.AllWellFormed pool rest

/-- All lists in the payload can be counted, its frames are canonical, and the
things inside it are well formed. -/
def Payload.WellFormed (pool : Pool) : Payload → Prop
  | .references _ indices => indices.length < 0x10000
  | .code body => body.WellFormed pool
  | .stackMapTable frames => Counted16 Frame.IsCanonical frames
  | .innerClasses classes => classes.length < 0x10000
  | .lineNumbers lines => lines.length < 0x10000
  | .localVariables _ entries => entries.length < 0x10000
  | .annotations _ annotations => Counted16 AnnotationUse.WellFormed annotations
  | .parameterAnnotations _ parameters =>
      Counted8 (Counted16 AnnotationUse.WellFormed) parameters
  | .typeAnnotations _ annotations =>
      Counted16 TypeAnnotationUse.WellFormed annotations
  | .annotationDefault value => value.WellFormed
  | .bootstrapMethods methods => Counted16 BootstrapMethod.WellFormed methods
  | .methodParameters parameters => parameters.length < 0x100
  | .module descriptor => descriptor.WellFormed
  | .record components =>
      components.length < 0x10000 ∧ RecordComponent.AllWellFormed pool components
  | .reference _ _ | .marker _ | .enclosingMethod _ _ | .sourceDebugExtension _
  | .unknown _ => True

/-- The method body has instructions, but not too many, its lists can be
counted, and its attributes are well formed. -/
def Code.WellFormed (pool : Pool) : Code → Prop
  | ⟨_, _, instructions, handlers, attributes⟩ =>
      (0 < instructions.length ∧ instructions.length < 0x10000) ∧
        handlers.length < 0x10000 ∧ attributes.length < 0x10000 ∧
        Attribute.AllWellFormed pool attributes

/-- The attributes of the component can be counted and are well formed. -/
def RecordComponent.WellFormed (pool : Pool) : RecordComponent → Prop
  | ⟨_, _, attributes⟩ =>
      attributes.length < 0x10000 ∧ Attribute.AllWellFormed pool attributes

/-- Some record components are well formed. -/
def RecordComponent.AllWellFormed (pool : Pool) : List RecordComponent → Prop
  | [] => True
  | component :: rest =>
      component.WellFormed pool ∧ RecordComponent.AllWellFormed pool rest

end

theorem Attribute.allWellFormed_iff {pool : Pool} {attributes : List Attribute} :
    Attribute.AllWellFormed pool attributes ↔
      ∀ attr ∈ attributes, attr.WellFormed pool := by
  induction attributes with
  | nil => simp [AllWellFormed]
  | cons attr rest ih => simp [AllWellFormed, ih]

theorem RecordComponent.allWellFormed_iff {pool : Pool}
    {components : List RecordComponent} :
    RecordComponent.AllWellFormed pool components ↔
      ∀ component ∈ components, component.WellFormed pool := by
  induction components with
  | nil => simp [AllWellFormed]
  | cons component rest ih => simp [AllWellFormed, ih]

/-! ## Outlines -/

mutual

/-- An attribute, segment by segment. -/
def Attribute.outline : Attribute → Outline
  | ⟨name, length, payload⟩ =>
      .fixed (BigEndian.bytes16 name ++ BigEndian.bytes32 length) ::
        payload.outline length

/-- Attributes one after another, segment by segment. -/
def Attribute.outlineAll : List Attribute → Outline
  | [] => []
  | attr :: rest => attr.outline ++ Attribute.outlineAll rest

/-- A payload under an announced length, segment by segment. -/
def Payload.outline (length : UInt32) : Payload → Outline
  | .marker _ => [.padding length.toNat]
  | .code body => body.outline
  | .record components =>
      .fixed (BigEndian.bytes16 (UInt16.ofNat components.length)) ::
        RecordComponent.outlineAll components
  | payload => [.fixed (payload.write length)]

/-- A method body, segment by segment. -/
def Code.outline : Code → Outline
  | ⟨maxStack, maxLocals, instructions, handlers, attributes⟩ =>
      .fixed (BigEndian.bytes16 maxStack ++ BigEndian.bytes16 maxLocals ++
        BigEndian.bytes32 (UInt32.ofNat instructions.length) ++ instructions ++
        Writer.list16 ExceptionHandler.write handlers) ::
      .fixed (BigEndian.bytes16 (UInt16.ofNat attributes.length)) ::
      Attribute.outlineAll attributes

/-- A record component, segment by segment. -/
def RecordComponent.outline : RecordComponent → Outline
  | ⟨name, descriptor, attributes⟩ =>
      .fixed (BigEndian.bytes16 name ++ BigEndian.bytes16 descriptor) ::
      .fixed (BigEndian.bytes16 (UInt16.ofNat attributes.length)) ::
      Attribute.outlineAll attributes

/-- Record components one after another, segment by segment. -/
def RecordComponent.outlineAll : List RecordComponent → Outline
  | [] => []
  | component :: rest => component.outline ++ RecordComponent.outlineAll rest

end

theorem Attribute.outlineAll_eq_flatMap (attributes : List Attribute) :
    Attribute.outlineAll attributes = attributes.flatMap Attribute.outline := by
  induction attributes with
  | nil => rfl
  | cons attr rest ih => rw [outlineAll, ih, List.flatMap_cons]

theorem RecordComponent.outlineAll_eq_flatMap (components : List RecordComponent) :
    RecordComponent.outlineAll components =
      components.flatMap RecordComponent.outline := by
  induction components with
  | nil => rfl
  | cons component rest ih => rw [outlineAll, ih, List.flatMap_cons]

/-- Two outlines one after another leave no length open if neither does. -/
theorem Outline.isRigid_append {outline rest : Outline}
    (hOutline : ∀ segment ∈ outline, segment.IsRigid)
    (hRest : ∀ segment ∈ rest, segment.IsRigid) :
    ∀ segment ∈ outline ++ rest, segment.IsRigid := by
  intro segment hSegment
  rcases List.mem_append.mp hSegment with hFirst | hLast
  · exact hOutline segment hFirst
  · exact hRest segment hLast

mutual

/-- Attributes leave no length open. -/
theorem Attribute.isRigid_outline :
    (attr : Attribute) → ∀ segment ∈ attr.outline, segment.IsRigid
  | ⟨_, length, payload⟩ => by
      rw [Attribute.outline, List.forall_mem_cons]
      exact ⟨trivial, payload.isRigid_outline length⟩

theorem Attribute.isRigid_outlineAll :
    (attributes : List Attribute) →
      ∀ segment ∈ Attribute.outlineAll attributes, segment.IsRigid
  | [] => List.forall_mem_nil _
  | attr :: rest => Outline.isRigid_append attr.isRigid_outline
      (Attribute.isRigid_outlineAll rest)

theorem Payload.isRigid_outline (length : UInt32) (payload : Payload) :
    ∀ segment ∈ payload.outline length, segment.IsRigid := by
  cases payload with
  | code body => exact body.isRigid_outline
  | record components =>
      rw [Payload.outline, List.forall_mem_cons]
      exact ⟨trivial, RecordComponent.isRigid_outlineAll components⟩
  | _ => exact List.forall_mem_singleton.mpr trivial

theorem Code.isRigid_outline :
    (code : Code) → ∀ segment ∈ code.outline, segment.IsRigid
  | ⟨_, _, _, _, attributes⟩ => by
      rw [Code.outline, List.forall_mem_cons, List.forall_mem_cons]
      exact ⟨trivial, trivial, Attribute.isRigid_outlineAll attributes⟩

theorem RecordComponent.isRigid_outline :
    (component : RecordComponent) →
      ∀ segment ∈ component.outline, segment.IsRigid
  | ⟨_, _, attributes⟩ => by
      rw [RecordComponent.outline, List.forall_mem_cons, List.forall_mem_cons]
      exact ⟨trivial, trivial, Attribute.isRigid_outlineAll attributes⟩

theorem RecordComponent.isRigid_outlineAll :
    (components : List RecordComponent) →
      ∀ segment ∈ RecordComponent.outlineAll components, segment.IsRigid
  | [] => List.forall_mem_nil _
  | component :: rest => Outline.isRigid_append component.isRigid_outline
      (RecordComponent.isRigid_outlineAll rest)

end

mutual

/-- What is written for an attribute is what is written for its outline. -/
theorem Attribute.write_outline :
    (attr : Attribute) → attr.outline.write = attr.write
  | ⟨_, length, payload⟩ => by
      rw [Attribute.outline, Attribute.write, Outline.write_cons,
        payload.write_outline length]
      rfl

theorem Attribute.write_outlineAll :
    (attributes : List Attribute) →
      (Attribute.outlineAll attributes).write = Attribute.writeAll attributes
  | [] => rfl
  | attr :: rest => by
      rw [Attribute.outlineAll, Attribute.writeAll, Outline.write_append,
        attr.write_outline, Attribute.write_outlineAll rest]

theorem Payload.write_outline (length : UInt32) (payload : Payload) :
    (payload.outline length).write = payload.write length := by
  cases payload with
  | code body => exact body.write_outline
  | record components =>
      rw [Payload.outline, Payload.write, Outline.write_cons,
        RecordComponent.write_outlineAll components]
      rfl
  | _ => exact List.append_nil _

theorem Code.write_outline : (code : Code) → code.outline.write = code.write
  | ⟨_, _, _, _, attributes⟩ => by
      rw [Code.outline, Code.write, Outline.write_cons, Outline.write_cons,
        Attribute.write_outlineAll attributes]
      simp [Segment.write]

theorem RecordComponent.write_outline :
    (component : RecordComponent) → component.outline.write = component.write
  | ⟨_, _, attributes⟩ => by
      rw [RecordComponent.outline, RecordComponent.write, Outline.write_cons,
        Outline.write_cons, Attribute.write_outlineAll attributes]
      simp [Segment.write]

theorem RecordComponent.write_outlineAll :
    (components : List RecordComponent) →
      (RecordComponent.outlineAll components).write =
        RecordComponent.writeAll components
  | [] => rfl
  | component :: rest => by
      rw [RecordComponent.outlineAll, RecordComponent.writeAll,
        Outline.write_append, component.write_outline,
        RecordComponent.write_outlineAll rest]

end

/-! ## Reading -/

/-- The attributes that a reader with so much room is for. -/
def Attribute.Fits (pool : Pool) (room : Nat) (attr : Attribute) : Prop :=
  attr.WellFormed pool ∧ attr.depth ≤ room

/-- The payloads that a reader with so much room is for. -/
def Payload.Fits (pool : Pool) (room : Nat) (payload : Payload) : Prop :=
  payload.WellFormed pool ∧ payload.depth ≤ room

/-- The method bodies that a reader with so much room is for. -/
def Code.Fits (pool : Pool) (room : Nat) (code : Code) : Prop :=
  code.WellFormed pool ∧ code.depth ≤ room

/-- The record components that a reader with so much room is for. -/
def RecordComponent.Fits (pool : Pool) (room : Nat) (component : RecordComponent) :
    Prop :=
  component.WellFormed pool ∧ component.depth ≤ room

/-- What may be inside an attribute that may descend `room` levels: nothing
without room, and otherwise the attributes that fit one level less. -/
inductive Attribute.InnerReads (pool : Pool) :
    Option (Reader Attribute) → Nat → Prop where
  | none : InnerReads pool none 0
  | some {attr : Reader Attribute} {room : Nat}
      (hAttr : attr.Reads fun a head => a.Fits pool room ∧ a.outline.Spells head) :
      InnerReads pool (some attr) (room + 1)

/-- A payload whose run of bytes is as long as announced. -/
def Payload.RunFits (length : UInt32) : Payload → Prop
  | .sourceDebugExtension bytes => bytes.length = length.toNat
  | _ => True

/-- A payload of the announced length has its run of bytes of that length. -/
theorem Payload.runFits_of_length {length : UInt32} {payload : Payload}
    (hLength : (payload.write length).length = length.toNat) :
    payload.RunFits length := by
  cases payload with
  | sourceDebugExtension bytes => exact hLength
  | _ => trivial

/-- All spellings of a payload are as long as the one that is written. -/
theorem Payload.length_of_spells {length : UInt32} {payload : Payload}
    {head : List UInt8} (hSpells : (payload.outline length).Spells head) :
    head.length = (payload.write length).length := by
  rw [Outline.length_of_spells (payload.isRigid_outline length) hSpells,
    payload.write_outline]

theorem not_codeLength_iff {length : UInt32} :
    ¬(length = 0 ∨ maxCodeLength < length) ↔
      0 < length.toNat ∧ length.toNat < 0x10000 := by
  rw [not_or, ← UInt32.toNat_inj, UInt32.lt_iff_toNat_lt]
  have hMax : maxCodeLength.toNat = 65535 := rfl
  rw [hMax, UInt32.toNat_zero]
  omega

section

variable {pool : Pool} {room : Nat} {inner : Option (Reader Attribute)}
  (hInner : Attribute.InnerReads pool inner room)

include hInner

/-- The attributes one level down are counted, and they need a level, even if
there are none. -/
theorem Attribute.reads_readInner :
    (readInner inner).Reads fun attributes head =>
      (attributes.length < 0x10000 ∧ AllWellFormed pool attributes ∧
        depthAll attributes + 1 ≤ room) ∧
      Outline.Spells (.fixed (BigEndian.bytes16 (UInt16.ofNat attributes.length)) ::
        outlineAll attributes) head := by
  intro bytes attributes rest
  cases hInner with
  | none => simp [readInner]
  | @some attr room hAttr =>
      have hList : (readInner (some attr)).run bytes =
          (Reader.list16 attr).run bytes := rfl
      have hFits : Counted16 (Fits pool room) attributes ↔
          attributes.length < 0x10000 ∧ AllWellFormed pool attributes ∧
            depthAll attributes + 1 ≤ room + 1 := by
        rw [allWellFormed_iff, Nat.add_le_add_iff_right, depthAll_le_iff, ← and_assoc]
        exact counted16_and
      rw [hList, hAttr.list16]
      unfold Outline.list16
      simp only [hFits, outlineAll_eq_flatMap]

theorem RecordComponent.reads_readWith :
    (readWith inner).Reads fun component head =>
      component.Fits pool room ∧ component.outline.Spells head := by
  intro bytes component rest
  obtain ⟨name, descriptor, attributes⟩ := component
  have hAttributes := Attribute.reads_readInner hInner
  unfold Reads at hAttributes
  simp only [readWith, run_bind_eq_ok, run_word16_eq_ok, run_pure_eq_ok,
    hAttributes]
  constructor
  · intro hRun
    obtain ⟨first, _, rfl, second, _, rfl, _, _, ⟨tail, ⟨hFits, hTail⟩, rfl⟩,
      hParts, rfl⟩ := hRun
    injection hParts with hName hDescriptor hAttributes
    subst hName hDescriptor hAttributes
    obtain ⟨hFew, hAll, hDepth⟩ := hFits
    refine ⟨BigEndian.bytes16 first ++ BigEndian.bytes16 second ++ tail,
      ⟨⟨⟨hFew, hAll⟩, hDepth⟩, ?_⟩, by simp only [List.append_assoc]⟩
    exact Outline.spells_fixed_cons.mpr ⟨tail, hTail, rfl⟩
  · intro hFits
    obtain ⟨_, ⟨⟨⟨hFew, hAll⟩, hDepth⟩, hSpells⟩, rfl⟩ := hFits
    obtain ⟨tail, hTail, rfl⟩ := Outline.spells_fixed_cons.mp hSpells
    exact ⟨name, BigEndian.bytes16 descriptor ++ (tail ++ rest),
      by simp only [List.append_assoc], descriptor, _, rfl, attributes, rest,
      ⟨tail, ⟨⟨hFew, hAll, hDepth⟩, hTail⟩, rfl⟩, rfl, rfl⟩

theorem Code.reads_readWith :
    (readWith inner).Reads fun code head =>
      code.Fits pool room ∧ code.outline.Spells head := by
  intro bytes code rest
  obtain ⟨maxStack, maxLocals, instructions, handlers, attributes⟩ := code
  have hAttributes := Attribute.reads_readInner hInner
  unfold Reads at hAttributes
  simp only [readWith, run_bind_eq_ok, run_word16_eq_ok, run_word32_eq_ok]
  constructor
  · intro hRun
    obtain ⟨stack, _, rfl, locals, _, rfl, length, _, rfl, hBody⟩ := hRun
    split at hBody
    · exact (run_fail_eq_ok.mp hBody).elim
    next hLength =>
      simp only [run_bind_eq_ok, run_take_eq_ok, run_pure_eq_ok, hAttributes,
        ExceptionHandler.inverts_read.list16.run_eq_ok, counted16_true] at hBody
      obtain ⟨taken, _, ⟨hTaken, rfl⟩, table, _, ⟨hHandlers, rfl⟩, _, _,
        ⟨tail, ⟨hFits, hTail⟩, rfl⟩, hParts, rfl⟩ := hBody
      injection hParts with hStack hLocals hInstructions hTable hAttributes
      subst hStack hLocals hInstructions hTable hAttributes
      obtain ⟨hFew, hAll, hDepth⟩ := hFits
      -- So many bytes were taken as the length says, and it was checked.
      have hBounds : 0 < taken.length ∧ taken.length < 0x10000 := by
        rw [hTaken]
        exact not_codeLength_iff.mp hLength
      have hWord : UInt32.ofNat taken.length = length := by
        rw [hTaken, UInt32.ofNat_toNat]
      refine ⟨BigEndian.bytes16 stack ++ BigEndian.bytes16 locals ++
          BigEndian.bytes32 length ++ taken ++
          Writer.list16 ExceptionHandler.write table ++ tail,
        ⟨⟨⟨hBounds, hHandlers, hFew, hAll⟩, hDepth⟩, ?_⟩,
        by simp only [List.append_assoc]⟩
      rw [← hWord]
      exact Outline.spells_fixed_cons.mpr ⟨tail, hTail, rfl⟩
  · intro hFits
    obtain ⟨_, ⟨⟨⟨hBounds, hHandlers, hFew, hAll⟩, hDepth⟩, hSpells⟩, rfl⟩ := hFits
    obtain ⟨tail, hTail, rfl⟩ := Outline.spells_fixed_cons.mp hSpells
    have hLength : (UInt32.ofNat instructions.length).toNat = instructions.length :=
      UInt32.toNat_ofNat_of_lt' (hBounds.2.trans (by decide))
    refine ⟨maxStack, BigEndian.bytes16 maxLocals ++
        (BigEndian.bytes32 (UInt32.ofNat instructions.length) ++ (instructions ++
          (Writer.list16 ExceptionHandler.write handlers ++ (tail ++ rest)))),
      by simp only [List.append_assoc], maxLocals, _, rfl, _, _, rfl, ?_⟩
    have hAllowed : ¬(UInt32.ofNat instructions.length = 0 ∨
        maxCodeLength < UInt32.ofNat instructions.length) := by
      rw [not_codeLength_iff, hLength]
      exact hBounds
    rw [if_neg hAllowed]
    simp only [run_bind_eq_ok, run_take_eq_ok, run_pure_eq_ok, hAttributes,
      ExceptionHandler.inverts_read.list16.run_eq_ok, counted16_true]
    exact ⟨instructions, _, ⟨hLength.symm, rfl⟩, handlers, _, ⟨hHandlers, rfl⟩,
      attributes, rest, ⟨tail, ⟨⟨hFew, hAll, hDepth⟩, hTail⟩, rfl⟩, rfl, rfl⟩

omit hInner in
/-- A reader of the only contents that the payloads of a kind have. -/
theorem Payload.run_map_eq_ok {α : Type} {p : Reader α} {spells : Spelling α}
    {form : α → Payload} {length : UInt32} {kind : AttributeKind}
    (hReads : p.Reads spells)
    (hForm : ∀ payload, payload.kind? = some kind ↔ ∃ content, form content = payload)
    (hSpells : ∀ content head, spells content head ↔
      (form content).Fits pool room ∧ (form content).RunFits length ∧
        ((form content).outline length).Spells head)
    {payload : Payload} {bytes rest : List UInt8} :
    (form <$> p).run bytes = .ok (payload, rest) ↔
      payload.kind? = some kind ∧ payload.Fits pool room ∧
        payload.RunFits length ∧
        ∃ head, (payload.outline length).Spells head ∧ bytes = head ++ rest := by
  unfold Reads at hReads
  simp only [Reader.run_map_eq_ok, hReads, hForm, hSpells]
  constructor
  · intro hRun
    obtain ⟨content, ⟨head, ⟨hFits, hRunFits, hHead⟩, rfl⟩, rfl⟩ := hRun
    exact ⟨⟨content, rfl⟩, hFits, hRunFits, head, hHead, rfl⟩
  · intro hPayload
    obtain ⟨⟨content, rfl⟩, hFits, hRunFits, head, hHead, rfl⟩ := hPayload
    exact ⟨content, ⟨head, ⟨hFits, hRunFits, hHead⟩, rfl⟩, rfl⟩

omit hInner in
/-- A reader of the only contents that the payloads of a kind have, when the
payloads are written as the contents are. -/
theorem Payload.run_map_written_eq_ok {α : Type} (form : α → Payload) {p : Reader α}
    {good : α → Prop} {write : Writer α} {length : UInt32} {kind : AttributeKind}
    (hInverts : p.Inverts good write)
    (hForm : ∀ payload, payload.kind? = some kind ↔ ∃ content, form content = payload)
    (hContent : ∀ content, (good content ↔ (form content).Fits pool room) ∧
      (form content).RunFits length ∧
      (form content).outline length = [.fixed (write content)])
    {payload : Payload} {bytes rest : List UInt8} :
    (form <$> p).run bytes = .ok (payload, rest) ↔
      payload.kind? = some kind ∧ payload.Fits pool room ∧
        payload.RunFits length ∧
        ∃ head, (payload.outline length).Spells head ∧ bytes = head ++ rest := by
  refine run_map_eq_ok hInverts hForm fun content head => ?_
  obtain ⟨hGood, hRunFits, hOutline⟩ := hContent content
  rw [hGood, hOutline, Outline.spells_fixed]
  exact and_congr_right fun _ => (and_iff_right hRunFits).symm

/-- The payload of a known kind is read behind the announced length. -/
theorem Payload.run_readWith_eq_ok {length : UInt32} {kind : AttributeKind}
    {payload : Payload} {bytes rest : List UInt8} :
    (readWith room inner length kind).run bytes = .ok (payload, rest) ↔
      payload.kind? = some kind ∧ payload.Fits pool room ∧
        payload.RunFits length ∧
        ∃ head, (payload.outline length).Spells head ∧ bytes = head ++ rest := by
  cases kind with
  | reference role =>
      refine run_map_written_eq_ok (reference role) inverts_word16
        (fun payload => ?_) (fun index => ⟨?_, trivial, rfl⟩)
      · cases payload <;> simp [kind?, eq_comm]
      · simp [Fits, WellFormed, depth]
  | references role =>
      refine run_map_written_eq_ok (references role) inverts_word16.list16
        (fun payload => ?_) (fun indices => ⟨?_, trivial, rfl⟩)
      · cases payload <;> simp [kind?, eq_comm]
      · simp [Fits, WellFormed, depth]
  | marker kind =>
      -- The bytes of a marker are taken and forgotten.
      simp only [readWith, run_bind_eq_ok, run_take_eq_ok, run_pure_eq_ok]
      constructor
      · intro hRun
        obtain ⟨taken, _, ⟨hTaken, rfl⟩, rfl, rfl⟩ := hRun
        exact ⟨rfl, ⟨trivial, Nat.zero_le room⟩, trivial, taken,
          Outline.spells_singleton.mpr hTaken, rfl⟩
      · intro hPayload
        obtain ⟨hKind, -, -, head, hHead, rfl⟩ := hPayload
        cases payload with
        | marker kind' =>
            obtain rfl : kind' = kind := by simpa [kind?] using hKind
            exact ⟨head, rest, ⟨Outline.spells_singleton.mp hHead, rfl⟩, rfl, rfl⟩
        | _ => simp [kind?] at hKind
  | code =>
      refine run_map_eq_ok (Code.reads_readWith hInner) (fun payload => ?_)
        (fun body head => ?_)
      · cases payload <;> simp [kind?]
      · simp [Fits, Code.Fits, WellFormed, depth, outline, RunFits]
  | stackMapTable =>
      refine run_map_written_eq_ok stackMapTable Frame.inverts_read.list16
        (fun payload => ?_) (fun frames => ⟨?_, trivial, rfl⟩)
      · cases payload <;> simp [kind?]
      · simp [Fits, WellFormed, depth]
  | innerClasses =>
      refine run_map_written_eq_ok innerClasses InnerClass.inverts_read.list16
        (fun payload => ?_) (fun classes => ⟨?_, trivial, rfl⟩)
      · cases payload <;> simp [kind?]
      · simp [Fits, WellFormed, depth]
  -- Two words that are not one record.
  | enclosingMethod =>
      simp only [readWith, run_bind_eq_ok, run_word16_eq_ok, run_pure_eq_ok]
      constructor
      · intro hRun
        obtain ⟨owner, _, rfl, method, _, rfl, rfl, rfl⟩ := hRun
        exact ⟨rfl, ⟨trivial, Nat.zero_le room⟩, trivial, _,
          Outline.spells_fixed.mpr rfl, (List.append_assoc ..).symm⟩
      · intro hPayload
        obtain ⟨hKind, -, -, head, hHead, rfl⟩ := hPayload
        cases payload with
        | enclosingMethod owner method =>
            obtain rfl := Outline.spells_fixed.mp hHead
            exact ⟨owner, _, List.append_assoc .., method, rest, rfl, rfl, rfl⟩
        | _ => simp [kind?] at hKind
  | sourceDebugExtension =>
      have hTake : (Reader.take length.toNat).Inverts
          (fun taken => taken.length = length.toNat) id :=
        .of_run fun _ _ _ => run_take_eq_ok
      refine run_map_eq_ok hTake (fun payload => ?_) (fun taken head => ?_)
      · cases payload <;> simp [kind?]
      · simp [Fits, WellFormed, depth, RunFits, outline, Outline.spells_fixed,
          Payload.write]
  | lineNumbers =>
      refine run_map_written_eq_ok lineNumbers LineNumber.inverts_read.list16
        (fun payload => ?_) (fun lines => ⟨?_, trivial, rfl⟩)
      · cases payload <;> simp [kind?]
      · simp [Fits, WellFormed, depth]
  | localVariables table =>
      refine run_map_written_eq_ok (localVariables table)
        LocalVariable.inverts_read.list16
        (fun payload => ?_) (fun entries => ⟨?_, trivial, rfl⟩)
      · cases payload <;> simp [kind?, eq_comm]
      · simp [Fits, WellFormed, depth]
  | annotations visibility =>
      refine run_map_written_eq_ok (annotations visibility)
        (AnnotationUse.inverts_read room).list16
        (fun payload => ?_) (fun annotations => ⟨?_, trivial, rfl⟩)
      · cases payload <;> simp [kind?, eq_comm]
      · rw [Fits, WellFormed, depth, foldr_max_le_iff]
        exact counted16_and
  | parameterAnnotations visibility =>
      refine run_map_written_eq_ok (parameterAnnotations visibility)
        (AnnotationUse.inverts_read room).list16.list8
        (fun payload => ?_) (fun parameters => ⟨?_, trivial, rfl⟩)
      · cases payload <;> simp [kind?, eq_comm]
      · have hUses : ∀ uses, Counted16 (AnnotationUse.Fits room) uses ↔
            Counted16 AnnotationUse.WellFormed uses ∧ ∀ use ∈ uses, use.depth ≤ room :=
          fun uses => counted16_and
        simp only [Fits, WellFormed, depth, Counted8, hUses, forall₂_and,
          foldr_max_le_iff, and_assoc]
  | typeAnnotations visibility =>
      refine run_map_written_eq_ok (typeAnnotations visibility)
        (TypeAnnotationUse.inverts_read room).list16
        (fun payload => ?_) (fun annotations => ⟨?_, trivial, rfl⟩)
      · cases payload <;> simp [kind?, eq_comm]
      · rw [Fits, WellFormed, depth, foldr_max_le_iff]
        exact counted16_and
  | annotationDefault =>
      refine run_map_written_eq_ok annotationDefault
        (ElementValue.inverts_read room)
        (fun payload => ?_) (fun value => ⟨?_, trivial, rfl⟩)
      · cases payload <;> simp [kind?]
      · simp [Fits, WellFormed, depth, ElementValue.Fits]
  | bootstrapMethods =>
      refine run_map_written_eq_ok bootstrapMethods
        BootstrapMethod.inverts_read.list16
        (fun payload => ?_) (fun methods => ⟨?_, trivial, rfl⟩)
      · cases payload <;> simp [kind?]
      · simp [Fits, WellFormed, depth]
  | methodParameters =>
      refine run_map_written_eq_ok methodParameters
        MethodParameter.inverts_read.list8
        (fun payload => ?_) (fun parameters => ⟨?_, trivial, rfl⟩)
      · cases payload <;> simp [kind?]
      · simp [Fits, WellFormed, depth]
  | module =>
      refine run_map_written_eq_ok module ModuleDescriptor.inverts_read
        (fun payload => ?_) (fun descriptor => ⟨?_, trivial, rfl⟩)
      · cases payload <;> simp [kind?]
      · simp [Fits, WellFormed, depth]
  | record =>
      refine run_map_eq_ok (RecordComponent.reads_readWith hInner).list16
        (fun payload => ?_) (fun components head => ?_)
      · cases payload <;> simp [kind?]
      · have hFits : Counted16 (RecordComponent.Fits pool room) components ↔
            (record components).Fits pool room := by
          rw [Fits, WellFormed, depth, RecordComponent.allWellFormed_iff,
            RecordComponent.depthAll_le_iff]
          exact counted16_and
        unfold Outline.list16
        simp only [hFits, RunFits, true_and, outline,
          RecordComponent.outlineAll_eq_flatMap]

theorem Attribute.reads_readWith :
    (readWith pool room inner).Reads fun attr head =>
      attr.Fits pool room ∧ attr.outline.Spells head := by
  intro bytes attr rest
  obtain ⟨name, length, payload⟩ := attr
  simp only [readWith, run_bind_eq_ok, run_word16_eq_ok, run_word32_eq_ok]
  constructor
  · intro hRun
    obtain ⟨index, _, rfl, announced, middle, rfl, hBody⟩ := hRun
    cases hKind : pool.attributeKind? index with
    | none =>
        rw [hKind] at hBody
        simp only [run_bind_eq_ok, run_take_eq_ok, run_pure_eq_ok] at hBody
        obtain ⟨taken, _, ⟨hTaken, rfl⟩, hParts, rfl⟩ := hBody
        injection hParts with hName hLength hPayload
        subst hName hLength hPayload
        refine ⟨BigEndian.bytes16 index ++ BigEndian.bytes32 announced ++ taken,
          ⟨⟨⟨hKind, hTaken, trivial⟩, Nat.zero_le room⟩, ?_⟩,
          by simp only [List.append_assoc]⟩
        exact Outline.spells_fixed_cons.mpr
          ⟨taken, Outline.spells_fixed.mpr rfl, rfl⟩
    | some kind =>
        rw [hKind] at hBody
        simp only [run_bind_eq_ok, Prod.exists, run_measure_eq_ok,
          Payload.run_readWith_eq_ok hInner] at hBody
        obtain ⟨content, actual, _, ⟨⟨hContent, hFits, -, head, hHead, rfl⟩,
          hActual⟩, hEnd⟩ := hBody
        split at hEnd
        · next hSame =>
            rw [run_pure_eq_ok] at hEnd
            obtain ⟨hParts, rfl⟩ := hEnd
            injection hParts with hName hLength hPayload
            subst hName hLength hPayload
            obtain ⟨hWellFormed, hDepth⟩ := hFits
            -- What was measured is the length of any spelling of the payload.
            have hLength : (content.write announced).length = announced.toNat := by
              rw [hActual, List.length_append, Nat.add_sub_cancel] at hSame
              rw [← Payload.length_of_spells hHead, hSame]
            refine ⟨BigEndian.bytes16 index ++ BigEndian.bytes32 announced ++ head,
              ⟨⟨⟨hKind.trans hContent.symm, hLength, hWellFormed⟩, hDepth⟩, ?_⟩,
              by simp only [List.append_assoc]⟩
            exact Outline.spells_fixed_cons.mpr ⟨head, hHead, rfl⟩
        · exact (run_fail_eq_ok.mp hEnd).elim
  · intro hFits
    obtain ⟨_, ⟨⟨⟨hKind, hLength, hWellFormed⟩, hDepth⟩, hSpells⟩, rfl⟩ := hFits
    obtain ⟨head, hHead, rfl⟩ := Outline.spells_fixed_cons.mp hSpells
    have hActual : head.length = length.toNat :=
      (Payload.length_of_spells hHead).trans hLength
    refine ⟨name, BigEndian.bytes32 length ++ (head ++ rest),
      by simp only [List.append_assoc], length, _, rfl, ?_⟩
    cases hContent : payload.kind? with
    | none =>
        rw [hKind, hContent]
        cases payload with
        | unknown content =>
            obtain rfl := Outline.spells_fixed.mp hHead
            exact run_bind_eq_ok.mpr
              ⟨_, rest, run_take_eq_ok.mpr ⟨hActual, rfl⟩, rfl⟩
        | _ => simp [Payload.kind?] at hContent
    | some kind =>
        rw [hKind, hContent]
        have hPayload : (Payload.readWith room inner length kind).run (head ++ rest) =
            .ok (payload, rest) :=
          (Payload.run_readWith_eq_ok hInner).mpr
            ⟨hContent, ⟨hWellFormed, hDepth⟩, Payload.runFits_of_length hLength,
              head, hHead, rfl⟩
        have hMeasured : head.length = (head ++ rest).length - rest.length := by
          rw [List.length_append, Nat.add_sub_cancel]
        refine run_bind_eq_ok.mpr ⟨(payload, head.length), rest,
          run_measure_eq_ok.mpr ⟨hPayload, hMeasured⟩, ?_⟩
        show run (if head.length = length.toNat then _ else _) rest = _
        rw [if_pos hActual]
        rfl

end

/-- The reader of attributes takes what is spelled for the well-formed attributes
that it has room for. -/
theorem Attribute.reads_read (pool : Pool) (room : Nat) :
    (read pool room).Reads fun attr head =>
      attr.Fits pool room ∧ attr.outline.Spells head := by
  induction room with
  | zero => exact reads_readWith .none
  | succ room ih => exact reads_readWith (.some ih)

end ClassFormat
