import Mathlib
import ClassFormat.Proofs.AttributeNames
import ClassFormat.Proofs.ReadingPlaces
import ClassFormat.Proofs.Spelling.Sizes

namespace ClassFormat

/-!
# Declared lengths

An attribute declares the number of bytes of its payload, and the declaration is exact.
Where the layout of the payload tells its end, the payload is read without a look at the
declared length, and only then is it measured.  So another length in the same place
changes nothing of what is read before the comparison, and the comparison fails.

* `Payload.readWith_declared` says that the declared length is not looked at.
* `ClassFile.declared_lengths` is about all attributes of a decoded class file.
-/

open Reader

/-! ## Lengths that are not looked at -/

/-- Whether the layout tells where the payload ends, so that the declared length is not
needed to read it. -/
def AttributeKind.IsStructured : AttributeKind → Prop
  | marker _ | sourceDebugExtension => False
  | _ => True

/-- A structured payload is read in the same way under every declared length. -/
theorem Payload.readWith_declared {kind : AttributeKind} (hStructured : kind.IsStructured)
    (room : Nat) (inner : Option (Reader Attribute)) (declared length : UInt32) :
    readWith room inner declared kind = readWith room inner length kind := by
  cases kind with
  | marker | sourceDebugExtension => exact hStructured.elim
  | _ => rfl

namespace Attribute

variable {pool : Pool} {room : Nat} {name : UInt16} {length declared : UInt32}
  {payload : Payload} {kind : AttributeKind} {run : List UInt8}
  (hFits : Fits pool room ⟨name, length, payload⟩) (hKind : payload.kind? = some kind)
  (hStructured : kind.IsStructured) (hRun : (payload.outline length).Spells run)
  (hDeclared : declared ≠ length)

include hFits hKind hStructured hRun hDeclared

/-- When what is behind another length spells a structured payload, the reader stops
where the payload ends. -/
theorem run_readWith_declared {inner : Option (Reader Attribute)}
    (hInner : InnerReads pool inner room) (rest : List UInt8) :
    (readWith pool room inner).run
        (BigEndian.bytes16 name ++ (BigEndian.bytes32 declared ++ (run ++ rest))) =
      .error (.lengthMismatch kind declared length.toNat) := by
  obtain ⟨⟨hName, hLength, hPayload⟩, hDepth⟩ := hFits
  -- The payload is read as under its own length.
  have hRead : (Payload.readWith room inner declared kind).run (run ++ rest) =
      .ok (payload, rest) := by
    rw [Payload.readWith_declared hStructured room inner declared length]
    exact (Payload.run_readWith_eq_ok hInner).mpr
      ⟨hKind, ⟨hPayload, hDepth⟩, Payload.runFits_of_length hLength, run, hRun, rfl⟩
  have hTaken : run.length = length.toNat := (Payload.length_of_spells hRun).trans hLength
  have hMeasured :
      (measure (Payload.readWith room inner declared kind)).run (run ++ rest) =
        .ok ((payload, length.toNat), rest) := by
    refine run_measure_eq_ok.mpr ⟨hRead, ?_⟩
    rw [List.length_append, Nat.add_sub_cancel, hTaken]
  have hOther : length.toNat ≠ declared.toNat := fun hSame =>
    hDeclared (UInt32.toNat_inj.mp hSame.symm)
  apply (Reaches.word16 name _ _).trans (Reaches.word32 declared _ _)
  rw [hName.trans hKind]
  apply Reaches.andThen hMeasured
  show Reader.run (if length.toNat = declared.toNat then _ else _) rest = _
  rw [if_neg hOther]
  rfl

/-- The declared length of a structured attribute is compared with what was read. -/
theorem run_read_declared (rest : List UInt8) :
    (read pool room).run
        (BigEndian.bytes16 name ++ (BigEndian.bytes32 declared ++ (run ++ rest))) =
      .error (.lengthMismatch kind declared length.toNat) := by
  cases room with
  | zero => exact run_readWith_declared hFits hKind hStructured hRun hDeclared .none rest
  | succ room =>
      have hInner := InnerReads.some (reads_read pool room)
      exact run_readWith_declared hFits hKind hStructured hRun hDeclared hInner rest

end Attribute

namespace ClassFile

/-! ## Declared lengths -/

/-- Every attribute of a decoded class file, at any depth, declares the size of its
payload.  In every place of it, the input holds the declared length and behind it as many
bytes, which spell the payload.  If the layout of the payload tells where it ends, then
with any other length in that place the input is refused because of this attribute. -/
theorem declared_lengths {bytes : List UInt8} {file : ClassFile}
    (hDecode : decode bytes = .ok file) :
    (∀ attr ∈ file.attributesWithin, attr.length.toNat = attr.payload.size attr.length ∧
      ∃ place : Place, place.fill attr = file) ∧
    ∀ (place : Place) (attr : Attribute), place.fill attr = file →
      ∃ front run back,
        bytes = front ++ BigEndian.bytes32 attr.length ++ run ++ back ∧
        Outline.Spells (place.front ++ [.fixed (BigEndian.bytes16 attr.name)]) front ∧
        (attr.payload.outline attr.length).Spells run ∧ place.back.Spells back ∧
        run.length = attr.length.toNat ∧
        ∀ kind, attr.payload.kind? = some kind → kind.IsStructured →
          file.pool.text? attr.name = some kind.name ∧
          ∀ declared ≠ attr.length,
            decode (front ++ BigEndian.bytes32 declared ++ run ++ back) =
              .error (.lengthMismatch kind declared attr.length.toNat) := by
  obtain ⟨⟨hFile, hDepth⟩, -⟩ := decode_eq_ok_iff.mp hDecode
  refine ⟨fun attr hAttr => ⟨(hFile.within attr hAttr).length_eq, exists_place hAttr⟩, ?_⟩
  rintro place ⟨name, length, payload⟩ rfl
  obtain ⟨front, middle, back, rfl, hFront, hMiddle, hBack⟩ := Place.decode_fill hDecode
  obtain ⟨run, hRun, rfl⟩ := Outline.spells_fixed_cons.mp hMiddle
  obtain ⟨left, hFits, hReaches⟩ := reaches_place place hFile hDepth hFront
  obtain ⟨hNamed, hLength, -⟩ := hFits.1
  refine ⟨front ++ BigEndian.bytes16 name, run, back, by simp only [List.append_assoc],
    Outline.spells_append.mpr ⟨front, _, hFront, Outline.spells_fixed.mpr rfl, rfl⟩, hRun,
    hBack, (Payload.length_of_spells hRun).trans hLength, fun kind hKind hStructured => ?_⟩
  have hName : place.pool.attributeKind? name = some kind := hNamed.trans hKind
  refine ⟨?_, fun declared hDeclared => ?_⟩
  · rw [Place.pool_fill, Pool.text?_eq_some_iff]
    exact Pool.attributeKind?_eq_some_iff.mp hName
  · have hFault := Attribute.run_read_declared hFits hKind hStructured hRun
      hDeclared back
    have hStops := hReaches _ _ hFault
    simp only [List.append_assoc] at hStops ⊢
    exact whole_eq_error_iff.mpr (.inl hStops)

/-- The table inside the method body inside the record component of `nestedTable`. -/
def lineTable : Attribute := ⟨3, 6, .lineNumbers [⟨0, 7⟩]⟩

/-- The place of the table. -/
def nestedTable.place : Place :=
  .ofClass
    { minor := 0
      major := 61
      pool := ⟨#[some (.utf8 "Record"), some (.utf8 "Code"), some (.utf8 "LineNumberTable"),
        some (.textRef .classRef 1)]⟩
      flags := ⟨0x31⟩
      thisClass := 4
      superClass := 0
      interfaces := []
      fields := []
      methods := []
      attributes := [] }
    (.inComponent [] 1 39 [] ⟨1, 1, []⟩
      (.inCode [] 2 25 ⟨1, 1, [0xb1], [], []⟩ (.here [] []) []) [] [])

/-- A record class with a table of line numbers two levels below its attributes. -/
def nestedTable : ClassFile := nestedTable.place.fill lineTable

theorem nestedTable_wellFormed : nestedTable.WellFormed where
  pool := ⟨by decide, by decide, by decide⟩
  interfaces := by decide
  fields := ⟨by decide, List.forall_mem_nil _⟩
  methods := ⟨by decide, List.forall_mem_nil _⟩
  attributes := by
    refine ⟨by decide, List.forall_mem_singleton.mpr ⟨by decide, by decide, by decide, ?_⟩⟩
    refine ⟨⟨by decide, ⟨by decide, by decide, ?_⟩, trivial⟩, trivial⟩
    have hTable : Attribute.WellFormed nestedTable.pool lineTable :=
      ⟨by decide, by decide, show 1 < 0x10000 by decide⟩
    exact ⟨by decide, by decide, by decide, hTable, trivial⟩

/-- The method body counts the table with its name and its length, and a length of seven
in place of six is found out. -/
theorem declared_lengths_nestedTable :
    ∃ bytes, decode bytes = .ok nestedTable ∧
      (∃ body, Attribute.mk 2 25 (.code body) ∈ nestedTable.attributesWithin ∧
        body.attributes = [lineTable] ∧ body.size = 25) ∧
      ∃ front back, bytes = front ++ BigEndian.bytes32 6 ++ back ∧
        decode (front ++ BigEndian.bytes32 7 ++ back) =
          .error (.lengthMismatch .lineNumbers 7 6) := by
  have hDecode : decode nestedTable.encode = .ok nestedTable :=
    decode_eq_ok_iff.mpr ⟨⟨nestedTable_wellFormed, by decide⟩,
      spells_encode nestedTable_wellFormed.pool.few (by decide)⟩
  obtain ⟨hSizes, hPlaces⟩ := declared_lengths hDecode
  have hBody : Attribute.mk 2 25 (.code ⟨1, 1, [0xb1], [], [lineTable]⟩) ∈
      nestedTable.attributesWithin := by
    simp [nestedTable, nestedTable.place, Place.fill, Attribute.Place.fill, attributesWithin,
      members, Attribute.withinAll, Attribute.within, Payload.within,
      RecordComponent.withinAll, RecordComponent.within]
  obtain ⟨front, run, back, hBytes, -, -, -, -, hChanged⟩ :=
    hPlaces nestedTable.place lineTable rfl
  obtain ⟨-, hRefused⟩ := hChanged .lineNumbers rfl trivial
  refine ⟨nestedTable.encode, hDecode, ⟨_, hBody, rfl, (hSizes _ hBody).1.symm⟩, front,
    run ++ back, ?_, ?_⟩
  · rw [hBytes, List.append_assoc]
    rfl
  · rw [← List.append_assoc]
    exact hRefused 7 (by decide)

end ClassFile

end ClassFormat
