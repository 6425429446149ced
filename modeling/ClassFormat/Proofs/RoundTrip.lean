import Mathlib
import ClassFormat.Proofs.Spelling.ClassFiles

namespace ClassFormat

/-!
# Decoding and encoding undo each other

The bytes that are decoded as a class file are those that its outline spells,
provided that it is well formed and not nested too deep.

* `ClassFile.decode_eq_ok_iff` says so.
* `ClassFile.decode_encode_wellFormed` says that what is written for a
  well-formed class file is decoded as it.
* `ClassFile.encode_of_decode` says that a class file determines all bytes that
  it is decoded from but those of three sources: the count of an empty pool, the
  spelling of texts, and the payload of markers.
-/

open Reader

namespace ClassFile

/-- Whether the bytes make canonical use of the freedom that the class file leaves
them. -/
def CanonicallySpelled (file : ClassFile) (bytes : List UInt8) : Prop :=
  ∃ pieces, file.outline.SplitsInto pieces bytes ∧
    List.Forall₂ Segment.IsCanonical file.outline pieces

/-- The inputs that are decoded as a class file. -/
theorem decode_eq_ok_iff {bytes : List UInt8} {file : ClassFile} :
    decode bytes = .ok file ↔
      (file.WellFormed ∧ file.depth ≤ maxNesting) ∧ file.outline.Spells bytes := by
  rw [decode, whole_eq_ok_iff, reads_read]
  simp only [List.append_nil, exists_eq_right']

/-- Every piece of a class file with short texts can be written. -/
theorem isWritable_outline {file : ClassFile}
    (hFew : file.pool.slots.size < 0xffff) (hTexts : file.pool.TextsFit) :
    ∀ segment ∈ file.outline, segment.IsWritable := by
  have hAttributes : ∀ attributes : List Attribute,
      ∀ segment ∈ Outline.list16 Attribute.outline attributes, segment.IsWritable := by
    intro attributes
    refine List.forall_mem_cons.mpr ⟨trivial, List.forall_mem_flatMap.mpr ?_⟩
    intro attr _ segment hSegment
    exact (attr.isRigid_outline segment hSegment).isWritable
  have hMembers : ∀ members : List Member,
      ∀ segment ∈ Outline.list16 Member.outline members, segment.IsWritable := by
    intro members
    refine List.forall_mem_cons.mpr ⟨trivial, List.forall_mem_flatMap.mpr ?_⟩
    intro member _
    exact List.forall_mem_cons.mpr ⟨trivial, hAttributes member.attributes⟩
  simp only [outline, List.forall_mem_cons, List.forall_mem_append]
  exact ⟨trivial, Pool.isWritable_outline hFew hTexts, trivial,
    ⟨hMembers file.fields, hMembers file.methods⟩, hAttributes file.attributes⟩

/-- What is written for a class file with short texts is spelled canonically. -/
theorem canonicallySpelled_encode {file : ClassFile}
    (hFew : file.pool.slots.size < 0xffff) (hTexts : file.pool.TextsFit) :
    file.CanonicallySpelled file.encode := by
  have hWritable := isWritable_outline hFew hTexts
  rw [← write_outline]
  exact ⟨_, Outline.splitsInto_write hWritable, Outline.canonical_write hWritable⟩

/-- What is written for a class file with short texts is spelled by its outline. -/
theorem spells_encode {file : ClassFile} (hFew : file.pool.slots.size < 0xffff)
    (hTexts : file.pool.TextsFit) : file.outline.Spells file.encode := by
  obtain ⟨pieces, hSplit, -⟩ := canonicallySpelled_encode hFew hTexts
  exact ⟨pieces, hSplit⟩

/-- Decoding undoes encoding. -/
theorem decode_encode_wellFormed {file : ClassFile} (hWellFormed : file.WellFormed)
    (hTexts : file.pool.TextsFit) (hDepth : file.depth ≤ maxNesting) :
    decode file.encode = .ok file := by
  obtain ⟨pieces, hSplit, -⟩ :=
    canonicallySpelled_encode hWellFormed.pool.few hTexts
  exact decode_eq_ok_iff.mpr ⟨⟨hWellFormed, hDepth⟩, pieces, hSplit⟩

/-- A record class with a deprecated method body, an annotation in an array as a
default value, and eight-byte constants in the middle and at the end of its pool. -/
def nestedRecord : ClassFile where
  minor := 0
  major := 61
  pool := ⟨#[some (.utf8 "Code"), some (.utf8 "Deprecated"), some (.utf8 "é\x00"),
    some (.long 7), none, some (.utf8 "Record"), some (.textRef .classRef 3),
    some (.utf8 "AnnotationDefault"), some (.double 1)]⟩
  flags := ⟨0x31⟩
  thisClass := 7
  superClass := 0
  interfaces := []
  fields := []
  methods := [{
    kind := .method
    flags := ⟨1⟩
    name := 3
    descriptor := 3
    attributes := [
      { name := 1
        length := 21
        payload := .code {
          maxStack := 1
          maxLocals := 1
          instructions := [0xb1]
          handlers := []
          attributes := [{ name := 2, length := 2, payload := .marker .deprecated }] } },
      { name := 8
        length := 8
        payload := .annotationDefault (.array [.nested ⟨3, []⟩]) }] }]
  attributes := [{ name := 6, length := 8, payload := .record [⟨3, 3, []⟩] }]

theorem nestedRecord_wellFormed : nestedRecord.WellFormed where
  pool := ⟨by decide, by decide, by simp [nestedRecord, Slot.isWide]; decide⟩
  interfaces := by decide
  fields := ⟨by decide, by simp [nestedRecord]⟩
  methods := by
    refine ⟨by decide, List.forall_mem_singleton.mpr ⟨rfl, by decide, ?_⟩⟩
    refine List.forall_mem_cons.mpr ⟨⟨by decide, by decide, ?_⟩,
      List.forall_mem_singleton.mpr ⟨by decide, by decide, ?_⟩⟩
    · exact ⟨by decide, by decide, by decide, ⟨by decide, by decide, trivial⟩, trivial⟩
    · exact ⟨by decide, ⟨by decide, trivial⟩, trivial⟩
  attributes := by
    refine ⟨by decide, List.forall_mem_singleton.mpr ⟨by decide, by decide, ?_⟩⟩
    exact ⟨by decide, ⟨by decide, trivial⟩, trivial⟩

theorem nestedRecord_textsFit : nestedRecord.pool.TextsFit := by decide

/-- A nested class file with a text that has several spellings and with a marker is
read back. -/
theorem decode_encode_nestedRecord :
    (nestedRecord.WellFormed ∧ nestedRecord.pool.TextsFit ∧
      nestedRecord.depth ≤ maxNesting) ∧
    decode nestedRecord.encode = .ok nestedRecord :=
  ⟨⟨nestedRecord_wellFormed, nestedRecord_textsFit, by decide⟩,
    decode_encode_wellFormed nestedRecord_wellFormed nestedRecord_textsFit (by decide)⟩

/-- An input splits in one way into the pieces of the class file that it is decoded
as, and if those pieces are canonical, then it is what is written for the class
file. -/
theorem encode_of_decode {bytes : List UInt8} {file : ClassFile}
    (hDecode : decode bytes = .ok file) :
    file.WellFormed ∧ file.depth ≤ maxNesting ∧
      (∃! pieces, file.outline.SplitsInto pieces bytes) ∧
      (file.CanonicallySpelled bytes → file.encode = bytes ∧
        ∀ bytes', decode bytes' = .ok file → file.CanonicallySpelled bytes' →
          bytes' = bytes) := by
  obtain ⟨⟨hWellFormed, hDepth⟩, pieces, hSplit⟩ := decode_eq_ok_iff.mp hDecode
  -- All canonical inputs are the bytes that are written.
  have hWritten : ∀ other, file.CanonicallySpelled other → file.encode = other := by
    intro other hOther
    obtain ⟨pieces', hSplit', hCanonical⟩ := hOther
    rw [← write_outline]
    exact (Outline.eq_write_of_canonical hSplit' hCanonical).symm
  refine ⟨hWellFormed, hDepth, ⟨pieces, hSplit, ?_⟩, ?_⟩
  · intro pieces' hSplit'
    exact Outline.splitsInto_unique hSplit' hSplit
  · intro hCanonical
    refine ⟨hWritten bytes hCanonical, fun bytes' _ hCanonical' => ?_⟩
    rw [← hWritten bytes hCanonical, ← hWritten bytes' hCanonical']

/-- The bytes of `nestedRecord` split into its pieces, and they are what is written
for it. -/
theorem encode_of_decode_nestedRecord :
    ∃ bytes, decode bytes = .ok nestedRecord ∧ nestedRecord.CanonicallySpelled bytes ∧
      (∃! pieces, nestedRecord.outline.SplitsInto pieces bytes) ∧
      nestedRecord.encode = bytes := by
  have hCanonical : nestedRecord.CanonicallySpelled nestedRecord.encode :=
    canonicallySpelled_encode nestedRecord_wellFormed.pool.few nestedRecord_textsFit
  have hDecode : decode nestedRecord.encode = .ok nestedRecord := by
    obtain ⟨pieces, hSplit, -⟩ := hCanonical
    exact decode_eq_ok_iff.mpr
      ⟨⟨nestedRecord_wellFormed, by decide⟩, pieces, hSplit⟩
  obtain ⟨-, -, hPieces, hWritten⟩ := encode_of_decode hDecode
  exact ⟨nestedRecord.encode, hDecode, hCanonical, hPieces, (hWritten hCanonical).1⟩

end ClassFile

end ClassFormat
