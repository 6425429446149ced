import Mathlib
import ClassFormat.Proofs.Spelling.Basic
import ClassFormat.Proofs.Spelling.Texts

namespace ClassFormat

/-!
# Outlines

A class file does not determine every byte of a file that is read as it.  A text
may be spelled in several ways, the payload of a marker is not looked at, and an
empty pool has two counts.  A `Segment` is a stretch of a file together with the
freedom that is left in it, and an `Outline` is a list of segments.

An outline spells the runs of bytes that can be split into one piece for each
segment.  Among them is the run that `Outline.write` writes, in which every
freedom is used in the canonical way.

* `Outline.eq_write_of_canonical` says that there is no other freedom: a run
  whose open pieces are canonical is the run that is written.
-/

/-- A word is determined by its bytes. -/
theorem BigEndian.bytes16_injective : Function.Injective bytes16 := by
  intro word other hBytes
  obtain ⟨hHigh, hLow⟩ : high16 word = high16 other ∧ low16 word = low16 other := by
    simpa [bytes16] using hBytes
  rw [← word16_high_low word, hHigh, hLow, word16_high_low]

/-- A stretch of a class file, as far as its bytes are determined. -/
inductive Segment where
  /-- Bytes that are determined. -/
  | fixed (bytes : List UInt8)
  /-- The count of a pool with so many slots. -/
  | poolCount (slots : Nat)
  /-- The spelling of a text, with its length in front. -/
  | text (content : String)
  /-- So many bytes that nobody looks at. -/
  | padding (length : Nat)

namespace Segment

/-- The pieces that can stand for a segment.  One more than the number of slots
is their count, and zero counts no slots too. -/
def Spells : Segment → List UInt8 → Prop
  | fixed bytes, piece => piece = bytes
  | poolCount slots, piece =>
      ∃ count : UInt16, count.toNat - 1 = slots ∧ piece = BigEndian.bytes16 count
  | text content, piece =>
      ∃ spelling, spelling.length < 0x10000 ∧
        ModifiedUtf8.decode spelling = some content ∧
        piece = BigEndian.bytes16 (UInt16.ofNat spelling.length) ++ spelling
  | padding length, piece => piece.length = length

/-- The piece that is written for a segment. -/
def write : Writer Segment
  | fixed bytes => bytes
  | poolCount slots => BigEndian.bytes16 (UInt16.ofNat (slots + 1))
  | text content => Writer.text content
  | padding length => List.replicate length 0

/-- Whether a piece makes canonical use of its freedom: a text has its canonical
spelling, a marker is filled with zeros, and the count of a pool is not zero. -/
def IsCanonical : Segment → List UInt8 → Prop
  | text content, piece => piece = Writer.text content
  | padding _, piece => ∀ byte ∈ piece, byte = 0
  | poolCount _, piece => piece ≠ BigEndian.bytes16 0
  | fixed _, _ => True

/-- Whether the piece written for a segment stands for it. -/
def IsWritable : Segment → Prop
  | text content => (ModifiedUtf8.encode content).length < 0x10000
  | poolCount slots => slots < 0xffff
  | fixed _ | padding _ => True

/-- Whether all pieces of a segment have one length. -/
def IsRigid : Segment → Prop
  | fixed _ | padding _ => True
  | poolCount _ | text _ => False

theorem IsRigid.isWritable {segment : Segment} (hRigid : segment.IsRigid) :
    segment.IsWritable := by
  cases segment with
  | fixed _ | padding _ => trivial
  | poolCount _ | text _ => exact hRigid.elim

theorem length_of_spells {segment : Segment} {piece : List UInt8}
    (hRigid : segment.IsRigid) (hSpells : segment.Spells piece) :
    piece.length = segment.write.length := by
  cases segment with
  | fixed bytes => rw [show piece = bytes from hSpells, write]
  | padding length =>
      rw [write, List.length_replicate]
      exact hSpells
  | poolCount slots => exact hRigid.elim
  | text content => exact hRigid.elim

theorem toNat_poolCount {slots : Nat} (hFew : slots < 0xffff) :
    (UInt16.ofNat (slots + 1)).toNat = slots + 1 :=
  UInt16.toNat_ofNat_of_lt' (Nat.succ_lt_succ hFew)

/-- The piece that is written for a segment stands for it. -/
theorem spells_write {segment : Segment} (hWritable : segment.IsWritable) :
    segment.Spells segment.write := by
  cases segment with
  | fixed bytes => rfl
  | poolCount slots =>
      refine ⟨UInt16.ofNat (slots + 1), ?_, rfl⟩
      rw [toNat_poolCount hWritable, Nat.add_sub_cancel]
  | text content =>
      exact ⟨ModifiedUtf8.encode content, hWritable, ModifiedUtf8.decode_encode content,
        rfl⟩
  | padding length => exact List.length_replicate

/-- The piece that is written for a segment is canonical. -/
theorem canonical_write {segment : Segment} (hWritable : segment.IsWritable) :
    segment.IsCanonical segment.write := by
  cases segment with
  | fixed bytes => trivial
  | poolCount slots =>
      intro hZero
      have hCount := congrArg UInt16.toNat (BigEndian.bytes16_injective hZero)
      rw [toNat_poolCount hWritable] at hCount
      exact absurd hCount (Nat.succ_ne_zero slots)
  | text content => rfl
  | padding length =>
      intro byte hByte
      exact List.eq_of_mem_replicate hByte

/-- A canonical piece is the one that is written. -/
theorem eq_write_of_canonical {segment : Segment} {piece : List UInt8}
    (hSpells : segment.Spells piece) (hCanonical : segment.IsCanonical piece) :
    piece = segment.write := by
  cases segment with
  | fixed bytes => exact hSpells
  | poolCount slots =>
      obtain ⟨count, rfl, rfl⟩ := hSpells
      -- Only the counts zero and one tell the same number of slots.
      have hNonzero : count.toNat ≠ 0 := by
        intro hZero
        exact hCanonical (congrArg BigEndian.bytes16 (UInt16.toNat_inj.mp hZero))
      rw [write, Nat.sub_add_cancel (by omega), UInt16.ofNat_toNat]
  | text content => exact hCanonical
  | padding length => exact List.eq_replicate_iff.mpr ⟨hSpells, hCanonical⟩

/-- No piece of a segment is the beginning of another piece of it. -/
theorem spells_unique {segment : Segment} {piece piece' rest rest' : List UInt8}
    (hSpells : segment.Spells piece) (hSpells' : segment.Spells piece')
    (hBytes : piece ++ rest = piece' ++ rest') :
    piece = piece' ∧ rest = rest' := by
  -- Two pieces at the same place are equal once they are equally long.
  have hLength : piece.length = piece'.length := by
    cases segment with
    | fixed bytes => rw [show piece = bytes from hSpells, show piece' = bytes from hSpells']
    | poolCount slots =>
        obtain ⟨_, _, rfl⟩ := hSpells
        obtain ⟨_, _, rfl⟩ := hSpells'
        rfl
    | text content =>
        obtain ⟨spelling, hShort, _, rfl⟩ := hSpells
        obtain ⟨spelling', hShort', _, rfl⟩ := hSpells'
        rw [List.append_assoc, List.append_assoc] at hBytes
        -- A text has its length in front, so the lengths are equal too.
        have hWord := BigEndian.bytes16_injective (List.append_inj_left hBytes rfl)
        have hSame := congrArg UInt16.toNat hWord
        rw [UInt16.toNat_ofNat_of_lt' hShort, UInt16.toNat_ofNat_of_lt' hShort'] at hSame
        simp [BigEndian.bytes16, hSame]
    | padding length => rw [show piece.length = length from hSpells, hSpells']
  exact List.append_inj hBytes hLength

end Segment

/-- A class file or a part of it, segment by segment. -/
abbrev Outline : Type := List Segment

namespace Outline

/-- Whether a run of bytes is split into pieces that stand for the segments. -/
def SplitsInto (outline : Outline) (pieces : List (List UInt8))
    (bytes : List UInt8) : Prop :=
  List.Forall₂ Segment.Spells outline pieces ∧ pieces.flatten = bytes

/-- The runs of bytes that the outline leaves open. -/
def Spells (outline : Outline) (bytes : List UInt8) : Prop :=
  ∃ pieces, outline.SplitsInto pieces bytes

/-- The run of bytes that is written. -/
def write : Writer Outline := fun outline => outline.flatMap Segment.write

variable {outline rest : Outline} {bytes : List UInt8}

theorem spells_nil : Spells [] bytes ↔ bytes = [] := by
  constructor
  · intro hSpelled
    obtain ⟨pieces, hPieces, rfl⟩ := hSpelled
    rw [List.forall₂_nil_left_iff.mp hPieces]
    rfl
  · rintro rfl
    exact ⟨[], .nil, rfl⟩

theorem spells_cons {segment : Segment} :
    Spells (segment :: rest) bytes ↔
      ∃ piece tail, segment.Spells piece ∧ Spells rest tail ∧
        bytes = piece ++ tail := by
  constructor
  · intro hSpelled
    obtain ⟨_, hPieces, rfl⟩ := hSpelled
    cases hPieces with
    | cons hPiece hPieces =>
        exact ⟨_, _, hPiece, ⟨_, hPieces, rfl⟩, List.flatten_cons⟩
  · intro hParts
    obtain ⟨piece, _, hPiece, ⟨pieces, hPieces, rfl⟩, rfl⟩ := hParts
    exact ⟨piece :: pieces, .cons hPiece hPieces, List.flatten_cons⟩

theorem spells_append :
    Spells (outline ++ rest) bytes ↔
      ∃ head tail, Spells outline head ∧ Spells rest tail ∧
        bytes = head ++ tail := by
  induction outline generalizing bytes with
  | nil => simp [spells_nil]
  | cons segment outline ih =>
      simp only [List.cons_append, spells_cons, ih]
      constructor
      · intro hSpelled
        obtain ⟨piece, _, hPiece, ⟨head, tail, hHead, hTail, rfl⟩, rfl⟩ := hSpelled
        exact ⟨piece ++ head, tail, ⟨piece, head, hPiece, hHead, rfl⟩, hTail,
          (List.append_assoc ..).symm⟩
      · intro hParts
        obtain ⟨_, tail, ⟨piece, head, hPiece, hHead, rfl⟩, hTail, rfl⟩ := hParts
        exact ⟨piece, head ++ tail, hPiece, ⟨head, tail, hHead, hTail, rfl⟩,
          List.append_assoc ..⟩

theorem spells_fixed_cons {run : List UInt8} :
    Spells (.fixed run :: rest) bytes ↔
      ∃ tail, Spells rest tail ∧ bytes = run ++ tail := by
  simp [spells_cons, Segment.Spells]

theorem spells_singleton {segment : Segment} :
    Spells [segment] bytes ↔ segment.Spells bytes := by
  simp [spells_cons, spells_nil]

theorem spells_fixed {run : List UInt8} : Spells [.fixed run] bytes ↔ bytes = run := by
  rw [spells_singleton]
  rfl

/-- Things one after another are spelled by spellings one after another. -/
theorem spells_flatMap {α : Type} {good : α → Prop} {outlineOf : α → Outline}
    {items : List α} :
    (∃ pieces, List.Forall₂ (fun a head => good a ∧ (outlineOf a).Spells head)
        items pieces ∧ bytes = pieces.flatten) ↔
      (∀ item ∈ items, good item) ∧ Spells (items.flatMap outlineOf) bytes := by
  induction items generalizing bytes with
  | nil => simp [spells_nil]
  | cons item items ih =>
      simp only [List.flatMap_cons, spells_append, List.forall_mem_cons]
      constructor
      · intro hSpelled
        obtain ⟨_, hPieces, rfl⟩ := hSpelled
        cases hPieces with
        | @cons _ piece _ pieces hPiece hPieces =>
            obtain ⟨hGood, hSpells⟩ := ih.mp ⟨_, hPieces, rfl⟩
            exact ⟨⟨hPiece.1, hGood⟩, piece, _, hPiece.2, hSpells, List.flatten_cons⟩
      · intro hParts
        obtain ⟨⟨hFirst, hGood⟩, piece, tail, hPiece, hSpells, rfl⟩ := hParts
        obtain ⟨pieces, hPieces, rfl⟩ := ih.mpr ⟨hGood, hSpells⟩
        exact ⟨piece :: pieces, .cons ⟨hFirst, hPiece⟩ hPieces, List.flatten_cons.symm⟩

/-- The outlines of some things, with the length of the list in front. -/
def list16 {α : Type} (outlineOf : α → Outline) (items : List α) : Outline :=
  .fixed (BigEndian.bytes16 (UInt16.ofNat items.length)) :: items.flatMap outlineOf

theorem write_cons {segment : Segment} :
    write (segment :: rest) = segment.write ++ write rest :=
  List.flatMap_cons

theorem write_append : write (outline ++ rest) = write outline ++ write rest :=
  List.flatMap_append

theorem write_flatMap {α : Type} (outlineOf : α → Outline) (items : List α) :
    write (items.flatMap outlineOf) = items.flatMap fun a => write (outlineOf a) :=
  List.flatMap_assoc

theorem write_list16 {α : Type} (outlineOf : α → Outline) (items : List α) :
    write (list16 outlineOf items) =
      Writer.list16 (fun a => write (outlineOf a)) items := by
  rw [list16, write_cons, write_flatMap]
  rfl

/-- An outline without texts and counts fixes the length of what it spells. -/
theorem length_of_spells (hRigid : ∀ segment ∈ outline, segment.IsRigid)
    (hSpells : outline.Spells bytes) : bytes.length = outline.write.length := by
  induction outline generalizing bytes with
  | nil => rw [spells_nil.mp hSpells, write, List.flatMap_nil]
  | cons segment outline ih =>
      obtain ⟨piece, tail, hPiece, hTail, rfl⟩ := spells_cons.mp hSpells
      rw [List.forall_mem_cons] at hRigid
      rw [write_cons, List.length_append, List.length_append,
        Segment.length_of_spells hRigid.1 hPiece, ih hRigid.2 hTail]

/-- What is written is split into the pieces that are written. -/
theorem splitsInto_write (hWritable : ∀ segment ∈ outline, segment.IsWritable) :
    outline.SplitsInto (outline.map Segment.write) outline.write := by
  refine ⟨?_, List.flatMap_def.symm⟩
  rw [List.forall₂_map_right_iff, List.forall₂_same]
  exact fun segment hSegment => Segment.spells_write (hWritable segment hSegment)

/-- The pieces that are written are canonical. -/
theorem canonical_write (hWritable : ∀ segment ∈ outline, segment.IsWritable) :
    List.Forall₂ Segment.IsCanonical outline (outline.map Segment.write) := by
  rw [List.forall₂_map_right_iff, List.forall₂_same]
  exact fun segment hSegment => Segment.canonical_write (hWritable segment hSegment)

/-- There is no other freedom than that of the open pieces. -/
theorem eq_write_of_canonical {pieces : List (List UInt8)}
    (hSplit : outline.SplitsInto pieces bytes)
    (hCanonical : List.Forall₂ Segment.IsCanonical outline pieces) :
    bytes = outline.write := by
  obtain ⟨hPieces, rfl⟩ := hSplit
  induction hPieces with
  | nil => rfl
  | cons hPiece hPieces ih =>
      cases hCanonical with
      | cons hFirst hRest =>
          rw [List.flatten_cons, ih hRest, write_cons,
            Segment.eq_write_of_canonical hPiece hFirst]

/-- A run of bytes is split along an outline in at most one way. -/
theorem splitsInto_unique {pieces pieces' : List (List UInt8)}
    (hSplit : outline.SplitsInto pieces bytes)
    (hSplit' : outline.SplitsInto pieces' bytes) : pieces = pieces' := by
  obtain ⟨hPieces, hBytes⟩ := hSplit
  obtain ⟨hPieces', hBytes'⟩ := hSplit'
  induction hPieces generalizing bytes pieces' with
  | nil => rw [List.forall₂_nil_left_iff.mp hPieces']
  | @cons segment piece outline pieces hPiece hPieces ih =>
      cases hPieces' with
      | @cons _ piece' _ pieces' hPiece' hPieces' =>
          rw [← hBytes', List.flatten_cons, List.flatten_cons] at hBytes
          -- The first pieces are equal, so the induction goes on with the same rest.
          obtain ⟨rfl, hRest⟩ := Segment.spells_unique hPiece hPiece' hBytes
          rw [ih hRest hPieces' rfl]

end Outline

/-- A list of things with outlines, preceded by its length in two bytes. -/
theorem Reader.Reads.list16 {α : Type} {p : Reader α} {good : α → Prop}
    {outlineOf : α → Outline}
    (hReads : p.Reads fun a head => good a ∧ (outlineOf a).Spells head) :
    (Reader.list16 p).Reads fun items head =>
      Counted16 good items ∧ (Outline.list16 outlineOf items).Spells head := by
  intro bytes items rest
  simp only [Reader.list16, Reader.run_bind_eq_ok, Reader.run_word16_eq_ok,
    hReads.count _ _ _ _, Outline.list16, Outline.spells_fixed_cons]
  constructor
  · intro hSpelled
    obtain ⟨length, _, rfl, _, ⟨hLength, pieces, hPieces, rfl⟩, rfl⟩ := hSpelled
    obtain ⟨hGood, hSpells⟩ := Outline.spells_flatMap.mp ⟨pieces, hPieces, rfl⟩
    refine ⟨_, ⟨⟨hLength.trans_lt length.toNat_lt, hGood⟩, _, hSpells, rfl⟩, ?_⟩
    rw [hLength, UInt16.ofNat_toNat, List.append_assoc]
  · intro hParts
    obtain ⟨_, ⟨⟨hBound, hGood⟩, tail, hSpells, rfl⟩, rfl⟩ := hParts
    obtain ⟨pieces, hPieces, rfl⟩ := Outline.spells_flatMap.mpr ⟨hGood, hSpells⟩
    have hLength : (UInt16.ofNat items.length).toNat = items.length :=
      UInt16.toNat_ofNat_of_lt' hBound
    exact ⟨_, _, List.append_assoc .., _, ⟨hLength.symm, pieces, hPieces, rfl⟩, rfl⟩

end ClassFormat
