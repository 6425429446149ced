import Mathlib
import ClassFormat.Proofs.ReadingPlaces
import ClassFormat.Proofs.RoundTrip
import ClassFormat.Proofs.Spelling.CodeUnits

namespace ClassFormat

/-!
# The texts of a pool

The bytes of a text may be replaced by any others that are few enough.  The rest of the
class file stays as it is, and the entries in front of the text are read as before.  If the
new bytes are a text, it stands in the slot of the old one and the rest of the pool is
unchanged; otherwise reading ends at this entry.

* `Pool.reaches_entry` says that the reader of pools comes to every entry.
* `ClassFile.texts_of_decode` says what becomes of the class file.
-/

open Reader

/-! ## The entry of a text -/

namespace Entry

/-- The entry of a text that is spelled by the given run of bytes. -/
def textBytes (run : List UInt8) : List UInt8 :=
  Tag.utf8.code :: (BigEndian.bytes16 (UInt16.ofNat run.length) ++ run)

variable {run : List UInt8} {text : String}

theorem spells_textBytes (hShort : run.length < 0x10000)
    (hText : ModifiedUtf8.decode run = some text) :
    (Entry.utf8 text).outline.Spells (textBytes run) :=
  Outline.spells_fixed_cons.mpr
    ⟨_, Outline.spells_singleton.mpr ⟨run, hShort, hText, rfl⟩, rfl⟩

theorem exists_textBytes {bytes : List UInt8}
    (hBytes : (Entry.utf8 text).outline.Spells bytes) :
    ∃ run, bytes = textBytes run ∧ run.length < 0x10000 ∧
      ModifiedUtf8.decode run = some text := by
  obtain ⟨_, hText, rfl⟩ := Outline.spells_fixed_cons.mp hBytes
  obtain ⟨run, hShort, hDecode, rfl⟩ := Outline.spells_singleton.mp hText
  exact ⟨run, rfl, hShort, hDecode⟩

/-- Bytes that are no text are refused. -/
theorem run_read_textBytes_eq_error (hShort : run.length < 0x10000)
    (hNone : ModifiedUtf8.decode run = none) (rest : List UInt8) :
    Entry.read.run (textBytes run ++ rest) = .error .malformedText := by
  have hLength : (UInt16.ofNat run.length).toNat = run.length :=
    UInt16.toNat_ofNat_of_lt' hShort
  have hTake : (take (UInt16.ofNat run.length).toNat).run (run ++ rest) = .ok (run, rest) :=
    run_take_eq_ok.mpr ⟨hLength.symm, rfl⟩
  have hText : Reader.text.run (BigEndian.bytes16 (UInt16.ofNat run.length) ++ (run ++ rest)) =
      .error .malformedText := by
    refine ((Reaches.word16 _ _ _).trans (Reaches.andThen hTake _)) _ ?_
    rw [hNone]
    exact run_fail _ _
  have hEntry : Entry.read.Reaches (textBytes run ++ rest) Reader.text
      (BigEndian.bytes16 (UInt16.ofNat run.length) ++ (run ++ rest)) := by
    rw [textBytes, List.cons_append, List.append_assoc]
    exact (Reaches.andThen (run_byte_cons _ _) _).trans (Reaches.map Reader.text Entry.utf8 _)
  exact hEntry _ hText

end Entry

/-! ## Entries in front -/

/-- The layout of a pool does not depend on what its entries hold. -/
theorem Slot.laidOut_replace {earlier later : List Slot} {entry other : Entry}
    (hWide : other.isWide = entry.isWide)
    (hLaidOut : Slot.LaidOut (earlier ++ some entry :: later)) :
    Slot.LaidOut (earlier ++ some other :: later) := by
  -- What matters of a slot is whether it is unusable and whether it is wide.
  let shape : Slot → Bool × Bool := fun slot => (slot.isNone, Slot.isWide slot)
  have hShapes : (earlier ++ some other :: later).map shape =
      (earlier ++ some entry :: later).map shape := by
    simp [shape, hWide]
  have hChain (slots : List Slot) :
      (slots.map shape).IsChain (fun slot next => next.1 = true ↔ slot.2 = true) ↔
        slots.IsChain fun slot next => next = none ↔ Slot.isWide slot = true := by
    rw [List.isChain_map]
    simp only [shape, Option.isNone_iff_eq_none]
  obtain ⟨hFirst, hSlots⟩ := hLaidOut
  refine ⟨?_, ?_⟩
  · cases earlier with
    | nil => simp
    | cons first earlier => exact hFirst
  · rw [← hChain, hShapes, hChain]
    exact hSlots

namespace Pool

/-- The reader of slots comes to every entry. -/
theorem reaches_entry {earlier later : List Slot} {entry : Entry} {head : List UInt8}
    (hLaidOut : Slot.LaidOut (earlier ++ some entry :: later))
    (hHead : Outline.Spells (earlier.flatMap Slot.outline) head) (filled : Array Slot)
    (rest : List UInt8) :
    (readSlots filled (earlier.length + 1 + later.length)).Reaches (head ++ rest)
      Entry.read rest := by
  generalize hRoom : earlier.length + 1 + later.length = room
  fun_induction readSlots filled room generalizing earlier head with
  | case1 filled => omega
  | case2 filled =>
      obtain rfl : earlier = [] := List.length_eq_zero_iff.mp (by omega)
      obtain rfl := Outline.spells_nil.mp hHead
      exact Reaches.start _ _ _
  | case3 filled room ihWide ihNarrow =>
      rcases earlier with _ | ⟨_ | first, earlier⟩
      · obtain rfl := Outline.spells_nil.mp hHead
        exact Reaches.start _ _ _
      · exact absurd rfl hLaidOut.1
      obtain ⟨piece, tail, hPiece, hTail, rfl⟩ := Outline.spells_append.mp hHead
      have hFirst := Entry.reads_read.run_append hPiece (tail ++ rest)
      rw [List.append_assoc]
      refine (Reaches.andThen hFirst _).trans ?_
      rw [List.length_cons] at hRoom
      split
      · next hWide =>
          -- The slot behind a wide entry is unusable, and takes no bytes.
          rcases earlier with _ | ⟨next, earlier⟩
          · cases ((Slot.laidOut_cons_wide (by simpa using hWide)).mp hLaidOut.2).1
          · obtain ⟨rfl, hRest⟩ :=
              (Slot.laidOut_cons_wide (by simpa using hWide)).mp hLaidOut.2
            rw [List.length_cons] at hRoom
            exact ihWide first hRest hTail (by omega)
      · next hNarrow =>
          have hRest := (Slot.laidOut_cons_narrow (by simpa using hNarrow)).mp hLaidOut.2
          exact ihNarrow first hRest hTail (by omega)

/-- Behind the count, the reader of pools comes to every entry. -/
theorem reaches_entry_behind_count {earlier later : List Slot} {entry : Entry}
    {count : UInt16} {head : List UInt8}
    (hCount : count.toNat - 1 = (earlier ++ some entry :: later).length)
    (hLaidOut : Slot.LaidOut (earlier ++ some entry :: later))
    (hHead : Outline.Spells (earlier.flatMap Slot.outline) head) (rest : List UInt8) :
    Pool.read.Reaches (BigEndian.bytes16 count ++ (head ++ rest)) Entry.read rest := by
  have hRoom : count.toNat - 1 = earlier.length + 1 + later.length := by
    rw [hCount, List.length_append, List.length_cons]
    omega
  refine (Reaches.word16 _ _ _).trans ((Reaches.start _ _ _).trans ?_)
  rw [hRoom]
  exact reaches_entry hLaidOut hHead #[] rest

/-- The reader of pools takes an entry in the place of another one. -/
theorem run_read_replace {earlier later : List Slot} {entry other : Entry} {count : UInt16}
    {head piece tail : List UInt8}
    (hCount : count.toNat - 1 = (earlier ++ some entry :: later).length)
    (hLaidOut : Slot.LaidOut (earlier ++ some entry :: later))
    (hHead : Outline.Spells (earlier.flatMap Slot.outline) head)
    (hTail : Outline.Spells (later.flatMap Slot.outline) tail)
    (hWide : other.isWide = entry.isWide) (hPiece : other.outline.Spells piece)
    (rest : List UInt8) :
    Pool.read.run (BigEndian.bytes16 count ++ (head ++ (piece ++ (tail ++ rest)))) =
      .ok (⟨(earlier ++ some other :: later).toArray⟩, rest) := by
  have hBound := count.toNat_lt
  have hLength : (earlier ++ some other :: later).length = count.toNat - 1 := by
    rw [hCount, List.length_append, List.length_append, List.length_cons, List.length_cons]
  have hPool : IsLaidOut ⟨(earlier ++ some other :: later).toArray⟩ :=
    ⟨by rw [List.size_toArray, hLength]; omega, Slot.laidOut_replace hWide hLaidOut⟩
  have hSlots : Outline.Spells ((earlier ++ some other :: later).flatMap Slot.outline)
      (head ++ (piece ++ tail)) := by
    rw [List.flatMap_append, List.flatMap_cons]
    exact Outline.spells_append.mpr ⟨head, _, hHead,
      Outline.spells_append.mpr ⟨piece, tail, hPiece, hTail, rfl⟩, rfl⟩
  have hFill : (Segment.poolCount (earlier ++ some other :: later).toArray.size).Spells
      (BigEndian.bytes16 count) := ⟨count, by rw [List.size_toArray, hLength], rfl⟩
  have hSpells : (outline ⟨(earlier ++ some other :: later).toArray⟩).Spells
      (BigEndian.bytes16 count ++ (head ++ (piece ++ tail))) :=
    Outline.spells_cons.mpr ⟨_, _, hFill, hSlots, rfl⟩
  simpa only [List.append_assoc] using reads_read.run_append ⟨hPool, hSpells⟩ rest

end Pool

/-! ## Class files -/

namespace ClassFile

/-- The magic word and the version. -/
def headBytes (file : ClassFile) : List UInt8 :=
  BigEndian.bytes32 magic ++ BigEndian.bytes16 file.minor ++ BigEndian.bytes16 file.major

theorem drop_headBytes (file : ClassFile) (rest : List UInt8) :
    (file.headBytes ++ rest).drop 8 = rest :=
  List.drop_left' rfl

/-- Behind the magic word and the version is the pool. -/
theorem reaches_pool (file : ClassFile) (rest : List UInt8) :
    ClassFile.read.Reaches (file.headBytes ++ rest) Pool.read rest := by
  have hMagic (rest : List UInt8) :
      readMagic.run (BigEndian.bytes32 magic ++ rest) = .ok ((), rest) :=
    run_readMagic_eq_ok.mpr rfl
  simp only [headBytes, List.append_assoc]
  exact (Reaches.andThen (hMagic _) _).trans ((Reaches.word16 _ _ _).trans
    ((Reaches.word16 _ _ _).trans (Reaches.start _ _ _)))

/-- Instead of the bytes of a text in the pool there may be any others.  If they are a text,
the pool is read with this text in the slot, and what is behind the pool is left as before.
If they are none, the entry and the class file are refused for it. -/
theorem texts_of_decode {bytes : List UInt8} {file : ClassFile}
    (hDecode : decode bytes = .ok file) {earlier later : List Slot} {content : String}
    (hSlots : file.pool.slots.toList = earlier ++ some (.utf8 content) :: later) :
    ∃ front payload back rest : List UInt8,
      bytes = front ++ Entry.textBytes payload ++ back ∧ payload.length < 0x10000 ∧
      ModifiedUtf8.decode payload = some content ∧
      ∀ run : List UInt8, run.length < 0x10000 →
        (ModifiedUtf8.IsText run →
          ∃ text, ModifiedUtf8.decode run = some text ∧
            Entry.read.run (Entry.textBytes run ++ back) = .ok (.utf8 text, back) ∧
            Pool.read.run ((front ++ Entry.textBytes run ++ back).drop 8) =
              .ok (⟨(earlier ++ some (.utf8 text) :: later).toArray⟩, rest)) ∧
        (¬ ModifiedUtf8.IsText run →
          Entry.read.run (Entry.textBytes run ++ back) = .error .malformedText ∧
          decode (front ++ Entry.textBytes run ++ back) = .error .malformedText) := by
  obtain ⟨⟨hWellFormed, -⟩, hSpells⟩ := decode_eq_ok_iff.mp hDecode
  have hLaidOut := hWellFormed.pool.slots
  rw [hSlots] at hLaidOut
  -- The bytes are the version, the count, the entries in front, the text, those behind it,
  -- and the rest of the class file.
  obtain ⟨_, hPart, rfl⟩ := Outline.spells_fixed_cons.mp hSpells
  obtain ⟨_, rest, hPool, -, rfl⟩ := Outline.spells_append.mp hPart
  obtain ⟨_, _, ⟨count, hCount, rfl⟩, hEntries, rfl⟩ := Outline.spells_cons.mp hPool
  rw [← Array.length_toList, hSlots] at hCount
  rw [hSlots, List.flatMap_append, List.flatMap_cons] at hEntries
  obtain ⟨head, _, hHead, hOthers, rfl⟩ := Outline.spells_append.mp hEntries
  obtain ⟨_, tail, hText, hTail, rfl⟩ := Outline.spells_append.mp hOthers
  obtain ⟨payload, rfl, hShort, hPayload⟩ := Entry.exists_textBytes hText
  refine ⟨file.headBytes ++ (BigEndian.bytes16 count ++ head), payload, tail ++ rest, rest,
    by simp only [headBytes, List.append_assoc], hShort, hPayload, fun run hRun => ⟨?_, ?_⟩⟩
  · intro hIsText
    obtain ⟨text, hText⟩ := ModifiedUtf8.exists_decode_iff.mpr hIsText
    have hPiece := Entry.spells_textBytes hRun hText
    have hWide : (Entry.utf8 text).isWide = (Entry.utf8 content).isWide := rfl
    refine ⟨text, hText, Entry.reads_read.run_append hPiece _, ?_⟩
    simp only [List.append_assoc, drop_headBytes]
    exact Pool.run_read_replace hCount hLaidOut hHead hTail hWide hPiece rest
  · intro hIsText
    have hNone : ModifiedUtf8.decode run = none := by
      rw [Option.eq_none_iff_forall_ne_some]
      intro text hText
      exact hIsText (ModifiedUtf8.exists_decode_iff.mp ⟨text, hText⟩)
    have hEntry := Entry.run_read_textBytes_eq_error hRun hNone (tail ++ rest)
    refine ⟨hEntry, whole_eq_error_iff.mpr (.inl ?_)⟩
    have hReaches := (reaches_pool file _).trans
      (Pool.reaches_entry_behind_count hCount hLaidOut hHead
        (Entry.textBytes run ++ (tail ++ rest)))
    simpa only [List.append_assoc] using hReaches _ hEntry

/-- A class file whose pool has one text, which is spelled by the given run of bytes. -/
def textClassBytes (run : List UInt8) : List UInt8 :=
  [0xca, 0xfe, 0xba, 0xbe, 0, 0, 0, 61, 0, 2] ++ Entry.textBytes run ++
    [0, 0x21, 0, 0, 0, 0, 0, 0, 0, 0, 0, 0, 0, 0]

/-- Two surrogates may stand in the place of a letter, and one may not. -/
theorem texts_of_decode_surrogates :
    ∃ file front payload back rest,
      decode (textClassBytes [0x41]) = .ok file ∧
      file.pool.slots.toList = [] ++ some (.utf8 "A") :: [] ∧
      textClassBytes [0x41] = front ++ Entry.textBytes payload ++ back ∧
      (∃ text, Pool.read.run ((front ++
          Entry.textBytes [0xed, 0xa0, 0x80, 0xed, 0xb0, 0x80] ++ back).drop 8) =
        .ok (⟨#[some (.utf8 text)]⟩, rest)) ∧
      decode (front ++ Entry.textBytes [0xed, 0xa0, 0x80] ++ back) = .error .malformedText := by
  obtain ⟨file, hFile, hSlots⟩ : ∃ file, decode (textClassBytes [0x41]) = .ok file ∧
      file.pool.slots.toList = [] ++ some (.utf8 "A") :: [] := ⟨_, rfl, rfl⟩
  obtain ⟨front, payload, back, rest, hBytes, -, -, hRuns⟩ := texts_of_decode hFile hSlots
  have hPair : ModifiedUtf8.IsText [0xed, 0xa0, 0x80, 0xed, 0xb0, 0x80] :=
    ModifiedUtf8.exists_decode_iff.mp ⟨_, rfl⟩
  have hSingle : ¬ ModifiedUtf8.IsText [0xed, 0xa0, 0x80] := by
    intro hText
    obtain ⟨text, hText⟩ := ModifiedUtf8.exists_decode_iff.mpr hText
    cases hText
  obtain ⟨text, -, -, hPool⟩ := (hRuns _ (by decide)).1 hPair
  exact ⟨file, front, payload, back, rest, hFile, hSlots, hBytes, ⟨text, hPool⟩,
    ((hRuns _ (by decide)).2 hSingle).2⟩

/-- A zero byte and a character of four bytes are read, though they are not in the modified
form, and a surrogate by itself is not read, though it is. -/
theorem texts_not_modified :
    ((∃ file, decode (textClassBytes [0]) = .ok file) ∧ ¬ ModifiedUtf8.IsModified [0]) ∧
    ((∃ file, decode (textClassBytes [0xf0, 0x9f, 0x98, 0x80]) = .ok file) ∧
      ¬ ModifiedUtf8.IsModified [0xf0, 0x9f, 0x98, 0x80]) ∧
    decode (textClassBytes [0xed, 0xa0, 0x80]) = .error .malformedText ∧
      ModifiedUtf8.IsModified [0xed, 0xa0, 0x80] := by
  refine ⟨⟨⟨_, rfl⟩, ?_⟩, ⟨⟨_, rfl⟩, ?_⟩, rfl, ⟨[0xd800], rfl⟩⟩
  · intro hModified
    exact (hModified.byte 0 (by decide)).1 rfl
  · intro hModified
    exact absurd (hModified.byte 0xf0 (by decide)).2 (by decide)

end ClassFile

end ClassFormat
