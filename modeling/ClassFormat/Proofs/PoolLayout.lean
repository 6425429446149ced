import Mathlib
import ClassFormat.Proofs.ForwardScan
import ClassFormat.Proofs.Lookups
import ClassFormat.Proofs.RoundTrip
import ClassFormat.Proofs.Validity.PoolIndices

namespace ClassFormat

/-!
# The layout of decoded pools

A pool has one slot less than its count says.  The slot behind a long or a double is
unusable, and no other slot is; everything else in the pool was read from the input, one
entry after another.  Behind a long or a double there is therefore nothing to look up,
neither inside the pool nor just past its end.

* `Pool.IsLaidOut.get?_succ` says which slots are unusable.
* `Pool.leadsNowhere_of_not_namesAny` is about the lookups that fail.
* `ClassFile.pool_of_decode` puts the layout, the lookups and the checks together.
* `ClassFile.count_of_decode` says which count a decoded pool has.
-/

open Reader

/-! ## Slots by number -/

namespace Pool

variable {pool : Pool} {index : UInt16}

/-- A number that is small enough has a successor. -/
theorem toNat_succ (hSmall : index.toNat < 0xffff) :
    (index + 1).toNat = index.toNat + 1 := by
  rw [UInt16.toNat_add]
  show (index.toNat + 1) % 65536 = index.toNat + 1
  omega

/-- Every slot has a number. -/
theorem exists_index (hFew : pool.slots.size < 0xffff) {i : Nat}
    (hSlot : i < pool.slots.size) :
    ∃ index : UInt16, index.toNat = i + 1 ∧ pool.get? index = some pool.slots[i] := by
  have hIndex : (UInt16.ofNat (i + 1)).toNat = i + 1 :=
    UInt16.toNat_ofNat_of_lt' (by show i + 1 < 65536; omega)
  refine ⟨UInt16.ofNat (i + 1), hIndex, ?_⟩
  rw [get?_of_toNat hIndex, Array.getElem?_eq_getElem hSlot]

end Pool

/-- Longs and doubles fill two slots, and no other entries do. -/
theorem Entry.isWide_iff {entry : Entry} :
    entry.isWide = true ↔ entry.tag ∈ [Tag.long, .double] := by
  unfold isWide
  cases entry.tag <;> decide

theorem Slot.isWide_iff {slot : Slot} :
    Slot.isWide slot = true ↔
      ∃ entry, slot = some entry ∧ entry.tag ∈ [Tag.long, .double] := by
  cases slot with
  | none => simp [Slot.isWide]
  | some entry => simp [Entry.isWide_iff]

namespace Pool

variable {pool : Pool} {index : UInt16}

theorem Names.ne_zero {tags : List Tag} (hNames : pool.Names tags index) : index ≠ 0 := by
  rintro rfl
  obtain ⟨entry, hEntry, -⟩ := hNames
  cases hEntry

/-- What an index names is in the pool. -/
theorem Names.toNat_le {tags : List Tag} (hNames : pool.Names tags index) :
    index.toNat ≤ pool.slots.size := by
  obtain ⟨entry, hEntry, -⟩ := hNames
  by_contra hPast
  rw [get?_eq_none_iff.mpr (.inr (Nat.lt_of_not_le hPast))] at hEntry
  cases hEntry

/-- The first slot of a pool is usable. -/
theorem IsLaidOut.get?_one (hLaidOut : pool.IsLaidOut) : pool.get? 1 ≠ some none := by
  rw [get?_of_toNat (i := 0) rfl]
  have hFirst := hLaidOut.slots.1
  rwa [List.head?_eq_getElem?, Array.getElem?_toList] at hFirst

/-- A slot is unusable when a long or a double is in the slot before it. -/
theorem IsLaidOut.get?_succ (hLaidOut : pool.IsLaidOut) (hSome : index ≠ 0)
    (hInside : index.toNat < pool.slots.size) :
    pool.get? (index + 1) = some none ↔ pool.Names [.long, .double] index := by
  have hPositive : index.toNat ≠ 0 := fun hNone => hSome (UInt16.toNat_inj.mp hNone)
  obtain ⟨i, hIndex⟩ := Nat.exists_eq_succ_of_ne_zero hPositive
  -- Slot `i + 1` stands at place `i`, and the slot behind it at place `i + 1`.
  have hNext : (index + 1).toNat = i + 1 + 1 := by
    rw [toNat_succ (hInside.trans hLaidOut.few), hIndex]
  have hSlot : i < pool.slots.size := by omega
  have hSlot' : i + 1 < pool.slots.size := by omega
  have hChain := List.isChain_iff_getElem.mp hLaidOut.slots.2 i (by simpa using hSlot')
  rw [Names, get?_of_toNat hNext, get?_of_toNat hIndex, Array.getElem?_eq_getElem hSlot,
    Array.getElem?_eq_getElem hSlot']
  simpa [Slot.isWide_iff] using hChain

/-- Behind a long or a double there is no usable entry. -/
theorem IsLaidOut.not_namesAny_succ (hLaidOut : pool.IsLaidOut)
    (hWide : pool.Names [.long, .double] index) :
    index + 1 ≠ 0 ∧ ¬pool.NamesAny (index + 1) := by
  have hSmall : index.toNat < 0xffff := hWide.toNat_le.trans_lt hLaidOut.few
  have hNext := toNat_succ hSmall
  refine ⟨fun hZero => ?_, fun hAny => ?_⟩
  · rw [hZero] at hNext
    cases hNext
  · obtain ⟨entry, hEntry⟩ := hAny
    -- The next slot is unusable, or this one is the last.
    by_cases hInside : index.toNat < pool.slots.size
    · rw [(hLaidOut.get?_succ hWide.ne_zero hInside).mpr hWide] at hEntry
      cases hEntry
    · have hPast : pool.slots.size < (index + 1).toNat := by omega
      rw [get?_eq_none_iff.mpr (.inr hPast)] at hEntry
      cases hEntry

end Pool

/-! ## Lookups that fail -/

/-- The lookup fails, and the fault blames the reference. -/
def FailsInReference {α : Type} (lookup : Except Fault α) : Prop :=
  ∃ fault, lookup = .error fault ∧ fault.family = .reference

namespace Pool

/-- No lookup at the index succeeds, in whatever context and for whatever is expected. -/
structure LeadsNowhere (pool : Pool) (index : UInt16) : Prop where
  resolve : ∀ context, FailsInReference (pool.resolve context index)
  require : ∀ context expected, FailsInReference (pool.require context expected index)
  requireOptional : ∀ context expected,
    FailsInReference (pool.requireOptional context expected index)
  text : ∀ context, FailsInReference (pool.text context index)
  className : ∀ context, FailsInReference (pool.className context index)

/-- Where there is no usable entry, the first lookup fails and all others with it. -/
theorem leadsNowhere_of_not_namesAny {pool : Pool} {index : UInt16} (hSome : index ≠ 0)
    (hNothing : ¬pool.NamesAny index) : pool.LeadsNowhere index := by
  have hResolve : ∀ context, FailsInReference (pool.resolve context index) := by
    intro context
    unfold Pool.resolve
    split
    · exact ⟨_, rfl, rfl⟩
    · exact ⟨_, rfl, rfl⟩
    · next entry hEntry => exact absurd ⟨entry, hEntry⟩ hNothing
  have hRequire : ∀ context expected,
      FailsInReference (pool.require context expected index) := by
    intro context expected
    obtain ⟨fault, hFault, hFamily⟩ := hResolve context
    exact ⟨fault, by rw [Pool.require, hFault]; rfl, hFamily⟩
  refine ⟨hResolve, hRequire, fun context expected => ?_, fun context => ?_,
    fun context => ?_⟩
  · obtain ⟨fault, hFault, hFamily⟩ := hRequire context expected
    exact ⟨fault, by rw [Pool.requireOptional, if_neg hSome, hFault]; rfl, hFamily⟩
  · obtain ⟨fault, hFault, hFamily⟩ := hResolve context
    exact ⟨fault, by rw [Pool.text, hFault]; rfl, hFamily⟩
  · obtain ⟨fault, hFault, hFamily⟩ := hResolve context
    exact ⟨fault, by rw [Pool.className, hFault]; rfl, hFamily⟩

/-! ## Entries in the input -/

/-- What the slots of a pool spell is what its entries spell. -/
theorem flatMap_outline_eq (slots : List Slot) :
    slots.flatMap Slot.outline = slots.reduceOption.flatMap Entry.outline := by
  induction slots with
  | nil => rfl
  | cons slot rest ih =>
      cases slot with
      | none =>
          rw [List.reduceOption_cons_of_none, ← ih]
          rfl
      | some entry =>
          rw [List.reduceOption_cons_of_some, List.flatMap_cons, List.flatMap_cons, ih]
          rfl

/-- Where the slots of a pool are spelled, its entries are read one after another. -/
theorem run_count_entries {pool : Pool} {head : List UInt8}
    (hHead : Outline.Spells (pool.slots.toList.flatMap Slot.outline) head)
    (rest : List UInt8) :
    (Reader.count Entry.read pool.entries.length).run (head ++ rest) =
      .ok (pool.entries, rest) := by
  rw [flatMap_outline_eq] at hHead
  have hAll : (∀ entry ∈ pool.entries, True) ∧
      Outline.Spells (pool.entries.flatMap Entry.outline) head :=
    ⟨fun _ _ => trivial, hHead⟩
  obtain ⟨pieces, hPieces, rfl⟩ := Outline.spells_flatMap.mpr hAll
  have hEntries : List.Forall₂ (fun entry piece => entry.outline.Spells piece)
      pool.entries pieces := hPieces.imp fun _ _ hPiece => hPiece.2
  exact (Entry.reads_read.count _).run_append ⟨rfl, pieces, hEntries, rfl⟩ rest

end Pool

/-! ## Decoded class files -/

namespace ClassFile

/-- The version is in front of the pool, and the class behind it. -/
theorem pool_of_spells {file : ClassFile} {bytes : List UInt8}
    (hSpells : file.outline.Spells bytes) :
    ∃ (count : UInt16) (body rest : List UInt8),
      bytes = BigEndian.bytes32 magic ++ BigEndian.bytes16 file.minor ++
        BigEndian.bytes16 file.major ++ BigEndian.bytes16 count ++ body ∧
      count.toNat - 1 = file.pool.slots.size ∧
      (Reader.count Entry.read file.pool.entries.length).run body =
        .ok (file.pool.entries, BigEndian.bytes16 file.flags.bits ++
          BigEndian.bytes16 file.thisClass ++ BigEndian.bytes16 file.superClass ++
          rest) := by
  obtain ⟨_, first, second, third, hPool, -, -, -, rfl⟩ := spells_outline.mp hSpells
  obtain ⟨_, slots, ⟨count, hCount, rfl⟩, hSlots, rfl⟩ := Outline.spells_cons.mp hPool
  have hEntries := Pool.run_count_entries hSlots
    (BigEndian.bytes16 file.flags.bits ++ BigEndian.bytes16 file.thisClass ++
      BigEndian.bytes16 file.superClass ++
      (Writer.list16 BigEndian.bytes16 file.interfaces ++ (first ++ second ++ third)))
  refine ⟨count, _, _, ?_, hCount, hEntries⟩
  simp only [List.append_assoc]

/-- A decoded pool has one slot less than the count that stands behind the version, and
none if the count is zero.  Every slot has a number.  The unusable slots are those behind
a long or a double, and the others hold the entries that are read behind the count, one
after another, up to the flags of the class.  Behind a long or a double nothing can be
looked up, and in a class file that passes nothing refers there. -/
theorem pool_of_decode {bytes : List UInt8} {file : ClassFile}
    (hDecode : decode bytes = .ok file) :
    (∃ (count : UInt16) (body rest : List UInt8),
      bytes = BigEndian.bytes32 magic ++ BigEndian.bytes16 file.minor ++
        BigEndian.bytes16 file.major ++ BigEndian.bytes16 count ++ body ∧
      file.pool.slots.size = max count.toNat 1 - 1 ∧
      (Reader.count Entry.read file.pool.entries.length).run body =
        .ok (file.pool.entries, BigEndian.bytes16 file.flags.bits ++
          BigEndian.bytes16 file.thisClass ++ BigEndian.bytes16 file.superClass ++
          rest)) ∧
    (∀ i (hSlot : i < file.pool.slots.size), ∃ index : UInt16, index.toNat = i + 1 ∧
      file.pool.get? index = some file.pool.slots[i]) ∧
    file.pool.get? 1 ≠ some none ∧
    (∀ index : UInt16, index ≠ 0 → index.toNat < file.pool.slots.size →
      (file.pool.get? (index + 1) = some none ↔
        file.pool.Names [.long, .double] index)) ∧
    ∀ index : UInt16, file.pool.Names [.long, .double] index →
      file.pool.LeadsNowhere (index + 1) ∧
      ∀ major, file.validate major = .ok () → index + 1 ∉ file.poolIndices := by
  obtain ⟨⟨hWellFormed, -⟩, hSpells⟩ := decode_eq_ok_iff.mp hDecode
  have hLaidOut := hWellFormed.pool
  refine ⟨?_, fun i hSlot => Pool.exists_index hLaidOut.few hSlot, hLaidOut.get?_one,
    fun index hSome hInside => hLaidOut.get?_succ hSome hInside, fun index hWide => ?_⟩
  · obtain ⟨count, body, rest, hBytes, hCount, hRun⟩ := pool_of_spells hSpells
    exact ⟨count, body, rest, hBytes, by omega, hRun⟩
  · obtain ⟨hSome, hNothing⟩ := hLaidOut.not_namesAny_succ hWide
    refine ⟨Pool.leadsNowhere_of_not_namesAny hSome hNothing, fun major hPasses hRefers => ?_⟩
    rcases namesAny_of_validate hPasses _ hRefers with hZero | hAny
    · exact hSome hZero
    · exact hNothing hAny

/-- A class file with a long in the middle of its pool and a double in the last slot. -/
def wideClass : ClassFile where
  minor := 0
  major := 52
  pool := ⟨#[some (.utf8 "A"), some (.long 7), none, some (.textRef .classRef 1),
    some (.double 0)]⟩
  flags := ⟨0x21⟩
  thisClass := 4
  superClass := 0
  interfaces := []
  fields := []
  methods := []
  attributes := []

theorem wideClass_wellFormed : wideClass.WellFormed where
  pool := ⟨by decide, by decide, by simp [wideClass, Slot.isWide]; decide⟩
  interfaces := by decide
  fields := ⟨by decide, by simp [wideClass]⟩
  methods := ⟨by decide, by simp [wideClass]⟩
  attributes := ⟨by decide, by simp [wideClass]⟩

/-- The slot behind the long and the place behind the last slot lead nowhere, and nothing
in the class file refers there. -/
theorem pool_of_decode_wideClass :
    ∃ bytes, decode bytes = .ok wideClass ∧ wideClass.validate 52 = .ok () ∧
      wideClass.pool.get? 3 = some none ∧
      (wideClass.pool.LeadsNowhere 3 ∧ 3 ∉ wideClass.poolIndices) ∧
      wideClass.pool.LeadsNowhere 6 ∧ 6 ∉ wideClass.poolIndices := by
  have hTexts : wideClass.pool.TextsFit := by
    intro content hContent
    obtain rfl : content = "A" := by simpa [wideClass] using hContent
    decide
  have hDecode : decode wideClass.encode = .ok wideClass :=
    decode_eq_ok_iff.mpr ⟨⟨wideClass_wellFormed, by decide⟩,
      spells_encode wideClass_wellFormed.pool.few hTexts⟩
  have hPasses : wideClass.validate 52 = .ok () := by decide
  have hLong : wideClass.pool.Names [.long, .double] 2 := ⟨.long 7, rfl, by decide⟩
  have hDouble : wideClass.pool.Names [.long, .double] 5 := ⟨.double 0, rfl, by decide⟩
  obtain ⟨-, -, -, hUnusable, hBehind⟩ := pool_of_decode hDecode
  obtain ⟨hNowhere, hUnused⟩ := hBehind 2 hLong
  obtain ⟨hNowhere', hUnused'⟩ := hBehind 5 hDouble
  exact ⟨wideClass.encode, hDecode, hPasses, (hUnusable 2 (by decide) (by decide)).mpr hLong,
    ⟨hNowhere, hUnused 52 hPasses⟩, hNowhere', hUnused' 52 hPasses⟩

/-! ## The count -/

/-- The count of a decoded pool is the one that stands behind the version, unless that is
zero.  Then it is one, which is the count that is written for a pool without slots. -/
theorem count_of_decode {bytes : List UInt8} {file : ClassFile}
    (hDecode : decode bytes = .ok file) :
    ∃ count : UInt16, (bytes.drop 8).take 2 = BigEndian.bytes16 count ∧
      (count ≠ 0 → file.pool.count = count.toNat) ∧ (count = 0 → file.pool.count = 1) := by
  obtain ⟨-, hSpells⟩ := decode_eq_ok_iff.mp hDecode
  obtain ⟨count, body, rest, hBytes, hCount, -⟩ := pool_of_spells hSpells
  have hPool : file.pool.count = file.pool.slots.size + 1 := rfl
  refine ⟨count, ?_, fun hSome => ?_, fun hZero => ?_⟩
  · rw [hBytes]
    rfl
  · have hPositive : count.toNat ≠ 0 := fun hNone => hSome (UInt16.toNat_inj.mp hNone)
    omega
  · rw [hPool, ← hCount, hZero]
    rfl

/-- A long in the middle and a double in the last slot are counted. -/
theorem count_of_decode_wideClass :
    ∃ file, decode wideClass.encode = .ok file ∧
      (wideClass.encode.drop 8).take 2 = BigEndian.bytes16 6 ∧ file.pool.count = 6 := by
  obtain ⟨file, hFile⟩ : ∃ file, decode wideClass.encode = .ok file := ⟨_, rfl⟩
  obtain ⟨count, hCount, hSome, -⟩ := count_of_decode hFile
  obtain rfl : count = 6 := BigEndian.bytes16_injective hCount.symm
  exact ⟨file, hFile, hCount, hSome (by decide)⟩

/-- A pool that was decoded from a count of zero has the count one. -/
theorem count_of_decode_zero :
    ∃ file, decode emptyClassBytes = .ok file ∧
      (emptyClassBytes.drop 8).take 2 = BigEndian.bytes16 0 ∧ file.pool.count = 1 :=
  ⟨_, rfl, rfl, rfl⟩

end ClassFile

end ClassFormat
