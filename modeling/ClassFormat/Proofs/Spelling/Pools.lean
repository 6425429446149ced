import Mathlib
import ClassFormat.Pool.Layout
import ClassFormat.Proofs.Spelling.Segments

namespace ClassFormat

/-!
# The spelling of constant pools

The count of a pool tells the number of its slots, and an entry of eight bytes
fills two of them.  What is read is therefore laid out in one way only: a slot
is unusable when an eight-byte entry stands in the slot before it, and at no
other place.

* `Pool.reads_read` says that the pools that are read are those that are laid
  out in this way, and that every part of them but the count and the texts has
  one spelling.
-/

open Reader

/-! ## Entries -/

/-- A text is spelled with its length in front. -/
theorem Reader.reads_text :
    Reader.text.Reads fun content => (Segment.text content).Spells := by
  intro bytes content rest
  simp only [Reader.text, run_bind_eq_ok, run_word16_eq_ok, run_take_eq_ok]
  constructor
  · intro hRun
    obtain ⟨length, _, rfl, spelling, _, ⟨hLength, rfl⟩, hRun⟩ := hRun
    cases hDecode : ModifiedUtf8.decode spelling with
    | none =>
        rw [hDecode] at hRun
        exact (run_fail_eq_ok.mp hRun).elim
    | some decoded =>
        rw [hDecode] at hRun
        obtain ⟨rfl, rfl⟩ := run_pure_eq_ok.mp hRun
        refine ⟨_, ⟨spelling, hLength.trans_lt length.toNat_lt, hDecode, rfl⟩, ?_⟩
        rw [hLength, UInt16.ofNat_toNat, List.append_assoc]
  · intro hSpelled
    obtain ⟨_, ⟨spelling, hShort, hDecode, rfl⟩, rfl⟩ := hSpelled
    refine ⟨_, _, List.append_assoc .., spelling, rest,
      ⟨(UInt16.toNat_ofNat_of_lt' hShort).symm, rfl⟩, ?_⟩
    rw [hDecode]
    exact run_pure_eq_ok.mpr ⟨rfl, rfl⟩

namespace Entry

/-- The fields of an entry, segment by segment. -/
def fieldsOutline : Entry → Outline
  | utf8 content => [.text content]
  | entry => [.fixed entry.writeFields]

/-- An entry, segment by segment. -/
def outline (entry : Entry) : Outline :=
  .fixed [entry.tag.code] :: entry.fieldsOutline

/-- The fields of an entry without text are read back. -/
theorem run_writeFields {entry : Entry} (hFixed : ∀ content, entry ≠ utf8 content)
    (rest : List UInt8) :
    (readFields entry.tag).run (entry.writeFields ++ rest) = .ok (entry, rest) := by
  cases entry with
  | utf8 content => exact absurd rfl (hFixed content)
  | integer value =>
      exact run_map_eq_ok.mpr ⟨value.toUInt32, run_word32_eq_ok.mpr rfl, rfl⟩
  | float bits => simp [readFields, Entry.tag, writeFields]
  | long value =>
      exact run_map_eq_ok.mpr ⟨value.toUInt64, run_word64_eq_ok.mpr rfl, rfl⟩
  | double bits => simp [readFields, Entry.tag, writeFields]
  | textRef kind text =>
      cases kind <;> simp [readFields, Entry.tag, TextRefKind.tag, writeFields]
  | memberRef kind owner nameType =>
      cases kind <;>
        simp [readFields, readFields.readMember, Entry.tag, MemberRefKind.tag,
          writeFields]
  | nameAndType name descriptor => simp [readFields, Entry.tag, writeFields]
  | methodHandle kind reference => simp [readFields, Entry.tag, writeFields]
  | dynamic kind bootstrap nameType =>
      cases kind <;>
        simp [readFields, readFields.readDynamic, Entry.tag, DynamicKind.tag,
          writeFields]

/-- The fields of an entry are read behind its tag. -/
theorem run_readFields_eq_ok {tag : Tag} {entry : Entry} {bytes rest : List UInt8} :
    (readFields tag).run bytes = .ok (entry, rest) ↔
      entry.tag = tag ∧ ∃ head, entry.fieldsOutline.Spells head ∧
        bytes = head ++ rest := by
  constructor
  · intro hRun
    cases tag
    case utf8 =>
      obtain ⟨content, hContent, rfl⟩ := run_map_eq_ok.mp hRun
      obtain ⟨head, hHead, rfl⟩ := (reads_text _ _ _).mp hContent
      exact ⟨rfl, head, Outline.spells_singleton.mpr hHead, rfl⟩
    all_goals
      simp only [readFields, readFields.readMember, readFields.readDynamic,
        run_bind_eq_ok, run_map_eq_ok, run_byte_eq_ok, run_word16_eq_ok,
        run_word32_eq_ok, run_word64_eq_ok, run_pure_eq_ok] at hRun
      first
      | obtain ⟨_, rfl, rfl⟩ := hRun
        exact ⟨rfl, _, Outline.spells_fixed.mpr rfl, rfl⟩
      | obtain ⟨_, _, rfl, _, _, rfl, rfl, rfl⟩ := hRun
        exact ⟨rfl, _, Outline.spells_fixed.mpr rfl, by simp [writeFields]⟩
  · intro hRun
    obtain ⟨rfl, head, hHead, rfl⟩ := hRun
    by_cases hText : ∃ content, entry = utf8 content
    · obtain ⟨content, rfl⟩ := hText
      have hContent := (reads_text _ content rest).mpr
        ⟨head, Outline.spells_singleton.mp hHead, rfl⟩
      exact run_map_eq_ok.mpr ⟨content, hContent, rfl⟩
    · rw [not_exists] at hText
      have hFields : entry.fieldsOutline = [.fixed entry.writeFields] := by
        cases entry with
        | utf8 content => exact absurd rfl (hText content)
        | _ => rfl
      rw [hFields, Outline.spells_fixed] at hHead
      rw [hHead]
      exact run_writeFields hText rest

/-- The reader of entries takes what their outline spells. -/
theorem reads_read : Entry.read.Reads fun entry => entry.outline.Spells := by
  intro bytes entry rest
  simp only [Entry.read, run_bind_eq_ok, run_byte_eq_ok]
  constructor
  · intro hRun
    obtain ⟨code, tail, rfl, hRun⟩ := hRun
    cases hTag : Tag.ofCode? code with
    | none =>
        rw [hTag] at hRun
        exact (run_fail_eq_ok.mp hRun).elim
    | some tag =>
        rw [hTag] at hRun
        obtain ⟨rfl, head, hHead, rfl⟩ := run_readFields_eq_ok.mp hRun
        refine ⟨code :: head, Outline.spells_fixed_cons.mpr ⟨head, hHead, ?_⟩, rfl⟩
        rw [Tag.ofCode?_eq_some_iff.mp hTag]
        rfl
  · intro hSpelled
    obtain ⟨_, hSpells, rfl⟩ := hSpelled
    obtain ⟨head, hHead, rfl⟩ := Outline.spells_fixed_cons.mp hSpells
    refine ⟨entry.tag.code, head ++ rest, rfl, ?_⟩
    rw [Tag.ofCode?_code]
    exact run_readFields_eq_ok.mpr ⟨rfl, head, hHead, rfl⟩

/-- What is written for an entry is what is written for its outline. -/
theorem write_outline (entry : Entry) : entry.outline.write = entry.write := by
  rw [outline, Outline.write_cons, write]
  cases entry with
  | utf8 content => exact congrArg _ (List.append_nil _)
  | _ => exact congrArg _ (List.append_nil _)

end Entry

/-! ## Slots -/

namespace Slot

/-- Whether a slot holds an entry that fills the next slot too. -/
def isWide : Slot → Bool
  | some entry => entry.isWide
  | none => false

@[simp] theorem isWide_some (entry : Entry) :
    Slot.isWide (some entry) = entry.isWide := rfl

/-- A slot, segment by segment; an unusable one takes no bytes. -/
def outline : Slot → Outline
  | some entry => entry.outline
  | none => []

/-- The unusable slots are those behind eight-byte entries. -/
def LaidOut (slots : List Slot) : Prop :=
  slots.head? ≠ some none ∧
    slots.IsChain fun slot next => next = none ↔ Slot.isWide slot = true

/-- Behind a slot that does not fill the next one, the slots are laid out as at
the beginning of a pool. -/
theorem laidOut_cons_narrow {slot : Slot} {rest : List Slot}
    (hNarrow : Slot.isWide slot = false) :
    List.IsChain (fun slot next => next = none ↔ Slot.isWide slot = true)
        (slot :: rest) ↔ LaidOut rest := by
  cases rest with
  | nil => simp [LaidOut]
  | cons next rest => simp [LaidOut, List.isChain_cons_cons, hNarrow]

/-- An eight-byte entry fills the next slot, if there is one. -/
theorem laidOut_cons_wide {slot next : Slot} {rest : List Slot}
    (hWide : Slot.isWide slot = true) :
    List.IsChain (fun slot next => next = none ↔ Slot.isWide slot = true)
        (slot :: next :: rest) ↔ next = none ∧ LaidOut rest := by
  rw [List.isChain_cons_cons]
  constructor
  · intro hRun
    obtain ⟨hNext, hRest⟩ := hRun
    obtain rfl := hNext.mpr hWide
    exact ⟨rfl, (laidOut_cons_narrow rfl).mp hRest⟩
  · intro hSpelled
    obtain ⟨rfl, hRest⟩ := hSpelled
    exact ⟨by simp [hWide], (laidOut_cons_narrow rfl).mpr hRest⟩

end Slot

namespace Pool

/-- The slots that are read are laid out in the only way, and there are as many
as there is room for. -/
theorem run_readSlots_eq_ok {filled slots : Array Slot} {room : Nat}
    {bytes rest : List UInt8} :
    (readSlots filled room).run bytes = .ok (slots, rest) ↔
      ∃ added : List Slot, slots = filled ++ added.toArray ∧
        added.length = room ∧ Slot.LaidOut added ∧
        ∃ head, Outline.Spells (added.flatMap Slot.outline) head ∧
          bytes = head ++ rest := by
  fun_induction readSlots filled room generalizing bytes with
  | case1 filled =>
      rw [run_pure_eq_ok]
      constructor
      · intro hRun
        obtain ⟨rfl, rfl⟩ := hRun
        exact ⟨[], by simp, rfl, ⟨by simp, .nil⟩, [], Outline.spells_nil.mpr rfl, rfl⟩
      · intro hSpelled
        obtain ⟨added, rfl, hLength, -, head, hHead, rfl⟩ := hSpelled
        obtain rfl := List.length_eq_zero_iff.mp hLength
        obtain rfl := Outline.spells_nil.mp hHead
        simp
  -- In the last slot it makes no difference whether the entry is wide.
  | case2 filled =>
      simp only [run_bind_eq_ok, run_pure_eq_ok, Entry.reads_read _ _ _]
      constructor
      · intro hRun
        obtain ⟨entry, _, ⟨head, hHead, rfl⟩, rfl, rfl⟩ := hRun
        refine ⟨[some entry], by simp, rfl, ⟨by simp, .singleton _⟩, head, ?_, rfl⟩
        simpa [Slot.outline] using hHead
      · intro hSpelled
        obtain ⟨added, rfl, hLength, ⟨hFirst, -⟩, head, hHead, rfl⟩ := hSpelled
        obtain ⟨slot, rfl⟩ := List.length_eq_one_iff.mp hLength
        cases slot with
        | none => exact absurd rfl hFirst
        | some entry =>
            refine ⟨entry, rest, ⟨head, ?_, rfl⟩, by simp, rfl⟩
            simpa [Slot.outline] using hHead
  | case3 filled room ihWide ihNarrow =>
      simp only [run_bind_eq_ok, Entry.reads_read _ _ _]
      constructor
      · intro hRun
        obtain ⟨entry, _, ⟨head, hHead, rfl⟩, hRun⟩ := hRun
        split at hRun
        · next hWide =>
            -- A wide entry brings an unusable slot, and takes two off the room.
            obtain ⟨added, rfl, hLength, hLaidOut, tail, hTail, rfl⟩ :=
              (ihWide entry).mp hRun
            have hSlots : Slot.LaidOut (some entry :: none :: added) :=
              ⟨by simp, (Slot.laidOut_cons_wide (by simpa using hWide)).mpr
                ⟨rfl, hLaidOut⟩⟩
            have hSpells : Outline.Spells
                ((some entry :: none :: added).flatMap Slot.outline) (head ++ tail) :=
              Outline.spells_append.mpr ⟨head, tail, hHead, hTail, rfl⟩
            exact ⟨some entry :: none :: added, by simp, by simp [hLength], hSlots,
              head ++ tail, hSpells, (List.append_assoc ..).symm⟩
        · next hNarrow =>
            obtain ⟨added, rfl, hLength, hLaidOut, tail, hTail, rfl⟩ :=
              (ihNarrow entry).mp hRun
            have hSlots : Slot.LaidOut (some entry :: added) :=
              ⟨by simp, (Slot.laidOut_cons_narrow (by simpa using hNarrow)).mpr
                hLaidOut⟩
            have hSpells : Outline.Spells
                ((some entry :: added).flatMap Slot.outline) (head ++ tail) :=
              Outline.spells_append.mpr ⟨head, tail, hHead, hTail, rfl⟩
            exact ⟨some entry :: added, by simp, by simp [hLength], hSlots,
              head ++ tail, hSpells, (List.append_assoc ..).symm⟩
      · intro hSpelled
        obtain ⟨added, rfl, hLength, ⟨hFirst, hChain⟩, _, hSpells, rfl⟩ := hSpelled
        -- There are slots, and the first of them is usable.
        rcases added with _ | ⟨_ | entry, added⟩
        · simp at hLength
        · exact absurd rfl hFirst
        obtain ⟨head, tail, hHead, hTail, rfl⟩ := Outline.spells_append.mp hSpells
        refine ⟨entry, tail ++ rest, ⟨head, hHead, List.append_assoc ..⟩, ?_⟩
        split
        · next hWide =>
            rcases added with _ | ⟨next, added⟩
            · simp at hLength
            obtain ⟨rfl, hLaidOut⟩ :=
              (Slot.laidOut_cons_wide (by simpa using hWide)).mp hChain
            exact (ihWide entry).mpr
              ⟨added, by simp, by simpa using hLength, hLaidOut, tail, hTail, rfl⟩
        · next hNarrow =>
            have hLaidOut : Slot.LaidOut added :=
              (Slot.laidOut_cons_narrow (by simpa using hNarrow)).mp hChain
            exact (ihNarrow entry).mpr
              ⟨added, by simp, by simpa using hLength, hLaidOut, tail, hTail, rfl⟩

/-- A pool whose slots can be counted and whose unusable slots are those behind
eight-byte entries. -/
structure IsLaidOut (pool : Pool) : Prop where
  few : pool.slots.size < 0xffff
  slots : Slot.LaidOut pool.slots.toList

/-- Every text of the pool is short enough for the length in front of it. -/
def TextsFit (pool : Pool) : Prop :=
  ∀ content, some (.utf8 content) ∈ pool.slots →
    (ModifiedUtf8.encode content).length < 0x10000

/-- The texts of the pool. -/
def texts (pool : Pool) : List String :=
  pool.slots.toList.filterMap fun
    | some (.utf8 content) => some content
    | _ => none

theorem mem_texts_iff {pool : Pool} {content : String} :
    content ∈ pool.texts ↔ some (.utf8 content) ∈ pool.slots := by
  rw [texts, List.mem_filterMap, Array.mem_def]
  constructor
  · intro hText
    obtain ⟨slot, hSlot, hContent⟩ := hText
    split at hContent
    · obtain rfl := Option.some.inj hContent
      exact hSlot
    · cases hContent
  · intro hSlot
    exact ⟨_, hSlot, rfl⟩

instance (pool : Pool) : Decidable pool.TextsFit :=
  decidable_of_iff (∀ content ∈ pool.texts, (ModifiedUtf8.encode content).length < 0x10000)
    (forall_congr' fun _ => imp_congr_left mem_texts_iff)

/-- A pool, segment by segment. -/
def outline (pool : Pool) : Outline :=
  .poolCount pool.slots.size :: pool.slots.toList.flatMap Slot.outline

/-- The reader of pools takes what the outlines of pools spell, if they are laid
out as pools are. -/
theorem reads_read :
    Pool.read.Reads fun pool head => pool.IsLaidOut ∧ pool.outline.Spells head := by
  intro bytes pool rest
  simp only [Pool.read, run_bind_eq_ok, run_word16_eq_ok, run_pure_eq_ok,
    run_readSlots_eq_ok]
  constructor
  · intro hRun
    obtain ⟨count, _, rfl, slots, _, ⟨added, rfl, hLength, hLaidOut, head, hHead, rfl⟩,
      rfl, rfl⟩ := hRun
    have hBound := count.toNat_lt
    have hFew : added.length < 0xffff := by omega
    have hCount : (Segment.poolCount added.length).Spells (BigEndian.bytes16 count) :=
      ⟨count, hLength.symm, rfl⟩
    rw [Array.empty_append]
    refine ⟨BigEndian.bytes16 count ++ head, ⟨⟨?_, hLaidOut⟩, ?_⟩,
      (List.append_assoc ..).symm⟩
    · simpa using hFew
    · exact Outline.spells_cons.mpr ⟨_, head, by simpa using hCount, hHead, rfl⟩
  · intro hSpelled
    obtain ⟨_, ⟨hLaidOut, hSpells⟩, rfl⟩ := hSpelled
    obtain ⟨_, head, ⟨count, hCount, rfl⟩, hHead, rfl⟩ := Outline.spells_cons.mp hSpells
    exact ⟨count, head ++ rest, List.append_assoc .., pool.slots, rest,
      ⟨pool.slots.toList, by simp, by simp [hCount], hLaidOut.slots, head, hHead, rfl⟩,
      rfl, rfl⟩

/-- What is written for a pool is what is written for its outline. -/
theorem write_outline (pool : Pool) : pool.outline.write = pool.write := by
  have hSlot : ∀ slot : Slot, (Slot.outline slot).write = writeSlot slot := by
    intro slot
    cases slot with
    | none => rfl
    | some entry => exact entry.write_outline
  rw [outline, Outline.write_cons, Outline.write_flatMap, write]
  simp only [hSlot]
  rfl

/-- What is written for a pool with short texts is spelled by its outline. -/
theorem isWritable_outline {pool : Pool} (hFew : pool.slots.size < 0xffff)
    (hTexts : pool.TextsFit) :
    ∀ segment ∈ pool.outline, segment.IsWritable := by
  refine List.forall_mem_cons.mpr ⟨hFew, fun segment hSegment => ?_⟩
  obtain ⟨slot, hSlot, hSegment⟩ := List.mem_flatMap.mp hSegment
  cases slot with
  | none => cases hSegment
  | some entry =>
      rcases List.mem_cons.mp hSegment with rfl | hFields
      · exact trivial
      · cases entry with
        | utf8 content =>
            obtain rfl := List.mem_singleton.mp hFields
            exact hTexts content (Array.mem_toList_iff.mp hSlot)
        | _ =>
            obtain rfl := List.mem_singleton.mp hFields
            exact trivial

end Pool

end ClassFormat
