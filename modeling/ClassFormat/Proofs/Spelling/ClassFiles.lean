import Mathlib
import ClassFormat.ClassFile.Layout
import ClassFormat.Proofs.Spelling.Attributes
import ClassFormat.Proofs.Spelling.Pools

namespace ClassFormat

/-!
# The spelling of class files

A class file is well formed when its pool is laid out as pools are, when its
lists can be counted, and when its attributes are well formed.  Two conditions
stand apart: a text may have a spelling that is short enough although its
canonical spelling is not, and the depth is limited by the reader alone.

* `ClassFile.reads_read` says that the reader of class files takes what their
  outlines spell.
-/

open Reader

/-! ## Members -/

namespace Member

/-- The attributes of a member can be counted and are well formed. -/
def WellFormed (pool : Pool) (member : Member) : Prop :=
  Counted16 (Attribute.WellFormed pool) member.attributes

/-- The number of levels below a member. -/
def depth (member : Member) : Nat := Attribute.depthAll member.attributes

/-- A member, segment by segment. -/
def outline (member : Member) : Outline :=
  .fixed (BigEndian.bytes16 member.flags.bits ++ BigEndian.bytes16 member.name ++
      BigEndian.bytes16 member.descriptor) ::
    Outline.list16 Attribute.outline member.attributes

end Member

/-- The attributes of a class or a member are read with all the room there is. -/
theorem Attribute.reads_readList (pool : Pool) :
    (readList pool).Reads fun attributes head =>
      (Counted16 (WellFormed pool) attributes ∧ depthAll attributes ≤ maxNesting) ∧
        (Outline.list16 outline attributes).Spells head := by
  refine (reads_read pool maxNesting).list16.congr fun attributes head => ?_
  rw [depthAll_le_iff]
  exact and_congr_left fun _ => counted16_and

theorem Member.reads_read (pool : Pool) (kind : MemberKind) :
    (read pool kind).Reads fun member head =>
      ((member.kind = kind ∧ member.WellFormed pool) ∧ member.depth ≤ maxNesting) ∧
        member.outline.Spells head := by
  intro bytes member rest
  obtain ⟨kind', ⟨flags⟩, name, descriptor, attributes⟩ := member
  have hAttributes := Attribute.reads_readList pool
  unfold Reads at hAttributes
  simp only [read, run_bind_eq_ok, run_word16_eq_ok, run_pure_eq_ok, hAttributes]
  constructor
  · intro hRun
    obtain ⟨bits, _, rfl, first, _, rfl, second, _, rfl, _, _,
      ⟨tail, ⟨hFits, hTail⟩, rfl⟩, hParts, rfl⟩ := hRun
    injection hParts with hKind hFlags hName hDescriptor hAttributes
    injection hFlags with hBits
    subst hKind hBits hName hDescriptor hAttributes
    refine ⟨BigEndian.bytes16 bits ++ BigEndian.bytes16 first ++
      BigEndian.bytes16 second ++ tail, ⟨⟨⟨rfl, hFits.1⟩, hFits.2⟩, ?_⟩,
      by simp only [List.append_assoc]⟩
    exact Outline.spells_fixed_cons.mpr ⟨tail, hTail, rfl⟩
  · intro hSpelled
    obtain ⟨_, ⟨⟨⟨rfl, hWellFormed⟩, hDepth⟩, hSpells⟩, rfl⟩ := hSpelled
    obtain ⟨tail, hTail, rfl⟩ := Outline.spells_fixed_cons.mp hSpells
    have hFits := And.intro hWellFormed hDepth
    exact ⟨flags, BigEndian.bytes16 name ++ (BigEndian.bytes16 descriptor ++
        (tail ++ rest)), by simp only [List.append_assoc], name, _, rfl,
      descriptor, _, rfl, attributes, rest, ⟨tail, ⟨hFits, hTail⟩, rfl⟩, rfl, rfl⟩

/-- The fields or the methods of a class are read one by one. -/
theorem Member.reads_readList (pool : Pool) (kind : MemberKind) :
    (list16 (read pool kind)).Reads fun members head =>
      (Counted16 (fun member => member.kind = kind ∧ member.WellFormed pool) members ∧
          ∀ member ∈ members, member.depth ≤ maxNesting) ∧
        (Outline.list16 outline members).Spells head := by
  refine (reads_read pool kind).list16.congr fun members head => ?_
  exact and_congr_left fun _ => counted16_and

/-- What is written for a member is what is written for its outline. -/
theorem Member.write_outline (member : Member) :
    member.outline.write = member.write := by
  unfold outline write Attribute.writeList
  rw [Outline.write_cons, Outline.write_list16]
  simp only [Attribute.write_outline, Segment.write]

/-! ## Class files -/

namespace ClassFile

/-- A class file that can be written without loss, except for the length of its
texts. -/
structure WellFormed (file : ClassFile) : Prop where
  pool : file.pool.IsLaidOut
  interfaces : file.interfaces.length < 0x10000
  fields : Counted16
    (fun member => member.kind = .field ∧ member.WellFormed file.pool) file.fields
  methods : Counted16
    (fun member => member.kind = .method ∧ member.WellFormed file.pool) file.methods
  attributes : Counted16 (Attribute.WellFormed file.pool) file.attributes

/-- The number of levels in a class file. -/
def depth (file : ClassFile) : Nat :=
  max ((file.fields.map Member.depth).foldr max 0)
    (max ((file.methods.map Member.depth).foldr max 0)
      (Attribute.depthAll file.attributes))

/-- A class file, segment by segment. -/
def outline (file : ClassFile) : Outline :=
  .fixed (BigEndian.bytes32 magic ++ BigEndian.bytes16 file.minor ++
      BigEndian.bytes16 file.major) ::
    (file.pool.outline ++
      .fixed (BigEndian.bytes16 file.flags.bits ++
        BigEndian.bytes16 file.thisClass ++ BigEndian.bytes16 file.superClass ++
        Writer.list16 BigEndian.bytes16 file.interfaces) ::
      (Outline.list16 Member.outline file.fields ++
        Outline.list16 Member.outline file.methods ++
        Outline.list16 Attribute.outline file.attributes))

/-- A spelling of a class file has pieces for the pool, for the fields, for the methods
and for the attributes. -/
theorem spells_outline {file : ClassFile} {head : List UInt8} :
    file.outline.Spells head ↔ ∃ slots first second third,
      file.pool.outline.Spells slots ∧
      (Outline.list16 Member.outline file.fields).Spells first ∧
      (Outline.list16 Member.outline file.methods).Spells second ∧
      (Outline.list16 Attribute.outline file.attributes).Spells third ∧
      head = BigEndian.bytes32 magic ++ BigEndian.bytes16 file.minor ++
        BigEndian.bytes16 file.major ++ (slots ++ (BigEndian.bytes16 file.flags.bits ++
          BigEndian.bytes16 file.thisClass ++ BigEndian.bytes16 file.superClass ++
          Writer.list16 BigEndian.bytes16 file.interfaces ++
          (first ++ second ++ third))) := by
  constructor
  · intro hSpells
    obtain ⟨_, hPart, rfl⟩ := Outline.spells_fixed_cons.mp hSpells
    obtain ⟨slots, _, hSlots, hBody, rfl⟩ := Outline.spells_append.mp hPart
    obtain ⟨_, hLists, rfl⟩ := Outline.spells_fixed_cons.mp hBody
    obtain ⟨_, third, hMembers, hThird, rfl⟩ := Outline.spells_append.mp hLists
    obtain ⟨first, second, hFirst, hSecond, rfl⟩ := Outline.spells_append.mp hMembers
    exact ⟨slots, first, second, third, hSlots, hFirst, hSecond, hThird, rfl⟩
  · intro hPieces
    obtain ⟨slots, first, second, third, hSlots, hFirst, hSecond, hThird, rfl⟩ := hPieces
    have hMembers := Outline.spells_append.mpr ⟨first, second, hFirst, hSecond, rfl⟩
    have hLists := Outline.spells_append.mpr ⟨_, third, hMembers, hThird, rfl⟩
    exact Outline.spells_fixed_cons.mpr ⟨_, Outline.spells_append.mpr
      ⟨slots, _, hSlots, Outline.spells_fixed_cons.mpr ⟨_, hLists, rfl⟩, rfl⟩, rfl⟩

theorem depth_le_iff {file : ClassFile} {n : Nat} :
    file.depth ≤ n ↔ (∀ member ∈ file.fields, member.depth ≤ n) ∧
      (∀ member ∈ file.methods, member.depth ≤ n) ∧
      Attribute.depthAll file.attributes ≤ n := by
  rw [depth, max_le_iff, max_le_iff, foldr_max_le_iff, foldr_max_le_iff]

theorem run_readMagic_eq_ok {done : Unit} {bytes rest : List UInt8} :
    readMagic.run bytes = .ok (done, rest) ↔
      bytes = BigEndian.bytes32 magic ++ rest := by
  simp only [readMagic, run_bind_eq_ok, run_word32_eq_ok]
  constructor
  · intro hRun
    obtain ⟨found, _, rfl, hEnd⟩ := hRun
    split at hEnd
    · next hMagic =>
        obtain ⟨-, rfl⟩ := run_pure_eq_ok.mp hEnd
        rw [hMagic]
    · exact (run_fail_eq_ok.mp hEnd).elim
  · rintro rfl
    exact ⟨magic, rest, rfl, rfl⟩

/-- The reader of class files takes what is spelled for the well-formed ones that
are not nested too deep. -/
theorem reads_read :
    ClassFile.read.Reads fun file head =>
      (file.WellFormed ∧ file.depth ≤ maxNesting) ∧ file.outline.Spells head := by
  intro bytes file rest
  have hPool := Pool.reads_read
  have hMembers := Member.reads_readList
  have hAttributes := Attribute.reads_readList
  unfold Reads at hPool hMembers hAttributes
  simp only [read, run_bind_eq_ok, run_readMagic_eq_ok, run_word16_eq_ok,
    run_words_eq_ok, run_pure_eq_ok, hPool, hMembers, hAttributes]
  constructor
  · intro hRun
    obtain ⟨_, _, rfl, minor, _, rfl, major, _, rfl, pool, _,
      ⟨slots, ⟨hLaidOut, hSlots⟩, rfl⟩, flags, _, rfl, this, _, rfl, super, _, rfl,
      interfaces, _, ⟨hInterfaces, rfl⟩,
      fields, _, ⟨first, ⟨⟨hFields, hInFields⟩, hFirst⟩, rfl⟩,
      methods, _, ⟨second, ⟨⟨hMethods, hInMethods⟩, hSecond⟩, rfl⟩,
      attributes, _, ⟨third, ⟨⟨hAttributes, hInside⟩, hThird⟩, rfl⟩, rfl, rfl⟩ := hRun
    exact ⟨_, ⟨⟨⟨hLaidOut, hInterfaces, hFields, hMethods, hAttributes⟩,
        depth_le_iff.mpr ⟨hInFields, hInMethods, hInside⟩⟩,
      spells_outline.mpr ⟨slots, first, second, third, hSlots, hFirst, hSecond, hThird, rfl⟩⟩,
      by simp only [List.append_assoc]⟩
  · intro hFile
    obtain ⟨_, ⟨⟨hWellFormed, hDepth⟩, hSpells⟩, rfl⟩ := hFile
    obtain ⟨slots, first, second, third, hSlots, hFirst, hSecond, hThird, rfl⟩ :=
      spells_outline.mp hSpells
    obtain ⟨hInFields, hInMethods, hInside⟩ := depth_le_iff.mp hDepth
    obtain ⟨hLaidOut, hInterfaces, hFields, hMethods, hAttributes⟩ := hWellFormed
    obtain ⟨minor, major, pool, ⟨flags⟩, this, super, interfaces, fields, methods,
      attributes⟩ := file
    simp only [List.append_assoc]
    exact ⟨(), _, rfl, minor, _, rfl, major, _, rfl, pool, _,
      ⟨slots, ⟨hLaidOut, hSlots⟩, rfl⟩, flags, _, rfl, this, _, rfl, super, _, rfl,
      interfaces, _, ⟨hInterfaces, rfl⟩,
      fields, _, ⟨first, ⟨⟨hFields, hInFields⟩, hFirst⟩, rfl⟩,
      methods, _, ⟨second, ⟨⟨hMethods, hInMethods⟩, hSecond⟩, rfl⟩,
      attributes, rest, ⟨third, ⟨⟨hAttributes, hInside⟩, hThird⟩, rfl⟩, rfl, rfl⟩

/-- What is written for a class file is what is written for its outline. -/
theorem write_outline (file : ClassFile) : file.outline.write = file.encode := by
  unfold outline encode Attribute.writeList
  simp only [Outline.write_cons, Outline.write_append, Outline.write_list16,
    Attribute.write_outline, Member.write_outline, Pool.write_outline, Segment.write,
    List.append_assoc]

end ClassFile

end ClassFormat
