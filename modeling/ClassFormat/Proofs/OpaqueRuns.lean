import Mathlib
import ClassFormat.Proofs.Places
import ClassFormat.Proofs.Validity.FirstFault

namespace ClassFormat

/-!
# Runs of bytes that are not interpreted

The payload of an attribute with an unknown name, of a debug extension or of a marker, and
the instructions of a method body are runs of bytes whose content means nothing to the
reader.  A `RunHolder` is an attribute with such a run left out.  If a class file holds a
run in some place, then the input holds the run there too, and any other run of the same
length can stand in its place: everything else is decoded as before.  The checks do not
look at the run either, except that of a debug extension, which has to spell a text.

* `RunHolder.Alike.sameShape` says that runs of one length make no difference.
* `ClassFile.Place.validate_fill` says that exchanging an attribute with the same checks
  keeps the results of the checks of the class file.
* `ClassFile.decode_other_run` puts both together.
-/

/-! ## Holders -/

/-- Whether a payload is or begins with a run of bytes that are not interpreted. -/
def Payload.HasRun : Payload → Prop
  | unknown _ | sourceDebugExtension _ | marker _ | code _ => True
  | _ => False

/-- An attribute with its run of bytes left out.  Of a method body, the instructions are
left out. -/
inductive RunHolder where
  | unknown (name : UInt16) (length : UInt32)
  | debugExtension (name : UInt16) (length : UInt32)
  | marker (name : UInt16) (length : UInt32) (kind : Marker)
  | instructions (name : UInt16) (length : UInt32) (shell : Code)

namespace RunHolder

/-- The attribute with a run of bytes.  A marker does not keep its run. -/
def hold : RunHolder → List UInt8 → Attribute
  | unknown name length, run => ⟨name, length, .unknown run⟩
  | debugExtension name length, run => ⟨name, length, .sourceDebugExtension run⟩
  | marker name length kind, _ => ⟨name, length, .marker kind⟩
  | instructions name length shell, run =>
      ⟨name, length, .code { shell with instructions := run }⟩

/-- What can stand in an input for the run: the run itself, or for a marker as many bytes
as are announced. -/
def Stands : RunHolder → List UInt8 → List UInt8 → Prop
  | marker _ length _, _, taken => taken.length = length.toNat
  | _, run, taken => taken = run

/-- The bytes of the attribute in front of a run of the given length. -/
def lead (size : Nat) : RunHolder → List UInt8
  | unknown name length | debugExtension name length | marker name length _ =>
      BigEndian.bytes16 name ++ BigEndian.bytes32 length
  | instructions name length shell =>
      BigEndian.bytes16 name ++ BigEndian.bytes32 length ++
        BigEndian.bytes16 shell.maxStack ++ BigEndian.bytes16 shell.maxLocals ++
        BigEndian.bytes32 (UInt32.ofNat size)

/-- What is in the attribute behind the run, segment by segment. -/
def tail : RunHolder → Outline
  | instructions _ _ shell =>
      .fixed (Writer.list16 ExceptionHandler.write shell.handlers) ::
        .fixed (BigEndian.bytes16 (UInt16.ofNat shell.attributes.length)) ::
        Attribute.outlineAll shell.attributes
  | _ => []

/-- Whether the holder keeps no run. -/
def IsMarker : RunHolder → Prop
  | marker .. => True
  | _ => False

/-- Whether the run has to spell a text. -/
def IsDebugExtension : RunHolder → Prop
  | debugExtension .. => True
  | _ => False

/-- Every attribute with a run is that of a holder. -/
theorem exists_hold {attr : Attribute} (hRun : attr.payload.HasRun) :
    ∃ holder run, hold holder run = attr := by
  obtain ⟨name, length, payload⟩ := attr
  cases payload with
  | unknown run => exact ⟨unknown name length, run, rfl⟩
  | sourceDebugExtension run => exact ⟨debugExtension name length, run, rfl⟩
  | marker kind => exact ⟨marker name length kind, [], rfl⟩
  | code body =>
      obtain ⟨maxStack, maxLocals, run, handlers, attributes⟩ := body
      exact ⟨instructions name length ⟨maxStack, maxLocals, [], handlers, attributes⟩, run,
        rfl⟩
  | _ => exact hRun.elim

/-- The attribute is spelled with the run, or with what stands for it, between its lead
and its tail. -/
theorem spells_hold {holder : RunHolder} {run bytes : List UInt8} :
    (holder.hold run).outline.Spells bytes ↔ ∃ taken rest,
      holder.Stands run taken ∧ holder.tail.Spells rest ∧
        bytes = holder.lead run.length ++ (taken ++ rest) := by
  cases holder with
  | unknown name length | debugExtension name length =>
      simp [hold, Attribute.outline, Payload.outline, Payload.write, Stands, tail, lead,
        Outline.spells_fixed_cons, Outline.spells_nil]
  | marker name length kind =>
      simp [hold, Attribute.outline, Payload.outline, Stands, tail, lead,
        Outline.spells_fixed_cons, Outline.spells_singleton, Outline.spells_nil,
        Segment.Spells]
  | instructions name length shell =>
      simp [hold, Attribute.outline, Payload.outline, Code.outline, Stands, tail, lead,
        Outline.spells_fixed_cons]

/-- Two runs between which the holder makes no difference: they are equally long, or the
holder keeps neither. -/
def Alike (holder : RunHolder) (run other : List UInt8) : Prop :=
  holder.IsMarker ∨ other.length = run.length

/-- A run that is as long as what stands for another one is like it, and stands for
itself. -/
theorem alike_of_stands {holder : RunHolder} {run taken other : List UInt8}
    (hStands : holder.Stands run taken) (hLength : other.length = taken.length) :
    holder.Alike run other ∧ holder.Stands other other := by
  cases holder with
  | marker name length kind => exact ⟨.inl trivial, hLength.trans hStands⟩
  | unknown name length | debugExtension name length | instructions name length shell =>
      obtain rfl : taken = run := hStands
      exact ⟨.inr hLength, rfl⟩

variable {holder : RunHolder} {run other : List UInt8}

theorem IsMarker.hold_eq (hMarker : holder.IsMarker) (run other : List UInt8) :
    holder.hold other = holder.hold run := by
  cases holder with
  | marker name length kind => rfl
  | _ => exact hMarker.elim

theorem Alike.lead_eq (hAlike : holder.Alike run other) :
    holder.lead other.length = holder.lead run.length := by
  rcases hAlike with hMarker | hLength
  · cases holder with
    | marker name length kind => rfl
    | _ => exact hMarker.elim
  · rw [hLength]

/-- Another run makes no difference to the shape of the attribute. -/
theorem Alike.sameShape (hAlike : holder.Alike run other) (pool : Pool) :
    Attribute.SameShape pool (holder.hold run) (holder.hold other) := by
  rcases hAlike with hMarker | hLength
  · rw [hMarker.hold_eq run other]
    exact ⟨id, rfl, rfl⟩
  cases holder with
  | unknown name length | debugExtension name length =>
      refine ⟨fun hWellFormed => ?_, ?_, rfl⟩
      · obtain ⟨hKind, hWritten, -⟩ := hWellFormed
        exact ⟨hKind, hLength.trans hWritten, trivial⟩
      · simp [hold, Attribute.write, Payload.write, hLength]
  | marker name length kind => exact ⟨id, rfl, rfl⟩
  -- The number of instructions is announced too, and it has its own limits.
  | instructions name length shell =>
      have hBody : (Code.write { shell with instructions := other }).length =
          (Code.write { shell with instructions := run }).length := by
        simp only [Code.write, List.length_append, hLength]
      refine ⟨fun hWellFormed => ?_, ?_, rfl⟩
      · obtain ⟨hKind, hWritten, hBounds, hRest⟩ := hWellFormed
        exact ⟨hKind, hBody.trans hWritten, hLength ▸ hBounds, hRest⟩
      · simp only [hold, Attribute.write, Payload.write, List.length_append, hBody]

/-- The checks do not look at the run, unless it has to spell a text. -/
theorem Alike.checks_eq (hAlike : holder.Alike run other)
    (hOpaque : ¬holder.IsDebugExtension) (level : Nat) :
    (holder.hold other).checks level = (holder.hold run).checks level := by
  rcases hAlike with hMarker | hLength
  · rw [hMarker.hold_eq run other]
  cases holder with
  | unknown name length | marker name length kind => rfl
  | debugExtension name length => exact absurd trivial hOpaque
  | instructions name length shell =>
      simp only [hold, Attribute.checks, Payload.checks, Code.checks, hLength]

end RunHolder

/-! ## Checks in places -/

theorem Attribute.checksAll_append (level : Nat) (attributes rest : List Attribute) :
    checksAll level (attributes ++ rest) =
      checksAll level attributes ++ checksAll level rest := by
  induction attributes with
  | nil => rfl
  | cons attr attributes ih =>
      rw [List.cons_append, checksAll, checksAll, ih, List.append_assoc]

theorem RecordComponent.checksAll_append (level : Nat)
    (components rest : List RecordComponent) :
    checksAll level (components ++ rest) =
      checksAll level components ++ checksAll level rest := by
  induction components with
  | nil => rfl
  | cons component components ih =>
      rw [List.cons_append, checksAll, checksAll, ih, List.append_assoc]

section

variable {attr other : Attribute} (hChecks : ∀ level, other.checks level = attr.checks level)

include hChecks

/-- Exchanging an attribute with the same checks keeps the checks of the list. -/
theorem Attribute.Place.checksAll_fill (place : Attribute.Place) (level : Nat) :
    Attribute.checksAll level (place.fill other) =
      Attribute.checksAll level (place.fill attr) := by
  induction place generalizing level with
  | here before after => simp only [fill, checksAll_append, checksAll, hChecks]
  | inCode before name length shell inner after ih =>
      simp only [fill, checksAll_append, checksAll, Attribute.checks, Payload.checks,
        Code.checks, ih]
  | inComponent before name length earlier shell inner later after ih =>
      simp only [fill, checksAll_append, checksAll, Attribute.checks, Payload.checks,
        RecordComponent.checksAll_append, RecordComponent.checksAll,
        RecordComponent.checks, ih]

theorem Member.Place.flatMap_checks_fill (place : Member.Place) :
    (place.fill other).flatMap Member.checks = (place.fill attr).flatMap Member.checks := by
  simp only [fill, List.flatMap_append, List.flatMap_cons, Member.checks,
    place.inner.checksAll_fill hChecks]

theorem ClassFile.Place.bodyChecks_fill (place : ClassFile.Place) :
    (place.fill other).bodyChecks = (place.fill attr).bodyChecks := by
  cases place with
  | ofClass shell inner => simp only [fill, bodyChecks, inner.checksAll_fill hChecks]
  | ofField shell members | ofMethod shell members =>
      simp only [fill, bodyChecks, members.flatMap_checks_fill hChecks]

/-- Exchanging an attribute with the same checks keeps all results of the class file. -/
theorem ClassFile.Place.validate_fill (place : ClassFile.Place) (major : UInt16) :
    (place.fill other).validate major = (place.fill attr).validate major := by
  rw [validate_eq_bind, validate_eq_bind, pool_fill, pool_fill,
    place.bodyChecks_fill hChecks]

end

/-! ## Other runs -/

namespace ClassFile

/-- Every run of a class file is held in a place of it, and wherever a run is held in a
place, an input that is decoded as the class file splits at the run.  With any other run
of the same length the input is decoded as the class file with that run; for a marker that
is the same class file.  The checks of every version find the same as before, except where
the run has to spell a text. -/
theorem decode_other_run {bytes : List UInt8} {file : ClassFile}
    (hDecode : decode bytes = .ok file) :
    (∀ attr ∈ file.attributesWithin, attr.payload.HasRun →
      ∃ (place : Place) (holder : RunHolder) (run : List UInt8),
        holder.hold run = attr ∧ place.fill (holder.hold run) = file) ∧
    ∀ (place : Place) (holder : RunHolder) (run : List UInt8),
      place.fill (holder.hold run) = file →
      ∃ front taken back, bytes = front ++ taken ++ back ∧
        Outline.Spells (place.front ++ [.fixed (holder.lead run.length)]) front ∧
        holder.Stands run taken ∧ Outline.Spells (holder.tail ++ place.back) back ∧
        ∀ other : List UInt8, other.length = taken.length →
          decode (front ++ other ++ back) = .ok (place.fill (holder.hold other)) ∧
          (holder.IsMarker → place.fill (holder.hold other) = file) ∧
          (¬holder.IsDebugExtension → ∀ major : UInt16,
            (place.fill (holder.hold other)).validate major = file.validate major) := by
  refine ⟨fun attr hWithin hRun => ?_, ?_⟩
  · obtain ⟨place, hPlace⟩ := exists_place hWithin
    obtain ⟨holder, run, rfl⟩ := RunHolder.exists_hold hRun
    exact ⟨place, holder, run, rfl, hPlace⟩
  rintro place holder run rfl
  obtain ⟨front, middle, back, rfl, hFront, hMiddle, hBack⟩ := Place.decode_fill hDecode
  obtain ⟨taken, rest, hStands, hRest, rfl⟩ := RunHolder.spells_hold.mp hMiddle
  refine ⟨front ++ holder.lead run.length, taken, rest ++ back,
    by simp only [List.append_assoc], ?_, hStands,
    Outline.spells_append.mpr ⟨rest, back, hRest, hBack, rfl⟩, fun other hLength => ?_⟩
  · exact Outline.spells_append.mpr ⟨front, _, hFront, Outline.spells_fixed.mpr rfl, rfl⟩
  · -- The attribute with the other run has the same lead and tail.
    obtain ⟨hAlike, hStands'⟩ := RunHolder.alike_of_stands hStands hLength
    have hMiddle' : (holder.hold other).outline.Spells
        (holder.lead run.length ++ (other ++ rest)) :=
      RunHolder.spells_hold.mpr ⟨other, rest, hStands', hRest, by rw [hAlike.lead_eq]⟩
    have hOther := Place.decode_exchanged hDecode (hAlike.sameShape place.pool) hFront
      hMiddle' hBack
    refine ⟨?_, fun hMarker => ?_, fun hOpaque major => ?_⟩
    · simpa only [List.append_assoc] using hOther
    · rw [hMarker.hold_eq run other]
    · exact place.validate_fill (hAlike.checks_eq hOpaque) major

/-- A class file with an unknown attribute in a method body. -/
def opaqueClass (instructions run : List UInt8) : ClassFile where
  minor := 0
  major := 52
  pool := ⟨#[some (.utf8 "Code"), some (.utf8 "Notes"), some (.textRef .classRef 2)]⟩
  flags := ⟨0x21⟩
  thisClass := 3
  superClass := 0
  interfaces := []
  fields := []
  methods := [{
    kind := .method
    flags := ⟨1⟩
    name := 2
    descriptor := 2
    attributes := [{
      name := 1
      length := 22
      payload := .code {
        maxStack := 1
        maxLocals := 1
        instructions
        handlers := []
        attributes := [{ name := 2, length := 3, payload := .unknown run }] } }] }]
  attributes := []

/-- The place of the method body. -/
def opaqueClass.bodyPlace : Place :=
  .ofMethod (opaqueClass [] []) ⟨[], ⟨.method, ⟨1⟩, 2, 2, []⟩, .here [] [], []⟩

/-- The place of the unknown attribute. -/
def opaqueClass.innerPlace : Place :=
  .ofMethod (opaqueClass [] []) ⟨[], ⟨.method, ⟨1⟩, 2, 2, []⟩,
    .inCode [] 1 22 ⟨1, 1, [0xb1], [], []⟩ (.here [] []) [], []⟩

theorem opaqueClass_wellFormed : (opaqueClass [0xb1] [1, 2, 3]).WellFormed where
  pool := ⟨by decide, by decide, by simp [opaqueClass, Slot.isWide]; decide⟩
  interfaces := by decide
  fields := ⟨by decide, by simp [opaqueClass]⟩
  methods := by
    refine ⟨by decide, List.forall_mem_singleton.mpr ⟨rfl, by decide, ?_⟩⟩
    refine List.forall_mem_singleton.mpr ⟨by decide, by decide, ?_⟩
    exact ⟨by decide, by decide, by decide, ⟨by decide, by decide, trivial⟩, trivial⟩
  attributes := ⟨by decide, by simp [opaqueClass]⟩

/-- The unknown payload may look like a class file, and the instructions may be others. -/
theorem decode_other_run_opaqueClass :
    ∃ bytes, decode bytes = .ok (opaqueClass [0xb1] [1, 2, 3]) ∧
      (∃ bytes', decode bytes' = .ok (opaqueClass [0xb1] [0xca, 0xfe, 0xba]) ∧
        (opaqueClass [0xb1] [0xca, 0xfe, 0xba]).validate 52 =
          (opaqueClass [0xb1] [1, 2, 3]).validate 52) ∧
      ∃ bytes', decode bytes' = .ok (opaqueClass [0xff] [1, 2, 3]) ∧
        (opaqueClass [0xff] [1, 2, 3]).validate 52 =
          (opaqueClass [0xb1] [1, 2, 3]).validate 52 := by
  have hTexts : (opaqueClass [0xb1] [1, 2, 3]).pool.TextsFit := by
    intro content hContent
    simp only [opaqueClass, Array.mem_def, List.mem_cons, List.not_mem_nil, or_false,
      Option.some.injEq, Entry.utf8.injEq, reduceCtorEq] at hContent
    rcases hContent with rfl | rfl <;> decide
  have hDecode : decode (opaqueClass [0xb1] [1, 2, 3]).encode =
      .ok (opaqueClass [0xb1] [1, 2, 3]) :=
    decode_eq_ok_iff.mpr ⟨⟨opaqueClass_wellFormed, by decide⟩,
      spells_encode opaqueClass_wellFormed.pool.few hTexts⟩
  obtain ⟨-, hRuns⟩ := decode_other_run hDecode
  obtain ⟨front, taken, back, hBytes, -, hStands, -, hOther⟩ :=
    hRuns opaqueClass.innerPlace (.unknown 2 3) [1, 2, 3] rfl
  obtain ⟨front', taken', back', hBytes', -, hStands', -, hOther'⟩ :=
    hRuns opaqueClass.bodyPlace
      (.instructions 1 22 ⟨1, 1, [], [], [⟨2, 3, .unknown [1, 2, 3]⟩]⟩) [0xb1] rfl
  obtain rfl : taken = [1, 2, 3] := hStands
  obtain rfl : taken' = [0xb1] := hStands'
  obtain ⟨hInner, -, hSame⟩ := hOther [0xca, 0xfe, 0xba] rfl
  obtain ⟨hBody, -, hSame'⟩ := hOther' [0xff] rfl
  exact ⟨_, hDecode, ⟨_, hInner, hSame id 52⟩, _, hBody, hSame' id 52⟩

end ClassFile

end ClassFormat
