import Mathlib
import ClassFormat.Proofs.Validity.FirstFault

namespace ClassFormat

/-!
# The version gate

The version of a class file matters to a single rule: what method handles for static
and special calls may name.  The checks therefore see only on which side of version 52
a version lies, and a newer version allows whatever an older one allows.

* `ReferenceKind.targets_congr` says that versions on one side are alike.
* `Pool.checkLinks_gate`, by induction on the slots, says where the two sides part.
* `ClassFile.validate_gate` puts both together for class files.
-/

/-! ## One rule -/

/-- Two versions on the same side of the gate. -/
def SameSide (major other : UInt16) : Prop :=
  major < interfaceHandleVersion ↔ other < interfaceHandleVersion

/-- The uses whose targets depend on the version. -/
def ReferenceKind.IsGated : ReferenceKind → Prop
  | invokeStatic | invokeSpecial => True
  | _ => False

namespace ReferenceKind

variable {major other : UInt16}

theorem targets_congr (hSide : SameSide major other) (kind : ReferenceKind) :
    kind.targets major = kind.targets other := by
  unfold SameSide at hSide
  cases kind with
  | invokeStatic | invokeSpecial => simp only [targets, hSide]
  | _ => rfl

theorem targets_of_not_gated {kind : ReferenceKind} (hOpen : ¬kind.IsGated) :
    kind.targets major = kind.targets other := by
  cases kind with
  | invokeStatic | invokeSpecial => exact absurd trivial hOpen
  | _ => rfl

theorem targets_old {kind : ReferenceKind} (hGated : kind.IsGated)
    (hOld : major < interfaceHandleVersion) : kind.targets major = [.methodRef] := by
  cases kind with
  | invokeStatic | invokeSpecial => exact if_pos hOld
  | _ => exact hGated.elim

theorem targets_new {kind : ReferenceKind} (hGated : kind.IsGated)
    (hNew : interfaceHandleVersion ≤ major) :
    kind.targets major = [.methodRef, .interfaceMethodRef] := by
  have hNotOld : ¬major < interfaceHandleVersion := UInt16.not_lt.mpr hNew
  cases kind with
  | invokeStatic | invokeSpecial => exact if_neg hNotOld
  | _ => exact hGated.elim

/-- Handles with codes six and seven make the gated uses. -/
theorem isGated_iff {kind : ReferenceKind} :
    kind.IsGated ↔ kind.code = 6 ∨ kind.code = 7 := by
  cases kind <;> simp [IsGated, code]

end ReferenceKind

/-! ## Lists of checks -/

namespace Verdict

variable {α : Type} {check other : α → Verdict}

/-- The first item that does not pass decides. -/
theorem each_of_split {earlier later : List α} {item : α} {fault : Fault}
    (hPass : ∀ passed ∈ earlier, check passed = .ok ())
    (hFault : check item = .error fault) :
    each check (earlier ++ item :: later) = .error fault := by
  induction earlier with
  | nil => simp only [List.nil_append, each, hFault]
  | cons first earlier ih =>
      rw [List.forall_mem_cons] at hPass
      rw [List.cons_append, each, hPass.1]
      exact ih hPass.2

/-- Two checks agree on some items, or there is a first item on which they differ, and
both pass all items before it. -/
theorem each_eq_or_split (check other : α → Verdict) (items : List α) :
    each check items = each other items ∨ ∃ earlier item later,
      items = earlier ++ item :: later ∧
        (∀ passed ∈ earlier, check passed = .ok () ∧ other passed = .ok ()) ∧
        check item ≠ other item := by
  induction items with
  | nil => exact .inl rfl
  | cons item rest ih =>
      -- They differ on this item, both stop at it, or it is passed and the rest decides.
      by_cases hSame : check item = other item
      · cases hItem : check item with
        | error fault =>
            left
            rw [each, each, ← hSame, hItem]
        | ok _ =>
            have hOther : other item = .ok () := hSame.symm.trans hItem
            rcases ih with hRest | ⟨earlier, next, later, rfl, hPass, hDiffer⟩
            · left
              rw [each, each, hItem, hOther]
              exact hRest
            · right
              exact ⟨item :: earlier, next, later, rfl,
                List.forall_mem_cons.mpr ⟨⟨hItem, hOther⟩, hPass⟩, hDiffer⟩
      · right
        exact ⟨[], item, rest, rfl, List.forall_mem_nil _, hSame⟩

end Verdict

/-! ## Pools -/

namespace Pool

variable {pool : Pool} {major other : UInt16}

/-- What is required of an entry that is there is one of the kinds. -/
theorem require_of_resolve {context : String} {index : UInt16} {entry : Entry}
    (hEntry : pool.resolve context index = .ok entry) (expected : List Tag) :
    pool.require context expected index =
      if entry.tag ∈ expected then .ok entry
      else .error (.unexpectedEntry context index expected entry.tag) := by
  rw [require, hEntry]
  by_cases hTag : entry.tag ∈ expected <;> simp [hTag, bind, Except.bind] <;> rfl

/-- An index that may name entries of more kinds is found to be wrong less often, and
where it is, the same is wrong. -/
theorem require_widen (pool : Pool) (context : String) {narrow wide : List Tag}
    (hWiden : narrow ⊆ wide) (index : UInt16) :
    pool.require context narrow index = pool.require context wide index ∨
      ∃ found, found ∉ narrow ∧
        pool.require context narrow index =
          .error (.unexpectedEntry context index narrow found) ∧
        (found ∉ wide → pool.require context wide index =
          .error (.unexpectedEntry context index wide found)) := by
  cases hEntry : pool.resolve context index with
  -- That there is no entry does not depend on what is expected of it.
  | error fault =>
      left
      simp only [require, hEntry]
      rfl
  | ok entry =>
      simp only [require_of_resolve hEntry]
      by_cases hNarrow : entry.tag ∈ narrow
      · left
        rw [if_pos hNarrow, if_pos (hWiden hNarrow)]
      · right
        exact ⟨entry.tag, hNarrow, if_neg hNarrow, fun hWide => if_neg hWide⟩

theorem checkHandle_congr (hSide : SameSide major other) (code : UInt8)
    (reference : UInt16) :
    pool.checkHandle major code reference = pool.checkHandle other code reference := by
  simp only [checkHandle, ReferenceKind.targets_congr hSide]

theorem checkSlot_congr (hSide : SameSide major other) (slot : Slot) :
    pool.checkSlot major slot = pool.checkSlot other slot := by
  cases slot with
  | none => rfl
  | some entry =>
      cases entry with
      | methodHandle code reference => exact checkHandle_congr hSide code reference
      | _ => rfl

theorem checkLinks_congr (hSide : SameSide major other) :
    pool.checkLinks major = pool.checkLinks other := by
  have hSlots : pool.checkSlot major = pool.checkSlot other :=
    funext (checkSlot_congr hSide)
  rw [checkLinks, checkLinks, hSlots]

/-- A handle for a static or special call that names `found`, which an old version does
not allow.  A new version does not allow it either, unless it is an interface method. -/
structure GatedFault (pool : Pool) (major other : UInt16) (code : UInt8)
    (reference : UInt16) (found : Tag) : Prop where
  gated : code = 6 ∨ code = 7
  old : pool.checkHandle major code reference =
    .error (.unexpectedEntry "method handle reference" reference [.methodRef] found)
  new : found ≠ .interfaceMethodRef → pool.checkHandle other code reference =
    .error (.unexpectedEntry "method handle reference" reference
      [.methodRef, .interfaceMethodRef] found)

/-- The two sides of the gate agree on a handle, or the old one refuses what the handle
names. -/
theorem checkHandle_gate (hOld : major < interfaceHandleVersion)
    (hNew : interfaceHandleVersion ≤ other) (code : UInt8) (reference : UInt16) :
    pool.checkHandle major code reference = pool.checkHandle other code reference ∨
      ∃ found, pool.GatedFault major other code reference found := by
  cases hKind : ReferenceKind.ofCode? code with
  | none =>
      left
      simp only [checkHandle, hKind]
  | some kind =>
      by_cases hGated : kind.IsGated
      · have hWiden : [Tag.methodRef] ⊆ [.methodRef, .interfaceMethodRef] := by decide
        have hCode : code = 6 ∨ code = 7 := by
          rw [← ReferenceKind.ofCode?_eq_some_iff.mp hKind]
          exact ReferenceKind.isGated_iff.mp hGated
        have hTargets := ReferenceKind.targets_old hGated hOld
        have hTargets' := ReferenceKind.targets_new hGated hNew
        rcases pool.require_widen "method handle reference" hWiden reference with
          hSame | ⟨found, hFound, hFault, hFault'⟩
        -- Both go on with the same member, and its name is checked without the version.
        · left
          simp only [checkHandle, hKind, hTargets, hTargets', hSame]
        · right
          refine ⟨found, hCode, ?_, fun hOther => ?_⟩
          · simp only [checkHandle, hKind, hTargets, hFault]
            rfl
          · have hNeither : found ∉ [Tag.methodRef, .interfaceMethodRef] := by
              simpa [hOther] using hFound
            simp only [checkHandle, hKind, hTargets', hFault' hNeither]
            rfl
      · left
        have hTargets : kind.targets major = kind.targets other :=
          ReferenceKind.targets_of_not_gated hGated
        simp only [checkHandle, hKind, hTargets]

/-- The two sides of the gate agree on a slot, or it holds a handle of which the old one
refuses what it names. -/
theorem checkSlot_gate (hOld : major < interfaceHandleVersion)
    (hNew : interfaceHandleVersion ≤ other) (slot : Slot) :
    pool.checkSlot major slot = pool.checkSlot other slot ∨
      ∃ code reference found, slot = some (.methodHandle code reference) ∧
        pool.GatedFault major other code reference found := by
  rcases slot with _ | entry
  · exact .inl rfl
  · cases entry with
    | methodHandle code reference =>
        rcases checkHandle_gate hOld hNew code reference with hSame | ⟨found, hFault⟩
        · exact .inl hSame
        · exact .inr ⟨code, reference, found, rfl, hFault⟩
    | _ => exact .inl rfl

/-- The two sides of the gate agree on a pool, or they agree up to a slot with a handle
of which the old one refuses what it names. -/
theorem checkLinks_gate (hOld : major < interfaceHandleVersion)
    (hNew : interfaceHandleVersion ≤ other) :
    pool.checkLinks major = pool.checkLinks other ∨
      ∃ earlier code reference found later,
        pool.slots.toList = earlier ++ some (.methodHandle code reference) :: later ∧
        (∀ slot ∈ earlier, pool.checkSlot major slot = .ok () ∧
          pool.checkSlot other slot = .ok ()) ∧
        pool.GatedFault major other code reference found := by
  rcases Verdict.each_eq_or_split (pool.checkSlot major) (pool.checkSlot other)
    pool.slots.toList with hSame | ⟨earlier, slot, later, hSlots, hPass, hDiffer⟩
  · exact .inl hSame
  · obtain ⟨code, reference, found, rfl, hFault⟩ :=
      (checkSlot_gate hOld hNew slot).resolve_left hDiffer
    exact .inr ⟨earlier, code, reference, found, later, hSlots, hPass, hFault⟩

end Pool

/-! ## Class files -/

namespace ClassFile

variable {file : ClassFile} {major other : UInt16}

theorem validate_eq_of_checkLinks (file : ClassFile)
    (hLinks : file.pool.checkLinks major = file.pool.checkLinks other) :
    file.validate major = file.validate other := by
  rw [validate_eq_bind, validate_eq_bind, hLinks]

/-- A slot that is refused decides when all slots before it pass. -/
theorem validate_of_split {file : ClassFile} {earlier later : List Slot} {slot : Slot}
    {fault : Fault} (hSlots : file.pool.slots.toList = earlier ++ slot :: later)
    (hPass : ∀ passed ∈ earlier, file.pool.checkSlot major passed = .ok ())
    (hFault : file.pool.checkSlot major slot = .error fault) :
    file.validate major = .error fault := by
  have hLinks : file.pool.checkLinks major = .error fault := by
    rw [Pool.checkLinks, hSlots]
    exact Verdict.each_of_split hPass hFault
  rw [validate_eq_bind, hLinks]
  rfl

/-- Versions on one side of the gate are alike.  Across the gate a class file that passes
under the old version passes under the new one, and the results differ only where the
first check that fails under the old version is that of what a handle for a static or
special call names.  Unless that is an interface method, the new version finds the same
but for the kinds that it expects. -/
theorem validate_gate (file : ClassFile) (major other : UInt16) :
    ((major < 52 ↔ other < 52) → file.validate major = file.validate other) ∧
    (major < 52 → 52 ≤ other →
      (file.validate major = .ok () → file.validate other = .ok ()) ∧
      (file.validate major ≠ file.validate other →
        ∃ earlier code reference found later,
          file.pool.slots.toList =
            earlier ++ some (.methodHandle code reference) :: later ∧
          (code = 6 ∨ code = 7) ∧
          (∀ slot ∈ earlier, file.pool.checkSlot major slot = .ok ()) ∧
          file.pool.checkHandle major code reference = .error
            (.unexpectedEntry "method handle reference" reference [.methodRef] found) ∧
          file.validate major = .error
            (.unexpectedEntry "method handle reference" reference [.methodRef] found) ∧
          (found ≠ .interfaceMethodRef → file.validate other = .error
            (.unexpectedEntry "method handle reference" reference
              [.methodRef, .interfaceMethodRef] found)))) := by
  refine ⟨fun hSide => validate_eq_of_checkLinks file (Pool.checkLinks_congr hSide),
    fun hOld hNew => ?_⟩
  rcases file.pool.checkLinks_gate hOld hNew with
    hLinks | ⟨earlier, code, reference, found, later, hSlots, hPass, hFault⟩
  · have hSame := validate_eq_of_checkLinks file hLinks
    exact ⟨fun hPasses => hSame ▸ hPasses, fun hDiffer => absurd hSame hDiffer⟩
  · have hRefused := validate_of_split hSlots (fun slot hSlot => (hPass slot hSlot).1)
      hFault.old
    refine ⟨fun hPasses => ?_, fun _ => ⟨earlier, code, reference, found, later, hSlots,
      hFault.gated, fun slot hSlot => (hPass slot hSlot).1, hFault.old, hRefused, ?_⟩⟩
    · rw [hRefused] at hPasses
      cases hPasses
    · intro hOther
      exact validate_of_split hSlots (fun slot hSlot => (hPass slot hSlot).2)
        (hFault.new hOther)

/-- A class whose pool has a handle for a static call of a member of the kind. -/
def staticHandleClass (kind : MemberRefKind) : ClassFile where
  minor := 0
  major := 52
  pool := ⟨#[some (.methodHandle 6 2), some (.memberRef kind 3 5),
    some (.textRef .classRef 4), some (.utf8 "run"), some (.nameAndType 4 4)]⟩
  flags := ⟨0⟩
  thisClass := 3
  superClass := 0
  interfaces := []
  fields := []
  methods := []
  attributes := []

/-- A handle of a method is allowed on both sides of the gate, a handle of a field on
neither, and a handle of an interface method is where the two sides part. -/
theorem validate_gate_staticHandle :
    (staticHandleClass .interfaceMethod).validate 45 =
        (staticHandleClass .interfaceMethod).validate 51 ∧
      (∃ earlier later, (staticHandleClass .interfaceMethod).pool.slots.toList =
          earlier ++ some (.methodHandle 6 2) :: later ∧
        ∀ slot ∈ earlier,
          (staticHandleClass .interfaceMethod).pool.checkSlot 51 slot = .ok ()) ∧
      (staticHandleClass .method).validate 52 = .ok () ∧
      (staticHandleClass .field).validate 52 = .error
        (.unexpectedEntry "method handle reference" 2
          [.methodRef, .interfaceMethodRef] .fieldRef) := by
  have hOld : (51 : UInt16) < 52 := by decide
  have hNew : (52 : UInt16) ≤ 52 := by decide
  have hMethod : (staticHandleClass .method).validate 51 = .ok () := by decide
  refine ⟨(validate_gate _ 45 51).1 (by decide), ?_,
    ((validate_gate _ 51 52).2 hOld hNew).1 hMethod, ?_⟩
  · have hDiffer : (staticHandleClass .interfaceMethod).validate 51 ≠
        (staticHandleClass .interfaceMethod).validate 52 := by decide
    obtain ⟨earlier, code, reference, _, later, hSlots, hCode, hPass, -⟩ :=
      ((validate_gate _ 51 52).2 hOld hNew).2 hDiffer
    -- There is only one handle in the pool.
    have hHandle : some (.methodHandle code reference) ∈
        (staticHandleClass .interfaceMethod).pool.slots.toList := by
      rw [hSlots]
      exact List.mem_append_right _ List.mem_cons_self
    obtain ⟨rfl, rfl⟩ : code = 6 ∧ reference = 2 := by
      simpa [staticHandleClass] using hHandle
    exact ⟨earlier, later, hSlots, hPass⟩
  · have hDiffer : (staticHandleClass .field).validate 51 ≠
        (staticHandleClass .field).validate 52 := by decide
    have hFound : (staticHandleClass .field).validate 51 = .error
        (.unexpectedEntry "method handle reference" 2 [.methodRef] .fieldRef) := by decide
    obtain ⟨_, _, _, _, _, _, _, _, _, hFault, hRefused⟩ :=
      ((validate_gate _ 51 52).2 hOld hNew).2 hDiffer
    rw [hFound] at hFault
    cases hFault
    exact hRefused (by decide)

end ClassFile

end ClassFormat
