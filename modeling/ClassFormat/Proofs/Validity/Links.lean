import Mathlib
import ClassFormat.Proofs.Validity.Checks

namespace ClassFormat

/-!
# Linked pools

A pool is linked under a major version when every entry refers to entries of the
right kind.  The rule of a method handle goes through three entries: the member
that it refers to, the name and type of that member, and the name.  None of them
need have been looked at before, and the references may go round in circles.

* `Pool.checkEntry_eq_ok_iff` says that the check of an entry decides its rule.
* `Pool.checkLinks_eq_ok_iff` says that the pools that pass are the linked ones.
-/

/-! ## The rules -/

/-- The kinds of member that the handles of a code may refer to. -/
def handleTargets (major : UInt16) : (code : UInt8) → List Tag
  | 1 | 2 | 3 | 4 => [.fieldRef]
  | 5 | 8 => [.methodRef]
  | 6 | 7 =>
      if 52 ≤ major then [.methodRef, .interfaceMethodRef] else [.methodRef]
  | 9 => [.interfaceMethodRef]
  | _ => []

/-- Handles with code eight create an object and call `<init>`; the others call
neither it nor `<clinit>`. -/
def CallsAllowedName (code : UInt8) (name : String) : Prop :=
  if code = 8 then name = "<init>" else name ≠ "<init>" ∧ name ≠ "<clinit>"

namespace Pool

/-- The index names a member, its name and type, and thereby the name of the
member. -/
def NamesMember (pool : Pool) (reference : UInt16) (name : String) : Prop :=
  ∃ kind owner nameAndType index descriptor,
    pool.get? reference = some (some (.memberRef kind owner nameAndType)) ∧
    pool.get? nameAndType = some (some (.nameAndType index descriptor)) ∧
    pool.get? index = some (some (.utf8 name))

/-- The rule of a method handle under a major version.  The codes from five on call
a method. -/
structure HandleIsLinked (pool : Pool) (major : UInt16) (code : UInt8)
    (reference : UInt16) : Prop where
  known : 1 ≤ code ∧ code ≤ 9
  target : pool.Names (handleTargets major code) reference
  name : 5 ≤ code →
    ∃ name, pool.NamesMember reference name ∧ CallsAllowedName code name

end Pool

/-- The references of an entry name entries of the right kinds. -/
def Entry.IsLinked (pool : Pool) (major : UInt16) : Entry → Prop
  | utf8 _ | integer _ | float _ | long _ | double _ => True
  | textRef _ text => pool.Names [.utf8] text
  | memberRef _ owner nameType =>
      pool.Names [.classRef] owner ∧ pool.Names [.nameAndType] nameType
  | nameAndType name descriptor =>
      pool.Names [.utf8] name ∧ pool.Names [.utf8] descriptor
  | methodHandle code reference => pool.HandleIsLinked major code reference
  | dynamic _ _ nameType => pool.Names [.nameAndType] nameType

/-- The references of all entries name entries of the right kinds. -/
def Pool.IsLinked (pool : Pool) (major : UInt16) : Prop :=
  ∀ entry, some entry ∈ pool.slots → entry.IsLinked pool major

/-! ## Method handles -/

/-- A lookup and a step that goes on with what is found succeed when both do. -/
theorem Verdict.lookup_eq_ok_iff {α β : Type} {lookup : Except Fault α}
    {next : α → Except Fault β} {b : β} :
    (lookup >>= next) = .ok b ↔ ∃ a, lookup = .ok a ∧ next a = .ok b := by
  cases lookup <;> simp [bind, Except.bind]

namespace ReferenceKind

/-- The codes from one to nine select the uses. -/
theorem ofCode?_eq_none_iff {code : UInt8} :
    ofCode? code = none ↔ ¬(1 ≤ code ∧ code ≤ 9) := by
  simp only [ofCode?, List.find?_eq_none, all, List.forall_mem_cons, beq_iff_eq,
    ReferenceKind.code, ← UInt8.toNat_inj, UInt8.le_iff_toNat_le]
  simp
  omega

/-- The table of the checks agrees with that of the rules. -/
theorem targets_eq (major : UInt16) (kind : ReferenceKind) :
    kind.targets major = handleTargets major kind.code := by
  cases kind with
  | invokeStatic | invokeSpecial =>
      -- The checks ask for an old version, the rules for a new one.
      by_cases hOld : major < 52
      · exact (if_pos hOld).trans (if_neg (UInt16.not_le.mpr hOld)).symm
      · exact (if_neg hOld).trans (if_pos (UInt16.not_lt.mp hOld)).symm
  | _ => rfl

/-- The uses that call a method are those with codes from five on. -/
theorem isInvoke_iff {kind : ReferenceKind} : kind.isInvoke ↔ 5 ≤ kind.code := by
  cases kind <;> decide

theorem checkName_eq_ok_iff {kind : ReferenceKind} {name : String} :
    kind.checkName name = .ok () ↔ CallsAllowedName kind.code name := by
  have hCreates : kind = newInvokeSpecial ↔ kind.code = 8 := by
    cases kind <;> decide
  unfold checkName CallsAllowedName constructorName initializerName
  simp only [hCreates]
  by_cases hCode : kind.code = 8
  · by_cases hName : name = "<init>" <;> simp [hCode, hName]
  · simp [hCode]

end ReferenceKind

/-- Whatever a handle may refer to is a member. -/
theorem Entry.exists_memberRef {major : UInt16} {code : UInt8} {entry : Entry}
    (hTag : entry.tag ∈ handleTargets major code) :
    ∃ kind owner nameType, entry = .memberRef kind owner nameType := by
  have hMember : entry.tag = .fieldRef ∨ entry.tag = .methodRef ∨
      entry.tag = .interfaceMethodRef := by
    unfold handleTargets at hTag
    split at hTag <;> (try split at hTag) <;> simp_all
  cases entry with
  | memberRef kind owner nameType => exact ⟨kind, owner, nameType, rfl⟩
  | textRef kind text => cases kind <;> simp [tag, TextRefKind.tag] at hMember
  | dynamic kind bootstrap nameType => cases kind <;> simp [tag, DynamicKind.tag] at hMember
  | _ => simp [tag] at hMember

namespace Pool

variable {pool : Pool} {major : UInt16}

theorem calledName_eq_ok_iff {nameAndType : UInt16} {name : String} :
    pool.calledName nameAndType = .ok name ↔ ∃ index descriptor,
      pool.get? nameAndType = some (some (.nameAndType index descriptor)) ∧
        pool.get? index = some (some (.utf8 name)) := by
  simp only [calledName, Verdict.lookup_eq_ok_iff, resolve_eq_ok_iff]
  constructor
  · intro hCalled
    obtain ⟨entry, hEntry, hName⟩ := hCalled
    cases entry with
    | nameAndType index descriptor =>
        exact ⟨index, descriptor, hEntry, text_eq_ok_iff.mp hName⟩
    | _ => cases hName
  · intro hNamed
    obtain ⟨index, descriptor, hEntry, hName⟩ := hNamed
    exact ⟨.nameAndType index descriptor, hEntry, text_eq_ok_iff.mpr hName⟩

/-- What is checked of the member that a handle refers to. -/
theorem checkCalled_eq_ok_iff {kind : ReferenceKind} {memberKind : MemberRefKind}
    {reference owner nameAndType : UInt16}
    (hMember : pool.get? reference =
      some (some (.memberRef memberKind owner nameAndType))) :
    (pool.calledName nameAndType >>= kind.checkName) = .ok () ↔
      ∃ name, pool.NamesMember reference name ∧ CallsAllowedName kind.code name := by
  simp only [Verdict.lookup_eq_ok_iff, calledName_eq_ok_iff,
    ReferenceKind.checkName_eq_ok_iff, NamesMember]
  constructor
  · intro hCalled
    obtain ⟨name, ⟨index, descriptor, hType, hName⟩, hAllowed⟩ := hCalled
    exact ⟨name, ⟨memberKind, owner, nameAndType, index, descriptor, hMember, hType,
      hName⟩, hAllowed⟩
  · intro hNamed
    obtain ⟨name, ⟨_, _, _, index, descriptor, hSame, hType, hName⟩, hAllowed⟩ := hNamed
    -- The reference leads to one member only.
    obtain ⟨-, -, rfl⟩ := Entry.memberRef.inj
      (Option.some.inj (Option.some.inj (hMember.symm.trans hSame)))
    exact ⟨name, ⟨index, descriptor, hType, hName⟩, hAllowed⟩

/-- The check of a method handle decides its rule. -/
theorem checkHandle_eq_ok_iff {code : UInt8} {reference : UInt16} :
    pool.checkHandle major code reference = .ok () ↔
      pool.HandleIsLinked major code reference := by
  unfold checkHandle
  cases hKind : ReferenceKind.ofCode? code with
  | none =>
      have hUnknown := ReferenceKind.ofCode?_eq_none_iff.mp hKind
      simp only [reduceCtorEq, false_iff]
      exact fun hLinked => hUnknown hLinked.known
  | some kind =>
      have hKnown : 1 ≤ code ∧ code ≤ 9 := by
        by_contra hUnknown
        rw [ReferenceKind.ofCode?_eq_none_iff.mpr hUnknown] at hKind
        cases hKind
      obtain rfl := ReferenceKind.ofCode?_eq_some_iff.mp hKind
      simp only [Verdict.lookup_eq_ok_iff, require_eq_ok_iff,
        ReferenceKind.targets_eq]
      constructor
      · intro hPasses
        obtain ⟨entry, ⟨hEntry, hTag⟩, hCalled⟩ := hPasses
        refine ⟨hKnown, ⟨entry, hEntry, hTag⟩, fun hInvoke => ?_⟩
        obtain ⟨memberKind, owner, nameAndType, rfl⟩ := Entry.exists_memberRef hTag
        rw [← ReferenceKind.isInvoke_iff] at hInvoke
        simp only [hInvoke, if_true] at hCalled
        exact (checkCalled_eq_ok_iff hEntry).mp hCalled
      · intro hLinked
        obtain ⟨-, ⟨entry, hEntry, hTag⟩, hName⟩ := hLinked
        refine ⟨entry, ⟨hEntry, hTag⟩, ?_⟩
        obtain ⟨memberKind, owner, nameAndType, rfl⟩ := Entry.exists_memberRef hTag
        by_cases hInvoke : kind.isInvoke
        · simp only [hInvoke, if_true]
          exact (checkCalled_eq_ok_iff hEntry).mpr
            (hName (ReferenceKind.isInvoke_iff.mp hInvoke))
        · simp only [hInvoke]
          rfl

/-- The check of an entry decides the rule of the entry. -/
theorem checkEntry_eq_ok_iff {entry : Entry} :
    pool.checkEntry major entry = .ok () ↔ entry.IsLinked pool major := by
  cases entry with
  | memberRef kind owner nameType => simp [checkEntry, Entry.IsLinked]
  | nameAndType name descriptor => simp [checkEntry, Entry.IsLinked]
  | textRef kind text => exact check_eq_ok_iff
  | dynamic kind bootstrap nameType => exact check_eq_ok_iff
  | methodHandle code reference => exact checkHandle_eq_ok_iff
  | _ => simp [checkEntry, Entry.IsLinked]

/-! ## Pools -/

/-- The check of all slots decides the rules of all entries. -/
theorem passes_iff_isLinked (pool : Pool) (major : UInt16) :
    pool.checkLinks major = .ok () ↔ pool.IsLinked major := by
  unfold checkLinks IsLinked
  simp only [Verdict.each_eq_ok_iff, Array.mem_toList_iff]
  constructor
  · intro hSlots entry hEntry
    exact checkEntry_eq_ok_iff.mp (hSlots (some entry) hEntry)
  · intro hEntries slot hSlot
    cases slot with
    | none => rfl
    | some entry => exact checkEntry_eq_ok_iff.mpr (hEntries entry hSlot)

/-- The pools that pass under a version are the linked ones.  So none passes whose
handles call methods with names that are missing or not allowed. -/
theorem checkLinks_eq_ok_iff (pool : Pool) (major : UInt16) :
    (pool.checkLinks major = .ok () ↔ pool.IsLinked major) ∧
    (pool.checkLinks major = .ok () → ∀ code reference,
      some (.methodHandle code reference) ∈ pool.slots → 5 ≤ code →
        ∃ name, pool.NamesMember reference name ∧ CallsAllowedName code name) := by
  refine ⟨passes_iff_isLinked pool major, fun hPasses code reference hHandle hInvoke => ?_⟩
  have hLinked := (passes_iff_isLinked pool major).mp hPasses _ hHandle
  exact hLinked.name hInvoke

/-- A pool with handles in front of everything that they lead to.  The second one
statically calls an interface method. -/
def handlePool : Pool where
  slots := #[some (.methodHandle 8 3), some (.methodHandle 6 4),
    some (.memberRef .method 5 6), some (.memberRef .interfaceMethod 5 7),
    some (.textRef .classRef 8), some (.nameAndType 9 8), some (.nameAndType 8 9),
    some (.utf8 "run"), some (.utf8 "<init>"), some (.long 0), none,
    some (.dynamic .callSite 0xffff 7)]

theorem checkLinks_handlePool :
    handlePool.IsLinked 52 ∧ ¬handlePool.IsLinked 51 ∧
      ∃ name, handlePool.NamesMember 4 name ∧ CallsAllowedName 6 name := by
  have hPasses : handlePool.checkLinks 52 = .ok () := by decide
  have hFails : handlePool.checkLinks 51 ≠ .ok () := by decide
  refine ⟨(checkLinks_eq_ok_iff handlePool 52).1.mp hPasses, fun hLinked => ?_, ?_⟩
  · exact hFails ((checkLinks_eq_ok_iff handlePool 51).1.mpr hLinked)
  · exact (checkLinks_eq_ok_iff handlePool 52).2 hPasses 6 4 (by simp [handlePool])
      (by decide)

end Pool

end ClassFormat
