import Mathlib
import ClassFormat.Proofs.Lookups
import ClassFormat.Proofs.NestingLimit
import ClassFormat.Proofs.Validity.Origins

namespace ClassFormat

/-!
# Pools that grow

Slots that are put behind the last slot of a pool change what the indices behind it
mean, and nothing else.  So a lookup or a check with an outcome that is not the fault
of such an index has the same outcome in the longer pool.  Steps one after the other
take over this property from their parts, step by step.

* `Pool.keeps_resolve` says so of a single lookup.
* `Pool.append_verdicts` says so of attributes, of members and of the links of the
  pool itself.
-/

namespace Verdict

variable {α : Type} (check : α → Verdict)

theorem each_cons (item : α) (rest : List α) :
    each check (item :: rest) = check item >>= fun _ => each check rest := by
  rw [each]
  cases check item <;> rfl

theorem each_append (items rest : List α) :
    each check (items ++ rest) = each check items >>= fun _ => each check rest := by
  induction items with
  | nil => rfl
  | cons item items ih =>
      rw [List.cons_append, each_cons, each_cons, ih]
      cases check item <;> rfl

end Verdict

namespace Pool

/-- The pool with more slots behind its last one. -/
def append (pool : Pool) (added : Array Slot) : Pool := ⟨pool.slots ++ added⟩

variable {α β : Type} {pool : Pool} {added : Array Slot}

/-- No index behind the last slot is to blame for the outcome. -/
def Settled (pool : Pool) (outcome : Except Fault α) : Prop :=
  ∀ context index, outcome = .error (.indexOutOfRange context index) →
    index.toNat ≤ pool.slots.size

/-- The later outcome is the same, unless an index behind the last slot is to blame. -/
def Keeps (pool : Pool) (outcome later : Except Fault α) : Prop :=
  pool.Settled outcome → later = outcome

/-! ## Steps -/

theorem Keeps.refl (outcome : Except Fault α) : pool.Keeps outcome outcome :=
  fun _ => rfl

theorem settled_ok (a : α) : pool.Settled (.ok a) := by
  intro context index hOutcome
  cases hOutcome

/-- The second step is taken with the same result in both pools. -/
theorem Keeps.bind {outcome later : Except Fault α} {next next' : α → Except Fault β}
    (hFirst : pool.Keeps outcome later)
    (hNext : ∀ a, outcome = .ok a → pool.Keeps (next a) (next' a)) :
    pool.Keeps (outcome >>= next) (later >>= next') := by
  intro hSettled
  cases outcome with
  | error fault =>
      have hSame : later = .error fault := hFirst fun context index hFault =>
        hSettled context index (by rw [Except.error.inj hFault]; rfl)
      rw [hSame]
      rfl
  | ok a =>
      rw [hFirst (settled_ok a)]
      exact hNext a rfl hSettled

theorem Keeps.map {outcome later : Except Fault α} (f : α → β)
    (hKeeps : pool.Keeps outcome later) : pool.Keeps (outcome.map f) (later.map f) := by
  have hMap (x : Except Fault α) : x.map f = x >>= fun a => .ok (f a) := by
    cases x <;> rfl
  rw [hMap, hMap]
  exact hKeeps.bind fun _ _ => .refl _

/-- The items of a list are checked one after another. -/
theorem Keeps.each {check later : α → Verdict} {items : List α}
    (hItem : ∀ item ∈ items, pool.Keeps (check item) (later item)) :
    pool.Keeps (Verdict.each check items) (Verdict.each later items) := by
  induction items with
  | nil => exact .refl _
  | cons item rest ih =>
      rw [List.forall_mem_cons] at hItem
      rw [Verdict.each_cons, Verdict.each_cons]
      exact hItem.1.bind fun _ _ => ih hItem.2

/-! ## Lookups -/

/-- The slots that were there are still there. -/
theorem get?_append {index : UInt16} (hIndex : index.toNat ≤ pool.slots.size) :
    (pool.append added).get? index = pool.get? index := by
  unfold get? append
  by_cases hZero : index = 0
  · rw [if_pos hZero, if_pos hZero]
  · have hPositive : index.toNat ≠ 0 := fun hNat => hZero (UInt16.toNat_inj.mp hNat)
    rw [if_neg hZero, if_neg hZero]
    exact Array.getElem?_append_left (by omega)

theorem keeps_resolve (context : String) (index : UInt16) :
    pool.Keeps (pool.resolve context index) ((pool.append added).resolve context index) := by
  intro hSettled
  have hIndex : index.toNat ≤ pool.slots.size := by
    by_contra hBehind
    -- An index behind the last slot would be to blame.
    have hNone : pool.get? index = none :=
      get?_eq_none_iff.mpr (.inr (Nat.lt_of_not_le hBehind))
    exact hBehind (hSettled context index (by rw [resolve, hNone]))
  unfold resolve
  rw [get?_append hIndex]

theorem keeps_require (context : String) (expected : List Tag) (index : UInt16) :
    pool.Keeps (pool.require context expected index)
      ((pool.append added).require context expected index) :=
  (keeps_resolve context index).bind fun _ _ => .refl _

theorem keeps_text (context : String) (index : UInt16) :
    pool.Keeps (pool.text context index) ((pool.append added).text context index) :=
  (keeps_resolve context index).bind fun _ _ => .refl _

theorem keeps_checkUsable (context : String) (index : UInt16) :
    pool.Keeps (pool.checkUsable context index)
      ((pool.append added).checkUsable context index) :=
  (keeps_resolve context index).bind fun _ _ => .refl _

theorem keeps_check (context : String) (expected : List Tag) (index : UInt16) :
    pool.Keeps (pool.check context expected index)
      ((pool.append added).check context expected index) :=
  (keeps_require context expected index).bind fun _ _ => .refl _

theorem keeps_checkOptional (context : String) (expected : List Tag) (index : UInt16) :
    pool.Keeps (pool.checkOptional context expected index)
      ((pool.append added).checkOptional context expected index) := by
  unfold checkOptional requireOptional
  by_cases hZero : index = 0
  · rw [if_pos hZero, if_pos hZero]
    exact .refl _
  · rw [if_neg hZero, if_neg hZero]
    exact ((keeps_require context expected index).map some).bind fun _ _ => .refl _

/-! ## The links of the pool -/

theorem keeps_calledName (nameAndType : UInt16) :
    pool.Keeps (pool.calledName nameAndType)
      ((pool.append added).calledName nameAndType) := by
  refine (keeps_resolve _ nameAndType).bind fun entry _ => ?_
  cases entry with
  | nameAndType name descriptor => exact keeps_text _ name
  | _ => exact .refl _

/-- Every hop from a handle to the name of the member keeps its outcome. -/
theorem keeps_checkHandle (major : UInt16) (code : UInt8) (reference : UInt16) :
    pool.Keeps (pool.checkHandle major code reference)
      ((pool.append added).checkHandle major code reference) := by
  unfold checkHandle
  cases ReferenceKind.ofCode? code with
  | none => exact .refl _
  | some kind =>
      refine (keeps_require _ _ reference).bind fun entry _ => ?_
      cases entry with
      | memberRef memberKind owner nameAndType =>
          by_cases hInvoke : kind.isInvoke
          · simp only [hInvoke, if_true]
            exact (keeps_calledName nameAndType).bind fun _ _ => .refl _
          · simp only [hInvoke]
            exact .refl _
      | _ => exact .refl _

theorem keeps_checkSlot (major : UInt16) (slot : Slot) :
    pool.Keeps (pool.checkSlot major slot) ((pool.append added).checkSlot major slot) := by
  rcases slot with _ | entry
  · exact .refl _
  · cases entry with
    | textRef kind text => exact keeps_check _ _ text
    | memberRef kind owner nameAndType =>
        exact (keeps_check _ _ owner).bind fun _ _ => keeps_check _ _ nameAndType
    | nameAndType name descriptor =>
        exact (keeps_check _ _ name).bind fun _ _ => keeps_check _ _ descriptor
    | methodHandle code reference => exact keeps_checkHandle major code reference
    | dynamic kind bootstrap nameAndType => exact keeps_check _ _ nameAndType
    | _ => exact .refl _

/-- The old slots come first, and what they find is what they found. -/
theorem keeps_oldSlots (pool : Pool) (added : Array Slot) (major : UInt16) :
    pool.Keeps (pool.checkLinks major)
      (Verdict.each ((pool.append added).checkSlot major) pool.slots.toList) :=
  Keeps.each fun slot _ => keeps_checkSlot major slot

theorem checkLinks_append (pool : Pool) (added : Array Slot) (major : UInt16) :
    (pool.append added).checkLinks major =
      Verdict.each ((pool.append added).checkSlot major) pool.slots.toList >>= fun _ =>
        Verdict.each ((pool.append added).checkSlot major) added.toList := by
  have hSlots : (pool.append added).slots.toList = pool.slots.toList ++ added.toList :=
    Array.toList_append
  rw [checkLinks, hSlots, Verdict.each_append]

end Pool

/-! ## Lists of checks -/

namespace Check

variable {pool : Pool} {added : Array Slot}

/-- What the checks find is kept when the pool grows. -/
def Kept (pool : Pool) (added : Array Slot) (checks : List Check) : Prop :=
  pool.Keeps (verdict pool checks) (verdict (pool.append added) checks)

theorem Kept.append {checks rest : List Check} (hChecks : Kept pool added checks)
    (hRest : Kept pool added rest) : Kept pool added (checks ++ rest) := by
  unfold Kept
  rw [verdict_append, verdict_append]
  exact hChecks.bind fun _ _ => hRest

theorem IsPlain.ne_marker {check : Check} (hPlain : check.IsPlain) (name : UInt16)
    (length : UInt32) : check ≠ .marker name length := by
  rintro rfl
  exact hPlain

/-- A single check is kept.  A marker is left out, as its fault tells the name that the
check before it has found. -/
theorem Kept.singleton {check : Check} (hOther : ∀ name length, check ≠ .marker name length) :
    Kept pool added [check] := by
  unfold Kept
  cases check with
  | usable context index =>
      rw [← Pool.checkUsable_eq_verdict, ← Pool.checkUsable_eq_verdict]
      exact Pool.keeps_checkUsable context index
  | names context expected index =>
      rw [← Pool.check_eq_verdict, ← Pool.check_eq_verdict]
      exact Pool.keeps_check context expected index
  | namesOrZero context expected index =>
      rw [← Pool.checkOptional_eq_verdict, ← Pool.checkOptional_eq_verdict]
      exact Pool.keeps_checkOptional context expected index
  | marker name length => exact absurd rfl (hOther name length)
  | _ => exact .refl _

theorem Kept.of_unmarked {checks : List Check}
    (hOther : ∀ check ∈ checks, ∀ name length, check ≠ .marker name length) :
    Kept pool added checks := by
  induction checks with
  | nil => exact .refl _
  | cons check rest ih =>
      rw [List.forall_mem_cons] at hOther
      exact (Kept.singleton hOther.1).append (ih hOther.2)

theorem Kept.of_plain {checks : List Check} (hPlain : ∀ check ∈ checks, check.IsPlain) :
    Kept pool added checks :=
  .of_unmarked fun check hCheck => (hPlain check hCheck).ne_marker

theorem Kept.names {context : String} {expected : List Tag} {index : UInt16} :
    Kept pool added [.names context expected index] :=
  .singleton (IsPlain.ne_marker (by trivial))

theorem Kept.nested {checks : List Check} (number : Nat) (hChecks : Kept pool added checks) :
    Kept pool added (.level number :: checks) :=
  (Kept.singleton (IsPlain.ne_marker (by trivial))).append hChecks

/-- Behind the check of its name, a marker has the same name in both pools. -/
theorem Kept.marker (name : UInt16) (length : UInt32) :
    Kept pool added [.names "attribute name" [.utf8] name, .marker name length] := by
  have hText (pool : Pool) :
      verdict pool [.names "attribute name" [.utf8] name, .marker name length] =
        pool.text "attribute name" name >>= fun content => checkMarker content length :=
    (Pool.text_bind_eq_verdict fun _ hContent =>
      checkMarker_eq_verdict hContent length).symm
  unfold Kept
  rw [hText, hText]
  exact (Pool.keeps_text _ name).bind fun _ _ => .refl _

theorem Kept.flatMap {α : Type} {checks : α → List Check}
    (hItem : ∀ item, Kept pool added (checks item)) (items : List α) :
    Kept pool added (items.flatMap checks) := by
  induction items with
  | nil => exact .refl _
  | cons item rest ih => exact (hItem item).append ih

end Check

open Check

section

variable (pool : Pool) (added : Array Slot)

mutual

theorem Attribute.kept_checks (level : Nat) :
    (attr : Attribute) → Kept pool added (attr.checks level)
  | ⟨name, length, payload⟩ => payload.kept_checks level name length

theorem Attribute.kept_checksAll (level : Nat) :
    (attributes : List Attribute) →
      Kept pool added (Attribute.checksAll level attributes)
  | [] => .refl _
  | attr :: rest =>
      (attr.kept_checks level).append (Attribute.kept_checksAll level rest)

/-- The checks of a payload are kept behind the check of the name. -/
theorem Payload.kept_checks (level : Nat) (name : UInt16) (length : UInt32)
    (payload : Payload) :
    Kept pool added
      (.names "attribute name" [.utf8] name :: payload.checks level name length) := by
  by_cases hPlain : payload.IsPlain
  · exact Kept.names.append (.of_plain (Payload.isPlain_checks level name length hPlain))
  cases payload with
  | marker kind => exact .marker name length
  | code body => exact Kept.names.append (body.kept_checks level)
  | record components =>
      exact Kept.names.append (RecordComponent.kept_checksAll level components)
  | _ => exact absurd trivial hPlain

theorem Code.kept_checks (level : Nat) :
    (body : Code) → Kept pool added (body.checks level)
  | ⟨_, _, instructions, handlers, attributes⟩ => by
      have hHandler (handler : ExceptionHandler) :
          Kept pool added (handler.checks instructions.length) :=
        .of_unmarked (by simp [ExceptionHandler.checks])
      exact (Kept.flatMap hHandler handlers).append
        (.nested (level + 1) (Attribute.kept_checksAll (level + 1) attributes))

theorem RecordComponent.kept_checks (level : Nat) :
    (component : RecordComponent) → Kept pool added (component.checks level)
  | ⟨_, _, attributes⟩ =>
      Kept.names.append (Kept.names.append
        (.nested (level + 1) (Attribute.kept_checksAll (level + 1) attributes)))

theorem RecordComponent.kept_checksAll (level : Nat) :
    (components : List RecordComponent) →
      Kept pool added (RecordComponent.checksAll level components)
  | [] => .refl _
  | component :: rest =>
      (component.kept_checks level).append (RecordComponent.kept_checksAll level rest)

end

theorem Member.kept_checks (member : Member) : Kept pool added member.checks :=
  Kept.names.append (Kept.names.append
    (Attribute.kept_checksAll pool added 0 member.attributes))

end

/-! ## Verdicts -/

namespace Pool

/-- What a new validator finds in a field or a method. -/
def validateMember (pool : Pool) (major : UInt16) (member : Member) : Verdict :=
  (Validator.perform { pool, major } (.member member)).1

theorem validateMember_eq_verdict {pool : Pool} {major : UInt16} {member : Member} :
    pool.validateMember major member = verdict pool member.checks :=
  congrArg Prod.fst (member.check_follows pool)

/-- When a pool grows, a verdict about attributes or about a member stays as it is,
unless an index behind the last slot is to blame for it.  So does a fault in the links
of the pool, and if they are in order, the longer pool is in order exactly when the
links of the new slots are. -/
theorem append_verdicts (pool : Pool) (added : Array Slot) (major : UInt16) :
    (∀ attributes, pool.Settled (pool.validateAttributes major attributes) →
      (pool.append added).validateAttributes major attributes =
        pool.validateAttributes major attributes) ∧
    (∀ member, pool.Settled (pool.validateMember major member) →
      (pool.append added).validateMember major member =
        pool.validateMember major member) ∧
    (∀ fault, pool.checkLinks major = .error fault →
      pool.Settled (pool.checkLinks major) →
      (pool.append added).checkLinks major = .error fault) ∧
    (pool.checkLinks major = .ok () →
      ((pool.append added).checkLinks major = .ok () ↔
        ∀ slot ∈ added, (pool.append added).checkSlot major slot = .ok ())) := by
  have hOld := keeps_oldSlots pool added major
  refine ⟨fun attributes hSettled => ?_, fun member hSettled => ?_,
    fun fault hFault hSettled => ?_, fun hPasses => ?_⟩
  · rw [validateAttributes_eq_verdict] at hSettled
    rw [validateAttributes_eq_verdict, validateAttributes_eq_verdict]
    exact Attribute.kept_checksAll pool added 0 attributes hSettled
  · rw [validateMember_eq_verdict] at hSettled
    rw [validateMember_eq_verdict, validateMember_eq_verdict]
    exact member.kept_checks pool added hSettled
  · rw [checkLinks_append, hOld hSettled, hFault]
    rfl
  -- All old slots pass, so the new ones decide.
  · have hSettled : pool.Settled (pool.checkLinks major) := hPasses ▸ settled_ok ()
    rw [checkLinks_append, hOld hSettled, hPasses]
    simp only [Verdict.andThen_eq_ok_iff, true_and, Verdict.each_eq_ok_iff,
      Array.mem_toList_iff]

/-- A pool of a name and a class of this name. -/
def shortPool : Pool := ⟨#[some (.utf8 "Deprecated"), some (.textRef .classRef 1)]⟩

/-- A name, and a module of this name as the fourth entry of a pool. -/
def lateSlots : Array Slot := #[some (.utf8 "late"), some (.textRef .module 3)]

/-- A marker that announces a payload. -/
def wrongMarker : Attribute := ⟨1, 7, .marker .deprecated⟩

/-- A field whose descriptor is no text. -/
def wrongField : Member :=
  { kind := .field, flags := ⟨0⟩, name := 1, descriptor := 2, attributes := [] }

theorem append_verdicts_shortPool :
    (shortPool.append lateSlots).validateAttributes 61 [wrongMarker] =
      .error (.markerNotEmpty "Deprecated" 7) ∧
    (shortPool.append lateSlots).validateMember 61 wrongField =
      .error (.unexpectedEntry "member descriptor" 2 [.utf8] .classRef) ∧
    (Pool.append ⟨#[some (.textRef .string 0)]⟩ lateSlots).checkLinks 61 =
      .error (.indexOutOfRange "string" 0) ∧
    (shortPool.append lateSlots).checkLinks 61 = .ok () := by
  obtain ⟨hAttributes, hMember, -, hPasses⟩ := append_verdicts shortPool lateSlots 61
  refine ⟨?_, ?_, ?_, ?_⟩
  · have hFault : shortPool.validateAttributes 61 [wrongMarker] =
        .error (.markerNotEmpty "Deprecated" 7) := rfl
    rw [← hFault]
    refine hAttributes [wrongMarker] fun context index hIndex => ?_
    cases hFault.symm.trans hIndex
  · have hFault : shortPool.validateMember 61 wrongField =
        .error (.unexpectedEntry "member descriptor" 2 [.utf8] .classRef) := rfl
    rw [← hFault]
    refine hMember wrongField fun context index hIndex => ?_
    cases hFault.symm.trans hIndex
  -- Index zero is out of range, but it does not lie behind the last slot.
  · refine (append_verdicts ⟨#[some (.textRef .string 0)]⟩ lateSlots 61).2.2.1 _ rfl ?_
    intro context index hIndex
    cases hIndex
    exact Nat.zero_le _
  · exact (hPasses rfl).mpr (by decide)

/-- An index behind the last slot is the one thing that a longer pool can mend. -/
example :
    shortPool.checkUsable "late" 4 = .error (.indexOutOfRange "late" 4) ∧
      (shortPool.append lateSlots).checkUsable "late" 4 = .ok () := by
  decide

end Pool

end ClassFormat
