import Mathlib
import ClassFormat.Proofs.Validity.Links
import ClassFormat.Proofs.Validity.SingleChecks

namespace ClassFormat

/-!
# The verdict of a list of checks

A list of single checks ends with the fault of the first check that fails, and it
passes when none fails.  Lists one after the other are decided one after the other,
so the verdict of a check that does not walk is that of its list.

* `Check.verdict_eq_error_iff` says which fault is reported.
* `Pool.checkLinks_eq_verdict` is about the pool, where the checks of a method
  handle depend on what the references lead to.
-/

/-! ## Lists of checks -/

namespace Check

variable {pool : Pool}

/-- The verdict of checks one after another, up to the first one that fails. -/
def verdict (pool : Pool) (checks : List Check) : Verdict :=
  match checks.findSome? (fault? pool) with
  | none => .ok ()
  | some fault => .error fault

theorem verdict_append (checks rest : List Check) :
    verdict pool (checks ++ rest) = verdict pool checks >>= fun _ => verdict pool rest := by
  unfold verdict
  rw [List.findSome?_append]
  cases checks.findSome? (fault? pool) <;> rfl

theorem verdict_cons (check : Check) (rest : List Check) :
    verdict pool (check :: rest) = verdict pool [check] >>= fun _ => verdict pool rest :=
  verdict_append [check] rest

/-- A list of at least two checks is split; for `simp`, which would split singletons
again and again. -/
theorem verdict_cons_cons (check next : Check) (rest : List Check) :
    verdict pool (check :: next :: rest) =
      verdict pool [check] >>= fun _ => verdict pool (next :: rest) :=
  verdict_cons check (next :: rest)

theorem verdict_singleton (check : Check) :
    verdict pool [check] =
      match check.fault? pool with
      | none => .ok ()
      | some fault => .error fault := by
  unfold verdict
  rw [List.findSome?_singleton]

theorem verdict_eq_ok_iff {checks : List Check} :
    verdict pool checks = .ok () ↔ ∀ check ∈ checks, check.fault? pool = none := by
  unfold verdict
  rw [← List.findSome?_eq_none_iff]
  cases checks.findSome? (fault? pool) <;> simp

/-- The fault is that of the first check that fails. -/
theorem verdict_eq_error_iff {checks : List Check} {fault : Fault} :
    verdict pool checks = .error fault ↔ ∃ before check after,
      checks = before ++ check :: after ∧
        (∀ passed ∈ before, passed.fault? pool = none) ∧
        check.fault? pool = some fault := by
  have hVerdict : verdict pool checks = .error fault ↔
      checks.findSome? (fault? pool) = some fault := by
    unfold verdict
    cases checks.findSome? (fault? pool) <;> simp
  simp only [hVerdict, List.findSome?_eq_some_iff, and_comm]

/-- Items that are checked one after another are checked by one list. -/
theorem each_eq_verdict {α : Type} {check : α → Verdict} {checks : α → List Check}
    (hItem : ∀ item, check item = verdict pool (checks item)) (items : List α) :
    Verdict.each check items = verdict pool (items.flatMap checks) := by
  induction items with
  | nil => rfl
  | cons item rest ih =>
      rw [List.flatMap_cons, verdict_append, ← hItem, ← ih, Verdict.each]
      cases check item <;> rfl

/-- Items with one check each. -/
theorem each_eq_verdict_map {α : Type} {check : α → Verdict} {checkOf : α → Check}
    (hItem : ∀ item, check item = verdict pool [checkOf item]) (items : List α) :
    Verdict.each check items = verdict pool (items.map checkOf) := by
  rw [each_eq_verdict hItem, List.map_eq_flatMap]

end Check

open Check

/-! ## References -/

namespace Pool

variable (pool : Pool) (context : String) (tags : List Tag) (index : UInt16)

theorem checkUsable_eq_verdict :
    pool.checkUsable context index = verdict pool [.usable context index] := by
  rw [verdict_singleton, fault?, usableFault?, checkUsable, resolve]
  rcases pool.get? index with _ | _ | entry <;> rfl

theorem check_eq_verdict :
    pool.check context tags index = verdict pool [.names context tags index] := by
  rw [verdict_singleton, fault?, namesFault?, check, require, resolve]
  rcases pool.get? index with _ | _ | entry
  · rfl
  · rfl
  · by_cases hTag : entry.tag ∈ tags <;> simp [hTag, bind, Except.bind] <;> rfl

theorem checkOptional_eq_verdict :
    pool.checkOptional context tags index =
      verdict pool [.namesOrZero context tags index] := by
  by_cases hZero : index = 0
  · simp [verdict_singleton, fault?, checkOptional, requireOptional, hZero, bind,
      Except.bind, pure, Except.pure]
  · have hCheck : pool.checkOptional context tags index = pool.check context tags index := by
      unfold checkOptional requireOptional check
      rw [if_neg hZero]
      cases pool.require context tags index <;> rfl
    rw [hCheck, check_eq_verdict, verdict_singleton, verdict_singleton, fault?, fault?,
      if_neg hZero]

/-- A text that is looked up is checked as a text. -/
theorem text_eq_verdict :
    (pool.text context index >>= fun _ => pure ()) =
      verdict pool [.names context [.utf8] index] := by
  rw [verdict_singleton, fault?, namesFault?, text, resolve]
  rcases pool.get? index with _ | _ | entry
  · rfl
  · rfl
  · by_cases hTag : entry.tag = .utf8
    · obtain ⟨content, rfl⟩ := Entry.tag_eq_utf8_iff.mp hTag
      rfl
    · have hOther : entry.tag ∉ [Tag.utf8] := fun hUtf8 => hTag (List.mem_singleton.mp hUtf8)
      simp only [if_neg hOther]
      cases entry with
      | utf8 content => exact absurd rfl hTag
      | _ => rfl

variable {pool context tags index}

/-- An entry is looked up, and the other checks depend on what is found. -/
theorem require_bind_eq_verdict {next : Entry → Verdict} {rest : List Check}
    (hNext : ∀ entry, pool.get? index = some (some entry) → entry.tag ∈ tags →
      next entry = verdict pool rest) :
    (pool.require context tags index >>= next) =
      verdict pool (.names context tags index :: rest) := by
  rw [verdict_cons, ← check_eq_verdict, check]
  cases hFound : pool.require context tags index with
  | error fault => rfl
  | ok entry =>
      obtain ⟨hEntry, hTag⟩ := require_eq_ok_iff.mp hFound
      exact hNext entry hEntry hTag

/-- A text is looked up, and the other checks depend on what is found. -/
theorem text_bind_eq_verdict {next : String → Verdict} {rest : List Check}
    (hNext : ∀ content, pool.get? index = some (some (.utf8 content)) →
      next content = verdict pool rest) :
    (pool.text context index >>= next) =
      verdict pool (.names context [.utf8] index :: rest) := by
  rw [verdict_cons, ← text_eq_verdict]
  cases hFound : pool.text context index with
  | error fault => rfl
  | ok content => exact hNext content (text_eq_ok_iff.mp hFound)

end Pool

/-! ## The pool -/

namespace Pool

variable {pool : Pool} {major : UInt16}

theorem checkName_eq_verdict (kind : ReferenceKind) (name : String) :
    kind.checkName name = verdict pool [.calledName kind name] := by
  rw [verdict_singleton, fault?, ReferenceKind.checkName]
  by_cases hCreates : kind = .newInvokeSpecial
  · by_cases hName : name = "<init>" <;>
      simp [hCreates, hName, constructorName]
  · by_cases hName : name = "<init>" ∨ name = "<clinit>" <;>
      simp [hCreates, hName, constructorName, initializerName]

/-- The lookups behind a handle are checked as far as they lead. -/
theorem checkCalled_eq_verdict {kind : ReferenceKind} {memberKind : MemberRefKind}
    {reference owner nameAndType : UInt16}
    (hMember : pool.get? reference =
      some (some (.memberRef memberKind owner nameAndType))) :
    (pool.calledName nameAndType >>= kind.checkName) =
      verdict pool (pool.calledChecks kind reference) := by
  simp only [calledChecks, hMember]
  rw [verdict_cons, ← check_eq_verdict]
  simp only [calledName, check, require, resolve]
  rcases pool.get? nameAndType with _ | _ | entry
  · rfl
  · rfl
  -- What is found is a name and type, or both sides complain about its kind.
  · cases entry with
    | nameAndType name descriptor =>
        refine text_bind_eq_verdict fun content hContent => ?_
        rw [text?, hContent]
        exact checkName_eq_verdict kind content
    | textRef kind text => cases kind <;> rfl
    | memberRef kind owner nameAndType => cases kind <;> rfl
    | dynamic kind bootstrap nameAndType => cases kind <;> rfl
    | _ => rfl

theorem checkHandle_eq_verdict (code : UInt8) (reference : UInt16) :
    pool.checkHandle major code reference =
      verdict pool (pool.handleChecks major code reference) := by
  unfold checkHandle handleChecks
  cases hKind : ReferenceKind.ofCode? code with
  | none =>
      rw [verdict_singleton, fault?, if_neg (ReferenceKind.ofCode?_eq_none_iff.mp hKind)]
  | some kind =>
      have hKnown : Check.fault? pool (.referenceKind code) = none := by
        have hFound : ReferenceKind.ofCode? code ≠ none := by simp [hKind]
        rw [ne_eq, ReferenceKind.ofCode?_eq_none_iff, not_not] at hFound
        exact if_pos hFound
      rw [verdict_cons, verdict_singleton, hKnown]
      refine require_bind_eq_verdict fun entry hEntry hTag => ?_
      rw [ReferenceKind.targets_eq] at hTag
      obtain ⟨memberKind, owner, nameAndType, rfl⟩ := Entry.exists_memberRef hTag
      by_cases hInvoke : kind.isInvoke
      · simp only [hInvoke, if_true]
        exact checkCalled_eq_verdict hEntry
      · simp only [hInvoke]
        rfl

theorem checkSlot_eq_verdict (slot : Slot) :
    pool.checkSlot major slot = verdict pool (pool.slotChecks major slot) := by
  cases slot with
  | none => rfl
  | some entry =>
      cases entry with
      | textRef kind text => exact check_eq_verdict ..
      | memberRef kind owner nameAndType =>
          simp only [checkSlot, checkEntry, slotChecks, check_eq_verdict,
            verdict_cons_cons]
      | nameAndType name descriptor =>
          simp only [checkSlot, checkEntry, slotChecks, check_eq_verdict,
            verdict_cons_cons]
      | methodHandle code reference => exact checkHandle_eq_verdict code reference
      | dynamic kind bootstrap nameAndType => exact check_eq_verdict ..
      | _ => rfl

theorem checkLinks_eq_verdict :
    pool.checkLinks major = verdict pool (pool.checks major) :=
  each_eq_verdict checkSlot_eq_verdict _

end Pool

/-! ## Parts of payloads -/

section

variable {pool : Pool}

theorem Frame.check_eq_verdict (frame : Frame) :
    frame.check pool = verdict pool frame.checks := by
  refine each_eq_verdict (fun type => ?_) frame.types
  cases type with
  | object index => exact Pool.check_eq_verdict ..
  | _ => rfl

theorem checkOffset_eq_verdict (codeLength : Nat) (context : String)
    (offset : UInt16) :
    checkOffset codeLength context offset =
      verdict pool [.offset context offset codeLength] := by
  rw [verdict_singleton, fault?, checkOffset]
  by_cases hInside : offset.toNat ≤ codeLength
  · simp [hInside]
  · simp [hInside, Nat.lt_of_not_le hInside]

theorem ExceptionHandler.check_eq_verdict (codeLength : Nat)
    (handler : ExceptionHandler) :
    handler.check pool codeLength = verdict pool (handler.checks codeLength) := by
  have hRange : verdict pool [.range "exception handler" handler.start handler.stop] =
      if handler.stop < handler.start then
        .error (.rangeReversed "exception handler" handler.start handler.stop)
      else .ok () := by
    rw [verdict_singleton, fault?]
    by_cases hReversed : handler.stop < handler.start
    · rw [if_pos hReversed, if_neg (UInt16.not_le.mpr hReversed)]
    · rw [if_neg hReversed, if_pos (UInt16.not_lt.mp hReversed)]
  simp only [check, checks, @checkOffset_eq_verdict pool,
    Pool.checkOptional_eq_verdict, verdict_cons_cons, hRange]
  by_cases hReversed : handler.stop < handler.start
  · simp only [if_pos hReversed]
    rfl
  · simp only [if_neg hReversed]
    rfl

theorem InnerClass.check_eq_verdict (innerClass : InnerClass) :
    innerClass.check pool = verdict pool innerClass.checks := by
  simp only [check, checks, Pool.check_eq_verdict, Pool.checkOptional_eq_verdict,
    verdict_cons_cons]

theorem LocalVariable.check_eq_verdict (table : VariableTable) (entry : LocalVariable) :
    entry.check pool table = verdict pool (entry.checks table) := by
  simp only [check, checks, Pool.check_eq_verdict, verdict_cons_cons]

theorem BootstrapMethod.check_eq_verdict (method : BootstrapMethod) :
    method.check pool = verdict pool method.checks := by
  rw [check, checks, verdict_cons, Pool.check_eq_verdict,
    each_eq_verdict_map (Pool.checkUsable_eq_verdict pool _)]

theorem MethodParameter.check_eq_verdict (parameter : MethodParameter) :
    parameter.check pool =
      verdict pool [.namesOrZero "method parameter name" [.utf8] parameter.name] :=
  Pool.checkOptional_eq_verdict ..

theorem Pool.checkEach_eq_verdict (context : String) (tags : List Tag)
    (indices : List UInt16) :
    Verdict.each (pool.check context tags) indices =
      verdict pool (indices.map (.names context tags)) :=
  each_eq_verdict_map (Pool.check_eq_verdict pool context tags) indices

theorem Requirement.check_eq_verdict (requirement : Requirement) :
    requirement.check pool = verdict pool requirement.checks := by
  simp only [check, checks, Pool.check_eq_verdict, Pool.checkOptional_eq_verdict,
    verdict_cons_cons]

theorem PackageGrant.check_eq_verdict (packageContext moduleContext : String)
    (grant : PackageGrant) :
    grant.check pool packageContext moduleContext =
      verdict pool (grant.checks packageContext moduleContext) := by
  rw [check, checks, verdict_cons, Pool.check_eq_verdict, Pool.checkEach_eq_verdict]

theorem Provision.check_eq_verdict (provision : Provision) :
    provision.check pool = verdict pool provision.checks := by
  rw [check, checks, verdict_cons, Pool.check_eq_verdict, Pool.checkEach_eq_verdict]

theorem ModuleDescriptor.check_eq_verdict (module : ModuleDescriptor) :
    module.check pool = verdict pool module.checks := by
  have hGrants (packageContext moduleContext : String) :=
    each_eq_verdict (@PackageGrant.check_eq_verdict pool packageContext moduleContext)
  rw [check, checks, verdict_cons, verdict_cons (.namesOrZero _ _ _)]
  simp only [verdict_append, List.append_assoc, Pool.check_eq_verdict,
    Pool.checkOptional_eq_verdict, Pool.checkEach_eq_verdict,
    each_eq_verdict Requirement.check_eq_verdict, hGrants,
    each_eq_verdict Provision.check_eq_verdict]

theorem checkMarker_eq_verdict {name : UInt16} {content : String}
    (hName : pool.get? name = some (some (.utf8 content))) (length : UInt32) :
    checkMarker content length = verdict pool [.marker name length] := by
  rw [verdict_singleton, fault?, checkMarker, Pool.text?, hName]
  by_cases hEmpty : length = 0 <;> simp [hEmpty]

theorem checkDebugExtension_eq_verdict (bytes : List UInt8) :
    checkDebugExtension bytes = verdict pool [.debugExtension bytes] := by
  rw [verdict_singleton, fault?, checkDebugExtension]
  by_cases hText : (ModifiedUtf8.decode bytes).isSome <;> simp [hText]

end

end ClassFormat
