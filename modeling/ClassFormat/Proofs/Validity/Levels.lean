import Mathlib
import ClassFormat.Proofs.Validity.Checks
import ClassFormat.Proofs.Validity.FirstFault

namespace ClassFormat

/-!
# The levels that checks enter

Checks about levels stand between all the other checks of an attribute.  They enter
the levels down to the depth of the attribute and no further, and where the rules are
obeyed, all the other checks pass.  A fault about nesting is therefore found in what
is nested too deep only, and found in any case if nothing else is wrong.

* `Check.verdict_ne_nestedTooDeep` and `Check.Bounded.verdict_eq_nestedTooDeep` say
  this of lists of checks.
* `Attribute.bounded_checks` bounds the list of an attribute, and
  `ClassFile.level_le_depth` the levels that a class file enters.
-/

namespace Check

/-! ## Bounded lists -/

/-- No check in the list is about a level. -/
def Flat (checks : List Check) : Prop := ∀ n, .level n ∉ checks

/-- Starting from a level, no check enters a level further down than the depth, and
where the rule is obeyed, only checks about levels can fail. -/
structure Bounded (pool : Pool) (rule : Prop) (depth level : Nat)
    (checks : List Check) : Prop where
  level_le : ∀ n, .level n ∈ checks → n ≤ level + depth
  passes : rule → ∀ check ∈ checks,
    (∃ n, check = .level n) ∨ check.fault? pool = none

variable {pool : Pool} {level : Nat}

/-- The rule may be told in stronger words, and the depth in other words. -/
theorem Bounded.congr {rule other : Prop} {depth depth' : Nat} {checks : List Check}
    (hBounded : Bounded pool rule depth level checks) (hRule : other → rule)
    (hDepth : depth = depth') : Bounded pool other depth' level checks where
  level_le := hDepth ▸ hBounded.level_le
  passes := fun hOther => hBounded.passes (hRule hOther)

theorem Bounded.nil {rule : Prop} {depth : Nat} : Bounded pool rule depth level [] where
  level_le := fun _ hLevel => absurd hLevel List.not_mem_nil
  passes := fun _ _ hCheck => absurd hCheck List.not_mem_nil

/-- Checks without levels are bounded by what they check. -/
theorem Bounded.flat {rule : Prop} {checks : List Check} (hFlat : Flat checks)
    (hPasses : rule → verdict pool checks = .ok ()) :
    Bounded pool rule 0 level checks where
  level_le := fun n hLevel => absurd hLevel (hFlat n)
  passes := fun hRule check hCheck => .inr (verdict_eq_ok_iff.mp (hPasses hRule) check hCheck)

theorem Bounded.names (context : String) (tags : List Tag) (index : UInt16) :
    Bounded pool (pool.Names tags index) 0 level [.names context tags index] := by
  refine .flat (by simp [Flat]) fun hNames => ?_
  rw [← Pool.check_eq_verdict]
  exact Pool.check_eq_ok_iff.mpr hNames

theorem Bounded.append {rule other : Prop} {depth depth' : Nat}
    {checks rest : List Check} (hChecks : Bounded pool rule depth level checks)
    (hRest : Bounded pool other depth' level rest) :
    Bounded pool (rule ∧ other) (max depth depth') level (checks ++ rest) where
  level_le := by
    intro n hLevel
    rcases List.mem_append.mp hLevel with hFirst | hLast
    · have hBound := hChecks.level_le n hFirst
      omega
    · have hBound := hRest.level_le n hLast
      omega
  passes := fun hRule => List.forall_mem_append.mpr
    ⟨hChecks.passes hRule.1, hRest.passes hRule.2⟩

/-- Entering a level adds one to the depth. -/
theorem Bounded.nested {rule : Prop} {depth : Nat} {checks : List Check}
    (hChecks : Bounded pool rule depth (level + 1) checks) :
    Bounded pool rule (depth + 1) level (.level (level + 1) :: checks) where
  level_le := by
    intro n hLevel
    rcases List.mem_cons.mp hLevel with hHere | hBelow
    · cases hHere
      omega
    · have hBound := hChecks.level_le n hBelow
      omega
  passes := fun hRule => List.forall_mem_cons.mpr ⟨.inl ⟨_, rfl⟩, hChecks.passes hRule⟩

theorem Bounded.flatMap {α : Type} {rule : α → Prop} {depth : α → Nat}
    {checks : α → List Check}
    (hItem : ∀ item, Bounded pool (rule item) (depth item) level (checks item))
    (items : List α) :
    Bounded pool (∀ item ∈ items, rule item) ((items.map depth).foldr max 0) level
      (items.flatMap checks) := by
  induction items with
  | nil => exact .nil
  | cons item rest ih =>
      exact ((hItem item).append ih).congr List.forall_mem_cons.mp rfl

/-! ## Faults about nesting -/

/-- No lookup fails because of nesting. -/
theorem namesFault?_ne (context : String) (tags : List Tag) (index : UInt16) :
    pool.namesFault? context tags index ≠ some .nestedTooDeep := by
  intro hFault
  unfold Pool.namesFault? at hFault
  split at hFault
  · cases hFault
  · cases hFault
  · split at hFault <;> cases hFault

/-- No other check fails because of nesting. -/
theorem exists_level_of_fault?_eq {check : Check}
    (hFault : check.fault? pool = some .nestedTooDeep) :
    ∃ n, check = .level n ∧ maxNesting < n := by
  cases check with
  | level n =>
      refine ⟨n, rfl, ?_⟩
      by_contra hRoom
      rw [fault?, if_pos (Nat.le_of_not_lt hRoom)] at hFault
      cases hFault
  | usable context index =>
      rw [fault?, Pool.usableFault?] at hFault
      split at hFault <;> cases hFault
  | names context expected index => exact absurd hFault (namesFault?_ne _ _ _)
  | namesOrZero context expected index =>
      rw [fault?] at hFault
      split at hFault
      · cases hFault
      · exact absurd hFault (namesFault?_ne _ _ _)
  | _ =>
      rw [fault?] at hFault
      split_ifs at hFault <;> cases hFault

/-- Checks that enter no level too deep find nothing nested too deep. -/
theorem verdict_ne_nestedTooDeep {checks : List Check}
    (hLevels : ∀ n, .level n ∈ checks → n ≤ maxNesting) :
    verdict pool checks ≠ .error .nestedTooDeep := by
  intro hFault
  obtain ⟨before, check, after, rfl, -, hFails⟩ := verdict_eq_error_iff.mp hFault
  obtain ⟨n, rfl, hDeep⟩ := exists_level_of_fault?_eq hFails
  have hRoom := hLevels n (List.mem_append_right _ List.mem_cons_self)
  omega

/-- Where the rule is obeyed, nothing but nesting can be wrong. -/
theorem Bounded.verdict_eq_nestedTooDeep {rule : Prop} {depth : Nat} {checks : List Check}
    (hBounded : Bounded pool rule depth level checks) (hRule : rule)
    (hFails : verdict pool checks ≠ .ok ()) :
    verdict pool checks = .error .nestedTooDeep := by
  cases hVerdict : verdict pool checks with
  | ok _ => exact absurd hVerdict hFails
  | error fault =>
      obtain ⟨before, check, after, rfl, -, hFault⟩ := verdict_eq_error_iff.mp hVerdict
      rcases hBounded.passes hRule check (List.mem_append_right _ List.mem_cons_self) with
        hLevel | hNone
      · obtain ⟨n, rfl⟩ := hLevel
        rw [fault?] at hFault
        split at hFault
        · cases hFault
        · rw [← Option.some.inj hFault]
      · rw [hNone] at hFault
        cases hFault

end Check

open Check

/-! ## Annotations -/

section

variable (pool : Pool)

mutual

theorem ElementValue.bounded_checks (level : Nat) :
    (value : ElementValue) →
      Bounded pool (value.Obeys pool) value.depth level (value.checks level)
  | .constant kind index => by
      refine (Bounded.names "element value" [kind.entryTag] index).congr ?_ rfl
      cases kind <;> exact id
  | .enumeration _ _ => (Bounded.names ..).append (.names ..)
  | .classLiteral _ => .names ..
  | .nested use => (use.bounded_checks (level + 1)).nested
  | .array values => (ElementValue.bounded_checksAll (level + 1) values).nested

theorem ElementValue.bounded_checksAll (level : Nat) :
    (values : List ElementValue) →
      Bounded pool (ElementValue.AllObey pool values) (ElementValue.depthAll values) level
        (ElementValue.checksAll level values)
  | [] => .nil
  | value :: rest =>
      (value.bounded_checks level).append (ElementValue.bounded_checksAll level rest)

theorem AnnotationUse.bounded_checks (level : Nat) :
    (use : AnnotationUse) →
      Bounded pool (use.Obeys pool) use.depth level (use.checks level)
  | ⟨_, elements⟩ =>
      ((Bounded.names ..).append (Element.bounded_checksAll level elements)).congr id
        (Nat.zero_max _)

theorem Element.bounded_checks (level : Nat) :
    (element : Element) →
      Bounded pool (element.Obeys pool) element.depth level (element.checks level)
  | ⟨_, value⟩ =>
      ((Bounded.names ..).append (value.bounded_checks level)).congr id (Nat.zero_max _)

theorem Element.bounded_checksAll (level : Nat) :
    (elements : List Element) →
      Bounded pool (Element.AllObey pool elements) (Element.depthAll elements) level
        (Element.checksAll level elements)
  | [] => .nil
  | element :: rest =>
      (element.bounded_checks level).append (Element.bounded_checksAll level rest)

end

end

/-! ## Attributes -/

theorem Frame.flat_checks (frame : Frame) : Flat frame.checks := by
  intro n hLevel
  obtain ⟨type, -, hType⟩ := List.mem_flatMap.mp hLevel
  cases type <;> simp at hType

/-- In a payload without levels every check passes where the rules are obeyed, because
the payload passes. -/
theorem Payload.bounded_of_flat {pool : Pool} {level : Nat} {name : UInt16}
    {length : UInt32} {payload : Payload}
    (hFlat : Flat (payload.checks level name length)) (hDepth : payload.depth = 0) :
    Bounded pool (pool.Names [.utf8] name ∧ payload.Obeys pool length ∧
        ∀ inner ∈ payload.within, inner.Obeys pool)
      payload.depth level (payload.checks level name length) := by
  rw [hDepth]
  refine .flat hFlat fun hRules => ?_
  obtain ⟨⟨entry, hName, hTag⟩, hRule⟩ := hRules
  obtain ⟨content, rfl⟩ := Entry.tag_eq_utf8_iff.mp (List.mem_singleton.mp hTag)
  have hFollows := payload.check_follows pool level length hName
  have hPasses := (payload.decides_check pool content length).passes_iff level
  rw [hFollows, hDepth] at hPasses
  exact hPasses.mpr ⟨hRule, Nat.zero_le _⟩

section

variable (pool : Pool)

mutual

/-- Where an attribute and all attributes inside it obey their rules, only checks about
levels can fail. -/
theorem Attribute.bounded_checks (level : Nat) :
    (attr : Attribute) →
      Bounded pool (∀ inner ∈ attr.within, inner.Obeys pool) attr.depth level
        (attr.checks level)
  | ⟨name, length, payload⟩ => by
      refine ((Bounded.names ..).append (payload.bounded_checks level name length)).congr
        (fun hObey => ?_) (Nat.zero_max _)
      obtain ⟨⟨hName, hPayload⟩, hInner⟩ := List.forall_mem_cons.mp hObey
      exact ⟨hName, hName, hPayload, hInner⟩

theorem Attribute.bounded_checksAll (level : Nat) :
    (attributes : List Attribute) →
      Bounded pool (∀ inner ∈ Attribute.withinAll attributes, inner.Obeys pool)
        (Attribute.depthAll attributes) level (Attribute.checksAll level attributes)
  | [] => .nil
  | attr :: rest =>
      ((attr.bounded_checks level).append (Attribute.bounded_checksAll level rest)).congr
        List.forall_mem_append.mp rfl

theorem Payload.bounded_checks (level : Nat) (name : UInt16) (length : UInt32)
    (payload : Payload) :
    Bounded pool (pool.Names [.utf8] name ∧ payload.Obeys pool length ∧
        ∀ inner ∈ payload.within, inner.Obeys pool)
      payload.depth level (payload.checks level name length) := by
  cases payload with
  | code body => exact (body.bounded_checks level).congr And.right rfl
  | record components =>
      exact (RecordComponent.bounded_checksAll level components).congr And.right rfl
  | annotations visibility uses =>
      exact (Bounded.flatMap (AnnotationUse.bounded_checks pool level) uses).congr
        (fun hRules => hRules.2.1) rfl
  | parameterAnnotations visibility parameters =>
      exact (Bounded.flatMap (Bounded.flatMap (AnnotationUse.bounded_checks pool level))
        parameters).congr (fun hRules => hRules.2.1) rfl
  | typeAnnotations visibility typeUses =>
      exact (Bounded.flatMap (fun typeUse => typeUse.use.bounded_checks pool level)
        typeUses).congr (fun hRules => hRules.2.1) rfl
  | annotationDefault value =>
      exact (value.bounded_checks pool level).congr (fun hRules => hRules.2.1) rfl
  | stackMapTable frames =>
      refine Payload.bounded_of_flat (fun n hLevel => ?_) rfl
      obtain ⟨frame, -, hFrame⟩ := List.mem_flatMap.mp hLevel
      exact frame.flat_checks n hFrame
  | _ =>
      refine Payload.bounded_of_flat ?_ rfl
      simp [Flat, Payload.checks, InnerClass.checks, LocalVariable.checks,
        BootstrapMethod.checks, ModuleDescriptor.checks, Requirement.checks,
        PackageGrant.checks, Provision.checks]

theorem Code.bounded_checks (level : Nat) :
    (code : Code) →
      Bounded pool ((∀ handler ∈ code.handlers,
          handler.Obeys pool code.instructions.length) ∧
          ∀ inner ∈ code.within, inner.Obeys pool)
        code.depth level (code.checks level)
  | ⟨_, _, instructions, handlers, attributes⟩ => by
      have hHandlers : Bounded pool
          (∀ handler ∈ handlers, handler.Obeys pool instructions.length) 0 level
          (handlers.flatMap (ExceptionHandler.checks instructions.length)) := by
        refine .flat (by simp [Flat, ExceptionHandler.checks]) fun hObey => ?_
        rw [← each_eq_verdict (ExceptionHandler.check_eq_verdict instructions.length),
          Verdict.each_eq_ok_iff]
        exact fun handler hHandler =>
          ExceptionHandler.check_eq_ok_iff.mpr (hObey handler hHandler)
      exact (hHandlers.append (Attribute.bounded_checksAll (level + 1) attributes).nested).congr
        id (Nat.zero_max _)

theorem RecordComponent.bounded_checks (level : Nat) :
    (component : RecordComponent) →
      Bounded pool ((pool.Names [.utf8] component.name ∧
          pool.Names [.utf8] component.descriptor) ∧
          ∀ inner ∈ component.within, inner.Obeys pool)
        component.depth level (component.checks level)
  | ⟨_, _, attributes⟩ =>
      ((Bounded.names ..).append ((Bounded.names ..).append
        (Attribute.bounded_checksAll (level + 1) attributes).nested)).congr
          and_assoc.mp (by simp [RecordComponent.depth])

theorem RecordComponent.bounded_checksAll (level : Nat) :
    (components : List RecordComponent) →
      Bounded pool ((∀ component ∈ components, pool.Names [.utf8] component.name ∧
            pool.Names [.utf8] component.descriptor) ∧
          ∀ inner ∈ RecordComponent.withinAll components, inner.Obeys pool)
        (RecordComponent.depthAll components) level
        (RecordComponent.checksAll level components)
  | [] => .nil
  | component :: rest => by
      refine ((component.bounded_checks level).append
        (RecordComponent.bounded_checksAll level rest)).congr (fun hRules => ?_) rfl
      obtain ⟨hNames, hInner⟩ := hRules
      obtain ⟨hName, hNames⟩ := List.forall_mem_cons.mp hNames
      obtain ⟨hFirst, hRest⟩ := List.forall_mem_append.mp hInner
      exact ⟨⟨hName, hFirst⟩, hNames, hRest⟩

end

end

/-! ## Class files -/

namespace Pool

theorem flat_calledChecks (pool : Pool) (kind : ReferenceKind) (reference : UInt16) :
    Flat (pool.calledChecks kind reference) := by
  intro n
  unfold calledChecks
  split
  · split <;> simp
  · exact List.not_mem_nil

theorem flat_checks (pool : Pool) (major : UInt16) : Flat (pool.checks major) := by
  intro n hLevel
  obtain ⟨slot, -, hSlot⟩ := List.mem_flatMap.mp hLevel
  rcases slot with _ | entry
  · cases hSlot
  · cases entry with
    | methodHandle code reference =>
        have hCalled := fun kind => pool.flat_calledChecks kind reference n
        simp only [slotChecks, handleChecks] at hSlot
        split at hSlot
        · simp at hSlot
        · split at hSlot <;> simp [hCalled] at hSlot
    | _ => simp [slotChecks] at hSlot

end Pool

/-- The checks of a class file enter no level below its depth. -/
theorem ClassFile.level_le_depth {file : ClassFile} {major : UInt16} {n : Nat}
    (hLevel : .level n ∈ file.checks major) : n ≤ file.depth := by
  obtain ⟨hFields, hMethods, hAttributes⟩ := depth_le_iff.mp (le_refl file.depth)
  have hInside : ∀ attributes : List Attribute,
      .level n ∈ Attribute.checksAll 0 attributes → n ≤ Attribute.depthAll attributes :=
    fun attributes hLevel => by
      simpa using (Attribute.bounded_checksAll file.pool 0 attributes).level_le n hLevel
  have hPool := file.pool.flat_checks major n
  simp only [checks, Member.checks, List.mem_append, List.mem_cons, List.mem_map,
    List.mem_flatMap, reduceCtorEq, and_false, exists_false, false_or, hPool] at hLevel
  obtain (⟨member, hMember, hLevel⟩ | ⟨member, hMember, hLevel⟩) | hLevel := hLevel
  · exact (hInside _ hLevel).trans (hFields member hMember)
  · exact (hInside _ hLevel).trans (hMethods member hMember)
  · exact (hInside _ hLevel).trans hAttributes

end ClassFormat
