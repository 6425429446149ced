import Mathlib
import ClassFormat.Proofs.RoundTrip
import ClassFormat.Proofs.Spelling.Limits
import ClassFormat.Proofs.Validity.Levels

namespace ClassFormat

/-!
# The limit on nesting

The depth of a class file is the greatest level that is entered in it: by the
attributes of a method body or of a record component, by a nested annotation, or by
an array, even if there is nothing inside.  The reader and the checks count levels
each in their own way, and both refuse exactly what is deeper than `maxNesting`.

* `ClassFile.decode_encode_eq` says so of the reader, and
  `Pool.validateAttributes_eq_nestedTooDeep` of the checks.
* `nesting_limit` puts both together: what is decoded is not found to be nested too
  deep.
-/

open Reader

/-- What is written for a well-formed class file is decoded as it, unless it is nested
too deep. -/
theorem ClassFile.decode_encode_eq {file : ClassFile} (hWellFormed : file.WellFormed)
    (hTexts : file.pool.TextsFit) :
    decode file.encode =
      if file.depth ≤ maxNesting then .ok file else .error .nestedTooDeep := by
  obtain ⟨pieces, hSplit, -⟩ := canonicallySpelled_encode hWellFormed.pool.few hTexts
  have hRun := limits_read file file.encode [] ⟨hWellFormed, pieces, hSplit⟩
  rw [List.append_nil] at hRun
  unfold decode whole
  rw [hRun]
  by_cases hDepth : file.depth ≤ maxNesting
  · simp only [if_pos hDepth]
  · simp only [if_neg hDepth]

/-- A class file that is not nested too deep is not found to be. -/
theorem ClassFile.validate_ne_nestedTooDeep {file : ClassFile}
    (hDepth : file.depth ≤ maxNesting) (major : UInt16) :
    file.validate major ≠ .error .nestedTooDeep := by
  rw [validate_eq_verdict]
  exact Check.verdict_ne_nestedTooDeep fun n hLevel => (level_le_depth hLevel).trans hDepth

namespace Pool

variable {pool : Pool} {major : UInt16} {attributes : List Attribute}

/-- What a new validator finds in the attributes of a class or a member. -/
def validateAttributes (pool : Pool) (major : UInt16) (attributes : List Attribute) :
    Verdict :=
  (Validator.perform { pool, major } (.attributes attributes)).1

theorem validateAttributes_eq_verdict :
    pool.validateAttributes major attributes =
      Check.verdict pool (Attribute.checksAll 0 attributes) :=
  congrArg Prod.fst (Attribute.checkAll_follows pool 0 attributes)

theorem validateAttributes_ne_nestedTooDeep
    (hDepth : Attribute.depthAll attributes ≤ maxNesting) :
    pool.validateAttributes major attributes ≠ .error .nestedTooDeep := by
  rw [validateAttributes_eq_verdict]
  refine Check.verdict_ne_nestedTooDeep fun n hLevel => ?_
  have hBound := (Attribute.bounded_checksAll pool 0 attributes).level_le n hLevel
  omega

theorem validateAttributes_ne_ok (hDepth : maxNesting < Attribute.depthAll attributes) :
    pool.validateAttributes major attributes ≠ .ok () := by
  intro hPasses
  have hRules := ((Attribute.decides_checkAll pool attributes).passes_iff 0).mp hPasses
  exact absurd hRules.2 (Nat.not_le.mpr hDepth)

/-- Attributes that obey all rules but are nested too deep are refused for this
reason. -/
theorem validateAttributes_eq_nestedTooDeep
    (hDepth : maxNesting < Attribute.depthAll attributes)
    (hObey : ∀ attr ∈ Attribute.withinAll attributes, attr.Obeys pool) :
    pool.validateAttributes major attributes = .error .nestedTooDeep := by
  have hFails := @validateAttributes_ne_ok pool major attributes hDepth
  rw [validateAttributes_eq_verdict] at hFails ⊢
  exact (Attribute.bounded_checksAll pool 0 attributes).verdict_eq_nestedTooDeep hObey hFails

end Pool

/-- No class file that is decoded is nested too deep, and none is found to be.  What is
written for a well-formed class file is read back if it is not nested too deep, and it
is refused for this reason otherwise.  Attributes are found to be nested too deep only
if they are, and then they never pass; nothing else is found if nothing else is
wrong. -/
theorem nesting_limit :
    (∀ bytes file, ClassFile.decode bytes = .ok file → file.depth ≤ maxNesting ∧
      ∀ major, file.validate major ≠ .error .nestedTooDeep) ∧
    (∀ file : ClassFile, file.WellFormed → file.pool.TextsFit →
      ClassFile.decode file.encode =
        if file.depth ≤ maxNesting then .ok file else .error .nestedTooDeep) ∧
    ∀ (pool : Pool) (major : UInt16) (attributes : List Attribute),
      (Attribute.depthAll attributes ≤ maxNesting →
        pool.validateAttributes major attributes ≠ .error .nestedTooDeep) ∧
      (maxNesting < Attribute.depthAll attributes →
        pool.validateAttributes major attributes ≠ .ok () ∧
        ((∀ attr ∈ Attribute.withinAll attributes, attr.Obeys pool) →
          pool.validateAttributes major attributes = .error .nestedTooDeep)) := by
  refine ⟨fun bytes file hDecode => ?_, fun file => ClassFile.decode_encode_eq,
    fun pool major attributes =>
      ⟨Pool.validateAttributes_ne_nestedTooDeep, fun hDeep => ⟨?_, ?_⟩⟩⟩
  · obtain ⟨⟨-, hDepth⟩, -⟩ := ClassFile.decode_eq_ok_iff.mp hDecode
    exact ⟨hDepth, ClassFile.validate_ne_nestedTooDeep hDepth⟩
  · exact Pool.validateAttributes_ne_ok hDeep
  · exact Pool.validateAttributes_eq_nestedTooDeep hDeep

/-! ## Arrays in arrays -/

/-- A constant inside so many arrays. -/
def nestedArrays : Nat → ElementValue
  | 0 => .constant .string 1
  | n + 1 => .array [nestedArrays n]

theorem depth_nestedArrays (n : Nat) : (nestedArrays n).depth = n := by
  induction n with
  | zero => rfl
  | succ n ih => simp [nestedArrays, ElementValue.depth, ElementValue.depthAll, ih]

theorem wellFormed_nestedArrays (n : Nat) : (nestedArrays n).WellFormed := by
  induction n with
  | zero => trivial
  | succ n ih => exact ⟨by simp, ih, trivial⟩

theorem length_write_nestedArrays (n : Nat) :
    (nestedArrays n).write.length = 3 * n + 3 := by
  induction n with
  | zero => rfl
  | succ n ih =>
      simp [nestedArrays, ElementValue.write, ElementValue.writeAll, BigEndian.bytes16, ih]
      omega

theorem obeys_nestedArrays {pool : Pool} (hText : pool.Names [.utf8] 1) (n : Nat) :
    (nestedArrays n).Obeys pool := by
  induction n with
  | zero => exact hText
  | succ n ih => exact ⟨ih, trivial⟩

/-- The pool of the name of default values. -/
def defaultPool : Pool := ⟨#[some (.utf8 "AnnotationDefault")]⟩

/-- A default value that lies inside so many arrays. -/
def nestedDefault (n : Nat) : Attribute where
  name := 1
  length := UInt32.ofNat (3 * n + 3)
  payload := .annotationDefault (nestedArrays n)

/-- A class file with such a default value. -/
def nestedClass (n : Nat) : ClassFile where
  minor := 0
  major := 52
  pool := defaultPool
  flags := ⟨0⟩
  thisClass := 0
  superClass := 0
  interfaces := []
  fields := []
  methods := []
  attributes := [nestedDefault n]

theorem depthAll_nestedDefault (n : Nat) : Attribute.depthAll [nestedDefault n] = n := by
  simp [nestedDefault, Attribute.depthAll, Attribute.depth, Payload.depth,
    depth_nestedArrays]

theorem depth_nestedClass (n : Nat) : (nestedClass n).depth = n := by
  simp [nestedClass, ClassFile.depth, depthAll_nestedDefault]

theorem textsFit_defaultPool : defaultPool.TextsFit := by decide

theorem wellFormed_nestedClass {n : Nat} (hShort : 3 * n + 3 < 2 ^ 32) :
    (nestedClass n).WellFormed where
  pool := ⟨by simp [nestedClass, defaultPool],
    by simp [nestedClass, defaultPool, Slot.LaidOut]⟩
  interfaces := by simp [nestedClass]
  fields := by simp [nestedClass, Counted16]
  methods := by simp [nestedClass, Counted16]
  attributes := by
    have hKind : defaultPool.attributeKind? 1 = some .annotationDefault := by decide
    refine ⟨by simp [nestedClass], List.forall_mem_singleton.mpr
      ⟨hKind, ?_, wellFormed_nestedArrays n⟩⟩
    exact (length_write_nestedArrays n).trans (UInt32.toNat_ofNat_of_lt' hShort).symm

theorem obeys_nestedDefault (n : Nat) :
    ∀ attr ∈ Attribute.withinAll [nestedDefault n], attr.Obeys defaultPool := by
  have hText : defaultPool.Names [.utf8] 1 := ⟨_, rfl, List.mem_singleton_self _⟩
  exact List.forall_mem_singleton.mpr ⟨hText, obeys_nestedArrays hText n⟩

/-- With `256` arrays around a constant, a class file is still read back, and with one
more it is too deep for the reader and for the checks. -/
theorem nesting_limit_nestedClass :
    (ClassFile.decode (nestedClass 256).encode = .ok (nestedClass 256) ∧
      (nestedClass 256).validate 52 ≠ .error .nestedTooDeep ∧
      defaultPool.validateAttributes 52 [nestedDefault 256] ≠ .error .nestedTooDeep) ∧
    ClassFile.decode (nestedClass 257).encode = .error .nestedTooDeep ∧
      defaultPool.validateAttributes 52 [nestedDefault 257] = .error .nestedTooDeep := by
  obtain ⟨hDecoded, hWritten, hChecked⟩ := nesting_limit
  have hRead : ClassFile.decode (nestedClass 256).encode = .ok (nestedClass 256) := by
    rw [hWritten _ (wellFormed_nestedClass (by decide)) textsFit_defaultPool,
      depth_nestedClass, if_pos (by decide)]
  have hRefused : ClassFile.decode (nestedClass 257).encode = .error .nestedTooDeep := by
    rw [hWritten _ (wellFormed_nestedClass (by decide)) textsFit_defaultPool,
      depth_nestedClass, if_neg (by decide)]
  have hShallow : Attribute.depthAll [nestedDefault 256] ≤ maxNesting := by
    rw [depthAll_nestedDefault]
    decide
  have hDeep : maxNesting < Attribute.depthAll [nestedDefault 257] := by
    rw [depthAll_nestedDefault]
    decide
  exact ⟨⟨hRead, (hDecoded _ _ hRead).2 52, (hChecked defaultPool 52 _).1 hShallow⟩,
    hRefused, ((hChecked defaultPool 52 _).2 hDeep).2 (obeys_nestedDefault 257)⟩

end ClassFormat
