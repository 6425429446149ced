import Mathlib
import ClassFormat.Proofs.PoolLayout
import ClassFormat.Proofs.Validity.Rules

namespace ClassFormat

/-!
# Names and payloads of attributes

The reader of an attribute chooses the layout of its payload by its name, and only
then.  Later on, an attribute is sometimes looked up by its name and sometimes by its
payload.  In a class file that was decoded both ways lead to the same attribute, in
every list of attributes at every depth.

* `Attribute.wellFormed_within` carries what is known of an attribute to all attributes
  inside it.
* `Attribute.findNamed?_eq_some_iff` and `Attribute.findCode?_eq_some_iff` are about the
  two ways of looking for an attribute.
* `ClassFile.names_agree_of_decode` says that names and payloads agree.
-/

/-! ## The kind that a name selects -/

namespace Pool

variable {pool : Pool} {index : UInt16}

/-- The index leads to no known name: it is zero or too great, it names an unusable slot
or an entry that is not a text, or the text is the name of no kind. -/
def NamesNoKind (pool : Pool) (index : UInt16) : Prop :=
  index = 0 ∨ pool.slots.size < index.toNat ∨ pool.get? index = some none ∨
    (∃ entry, pool.get? index = some (some entry) ∧ entry.tag ≠ .utf8) ∨
    ∃ text, pool.get? index = some (some (.utf8 text)) ∧
      ∀ kind : AttributeKind, kind.name ≠ text

theorem text?_eq_some_iff {text : String} :
    pool.text? index = some text ↔ pool.get? index = some (some (.utf8 text)) := by
  unfold text?
  split
  · next content hContent =>
      rw [hContent]
      simp
  · next hOther =>
      simp only [reduceCtorEq, false_iff]
      exact hOther text

/-- A name selects the kind that goes by it. -/
theorem attributeKind?_eq_some_iff {kind : AttributeKind} :
    pool.attributeKind? index = some kind ↔
      pool.get? index = some (some (.utf8 kind.name)) := by
  rw [attributeKind?, Option.bind_eq_some_iff]
  simp only [text?_eq_some_iff, AttributeKind.ofName?_eq_some_iff]
  constructor
  · intro hKind
    obtain ⟨text, hText, rfl⟩ := hKind
    exact hText
  · intro hName
    exact ⟨kind.name, hName, rfl⟩

/-- No kind is selected where no known name is. -/
theorem attributeKind?_eq_none_iff :
    pool.attributeKind? index = none ↔ pool.NamesNoKind index := by
  have hNone : pool.attributeKind? index = none ↔
      ∀ kind : AttributeKind, pool.get? index ≠ some (some (.utf8 kind.name)) := by
    rw [Option.eq_none_iff_forall_ne_some]
    simp only [ne_eq, attributeKind?_eq_some_iff]
  rw [hNone, NamesNoKind, ← or_assoc, ← get?_eq_none_iff]
  -- Each of the ways to miss a name is one outcome of the lookup.
  rcases pool.get? index with _ | _ | entry
  · simp
  · simp
  · cases entry with
    | utf8 text => simp [Entry.tag, eq_comm]
    | textRef kind text => cases kind <;> simp [Entry.tag, TextRefKind.tag]
    | memberRef kind owner nameType => cases kind <;> simp [Entry.tag, MemberRefKind.tag]
    | dynamic kind bootstrap nameType => cases kind <;> simp [Entry.tag, DynamicKind.tag]
    | _ => simp [Entry.tag]

end Pool

/-! ## Well-formed attributes at every depth -/

section

variable {pool : Pool}

mutual

/-- All attributes inside a well-formed attribute are well formed. -/
theorem Attribute.wellFormed_within :
    (attr : Attribute) → attr.WellFormed pool → ∀ inner ∈ attr.within, inner.WellFormed pool
  | ⟨name, length, payload⟩, hWellFormed => by
      refine List.forall_mem_cons.mpr ⟨hWellFormed, ?_⟩
      exact payload.wellFormed_within hWellFormed.2.2

theorem Attribute.wellFormed_withinAll :
    (attributes : List Attribute) → Attribute.AllWellFormed pool attributes →
      ∀ inner ∈ Attribute.withinAll attributes, inner.WellFormed pool
  | [], _ => List.forall_mem_nil _
  | attr :: rest, hWellFormed => by
      refine List.forall_mem_append.mpr ⟨?_, ?_⟩
      · exact attr.wellFormed_within hWellFormed.1
      · exact Attribute.wellFormed_withinAll rest hWellFormed.2

theorem Payload.wellFormed_within (payload : Payload)
    (hWellFormed : payload.WellFormed pool) :
    ∀ inner ∈ payload.within, inner.WellFormed pool := by
  cases payload with
  | code body => exact body.wellFormed_within hWellFormed
  | record components => exact RecordComponent.wellFormed_withinAll components hWellFormed.2
  | _ => exact List.forall_mem_nil _

theorem Code.wellFormed_within :
    (code : Code) → code.WellFormed pool → ∀ inner ∈ code.within, inner.WellFormed pool
  | ⟨_, _, _, _, attributes⟩, hWellFormed =>
      Attribute.wellFormed_withinAll attributes hWellFormed.2.2.2

theorem RecordComponent.wellFormed_within :
    (component : RecordComponent) → component.WellFormed pool →
      ∀ inner ∈ component.within, inner.WellFormed pool
  | ⟨_, _, attributes⟩, hWellFormed => Attribute.wellFormed_withinAll attributes hWellFormed.2

theorem RecordComponent.wellFormed_withinAll :
    (components : List RecordComponent) → RecordComponent.AllWellFormed pool components →
      ∀ inner ∈ RecordComponent.withinAll components, inner.WellFormed pool
  | [], _ => List.forall_mem_nil _
  | component :: rest, hWellFormed => by
      refine List.forall_mem_append.mpr ⟨?_, ?_⟩
      · exact component.wellFormed_within hWellFormed.1
      · exact RecordComponent.wellFormed_withinAll rest hWellFormed.2

end

end

namespace Attribute

variable {pool : Pool} {attr : Attribute}

/-- The payload is of the kind that the name selects. -/
theorem WellFormed.kind_eq (hWellFormed : attr.WellFormed pool) :
    pool.attributeKind? attr.name = attr.payload.kind? := by
  obtain ⟨name, length, payload⟩ := attr
  exact hWellFormed.1

theorem WellFormed.payload (hWellFormed : attr.WellFormed pool) :
    attr.payload.WellFormed pool := by
  obtain ⟨name, length, payload⟩ := attr
  exact hWellFormed.2.2

end Attribute

/-- The lists of attributes directly inside a payload: that of a method body, or one for
each record component. -/
def Payload.innerLists : Payload → List (List Attribute)
  | .code body => [body.attributes]
  | .record components => components.map RecordComponent.attributes
  | _ => []

/-- The attributes directly inside a well-formed payload are well formed. -/
theorem Payload.wellFormed_innerLists {pool : Pool} {payload : Payload}
    (hWellFormed : payload.WellFormed pool) :
    ∀ attributes ∈ payload.innerLists, ∀ attr ∈ attributes, attr.WellFormed pool := by
  cases payload with
  | code body =>
      obtain ⟨_, _, _, _, attributes⟩ := body
      refine List.forall_mem_singleton.mpr ?_
      exact Attribute.allWellFormed_iff.mp hWellFormed.2.2.2
  | record components =>
      have hAll := RecordComponent.allWellFormed_iff.mp hWellFormed.2
      refine List.forall_mem_map.mpr fun component hComponent => ?_
      have hInner := hAll component hComponent
      obtain ⟨_, _, attributes⟩ := component
      exact Attribute.allWellFormed_iff.mp hInner.2
  | _ => exact List.forall_mem_nil _

namespace ClassFile

/-- Every list of attributes: that of the class, those of its members, and those inside
attributes at every depth. -/
def attributeLists (file : ClassFile) : List (List Attribute) :=
  file.attributes :: (file.members.map Member.attributes ++
    file.attributesWithin.flatMap fun attr => attr.payload.innerLists)

theorem WellFormed.member {file : ClassFile} (hWellFormed : file.WellFormed) :
    ∀ member ∈ file.members, member.WellFormed file.pool :=
  List.forall_mem_append.mpr ⟨fun member hMember => (hWellFormed.fields.2 member hMember).2,
    fun member hMember => (hWellFormed.methods.2 member hMember).2⟩

/-- Every attribute of a well-formed class file is well formed. -/
theorem WellFormed.within {file : ClassFile} (hWellFormed : file.WellFormed) :
    ∀ attr ∈ file.attributesWithin, attr.WellFormed file.pool := by
  refine List.forall_mem_append.mpr ⟨List.forall_mem_flatMap.mpr fun member hMember => ?_, ?_⟩
  · have hAttributes := (hWellFormed.member member hMember).2
    exact Attribute.wellFormed_withinAll _ (Attribute.allWellFormed_iff.mpr hAttributes)
  · have hAttributes := hWellFormed.attributes.2
    exact Attribute.wellFormed_withinAll _ (Attribute.allWellFormed_iff.mpr hAttributes)

/-- So is every attribute of every list. -/
theorem WellFormed.attributeLists {file : ClassFile} (hWellFormed : file.WellFormed) :
    ∀ attributes ∈ file.attributeLists, ∀ attr ∈ attributes, attr.WellFormed file.pool := by
  refine List.forall_mem_cons.mpr ⟨hWellFormed.attributes.2, List.forall_mem_append.mpr
    ⟨List.forall_mem_map.mpr fun member hMember => ?_,
      List.forall_mem_flatMap.mpr fun attr hAttr => ?_⟩⟩
  · exact (hWellFormed.member member hMember).2
  · have hAttribute := hWellFormed.within attr hAttr
    exact Payload.wellFormed_innerLists hAttribute.payload

end ClassFile

/-! ## Looking for an attribute -/

namespace Attribute

variable {pool : Pool} {attr : Attribute} {attributes : List Attribute}

/-- Going by the name of a kind is the same as having a payload of it. -/
theorem WellFormed.isNamed_eq (hWellFormed : attr.WellFormed pool) (kind : AttributeKind) :
    isNamed pool kind.name attr = decide (attr.payload.kind? = some kind) := by
  rw [← hWellFormed.kind_eq, Bool.eq_iff_iff, decide_eq_true_iff,
    Pool.attributeKind?_eq_some_iff, ← Pool.text?_eq_some_iff]
  exact beq_iff_eq

/-- What is found by a name is the first attribute of that kind. -/
theorem findNamed?_eq_some_iff (hWellFormed : ∀ attr ∈ attributes, attr.WellFormed pool)
    {kind : AttributeKind} :
    findNamed? pool kind.name attributes = some attr ↔ ∃ before after,
      attributes = before ++ attr :: after ∧ attr.payload.kind? = some kind ∧
        ∀ other ∈ before, other.payload.kind? ≠ some kind := by
  have hSame : findNamed? pool kind.name attributes =
      attributes.find? fun attr => decide (attr.payload.kind? = some kind) :=
    List.find?_congr fun attr hAttr => (hWellFormed attr hAttr).isNamed_eq kind
  rw [hSame, List.find?_eq_some_iff_append]
  simp only [decide_eq_true_eq, Bool.not_eq_true', decide_eq_false_iff_not]
  constructor
  · intro hFound
    obtain ⟨hKind, before, after, hSplit, hBefore⟩ := hFound
    exact ⟨before, after, hSplit, hKind, hBefore⟩
  · intro hFirst
    obtain ⟨before, after, hSplit, hKind, hBefore⟩ := hFirst
    exact ⟨hKind, before, after, hSplit, hBefore⟩

theorem findNamed?_eq_none_iff (hWellFormed : ∀ attr ∈ attributes, attr.WellFormed pool)
    {kind : AttributeKind} :
    findNamed? pool kind.name attributes = none ↔
      ∀ attr ∈ attributes, attr.payload.kind? ≠ some kind := by
  rw [findNamed?, List.find?_eq_none]
  refine forall₂_congr fun attr hAttr => ?_
  rw [(hWellFormed attr hAttr).isNamed_eq kind, decide_eq_true_iff]

theorem code?_eq_some_iff {body : Code} :
    attr.code? = some body ↔ attr.payload = .code body := by
  unfold code?
  cases attr.payload <;> simp

theorem code?_eq_none_iff : attr.code? = none ↔ attr.payload.kind? ≠ some .code := by
  unfold code?
  cases attr.payload <;> simp [Payload.kind?]

/-- What is found by its payload is in the first attribute that holds a method body. -/
theorem findCode?_eq_some_iff {body : Code} :
    findCode? attributes = some body ↔ ∃ before attr after,
      attributes = before ++ attr :: after ∧ attr.payload = .code body ∧
        ∀ other ∈ before, other.payload.kind? ≠ some .code := by
  rw [findCode?, List.findSome?_eq_some_iff]
  simp only [code?_eq_some_iff, code?_eq_none_iff]

theorem findCode?_eq_none_iff :
    findCode? attributes = none ↔ ∀ attr ∈ attributes, attr.payload.kind? ≠ some .code := by
  rw [findCode?, List.findSome?_eq_none_iff]
  simp only [code?_eq_none_iff]

/-- Both ways of looking for a method body find the same one. -/
theorem findCode?_eq_some_iff_findNamed?
    (hWellFormed : ∀ attr ∈ attributes, attr.WellFormed pool) {body : Code} :
    findCode? attributes = some body ↔ ∃ attr,
      findNamed? pool AttributeKind.code.name attributes = some attr ∧
        attr.payload = .code body := by
  rw [findCode?_eq_some_iff]
  constructor
  · intro hFirst
    obtain ⟨before, attr, after, hSplit, hBody, hBefore⟩ := hFirst
    have hKind : attr.payload.kind? = some .code := by rw [hBody, Payload.kind?]
    have hFound := (findNamed?_eq_some_iff hWellFormed).mpr
      ⟨before, after, hSplit, hKind, hBefore⟩
    exact ⟨attr, hFound, hBody⟩
  · intro hFound
    obtain ⟨attr, hFound, hBody⟩ := hFound
    obtain ⟨before, after, hSplit, -, hBefore⟩ :=
      (findNamed?_eq_some_iff hWellFormed).mp hFound
    exact ⟨before, attr, after, hSplit, hBody, hBefore⟩

end Attribute

/-! ## Decoded class files -/

theorem Payload.kind?_eq_none_iff {payload : Payload} :
    payload.kind? = none ↔ ∃ bytes, payload = .unknown bytes := by
  cases payload <;> simp [kind?]

namespace ClassFile

/-- In every list of attributes of a decoded class file, a payload is of a kind when the
name is that of the kind, and it is unknown when the name is none of those.  So the
attribute that is found by the name of a kind is the first one with a payload of the kind,
and the first method body is that of the attribute found by the name `Code`. -/
theorem names_agree_of_decode {bytes : List UInt8} {file : ClassFile}
    (hDecode : decode bytes = .ok file) :
    ∀ attributes ∈ file.attributeLists,
      (∀ attr ∈ attributes,
        (∀ kind, attr.payload.kind? = some kind ↔
          file.pool.get? attr.name = some (some (.utf8 kind.name))) ∧
        ((∃ run, attr.payload = .unknown run) ↔ file.pool.NamesNoKind attr.name)) ∧
      (∀ (kind : AttributeKind) (attr : Attribute),
        Attribute.findNamed? file.pool kind.name attributes = some attr ↔
          ∃ before after, attributes = before ++ attr :: after ∧
            attr.payload.kind? = some kind ∧
            ∀ other ∈ before, other.payload.kind? ≠ some kind) ∧
      (∀ kind : AttributeKind,
        Attribute.findNamed? file.pool kind.name attributes = none ↔
          ∀ attr ∈ attributes, attr.payload.kind? ≠ some kind) ∧
      (∀ body : Code, Attribute.findCode? attributes = some body ↔
        ∃ attr, Attribute.findNamed? file.pool "Code" attributes = some attr ∧
          attr.payload = .code body) ∧
      (Attribute.findCode? attributes = none ↔
        Attribute.findNamed? file.pool "Code" attributes = none) := by
  obtain ⟨⟨hFile, -⟩, -⟩ := decode_eq_ok_iff.mp hDecode
  intro attributes hList
  have hWellFormed := hFile.attributeLists attributes hList
  refine ⟨fun attr hAttr => ⟨fun kind => ?_, ?_⟩,
    fun kind attr => Attribute.findNamed?_eq_some_iff hWellFormed,
    fun kind => Attribute.findNamed?_eq_none_iff hWellFormed,
    fun body => Attribute.findCode?_eq_some_iff_findNamed? hWellFormed, ?_⟩
  · rw [← (hWellFormed attr hAttr).kind_eq, Pool.attributeKind?_eq_some_iff]
  · rw [← Payload.kind?_eq_none_iff, ← (hWellFormed attr hAttr).kind_eq,
      Pool.attributeKind?_eq_none_iff]
  · rw [Attribute.findCode?_eq_none_iff]
    exact (Attribute.findNamed?_eq_none_iff hWellFormed).symm

/-- The body of the method of `nestedRecord` is found both ways, and the marker inside
it goes by its name. -/
theorem names_agree_nestedRecord :
    ∃ bytes, decode bytes = .ok nestedRecord ∧
      ∃ attributes ∈ nestedRecord.attributeLists, ∃ attr body,
        Attribute.findCode? attributes = some body ∧
        Attribute.findNamed? nestedRecord.pool "Code" attributes = some attr ∧
        attr.payload = .code body ∧ body.attributes ∈ nestedRecord.attributeLists ∧
        ∀ marker ∈ body.attributes,
          marker.payload.kind? = some (.marker .deprecated) ∧
          nestedRecord.pool.get? marker.name = some (some (.utf8 "Deprecated")) := by
  have hDecode : decode nestedRecord.encode = .ok nestedRecord :=
    decode_eq_ok_iff.mpr ⟨⟨nestedRecord_wellFormed, by decide⟩,
      spells_encode nestedRecord_wellFormed.pool.few nestedRecord_textsFit⟩
  obtain ⟨method, hMethod⟩ : ∃ method, nestedRecord.methods = [method] := ⟨_, rfl⟩
  have hList : method.attributes ∈ nestedRecord.attributeLists := by
    simp [attributeLists, members, hMethod]
  have hAgree := names_agree_of_decode hDecode method.attributes hList
  obtain ⟨body, hBody⟩ : ∃ body, Attribute.findCode? method.attributes = some body := by
    cases hMethod
    exact ⟨_, rfl⟩
  obtain ⟨attr, hFound, hPayload⟩ := (hAgree.2.2.2.1 body).mp hBody
  have hInner : body.attributes ∈ nestedRecord.attributeLists := by
    cases hMethod
    cases hBody
    simp [attributeLists, members, attributesWithin, nestedRecord, Attribute.withinAll,
      Attribute.within, Payload.within, Code.within, Payload.innerLists]
  refine ⟨nestedRecord.encode, hDecode, method.attributes, hList, attr, body, hBody, hFound,
    hPayload, hInner, fun marker hMarker => ?_⟩
  have hKind : marker.payload.kind? = some (.marker .deprecated) := by
    cases hMethod
    cases hBody
    cases List.mem_singleton.mp hMarker
    rfl
  have hNames := (names_agree_of_decode hDecode body.attributes hInner).1 marker hMarker
  exact ⟨hKind, (hNames.1 _).mp hKind⟩

end ClassFile

end ClassFormat
