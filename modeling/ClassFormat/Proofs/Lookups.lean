import Mathlib
import ClassFormat.Proofs.Validity.Checks

namespace ClassFormat

/-!
# Lookups

An entry is looked up by its index and by the kinds that it may have.  It is found if the
slot of that number holds an entry of such a kind.  Otherwise the lookup misses for one of
three reasons, and its fault tells which.  Looking for a text or for the name of a class
is looking for an entry of one kind, so it finds the same and misses for the same reasons.

A lookup may also ask a slot for its kind, after it has made sure that the slot is usable.
An unusable slot has no kind, and the one that is then taken in its place decides nothing.

* `Pool.require_eq_error_iff` says when a lookup misses.
* `Pool.pickOr_eq_ok_iff` and `Pool.pickOr_eq_error_iff` say what is found and what is
  missed by a lookup that takes the entry apart.
* `Pool.lookups_agree` puts all lookups together.
-/

namespace Pool

variable {pool : Pool} {context : String} {expected : List Tag} {index : UInt16}

/-! ## Slots by number -/

/-- Slots are numbered from one. -/
theorem get?_of_toNat {i : Nat} (hIndex : index.toNat = i + 1) :
    pool.get? index = pool.slots[i]? := by
  have hSome : index ≠ 0 := by
    rintro rfl
    cases hIndex
  rw [get?, if_neg hSome, hIndex, Nat.add_sub_cancel]

/-- There is no slot of number zero, and none behind the last one. -/
theorem get?_eq_none_iff :
    pool.get? index = none ↔ index = 0 ∨ pool.slots.size < index.toNat := by
  by_cases hZero : index = 0
  · simp [hZero, get?]
  · have hPositive : index.toNat ≠ 0 := fun hNone => hZero (UInt16.toNat_inj.mp hNone)
    obtain ⟨i, hIndex⟩ := Nat.exists_eq_succ_of_ne_zero hPositive
    rw [get?_of_toNat hIndex, Array.getElem?_eq_none_iff]
    simp only [hZero, false_or]
    omega

/-! ## What is missed -/

/-- The fault with which a lookup misses: there is no slot of that number, the slot is
unusable, or its entry has another kind than expected. -/
inductive Misses (pool : Pool) (context : String) (expected : List Tag) (index : UInt16) :
    Fault → Prop where
  | outOfRange (hOutside : index = 0 ∨ pool.slots.size < index.toNat) :
      Misses pool context expected index (.indexOutOfRange context index)
  | unusable (hSlot : pool.get? index = some none) :
      Misses pool context expected index (.indexUnusable context index)
  | unexpected {entry : Entry} (hEntry : pool.get? index = some (some entry))
      (hTag : entry.tag ∉ expected) :
      Misses pool context expected index
        (.unexpectedEntry context index expected entry.tag)

theorem require_of_none (hSlot : pool.get? index = none) :
    pool.require context expected index = .error (.indexOutOfRange context index) := by
  rw [require, resolve, hSlot]
  rfl

theorem require_of_unusable (hSlot : pool.get? index = some none) :
    pool.require context expected index = .error (.indexUnusable context index) := by
  rw [require, resolve, hSlot]
  rfl

theorem require_of_not_mem {entry : Entry} (hEntry : pool.get? index = some (some entry))
    (hTag : entry.tag ∉ expected) :
    pool.require context expected index =
      .error (.unexpectedEntry context index expected entry.tag) := by
  have hOther : ¬expected.contains entry.tag := by simpa using hTag
  rw [require, resolve_eq_ok_iff.mpr hEntry]
  exact if_neg hOther

/-- A lookup misses for one of the three reasons, and for no other one. -/
theorem require_eq_error_iff {fault : Fault} :
    pool.require context expected index = .error fault ↔
      pool.Misses context expected index fault := by
  constructor
  · intro hFault
    rcases hSlot : pool.get? index with _ | _ | entry
    · rw [require_of_none hSlot] at hFault
      obtain rfl := Except.error.inj hFault
      exact .outOfRange (get?_eq_none_iff.mp hSlot)
    · rw [require_of_unusable hSlot] at hFault
      obtain rfl := Except.error.inj hFault
      exact .unusable hSlot
    · by_cases hTag : entry.tag ∈ expected
      · rw [require_eq_ok_iff.mpr ⟨hSlot, hTag⟩] at hFault
        cases hFault
      · rw [require_of_not_mem hSlot hTag] at hFault
        obtain rfl := Except.error.inj hFault
        exact .unexpected hSlot hTag
  · intro hMisses
    cases hMisses with
    | outOfRange hOutside => exact require_of_none (get?_eq_none_iff.mpr hOutside)
    | unusable hSlot => exact require_of_unusable hSlot
    | unexpected hEntry hTag => exact require_of_not_mem hEntry hTag

end Pool

/-! ## Lookups of slots -/

/-- The kind of the entry in a slot.  An unusable slot has none. -/
def Slot.tag? (slot : Slot) : Option Tag := slot.map Entry.tag

/-- The text of an entry that is a text. -/
def Entry.text? : Entry → Option String
  | utf8 text => some text
  | _ => none

/-- The index of the name of an entry that is a class. -/
def Entry.className? : Entry → Option UInt16
  | textRef .classRef name => some name
  | _ => none

namespace Pool

/-- The slot at an index, which must be usable. -/
def usableSlot (pool : Pool) (context : String) (index : UInt16) : Except Fault Slot :=
  match pool.get? index with
  | none => .error (.indexOutOfRange context index)
  | some none => .error (.indexUnusable context index)
  | some slot => .ok slot

/-- The slot at an index, which must be of one of the kinds `expected`.  A slot without a
kind would count as one of the kind `fallback`. -/
def requireOr (fallback : Tag) (pool : Pool) (context : String) (expected : List Tag)
    (index : UInt16) : Except Fault Slot := do
  let slot ← pool.usableSlot context index
  let found := (Slot.tag? slot).getD fallback
  if expected.contains found then return slot
  else throw (.unexpectedEntry context index expected found)

/-- What is picked from the slot at an index, which must be one of the kind `tag`.  A slot
without a kind would be told to be of the kind `fallback`. -/
def pickOr {α : Type} (fallback : Tag) (pool : Pool) (tag : Tag) (pick : Entry → Option α)
    (context : String) (index : UInt16) : Except Fault α := do
  let slot ← pool.usableSlot context index
  match slot.bind pick with
  | some a => return a
  | none =>
      throw (.unexpectedEntry context index [tag] ((Slot.tag? slot).getD fallback))

variable {α : Type} {pool : Pool} {context : String} {expected : List Tag}
  {index : UInt16} {tag : Tag} {pick : Entry → Option α}

/-- A usable slot holds an entry. -/
theorem usableSlot_eq_map (pool : Pool) (context : String) (index : UInt16) :
    pool.usableSlot context index = (pool.resolve context index).map some := by
  unfold usableSlot resolve
  rcases pool.get? index with _ | _ | entry <;> rfl

/-- The kind of a slot that has none does not matter. -/
theorem requireOr_eq_map (fallback : Tag) :
    pool.requireOr fallback context expected index =
      (pool.require context expected index).map some := by
  rw [requireOr, require, usableSlot_eq_map]
  cases pool.resolve context index with
  | error fault => rfl
  | ok entry =>
      show (if expected.contains entry.tag then _ else _) =
        Except.map some (if expected.contains entry.tag then _ else _)
      split <;> rfl

section

variable (fallback : Tag)

theorem pickOr_of_none (hSlot : pool.get? index = none) :
    pool.pickOr fallback tag pick context index =
      .error (.indexOutOfRange context index) := by
  rw [pickOr, usableSlot, hSlot]
  rfl

theorem pickOr_of_unusable (hSlot : pool.get? index = some none) :
    pool.pickOr fallback tag pick context index = .error (.indexUnusable context index) := by
  rw [pickOr, usableSlot, hSlot]
  rfl

/-- What is told of an entry that is not picked is its own kind. -/
theorem pickOr_of_entry {entry : Entry} (hEntry : pool.get? index = some (some entry)) :
    pool.pickOr fallback tag pick context index =
      match pick entry with
      | some a => .ok a
      | none => .error (.unexpectedEntry context index [tag] entry.tag) := by
  rw [pickOr, usableSlot, hEntry]
  show (match pick entry with | some a => _ | none => _) = _
  cases pick entry <;> rfl

variable (hPick : ∀ entry, (∃ a, pick entry = some a) ↔ entry.tag = tag)

include hPick

/-- Picking finds what a lookup of the one kind finds, and takes it apart. -/
theorem pickOr_eq_ok_iff {a : α} :
    pool.pickOr fallback tag pick context index = .ok a ↔
      ∃ entry, pool.require context [tag] index = .ok entry ∧ pick entry = some a := by
  simp only [require_eq_ok_iff, List.mem_singleton]
  rcases hSlot : pool.get? index with _ | _ | entry
  · simp [pickOr_of_none fallback hSlot]
  · simp [pickOr_of_unusable fallback hSlot]
  · rw [pickOr_of_entry fallback hSlot]
    constructor
    · intro hFound
      cases hPicked : pick entry with
      | none => simp [hPicked] at hFound
      | some b =>
          rw [hPicked] at hFound
          obtain rfl := Except.ok.inj hFound
          exact ⟨entry, ⟨rfl, (hPick entry).mp ⟨b, hPicked⟩⟩, hPicked⟩
    · intro hFound
      obtain ⟨_, ⟨hSame, -⟩, hPicked⟩ := hFound
      cases hSame
      rw [hPicked]

/-- Picking misses where a lookup of the one kind misses, and for the same reason. -/
theorem pickOr_eq_error_iff {fault : Fault} :
    pool.pickOr fallback tag pick context index = .error fault ↔
      pool.require context [tag] index = .error fault := by
  rcases hSlot : pool.get? index with _ | _ | entry
  · simp [pickOr_of_none fallback hSlot, require_of_none hSlot]
  · simp [pickOr_of_unusable fallback hSlot, require_of_unusable hSlot]
  · rw [pickOr_of_entry fallback hSlot]
    by_cases hTag : entry.tag = tag
    · obtain ⟨a, hPicked⟩ := (hPick entry).mpr hTag
      have hFound : pool.require context [tag] index = .ok entry :=
        require_eq_ok_iff.mpr ⟨hSlot, List.mem_singleton.mpr hTag⟩
      simp [hPicked, hFound]
    · have hOther : pick entry = none := by
        by_contra hSome
        exact hTag ((hPick entry).mp (Option.ne_none_iff_exists'.mp hSome))
      have hMember : entry.tag ∉ [tag] := mt List.mem_singleton.mp hTag
      simp [hOther, require_of_not_mem hSlot hMember]

end

/-! ## Texts and names of classes -/

theorem exists_text?_iff (entry : Entry) :
    (∃ text, entry.text? = some text) ↔ entry.tag = .utf8 := by
  rw [Entry.tag_eq_utf8_iff]
  cases entry <;> simp [Entry.text?]

theorem className?_eq_some_iff {entry : Entry} {name : UInt16} :
    entry.className? = some name ↔ entry = .textRef .classRef name := by
  cases entry with
  | textRef kind text => cases kind <;> simp [Entry.className?]
  | _ => simp [Entry.className?]

theorem exists_className?_iff (entry : Entry) :
    (∃ name, entry.className? = some name) ↔ entry.tag = .classRef := by
  simp only [className?_eq_some_iff, Entry.tag_eq_classRef_iff]

theorem text_eq_pickOr (fallback : Tag) :
    pool.text context index = pool.pickOr fallback .utf8 Entry.text? context index := by
  rcases hSlot : pool.get? index with _ | _ | entry
  · rw [pickOr_of_none fallback hSlot, text, resolve, hSlot]
    rfl
  · rw [pickOr_of_unusable fallback hSlot, text, resolve, hSlot]
    rfl
  · rw [pickOr_of_entry fallback hSlot, text, resolve_eq_ok_iff.mpr hSlot]
    cases entry <;> rfl

/-- The name of a class is the text that the class refers to. -/
theorem className_eq_pickOr (fallback : Tag) :
    pool.className context index =
      pool.pickOr fallback .classRef Entry.className? context index >>= fun name =>
        pool.text context name := by
  rcases hSlot : pool.get? index with _ | _ | entry
  · rw [pickOr_of_none fallback hSlot, className, resolve, hSlot]
    rfl
  · rw [pickOr_of_unusable fallback hSlot, className, resolve, hSlot]
    rfl
  · rw [pickOr_of_entry fallback hSlot, className, resolve_eq_ok_iff.mpr hSlot]
    cases entry with
    | textRef kind text => cases kind <;> rfl
    | _ => rfl

/-- A text is found where an entry of its kind is. -/
theorem text_eq_ok_iff_require {content : String} :
    pool.text context index = .ok content ↔
      pool.require context [.utf8] index = .ok (.utf8 content) := by
  rw [text_eq_ok_iff, require_eq_ok_iff]
  simp [Entry.tag]

/-- A text is missed where an entry of its kind is. -/
theorem text_eq_error_iff {fault : Fault} :
    pool.text context index = .error fault ↔
      pool.require context [.utf8] index = .error fault := by
  rw [text_eq_pickOr .utf8, pickOr_eq_error_iff .utf8 exists_text?_iff]

/-- The name of a class is looked up in two steps, and the first one that misses tells the
fault. -/
theorem className_eq_iff {outcome : Except Fault String} :
    pool.className context index = outcome ↔
      (∃ name, pool.require context [.classRef] index = .ok (.textRef .classRef name) ∧
        pool.text context name = outcome) ∨
      ∃ fault, pool.require context [.classRef] index = .error fault ∧
        outcome = .error fault := by
  rw [className_eq_pickOr .classRef]
  cases hRequired : pool.require context [.classRef] index with
  | error fault =>
      rw [(pickOr_eq_error_iff .classRef exists_className?_iff).mpr hRequired]
      simp [bind, Except.bind, eq_comm]
  | ok entry =>
      obtain ⟨-, hTag⟩ := require_eq_ok_iff.mp hRequired
      obtain ⟨name, rfl⟩ := Entry.tag_eq_classRef_iff.mp (List.mem_singleton.mp hTag)
      have hPicked : pool.pickOr .classRef .classRef Entry.className? context index =
          .ok name :=
        (pickOr_eq_ok_iff .classRef exists_className?_iff).mpr ⟨_, hRequired, rfl⟩
      rw [hPicked]
      simp [bind, Except.bind]

/-- In every pool, a text is found or missed like an entry of its kind, with the same
fault, and the name of a class is the text that the entry at the index refers to.  An
entry is found if the slot of that number holds one of the kinds that are expected, and
otherwise the fault is that there is no such slot, that it is unusable, or that its entry
has another kind, which is told.  The kind that would stand in for an unusable slot
decides none of this. -/
theorem lookups_agree (pool : Pool) (context : String) (index : UInt16) :
    (∀ content, pool.text context index = .ok content ↔
      pool.require context [.utf8] index = .ok (.utf8 content)) ∧
    (∀ fault, pool.text context index = .error fault ↔
      pool.require context [.utf8] index = .error fault) ∧
    (∀ outcome, pool.className context index = outcome ↔
      (∃ name, pool.require context [.classRef] index = .ok (.textRef .classRef name) ∧
        pool.text context name = outcome) ∨
      ∃ fault, pool.require context [.classRef] index = .error fault ∧
        outcome = .error fault) ∧
    (∀ expected entry, pool.require context expected index = .ok entry ↔
      pool.get? index = some (some entry) ∧ entry.tag ∈ expected) ∧
    (∀ expected fault, pool.require context expected index = .error fault ↔
      pool.Misses context expected index fault) ∧
    ∀ fallback,
      (∀ expected, pool.requireOr fallback context expected index =
        (pool.require context expected index).map some) ∧
      pool.pickOr fallback .utf8 Entry.text? context index = pool.text context index ∧
      (pool.pickOr fallback .classRef Entry.className? context index >>= fun name =>
        pool.pickOr fallback .utf8 Entry.text? context name) =
        pool.className context index := by
  refine ⟨fun content => text_eq_ok_iff_require, fun fault => text_eq_error_iff,
    fun outcome => className_eq_iff, fun expected entry => require_eq_ok_iff,
    fun expected fault => require_eq_error_iff, fun fallback =>
    ⟨fun expected => requireOr_eq_map fallback, (text_eq_pickOr fallback).symm, ?_⟩⟩
  rw [className_eq_pickOr fallback]
  simp only [text_eq_pickOr fallback]

end Pool

end ClassFormat
