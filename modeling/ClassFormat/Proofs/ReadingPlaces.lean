import Mathlib
import ClassFormat.Proofs.Composition
import ClassFormat.Proofs.Places

namespace ClassFormat

/-!
# Reading up to a place

Before it comes to an attribute in a place, the reader of class files has read what is in
front of the attribute, and it has not looked at anything behind.  So, whatever is behind
the front of the place, a fault of the reader of the attribute is a fault of the reader of
the class file.

* `Reader.Reaches` says that a reader comes to run another one without a fault.
* `ClassFile.reaches_place` says that the reader of class files comes to every place.
-/

/-! ## Coming to a point of the input -/

namespace Reader

variable {α β γ : Type}

/-- On the input, the reader comes to run the other one on a rest of the input: a fault
there is its own fault. -/
def Reaches (p : Reader α) (bytes : List UInt8) (q : Reader β) (rest : List UInt8) : Prop :=
  ∀ fault, q.run rest = .error fault → p.run bytes = .error fault

namespace Reaches

theorem trans {p : Reader α} {q : Reader β} {r : Reader γ} {bytes middle rest : List UInt8}
    (hFirst : p.Reaches bytes q middle) (hNext : q.Reaches middle r rest) :
    p.Reaches bytes r rest :=
  fun fault hFault => hFirst fault (hNext fault hFault)

/-- A sequence begins with its first step. -/
theorem start (p : Reader α) (f : α → Reader β) (bytes : List UInt8) :
    (p >>= f).Reaches bytes p bytes :=
  fun _ hFault => run_bind_eq_error.mpr (.inl hFault)

/-- A sequence comes to its second step behind a result of the first one. -/
theorem andThen {p : Reader α} {a : α} {bytes rest : List UInt8}
    (hFirst : p.run bytes = .ok (a, rest)) (f : α → Reader β) :
    (p >>= f).Reaches bytes (f a) rest :=
  fun _ hFault => run_bind_eq_error.mpr (.inr ⟨a, rest, hFirst, hFault⟩)

theorem map (p : Reader α) (f : α → β) (bytes : List UInt8) :
    (f <$> p).Reaches bytes p bytes :=
  start p (fun a => pure (f a)) bytes

theorem measure (p : Reader α) (bytes : List UInt8) :
    (Reader.measure p).Reaches bytes p bytes :=
  fun _ hFault => run_measure_eq_error.mpr hFault

theorem word16 (word : UInt16) (f : UInt16 → Reader α) (rest : List UInt8) :
    (Reader.word16 >>= f).Reaches (BigEndian.bytes16 word ++ rest) (f word) rest :=
  andThen (run_word16_eq_ok.mpr rfl) f

theorem word32 (word : UInt32) (f : UInt32 → Reader α) (rest : List UInt8) :
    (Reader.word32 >>= f).Reaches (BigEndian.bytes32 word ++ rest) (f word) rest :=
  andThen (run_word32_eq_ok.mpr rfl) f

/-- A repeated reader comes to the item behind those that are spelled. -/
theorem count {p : Reader α} {spells : Spelling α} (hReads : p.Reads spells)
    {items : List α} {pieces : List (List UInt8)}
    (hPieces : List.Forall₂ spells items pieces) (later : Nat) (rest : List UInt8) :
    (Reader.count p (items.length + 1 + later)).Reaches (pieces.flatten ++ rest) p rest := by
  induction hPieces with
  | nil =>
      intro fault hFault
      rw [List.length_nil, Nat.zero_add, Nat.add_comm, count_succ]
      exact start p _ rest fault hFault
  | @cons item piece items pieces hPiece hPieces ih =>
      intro fault hFault
      have hItem := hReads.run_append hPiece (pieces.flatten ++ rest)
      have hCount : (item :: items).length + 1 + later = items.length + 1 + later + 1 := by
        rw [List.length_cons]
        omega
      rw [hCount, count_succ, List.flatten_cons, List.append_assoc]
      exact (andThen hItem _).trans ((map _ _ _).trans ih) fault hFault

/-- The items in front may be given by their outlines. -/
theorem countOutlines {p : Reader α} {good : α → Prop} {outlineOf : α → Outline}
    (hReads : p.Reads fun a head => good a ∧ (outlineOf a).Spells head) {items : List α}
    (hGood : ∀ item ∈ items, good item) {front : List UInt8}
    (hFront : Outline.Spells (items.flatMap outlineOf) front) (later : Nat)
    (rest : List UInt8) :
    (Reader.count p (items.length + 1 + later)).Reaches (front ++ rest) p rest := by
  obtain ⟨pieces, hPieces, rfl⟩ := Outline.spells_flatMap.mpr ⟨hGood, hFront⟩
  exact count hReads hPieces later rest

/-- The length of a list is in front of its items. -/
theorem list16 (p : Reader α) {length : Nat} (hFew : length < 0x10000)
    (rest : List UInt8) :
    (Reader.list16 p).Reaches (BigEndian.bytes16 (UInt16.ofNat length) ++ rest)
      (Reader.count p length) rest := by
  have hLength : (UInt16.ofNat length).toNat = length := UInt16.toNat_ofNat_of_lt' hFew
  have hWord := word16 (UInt16.ofNat length) (fun word => Reader.count p word.toNat) rest
  rw [hLength] at hWord
  exact hWord

end Reaches

end Reader

open Reader

/-! ## Parts of payloads -/

/-- Behind the handlers of a method body are its attributes. -/
theorem Code.reaches_attributes (inner : Option (Reader Attribute)) (shell : Code)
    (hBounds : 0 < shell.instructions.length ∧ shell.instructions.length < 0x10000)
    (hHandlers : shell.handlers.length < 0x10000) (rest : List UInt8) :
    (readWith inner).Reaches
      (BigEndian.bytes16 shell.maxStack ++ BigEndian.bytes16 shell.maxLocals ++
        BigEndian.bytes32 (UInt32.ofNat shell.instructions.length) ++
        shell.instructions ++ Writer.list16 ExceptionHandler.write shell.handlers ++ rest)
      (Attribute.readInner inner) rest := by
  have hLength : (UInt32.ofNat shell.instructions.length).toNat =
      shell.instructions.length :=
    UInt32.toNat_ofNat_of_lt' (hBounds.2.trans (by decide))
  have hInBounds : ¬(UInt32.ofNat shell.instructions.length = 0 ∨
      maxCodeLength < UInt32.ofNat shell.instructions.length) := by
    rw [not_codeLength_iff, hLength]
    exact hBounds
  have hTable : (Reader.list16 ExceptionHandler.read).run
      (Writer.list16 ExceptionHandler.write shell.handlers ++ rest) =
        .ok (shell.handlers, rest) :=
    ExceptionHandler.inverts_read.list16.run_eq_ok.mpr ⟨counted16_true.mpr hHandlers, rfl⟩
  simp only [List.append_assoc]
  refine (Reaches.word16 _ _ _).trans ((Reaches.word16 _ _ _).trans
    ((Reaches.word32 _ _ _).trans ?_))
  rw [if_neg hInBounds, hLength]
  exact (Reaches.andThen (run_take_eq_ok.mpr ⟨rfl, rfl⟩) _).trans
    ((Reaches.andThen hTable _).trans (.start _ _ _))

/-- Behind the name and the descriptor of a record component are its attributes. -/
theorem RecordComponent.reaches_attributes (inner : Option (Reader Attribute))
    (name descriptor : UInt16) (rest : List UInt8) :
    (readWith inner).Reaches
      (BigEndian.bytes16 name ++ BigEndian.bytes16 descriptor ++ rest)
      (Attribute.readInner inner) rest := by
  rw [List.append_assoc]
  exact (Reaches.word16 name _ _).trans ((Reaches.word16 descriptor _ _).trans
    (.start _ _ _))

/-! ## Places -/

namespace Attribute

variable {pool : Pool} {room : Nat}

/-- With room for a level, the attributes inside begin behind their number. -/
theorem reaches_inner (attr : Reader Attribute) {length : Nat} (hFew : length < 0x10000)
    (rest : List UInt8) :
    (readInner (some attr)).Reaches (BigEndian.bytes16 (UInt16.ofNat length) ++ rest)
      (count attr length) rest :=
  Reaches.list16 attr hFew rest

/-- Behind the name and the length of an attribute is its payload. -/
theorem reaches_payload (room : Nat) {name : UInt16} {kind : AttributeKind}
    (hKind : pool.attributeKind? name = some kind) (length : UInt32) (rest : List UInt8) :
    (read pool (room + 1)).Reaches
      (BigEndian.bytes16 name ++ BigEndian.bytes32 length ++ rest)
      (Payload.readWith (room + 1) (some (read pool room)) length kind) rest := by
  rw [List.append_assoc]
  refine (Reaches.word16 name _ _).trans ((Reaches.word32 length _ _).trans ?_)
  rw [hKind]
  exact (Reaches.start _ _ _).trans (.measure _ _)

/-- The reader of a method body comes to the attributes inside. -/
theorem reaches_inCode {name : UInt16} {length : UInt32} {shell : Code}
    {attributes : List Attribute}
    (hFits : Fits pool (room + 1) ⟨name, length, .code { shell with attributes }⟩)
    (rest : List UInt8) :
    (read pool (room + 1)).Reaches
      (BigEndian.bytes16 name ++ BigEndian.bytes32 length ++
        (BigEndian.bytes16 shell.maxStack ++ BigEndian.bytes16 shell.maxLocals ++
          BigEndian.bytes32 (UInt32.ofNat shell.instructions.length) ++
          shell.instructions ++ Writer.list16 ExceptionHandler.write shell.handlers ++
          (BigEndian.bytes16 (UInt16.ofNat attributes.length) ++ rest)))
      (count (read pool room) attributes.length) rest := by
  obtain ⟨⟨hKind, -, hBounds, hHandlers, hFew, -⟩, -⟩ := hFits
  have hBody := Code.reaches_attributes (some (read pool room)) shell hBounds hHandlers
  exact (reaches_payload room hKind length _).trans ((Reaches.map _ _ _).trans
    ((hBody _).trans (reaches_inner _ hFew rest)))

/-- The reader of record components comes to the attributes inside one of them. -/
theorem reaches_inComponent {name : UInt16} {length : UInt32}
    {earlier later : List RecordComponent} {shell : RecordComponent}
    {attributes : List Attribute}
    (hFits : Fits pool (room + 1)
      ⟨name, length, .record (earlier ++ { shell with attributes } :: later)⟩)
    {front : List UInt8} (hFront : (RecordComponent.outlineAll earlier).Spells front)
    (rest : List UInt8) :
    (read pool (room + 1)).Reaches
      (BigEndian.bytes16 name ++ BigEndian.bytes32 length ++
        (BigEndian.bytes16 (UInt16.ofNat (earlier.length + 1 + later.length)) ++
          (front ++ (BigEndian.bytes16 shell.name ++ BigEndian.bytes16 shell.descriptor ++
            (BigEndian.bytes16 (UInt16.ofNat attributes.length) ++ rest)))))
      (count (read pool room) attributes.length) rest := by
  obtain ⟨⟨hKind, -, hCount, hComponents⟩, hDepth⟩ := hFits
  obtain ⟨hEarlier, ⟨hFew, -⟩, -⟩ := RecordComponent.allWellFormed_append.mp hComponents
  rw [Attribute.depth, Payload.depth, RecordComponent.depthAll_append, max_le_iff] at hDepth
  have hGood : ∀ component ∈ earlier, component.Fits pool (room + 1) := fun component hMem =>
    ⟨RecordComponent.allWellFormed_iff.mp hEarlier component hMem,
      RecordComponent.depthAll_le_iff.mp hDepth.1 component hMem⟩
  have hNumber : earlier.length + 1 + later.length < 0x10000 := by
    rw [List.length_append, List.length_cons] at hCount
    omega
  have hReads := RecordComponent.reads_readWith (.some (reads_read pool room))
  rw [RecordComponent.outlineAll_eq_flatMap] at hFront
  have hComponent := Reaches.countOutlines hReads hGood hFront later.length
  exact (reaches_payload room hKind length _).trans ((Reaches.map _ _ _).trans
    ((Reaches.list16 _ hNumber _).trans ((hComponent _).trans
      ((RecordComponent.reaches_attributes _ _ _ _).trans (reaches_inner _ hFew rest)))))

/-- The attributes before one of a list are read, and there is room for the one. -/
theorem fits_of_append {before after : List Attribute} {attr : Attribute}
    (hAll : AllWellFormed pool (before ++ attr :: after))
    (hDepth : depthAll (before ++ attr :: after) ≤ room) :
    (∀ other ∈ before, other.Fits pool room) ∧ attr.Fits pool room := by
  rw [allWellFormed_iff] at hAll
  rw [depthAll_le_iff] at hDepth
  have hFits : ∀ other ∈ before ++ attr :: after, other.Fits pool room :=
    fun other hOther => ⟨hAll other hOther, hDepth other hOther⟩
  rw [List.forall_mem_append, List.forall_mem_cons] at hFits
  exact ⟨hFits.1, hFits.2.1⟩

/-- The reader of a list of attributes comes to the attribute behind those that are
spelled. -/
theorem reaches_behind {before : List Attribute}
    (hBefore : ∀ other ∈ before, other.Fits pool room) {front : List UInt8}
    (hFront : (outlineAll before).Spells front) (later : Nat) (rest : List UInt8) :
    (count (read pool room) (before.length + 1 + later)).Reaches (front ++ rest)
      (read pool room) rest := by
  rw [outlineAll_eq_flatMap] at hFront
  exact .countOutlines (reads_read pool room) hBefore hFront later rest

/-- The reader of a list of attributes comes to the attribute in a place of it, with
enough room for the attribute. -/
theorem reaches_place {attr : Attribute} (place : Place)
    {front : List UInt8} (hAll : AllWellFormed pool (place.fill attr))
    (hDepth : depthAll (place.fill attr) ≤ room) (hFront : place.front.Spells front) :
    ∃ left, attr.Fits pool left ∧ ∀ rest,
      (count (read pool room) place.count).Reaches (front ++ rest) (read pool left) rest := by
  induction place generalizing room front with
  | here before after =>
      obtain ⟨hBefore, hLeft⟩ := fits_of_append hAll hDepth
      exact ⟨room, hLeft, reaches_behind hBefore hFront after.length⟩
  | inCode before name length shell inner after ih =>
      obtain ⟨hBefore, hOuter⟩ := fits_of_append hAll hDepth
      -- A method body takes a level, so there is room for the list inside it.
      have hRoom : depthAll (inner.fill attr) + 1 ≤ room := hOuter.2
      obtain ⟨room, rfl⟩ := Nat.exists_eq_succ_of_ne_zero (Nat.ne_zero_of_lt hRoom)
      obtain ⟨first, _, hFirst, hOthers, rfl⟩ := Outline.spells_append.mp hFront
      obtain ⟨_, hBody, rfl⟩ := Outline.spells_fixed_cons.mp hOthers
      obtain ⟨_, hList, rfl⟩ := Outline.spells_fixed_cons.mp hBody
      obtain ⟨last, hLast, rfl⟩ := Outline.spells_fixed_cons.mp hList
      obtain ⟨-, -, -, -, -, hInside⟩ := hOuter.1
      obtain ⟨left, hLeft, hReaches⟩ := ih hInside (Nat.le_of_succ_le_succ hRoom) hLast
      refine ⟨left, hLeft, fun rest => ?_⟩
      have hHere := reaches_behind hBefore hFirst after.length
      have hList := reaches_inCode hOuter (last ++ rest)
      rw [Place.length_fill] at hList
      simpa only [Place.count, List.append_assoc] using
        (hHere _).trans (hList.trans (hReaches rest))
  | inComponent before name length earlier shell inner later after ih =>
      obtain ⟨hBefore, hOuter⟩ := fits_of_append hAll hDepth
      have hShell : { shell with attributes := inner.fill attr } ∈
          earlier ++ { shell with attributes := inner.fill attr } :: later :=
        List.mem_append_right earlier List.mem_cons_self
      have hRoom : depthAll (inner.fill attr) + 1 ≤ room :=
        RecordComponent.depthAll_le_iff.mp hOuter.2 _ hShell
      obtain ⟨-, -, -, hComponents⟩ := hOuter.1
      have hInside := (RecordComponent.allWellFormed_iff.mp hComponents _ hShell).2
      obtain ⟨room, rfl⟩ := Nat.exists_eq_succ_of_ne_zero (Nat.ne_zero_of_lt hRoom)
      obtain ⟨first, _, hFirst, hOthers, rfl⟩ := Outline.spells_append.mp hFront
      obtain ⟨_, hCounted, rfl⟩ := Outline.spells_fixed_cons.mp hOthers
      obtain ⟨_, hSpelled, rfl⟩ := Outline.spells_fixed_cons.mp hCounted
      obtain ⟨middle, _, hMiddle, hBody, rfl⟩ := Outline.spells_append.mp hSpelled
      obtain ⟨_, hList, rfl⟩ := Outline.spells_fixed_cons.mp hBody
      obtain ⟨last, hLast, rfl⟩ := Outline.spells_fixed_cons.mp hList
      obtain ⟨left, hLeft, hReaches⟩ := ih hInside (Nat.le_of_succ_le_succ hRoom) hLast
      refine ⟨left, hLeft, fun rest => ?_⟩
      have hHere := reaches_behind hBefore hFirst after.length
      have hList := reaches_inComponent hOuter hMiddle (last ++ rest)
      rw [Place.length_fill] at hList
      simpa only [Place.count, List.append_assoc] using
        (hHere _).trans (hList.trans (hReaches rest))

/-- The reader of the attributes of a class or a member, with their number in front. -/
theorem reaches_placeInList {attr : Attribute} (place : Place)
    (hCounted : Counted16 (WellFormed pool) (place.fill attr))
    (hDepth : depthAll (place.fill attr) ≤ maxNesting) {front : List UInt8}
    (hFront : place.front.Spells front) :
    ∃ left, attr.Fits pool left ∧ ∀ rest,
      (readList pool).Reaches (BigEndian.bytes16 (UInt16.ofNat place.count) ++ (front ++ rest))
        (read pool left) rest := by
  obtain ⟨hFew, hAll⟩ := hCounted
  rw [Place.length_fill] at hFew
  obtain ⟨left, hLeft, hReaches⟩ :=
    reaches_place place (allWellFormed_iff.mpr hAll) hDepth hFront
  exact ⟨left, hLeft, fun rest =>
    (Reaches.list16 (read pool maxNesting) hFew _).trans (hReaches rest)⟩

end Attribute

namespace Member

variable {pool : Pool} {kind : MemberKind}

/-- Behind the descriptor of a field or method are its attributes. -/
theorem reaches_attributes (flags name descriptor : UInt16) (rest : List UInt8) :
    (read pool kind).Reaches
      (BigEndian.bytes16 flags ++ BigEndian.bytes16 name ++ BigEndian.bytes16 descriptor ++
        rest) (Attribute.readList pool) rest := by
  simp only [List.append_assoc]
  exact (Reaches.word16 flags _ _).trans ((Reaches.word16 name _ _).trans
    ((Reaches.word16 descriptor _ _).trans (.start _ _ _)))

/-- The reader of fields or methods comes to the attribute in a place of them. -/
theorem reaches_place {attr : Attribute} (place : Place)
    (hCounted : Counted16 (fun member => member.kind = kind ∧ member.WellFormed pool)
      (place.fill attr))
    (hDepth : ∀ member ∈ place.fill attr, member.depth ≤ maxNesting) {front : List UInt8}
    (hFront : place.front.Spells front) :
    ∃ left, attr.Fits pool left ∧ ∀ rest,
      (list16 (read pool kind)).Reaches
        (BigEndian.bytes16 (UInt16.ofNat place.count) ++ (front ++ rest))
        (Attribute.read pool left) rest := by
  obtain ⟨hFew, hMembers⟩ := hCounted
  rw [Place.length_fill] at hFew
  rw [Place.fill, List.forall_mem_append, List.forall_mem_cons] at hMembers hDepth
  obtain ⟨hEarlier, ⟨-, hAttributes⟩, -⟩ := hMembers
  obtain ⟨hShallow, hInside, -⟩ := hDepth
  obtain ⟨first, _, hFirst, hOthers, rfl⟩ := Outline.spells_append.mp hFront
  obtain ⟨_, hList, rfl⟩ := Outline.spells_fixed_cons.mp hOthers
  obtain ⟨last, hLast, rfl⟩ := Outline.spells_fixed_cons.mp hList
  obtain ⟨left, hLeft, hReaches⟩ :=
    Attribute.reaches_placeInList place.inner hAttributes hInside hLast
  have hGood : ∀ member ∈ place.earlier,
      (member.kind = kind ∧ member.WellFormed pool) ∧ member.depth ≤ maxNesting :=
    fun member hMember => ⟨hEarlier member hMember, hShallow member hMember⟩
  have hHere := Reaches.countOutlines (reads_read pool kind) hGood hFirst place.later.length
  refine ⟨left, hLeft, fun rest => ?_⟩
  simpa only [List.append_assoc] using (Reaches.list16 (read pool kind) hFew _).trans
    ((hHere _).trans ((reaches_attributes _ _ _ _).trans (hReaches rest)))

end Member

namespace ClassFile

/-- What is read behind the interfaces: the fields, the methods and the attributes. -/
def readBody (shell : ClassFile) : Reader ClassFile := do
  let fields ← Reader.list16 (Member.read shell.pool .field)
  let methods ← Reader.list16 (Member.read shell.pool .method)
  let attributes ← Attribute.readList shell.pool
  return { shell with fields, methods, attributes }

/-- Behind the interfaces is the body of the class. -/
theorem reaches_body (shell : ClassFile) (hPool : shell.pool.IsLaidOut)
    (hInterfaces : shell.interfaces.length < 0x10000) {head : List UInt8}
    (hHead : shell.headOutline.Spells head) (rest : List UInt8) :
    ClassFile.read.Reaches (head ++ rest) shell.readBody rest := by
  obtain ⟨_, hOthers, rfl⟩ := Outline.spells_fixed_cons.mp hHead
  obtain ⟨slots, _, hSlots, hClass, rfl⟩ := Outline.spells_append.mp hOthers
  obtain rfl := Outline.spells_fixed.mp hClass
  have hMagic (rest : List UInt8) :
      readMagic.run (BigEndian.bytes32 magic ++ rest) = .ok ((), rest) :=
    run_readMagic_eq_ok.mpr rfl
  have hRead := Pool.reads_read.run_append ⟨hPool, hSlots⟩
  have hList : (list16 word16).run
      (Writer.list16 BigEndian.bytes16 shell.interfaces ++ rest) =
        .ok (shell.interfaces, rest) :=
    run_words_eq_ok.mpr ⟨hInterfaces, rfl⟩
  simp only [List.append_assoc]
  exact (Reaches.andThen (hMagic _) _).trans ((Reaches.word16 _ _ _).trans
    ((Reaches.word16 _ _ _).trans ((Reaches.andThen (hRead _) _).trans
    ((Reaches.word16 _ _ _).trans ((Reaches.word16 _ _ _).trans
    ((Reaches.word16 _ _ _).trans (Reaches.andThen hList _)))))))

/-- The reader of class files comes to the attribute in a place, with enough room for the
attribute. -/
theorem reaches_place {attr : Attribute} (place : Place)
    (hFile : (place.fill attr).WellFormed) (hDepth : (place.fill attr).depth ≤ maxNesting)
    {front : List UInt8} (hFront : place.front.Spells front) :
    ∃ left, attr.Fits place.pool left ∧ ∀ rest,
      ClassFile.read.Reaches (front ++ rest) (Attribute.read place.pool left) rest := by
  obtain ⟨hPool, hInterfaces, hFields, hMethods, hAttributes⟩ := hFile
  obtain ⟨hInFields, hInMethods, hInside⟩ := depth_le_iff.mp hDepth
  cases place with
  | ofField shell members =>
      obtain ⟨head, _, hHead, hOthers, rfl⟩ := Outline.spells_append.mp hFront
      obtain ⟨last, hLast, rfl⟩ := Outline.spells_fixed_cons.mp hOthers
      have hBody := reaches_body shell hPool hInterfaces hHead
      obtain ⟨left, hLeft, hReaches⟩ :=
        Member.reaches_place members hFields hInFields hLast
      refine ⟨left, hLeft, fun rest => ?_⟩
      rw [List.append_assoc, List.append_assoc]
      exact (hBody _).trans ((Reaches.start _ _ _).trans (hReaches rest))
  | ofMethod shell members =>
      obtain ⟨head, _, hHead, hOthers, rfl⟩ := Outline.spells_append.mp hFront
      obtain ⟨fields, _, hSpelled, hList, rfl⟩ := Outline.spells_append.mp hOthers
      obtain ⟨last, hLast, rfl⟩ := Outline.spells_fixed_cons.mp hList
      have hBody := reaches_body shell hPool hInterfaces hHead
      have hFirst := (Member.reads_readList shell.pool .field).run_append
        ⟨⟨hFields, hInFields⟩, hSpelled⟩
      obtain ⟨left, hLeft, hReaches⟩ :=
        Member.reaches_place members hMethods hInMethods hLast
      refine ⟨left, hLeft, fun rest => ?_⟩
      simp only [List.append_assoc]
      exact (hBody _).trans ((Reaches.andThen (hFirst _) _).trans
        ((Reaches.start _ _ _).trans (hReaches rest)))
  | ofClass shell inner =>
      obtain ⟨head, _, hHead, hOthers, rfl⟩ := Outline.spells_append.mp hFront
      obtain ⟨_, _, hMembers, hList, rfl⟩ := Outline.spells_append.mp hOthers
      obtain ⟨fields, methods, hSpelled, hSpelled', rfl⟩ := Outline.spells_append.mp hMembers
      obtain ⟨last, hLast, rfl⟩ := Outline.spells_fixed_cons.mp hList
      have hBody := reaches_body shell hPool hInterfaces hHead
      have hFirst := (Member.reads_readList shell.pool .field).run_append
        ⟨⟨hFields, hInFields⟩, hSpelled⟩
      have hSecond := (Member.reads_readList shell.pool .method).run_append
        ⟨⟨hMethods, hInMethods⟩, hSpelled'⟩
      obtain ⟨left, hLeft, hReaches⟩ :=
        Attribute.reaches_placeInList inner hAttributes hInside hLast
      refine ⟨left, hLeft, fun rest => ?_⟩
      simp only [List.append_assoc]
      exact (hBody _).trans ((Reaches.andThen (hFirst _) _).trans
        ((Reaches.andThen (hSecond _) _).trans
        ((Reaches.start _ _ _).trans (hReaches rest))))

end ClassFile

end ClassFormat
