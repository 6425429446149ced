import ClassFormat.Fault

namespace ClassFormat

/-!
# The constant pool

An entry is a number, a text, or a small record of references to other entries.
Entries of several kinds have the same fields, so `Entry` has one constructor
for each layout, and `Entry.tag` recovers the kind.  A floating point number is
kept as its bits.

The slots of a pool are numbered from one.  Zero names no slot, and some
references may be zero to say that there is nothing.

A lookup can go wrong in three ways: the index names no slot, it names an
unusable slot, or it names an entry of another kind than expected.  Every lookup
is told the context in which it is made, which its fault repeats.
-/

/-! ## Entries -/

/-- The kinds of entry that refer to one text. -/
inductive TextRefKind where
  | classRef
  | string
  | methodType
  | module
  | package
  deriving DecidableEq

/-- The kinds of entry that refer to a member of a class. -/
inductive MemberRefKind where
  | field
  | method
  | interfaceMethod
  deriving DecidableEq

/-- The kinds of entry that are computed by a bootstrap method. -/
inductive DynamicKind where
  | constant
  | callSite
  deriving DecidableEq

/-- The tag of an entry that refers to one text. -/
def TextRefKind.tag : TextRefKind → Tag
  | classRef => .classRef
  | string => .string
  | methodType => .methodType
  | module => .module
  | package => .package

/-- The tag of an entry that refers to a member. -/
def MemberRefKind.tag : MemberRefKind → Tag
  | field => .fieldRef
  | method => .methodRef
  | interfaceMethod => .interfaceMethodRef

/-- The tag of an entry that is computed. -/
def DynamicKind.tag : DynamicKind → Tag
  | constant => .dynamic
  | callSite => .invokeDynamic

/-- A usable entry of the constant pool.  References are indices into the pool,
except `bootstrap`, which counts the bootstrap methods of the class. -/
inductive Entry where
  | utf8 (text : String)
  | integer (value : Int32)
  | float (bits : UInt32)
  | long (value : Int64)
  | double (bits : UInt64)
  | textRef (kind : TextRefKind) (text : UInt16)
  | memberRef (kind : MemberRefKind) (owner nameAndType : UInt16)
  | nameAndType (name descriptor : UInt16)
  | methodHandle (kind : UInt8) (reference : UInt16)
  | dynamic (kind : DynamicKind) (bootstrap nameAndType : UInt16)
  deriving DecidableEq

namespace Entry

/-- The kind of an entry. -/
def tag : Entry → Tag
  | utf8 _ => .utf8
  | integer _ => .integer
  | float _ => .float
  | long _ => .long
  | double _ => .double
  | textRef kind _ => kind.tag
  | memberRef kind _ _ => kind.tag
  | nameAndType _ _ => .nameAndType
  | methodHandle _ _ => .methodHandle
  | dynamic kind _ _ => kind.tag

/-- Whether the entry occupies two slots. -/
def isWide (entry : Entry) : Bool := entry.tag.isWide

end Entry

/-- One slot of the pool: an entry, or the unusable second slot of an eight-byte
entry. -/
abbrev Slot := Option Entry

/-! ## Slots and lookups -/

/-- A constant pool: its slots in order. -/
structure Pool where
  slots : Array Slot

namespace Pool

/-- The number that a class file gives for the size of its pool: one more than
there are slots. -/
def count (pool : Pool) : Nat := pool.slots.size + 1

/-- The slot with the given number. -/
def get? (pool : Pool) (index : UInt16) : Option Slot :=
  if index = 0 then none else pool.slots[index.toNat - 1]?

/-- The entry at an index, which must be usable. -/
def resolve (pool : Pool) (context : String) (index : UInt16) :
    Except Fault Entry :=
  match pool.get? index with
  | none => .error (.indexOutOfRange context index)
  | some none => .error (.indexUnusable context index)
  | some (some entry) => .ok entry

/-- The entry at an index, which must be of one of the kinds `expected`. -/
def require (pool : Pool) (context : String) (expected : List Tag)
    (index : UInt16) : Except Fault Entry := do
  let entry ← pool.resolve context index
  if expected.contains entry.tag then return entry
  else throw (.unexpectedEntry context index expected entry.tag)

/-- Like `require`, but index zero stands for no entry. -/
def requireOptional (pool : Pool) (context : String) (expected : List Tag)
    (index : UInt16) : Except Fault (Option Entry) :=
  if index = 0 then .ok none
  else (pool.require context expected index).map some

/-- The text at an index. -/
def text (pool : Pool) (context : String) (index : UInt16) :
    Except Fault String := do
  match ← pool.resolve context index with
  | .utf8 text => return text
  | other => throw (.unexpectedEntry context index [.utf8] other.tag)

/-- The name of the class at an index, with slashes. -/
def className (pool : Pool) (context : String) (index : UInt16) :
    Except Fault String := do
  match ← pool.resolve context index with
  | .textRef .classRef name => pool.text context name
  | other => throw (.unexpectedEntry context index [.classRef] other.tag)

/-- The text at an index, if there is a text. -/
def text? (pool : Pool) (index : UInt16) : Option String :=
  match pool.get? index with
  | some (some (.utf8 text)) => some text
  | _ => none

end Pool

end ClassFormat
