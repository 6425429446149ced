import ClassFormat.Pool.Basic
import ClassFormat.Walk

namespace ClassFormat

/-!
# The references between pool entries

Every entry that refers to others must refer to entries of the right kind.  A
method handle must also suit its use: a handle that reads or writes a field
names a field, one that creates an object names `<init>`, and any other one
names a method that is neither `<init>` nor `<clinit>`.  From major version 52
on, static and special calls may also name interface methods.
-/

/-- The first major version in which handles for static and special calls may
name interface methods. -/
def interfaceHandleVersion : UInt16 := 52

/-- The name of every constructor. -/
def constructorName : String := "<init>"

/-- The name of the code that initializes a class. -/
def initializerName : String := "<clinit>"

namespace ReferenceKind

/-- The kinds of member that a handle may name under a major version. -/
def targets (major : UInt16) : ReferenceKind → List Tag
  | getField | getStatic | putField | putStatic => [.fieldRef]
  | invokeVirtual | newInvokeSpecial => [.methodRef]
  | invokeStatic | invokeSpecial =>
      if major < interfaceHandleVersion then [.methodRef]
      else [.methodRef, .interfaceMethodRef]
  | invokeInterface => [.interfaceMethodRef]

/-- Checks that a handle that calls a method may call one of this name. -/
def checkName (kind : ReferenceKind) (name : String) : Verdict :=
  if kind = newInvokeSpecial then
    if name = constructorName then .ok ()
    else .error (.constructorNotNamed kind name)
  else if name = constructorName ∨ name = initializerName then
    .error (.initializerNamed kind name)
  else .ok ()

end ReferenceKind

/-- What an entry that refers to one text calls it. -/
def TextRefKind.context : TextRefKind → String
  | classRef => "class name"
  | string => "string"
  | methodType => "method type descriptor"
  | module => "module name"
  | package => "package name"

namespace Pool

/-- Checks that an index names a usable entry of any kind. -/
def checkUsable (pool : Pool) (context : String) (index : UInt16) :
    Verdict := do
  let _ ← pool.resolve context index

/-- Checks that an index names an entry of one of the kinds `expected`. -/
def check (pool : Pool) (context : String) (expected : List Tag)
    (index : UInt16) : Verdict := do
  let _ ← pool.require context expected index

/-- Like `check`, but index zero stands for no entry. -/
def checkOptional (pool : Pool) (context : String) (expected : List Tag)
    (index : UInt16) : Verdict := do
  let _ ← pool.requireOptional context expected index

/-- The name in the name and type of a method that a handle calls. -/
def calledName (pool : Pool) (nameAndType : UInt16) : Except Fault String := do
  let context := "method handle name and type"
  match ← pool.resolve context nameAndType with
  | .nameAndType name _ => pool.text "method handle name" name
  | other =>
      throw (.unexpectedEntry context nameAndType [.nameAndType] other.tag)

/-- Checks the use that a method handle makes of the member it refers to. -/
def checkHandle (pool : Pool) (major : UInt16) (code : UInt8)
    (reference : UInt16) : Verdict :=
  match ReferenceKind.ofCode? code with
  | none => .error (.unknownReferenceKind code)
  | some kind => do
      let member ← pool.require "method handle reference" (kind.targets major)
        reference
      match member with
      | .memberRef _ _ nameAndType =>
          if kind.isInvoke then
            kind.checkName (← pool.calledName nameAndType)
      | _ => return

/-- Checks the references that an entry makes. -/
def checkEntry (pool : Pool) (major : UInt16) : Entry → Verdict
  | .utf8 _ | .integer _ | .float _ | .long _ | .double _ => .ok ()
  | .textRef kind text => pool.check kind.context [.utf8] text
  | .memberRef _ owner nameAndType => do
      pool.check "member reference class" [.classRef] owner
      pool.check "member reference name and type" [.nameAndType] nameAndType
  | .nameAndType name descriptor => do
      pool.check "name and type name" [.utf8] name
      pool.check "name and type descriptor" [.utf8] descriptor
  | .methodHandle kind reference => pool.checkHandle major kind reference
  | .dynamic _ _ nameAndType =>
      pool.check "dynamic name and type" [.nameAndType] nameAndType

/-- Checks the references that a slot makes; an unusable one makes none. -/
def checkSlot (pool : Pool) (major : UInt16) : Slot → Verdict
  | some entry => pool.checkEntry major entry
  | none => .ok ()

/-- Checks the references that all slots of a pool make, slot by slot. -/
def checkLinks (pool : Pool) (major : UInt16) : Verdict :=
  Verdict.each (pool.checkSlot major) pool.slots.toList

end Pool

end ClassFormat
