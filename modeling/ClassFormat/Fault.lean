import ClassFormat.Pool.Tag
import ClassFormat.Attribute.Kind

namespace ClassFormat

/-!
# What can be wrong with a class file

One type holds every cause for which a class file is refused, by the reader or
by the checks that follow.  The wording is in `Fault.message` alone.  A fault
belongs to one of five families, and only a fault of the first family can be
mended by more bytes.
-/

/-- How the input ended too early. -/
inductive Shortage where
  /-- Inside a number or a list of numbers. -/
  | field
  /-- Before a run of `needed` bytes, of which `remaining` were there. -/
  | run (needed remaining : Nat)
  deriving DecidableEq

/-- The deepest level at which a class file may nest its structures. -/
def maxNesting : Nat := 256

/-- A cause for which a class file is refused. -/
inductive Fault where
  | truncated (shortage : Shortage)
  | unknownMagic (found : UInt32)
  | unknownPoolTag (code : UInt8)
  | unknownFrameType (code : UInt8)
  | unknownVerificationTag (code : UInt8)
  | unknownElementTag (code : UInt8)
  | unknownTargetType (code : UInt8)
  /-- The bytes of a pool text spell no text. -/
  | malformedText
  | malformedDescriptor (text : String)
  | codeLengthOutOfBounds (length : UInt32)
  /-- An attribute announces another length than its payload has. -/
  | lengthMismatch (kind : AttributeKind) (declared : UInt32) (actual : Nat)
  | trailingBytes (count : Nat)
  | offsetOutsideCode (context : String) (offset : UInt16) (codeLength : Nat)
  | rangeReversed (context : String) (start stop : UInt16)
  /-- A structure is entered below level `maxNesting`. -/
  | nestedTooDeep
  | indexOutOfRange (context : String) (index : UInt16)
  /-- The index names the second slot of an eight-byte entry. -/
  | indexUnusable (context : String) (index : UInt16)
  | unexpectedEntry (context : String) (index : UInt16) (expected : List Tag)
      (found : Tag)
  | unknownReferenceKind (code : UInt8)
  /-- A handle that creates an object names another method than `<init>`. -/
  | constructorNotNamed (kind : ReferenceKind) (found : String)
  /-- A handle that calls a method names `<init>` or `<clinit>`. -/
  | initializerNamed (kind : ReferenceKind) (found : String)
  | markerNotEmpty (name : String) (length : UInt32)
  | malformedDebugExtension
  deriving DecidableEq

/-- The five families of faults. -/
inductive Family where
  /-- The bytes ran out. -/
  | truncation
  /-- A tag or a text that the format does not know. -/
  | malformed
  /-- A length, an offset or a depth outside its limits. -/
  | bounds
  /-- An index into the pool that names nothing, or the wrong thing. -/
  | reference
  /-- A rule about names, versions or markers. -/
  | semantic
  deriving DecidableEq

/-- Every family but truncation blames the content of the input. -/
def Family.isContent : Family → Bool
  | truncation => false
  | malformed | bounds | reference | semantic => true

/-- The hexadecimal digits of a number, in capitals, at least `width` of them. -/
def upperHex (width n : Nat) : String :=
  let digits := (Nat.toDigits 16 n).map Char.toUpper
  String.ofList (List.replicate (width - digits.length) '0' ++ digits)

/-- What is missing, in words. -/
def Shortage.message : Shortage → String
  | field => "failed to fill whole buffer"
  | run needed remaining => s!"needed {needed} bytes, {remaining} remaining"

namespace Fault

/-- The family that a fault belongs to. -/
def family : Fault → Family
  | truncated _ => .truncation
  | unknownMagic _ | unknownPoolTag _ | unknownFrameType _
  | unknownVerificationTag _ | unknownElementTag _ | unknownTargetType _
  | malformedText | malformedDescriptor _ => .malformed
  | codeLengthOutOfBounds _ | lengthMismatch .. | trailingBytes _
  | offsetOutsideCode .. | rangeReversed .. | nestedTooDeep => .bounds
  | indexOutOfRange .. | indexUnusable .. | unexpectedEntry .. => .reference
  | unknownReferenceKind _ | constructorNotNamed .. | initializerNamed ..
  | markerNotEmpty .. | malformedDebugExtension => .semantic

/-- The fault in words. -/
def message : Fault → String
  | truncated shortage => s!"Truncated input: {shortage.message}"
  | unknownMagic found => s!"Invalid magic identifier: 0x{upperHex 1 found.toNat}"
  | unknownPoolTag code => s!"Invalid cp info tag: {code}"
  | unknownFrameType code => s!"Invalid stack map frame type: {code}"
  | unknownVerificationTag code => s!"Invalid verification type info tag: {code}"
  | unknownElementTag code =>
      s!"Invalid element value tag: 0x{upperHex 2 code.toNat}"
  | unknownTargetType code =>
      s!"Invalid type annotation target type: 0x{upperHex 2 code.toNat}"
  | malformedText => "Invalid modified UTF-8 in constant pool string"
  | malformedDescriptor text => s!"Invalid descriptor: {text}"
  | codeLengthOutOfBounds length => s!"Invalid code length: {length}"
  | lengthMismatch kind declared actual =>
      s!"Attribute {kind.name} declares {declared} bytes but {actual} were decoded"
  | trailingBytes count =>
      s!"Additional bytes found at the end of the stream: {count}"
  | offsetOutsideCode context offset codeLength =>
      s!"{context}: {offset} is outside of the code array (length {codeLength})"
  | rangeReversed context start stop =>
      s!"{context}: range starts at {start} after its end {stop}"
  | nestedTooDeep => s!"Structure nested deeper than {maxNesting} levels"
  | indexOutOfRange context index =>
      s!"{context}: constant pool index {index} is out of range"
  | indexUnusable context index =>
      s!"{context}: constant pool index {index} is the unusable half of a long or double"
  | unexpectedEntry context index expected found =>
      let names := " or ".intercalate (expected.map Tag.name)
      s!"{context}: expected {names} at index {index}, found {found.name}"
  | unknownReferenceKind code =>
      s!"Invalid method handle reference kind: {code}"
  | constructorNotNamed kind found =>
      s!"method handle of kind {kind.name} must name <init>, found {found}"
  | initializerNamed kind found =>
      s!"method handle of kind {kind.name} must not name {found}"
  | markerNotEmpty name length =>
      s!"{name} attribute must be empty, found {length} bytes"
  | malformedDebugExtension => "source debug extension is not modified UTF-8"

end Fault

end ClassFormat
