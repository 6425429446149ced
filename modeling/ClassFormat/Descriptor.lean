import ClassFormat.Fault

namespace ClassFormat

/-!
# Descriptors and declarations

A descriptor spells the type of a field, or the parameter and return types of a
method, in a compressed form: `[Ljava/lang/String;` is an array of strings.
This file reads descriptors and writes the declaration that they stand for.

A run is any number of types one after another.  The reader of runs goes over
the characters once and remembers only the open brackets and the class name
that it is in the middle of.

* `TypeName.runOf?` reads a run of types.
* `Descriptor.declaration` writes a declaration from a name and a descriptor.
-/

/-- The types that a descriptor spells with one letter. -/
inductive Primitive where
  | byte
  | char
  | double
  | float
  | int
  | long
  | short
  | boolean
  | void
  deriving DecidableEq

namespace Primitive

/-- The type that a letter stands for, if it stands for one. -/
def ofLetter? : Char → Option Primitive
  | 'B' => some byte
  | 'C' => some char
  | 'D' => some double
  | 'F' => some float
  | 'I' => some int
  | 'J' => some long
  | 'S' => some short
  | 'Z' => some boolean
  | 'V' => some void
  | _ => none

/-- The letter that stands for the type. -/
def letter : Primitive → Char
  | byte => 'B'
  | char => 'C'
  | double => 'D'
  | float => 'F'
  | int => 'I'
  | long => 'J'
  | short => 'S'
  | boolean => 'Z'
  | void => 'V'

/-- The keyword of the type. -/
def keyword : Primitive → String
  | byte => "byte"
  | char => "char"
  | double => "double"
  | float => "float"
  | int => "int"
  | long => "long"
  | short => "short"
  | boolean => "boolean"
  | void => "void"

theorem ofLetter?_letter (primitive : Primitive) :
    ofLetter? primitive.letter = some primitive := by
  cases primitive <;> rfl

end Primitive

/-- The type at the bottom of an array type, or a type by itself. -/
inductive BaseType where
  | primitive (type : Primitive)
  /-- A class, by its name with slashes. -/
  | reference (name : List Char)
  deriving DecidableEq

/-- A type with the number of array brackets around it. -/
structure TypeName where
  base : BaseType
  dimensions : Nat
  deriving DecidableEq

/-- A class name as it is written in source: with dots for slashes. -/
def dotted (name : List Char) : List Char :=
  name.map fun char => if char = '/' then '.' else char

namespace TypeName

/-- The characters that spell a type in a descriptor. -/
def spelling (type : TypeName) : List Char :=
  List.replicate type.dimensions '[' ++
    match type.base with
    | .primitive primitive => [primitive.letter]
    | .reference name => 'L' :: (name ++ [';'])

/-- A type as it is written in source. -/
def render (type : TypeName) : String :=
  let base :=
    match type.base with
    | .primitive primitive => primitive.keyword
    | .reference name => String.ofList (dotted name)
  base ++ "".intercalate (List.replicate type.dimensions "[]")

/-- Where the reader of a run stands between two characters. -/
inductive Place where
  /-- Before a type, of which `dimensions` brackets have been read. -/
  | between (dimensions : Nat)
  /-- Within a class name, of which the characters so far are given last
  first. -/
  | within (dimensions : Nat) (name : List Char)

/-- The types spelled by the rest of a run, put behind those already read, which
are given last first. -/
def runAfter (done : List TypeName) : Place → List Char → Option (List TypeName)
  | .between 0, [] => some done.reverse
  | .between (_ + 1), [] => none
  | .within _ _, [] => none
  | .between dimensions, char :: rest =>
      if char = '[' then runAfter done (.between (dimensions + 1)) rest
      else if char = 'L' then runAfter done (.within dimensions []) rest
      else
        match Primitive.ofLetter? char with
        | some primitive =>
            runAfter (⟨.primitive primitive, dimensions⟩ :: done) (.between 0)
              rest
        | none => none
  | .within dimensions name, char :: rest =>
      if char = ';' then
        runAfter (⟨.reference name.reverse, dimensions⟩ :: done) (.between 0)
          rest
      else runAfter done (.within dimensions (char :: name)) rest

/-- The types that a run of characters spells, one after another. -/
def runOf? (chars : List Char) : Option (List TypeName) :=
  runAfter [] (.between 0) chars

/-- The types of a run as they are written in source, separated by commas. -/
def renderRun (types : List TypeName) : String :=
  ", ".intercalate (types.map render)

end TypeName

namespace Descriptor

/-- The types of a run, or the complaint about the run. -/
def typesOf (run : List Char) : Except Fault (List TypeName) :=
  match TypeName.runOf? run with
  | some types => .ok types
  | none => .error (.malformedDescriptor (String.ofList run))

/-- The parts of a method descriptor before and after the first closing
parenthesis, if there is one. -/
def splitParameters? (chars : List Char) : Option (List Char × List Char) :=
  match chars.span (· ≠ ')') with
  | (parameters, _ :: result) => some (parameters, result)
  | (_, []) => none

/-- The declaration of a field or method with the given name and descriptor.  Of
a method with two faulty runs the return type is blamed. -/
def declaration (name descriptor : String) : Except Fault String :=
  match descriptor.toList with
  | '(' :: rest =>
      match splitParameters? rest with
      | none => .error (.malformedDescriptor descriptor)
      | some (parameters, result) => do
          let result ← typesOf result
          let parameters ← typesOf parameters
          return TypeName.renderRun result ++ " " ++ name ++ "(" ++
            TypeName.renderRun parameters ++ ")"
  | chars => do
      let types ← typesOf chars
      return TypeName.renderRun types ++ " " ++ name

end Descriptor

end ClassFormat
