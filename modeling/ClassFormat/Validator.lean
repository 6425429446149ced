import ClassFormat.Attribute.Checks
import ClassFormat.ClassFile.Layout

namespace ClassFormat

/-!
# Checking class files

A class file that has been read may still refer to entries that are not there or
are of the wrong kind.  The checks find the first such reference: they go
through the pool, the class and its interfaces, the fields, the methods and the
attributes of the class, in this order.

A `Validator` holds a pool, a version and a level.  It can be asked to check any
part of a class file, and is handed back with its answer, ready for the next
request.

* `ClassFile.validate` checks a class file under any version.
-/

/-! ## The references that class files make -/

/-- Checks the references that a member makes. -/
def Member.check (pool : Pool) (member : Member) : Walk Unit := do
  pool.check "member name" [.utf8] member.name
  pool.check "member descriptor" [.utf8] member.descriptor
  Attribute.checkAll pool member.attributes

/-- Checks the references that a class file makes, against a pool and under a
version that need not be its own. -/
def ClassFile.check (pool : Pool) (major : UInt16) (file : ClassFile) :
    Walk Unit := do
  pool.checkLinks major
  pool.check "this class" [.classRef] file.thisClass
  pool.checkOptional "super class" [.classRef] file.superClass
  Verdict.each (pool.check "interface" [.classRef]) file.interfaces
  Walk.each (Member.check pool) file.fields
  Walk.each (Member.check pool) file.methods
  Attribute.checkAll pool file.attributes

/-! ## Validators -/

/-- What a validator can be asked to check. -/
inductive Request where
  | links
  | attributes (attributes : List Attribute)
  | member (member : Member)
  | classFile (file : ClassFile)

/-- Checks against one pool and version, at a level that starts at zero. -/
structure Validator where
  pool : Pool
  major : UInt16
  level : Nat := 0

namespace Validator

/-- The walk that answers a request. -/
def walk (validator : Validator) : Request → Walk Unit
  | .links => validator.pool.checkLinks validator.major
  | .attributes attributes => Attribute.checkAll validator.pool attributes
  | .member member => member.check validator.pool
  | .classFile file => file.check validator.pool validator.major

/-- The answer to a request, and the validator as the walk leaves it. -/
def perform (validator : Validator) (request : Request) :
    Verdict × Validator :=
  let (verdict, level) := (validator.walk request).runAt validator.level
  (verdict, { validator with level })

end Validator

namespace ClassFile

/-- Checks a class file under the given major version. -/
def validate (file : ClassFile) (major : UInt16) : Verdict :=
  (Validator.perform { pool := file.pool, major } (.classFile file)).1

/-- Checks a class file under its own version. -/
def validateOwn (file : ClassFile) : Verdict :=
  file.validate file.major

end ClassFile

end ClassFormat
