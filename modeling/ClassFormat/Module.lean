import ClassFormat.Bytes
import ClassFormat.Pool.Linking

namespace ClassFormat

/-!
# Module descriptors

A module has a name and a version, and it says which modules it requires, which
packages it exports or opens and to whom, which services it uses, and which it
provides.  All of these are references into the constant pool: modules are named by
module entries, packages by package entries, and services and their providers by
classes.  A version may be missing.

In the file, the parts follow one another in the order of the fields, each list with
its length in front.
-/

/-- A module that is required. -/
structure Requirement where
  module : UInt16
  flags : UInt16
  version : UInt16
  deriving DecidableEq

/-- A package that is exported or opened, and the modules that it is for.  With
no modules it is for all. -/
structure PackageGrant where
  package : UInt16
  flags : UInt16
  modules : List UInt16
  deriving DecidableEq

/-- A service that is provided, and the classes that provide it. -/
structure Provision where
  service : UInt16
  providers : List UInt16
  deriving DecidableEq

/-- The description of a module. -/
structure ModuleDescriptor where
  name : UInt16
  flags : UInt16
  version : UInt16
  requires : List Requirement
  exports : List PackageGrant
  opens : List PackageGrant
  uses : List UInt16
  provides : List Provision
  deriving DecidableEq

/-! ## How module descriptors lie in the file -/

/-- A required module. -/
def Requirement.read : Reader Requirement := do
  let module ← Reader.word16
  let flags ← Reader.word16
  let version ← Reader.word16
  return { module, flags, version }

/-- A required module as it is written. -/
def Requirement.write : Writer Requirement := fun requirement =>
  BigEndian.bytes16 requirement.module ++
    BigEndian.bytes16 requirement.flags ++
    BigEndian.bytes16 requirement.version

/-- An exported or opened package. -/
def PackageGrant.read : Reader PackageGrant := do
  let package ← Reader.word16
  let flags ← Reader.word16
  let modules ← Reader.list16 Reader.word16
  return { package, flags, modules }

/-- An exported or opened package as it is written. -/
def PackageGrant.write : Writer PackageGrant := fun grant =>
  BigEndian.bytes16 grant.package ++ BigEndian.bytes16 grant.flags ++
    Writer.list16 BigEndian.bytes16 grant.modules

/-- A provided service. -/
def Provision.read : Reader Provision := do
  let service ← Reader.word16
  let providers ← Reader.list16 Reader.word16
  return { service, providers }

/-- A provided service as it is written. -/
def Provision.write : Writer Provision := fun provision =>
  BigEndian.bytes16 provision.service ++
    Writer.list16 BigEndian.bytes16 provision.providers

/-- A module descriptor. -/
def ModuleDescriptor.read : Reader ModuleDescriptor := do
  let name ← Reader.word16
  let flags ← Reader.word16
  let version ← Reader.word16
  let requires ← Reader.list16 Requirement.read
  let exports ← Reader.list16 PackageGrant.read
  let opens ← Reader.list16 PackageGrant.read
  let uses ← Reader.list16 Reader.word16
  let provides ← Reader.list16 Provision.read
  return { name, flags, version, requires, exports, opens, uses, provides }

/-- A module descriptor as it is written. -/
def ModuleDescriptor.write : Writer ModuleDescriptor := fun module =>
  BigEndian.bytes16 module.name ++ BigEndian.bytes16 module.flags ++
    BigEndian.bytes16 module.version ++
    Writer.list16 Requirement.write module.requires ++
    Writer.list16 PackageGrant.write module.exports ++
    Writer.list16 PackageGrant.write module.opens ++
    Writer.list16 BigEndian.bytes16 module.uses ++
    Writer.list16 Provision.write module.provides

/-! ## The references that module descriptors make -/

/-- Checks the references of a required module. -/
def Requirement.check (pool : Pool) (requirement : Requirement) :
    Verdict := do
  pool.check "requires" [.module] requirement.module
  pool.checkOptional "requires version" [.utf8] requirement.version

/-- Checks the references of an exported or opened package, for which the
contexts are given. -/
def PackageGrant.check (pool : Pool) (packageContext moduleContext : String)
    (grant : PackageGrant) : Verdict := do
  pool.check packageContext [.package] grant.package
  Verdict.each (pool.check moduleContext [.module]) grant.modules

/-- Checks the references of a provided service. -/
def Provision.check (pool : Pool) (provision : Provision) :
    Verdict := do
  pool.check "provides" [.classRef] provision.service
  Verdict.each (pool.check "provides with" [.classRef]) provision.providers

/-- Checks the references that a module descriptor makes. -/
def ModuleDescriptor.check (pool : Pool) (module : ModuleDescriptor) :
    Verdict := do
  pool.check "module name" [.module] module.name
  pool.checkOptional "module version" [.utf8] module.version
  Verdict.each (Requirement.check pool) module.requires
  Verdict.each (PackageGrant.check pool "exports" "exports to") module.exports
  Verdict.each (PackageGrant.check pool "opens" "opens to") module.opens
  Verdict.each (pool.check "uses" [.classRef]) module.uses
  Verdict.each (Provision.check pool) module.provides

end ClassFormat
