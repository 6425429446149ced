import Mathlib
import ClassFormat.Attribute.Layout
import ClassFormat.Proofs.Spelling.Basic

namespace ClassFormat

/-!
# The spelling of the parts of payloads

Most payloads are lists of small records of words.  Their readers invert their
writers without any condition, or on the condition that the lists inside them
are short enough for their lengths.
-/

open Reader

/-! ## Records of words -/

theorem ExceptionHandler.inverts_read :
    ExceptionHandler.read.Inverts (fun _ => True) ExceptionHandler.write := by
  refine .of_run fun bytes item rest => ?_
  obtain ⟨start, stop, handler, catchType⟩ := item
  simp [read, write]

theorem InnerClass.inverts_read :
    InnerClass.read.Inverts (fun _ => True) InnerClass.write := by
  refine .of_run fun bytes item rest => ?_
  obtain ⟨inner, outer, name, flags⟩ := item
  simp [read, write]

theorem LineNumber.inverts_read :
    LineNumber.read.Inverts (fun _ => True) LineNumber.write := by
  refine .of_run fun bytes item rest => ?_
  obtain ⟨start, line⟩ := item
  simp [read, write]

theorem LocalVariable.inverts_read :
    LocalVariable.read.Inverts (fun _ => True) LocalVariable.write := by
  refine .of_run fun bytes item rest => ?_
  obtain ⟨start, length, name, type, index⟩ := item
  simp [read, write]

theorem MethodParameter.inverts_read :
    MethodParameter.read.Inverts (fun _ => True) MethodParameter.write := by
  refine .of_run fun bytes item rest => ?_
  obtain ⟨name, flags⟩ := item
  simp [read, write]

theorem Requirement.inverts_read :
    Requirement.read.Inverts (fun _ => True) Requirement.write := by
  refine .of_run fun bytes item rest => ?_
  obtain ⟨module, flags, version⟩ := item
  simp [read, write]

/-! ## Records with lists of words -/

/-- A list of words that is short enough for its length. -/
theorem run_words_eq_ok {words : List UInt16} {bytes rest : List UInt8} :
    (list16 word16).run bytes = .ok (words, rest) ↔
      words.length < 0x10000 ∧
        bytes = Writer.list16 BigEndian.bytes16 words ++ rest := by
  rw [inverts_word16.list16.run_eq_ok, counted16_true]

/-- The arguments can be counted. -/
def BootstrapMethod.WellFormed (method : BootstrapMethod) : Prop :=
  method.arguments.length < 0x10000

theorem BootstrapMethod.inverts_read :
    BootstrapMethod.read.Inverts BootstrapMethod.WellFormed
      BootstrapMethod.write := by
  refine .of_run fun bytes item rest => ?_
  obtain ⟨handle, arguments⟩ := item
  simp [read, write, WellFormed, run_words_eq_ok, and_comm]

/-- The modules can be counted. -/
def PackageGrant.WellFormed (grant : PackageGrant) : Prop :=
  grant.modules.length < 0x10000

theorem PackageGrant.inverts_read :
    PackageGrant.read.Inverts PackageGrant.WellFormed PackageGrant.write := by
  refine .of_run fun bytes item rest => ?_
  obtain ⟨package, flags, modules⟩ := item
  simp [read, write, WellFormed, run_words_eq_ok, and_comm]

/-- The providers can be counted. -/
def Provision.WellFormed (provision : Provision) : Prop :=
  provision.providers.length < 0x10000

theorem Provision.inverts_read :
    Provision.read.Inverts Provision.WellFormed Provision.write := by
  refine .of_run fun bytes item rest => ?_
  obtain ⟨service, providers⟩ := item
  simp [read, write, WellFormed, run_words_eq_ok, and_comm]

/-- All lists of a module descriptor can be counted. -/
structure ModuleDescriptor.WellFormed (module : ModuleDescriptor) : Prop where
  requires : module.requires.length < 0x10000
  exports : Counted16 PackageGrant.WellFormed module.exports
  opens : Counted16 PackageGrant.WellFormed module.opens
  uses : module.uses.length < 0x10000
  provides : Counted16 Provision.WellFormed module.provides

theorem ModuleDescriptor.inverts_read :
    ModuleDescriptor.read.Inverts ModuleDescriptor.WellFormed
      ModuleDescriptor.write := by
  refine .of_run fun bytes item rest => ?_
  obtain ⟨name, flags, version, requires, exports, opens, uses, provides⟩ := item
  simp only [read, write, run_bind_eq_ok, run_word16_eq_ok, run_words_eq_ok,
    run_pure_eq_ok, Requirement.inverts_read.list16.run_eq_ok,
    PackageGrant.inverts_read.list16.run_eq_ok,
    Provision.inverts_read.list16.run_eq_ok, counted16_true, List.append_assoc]
  constructor
  · intro hRun
    obtain ⟨_, _, rfl, _, _, rfl, _, _, rfl, _, _, ⟨hRequires, rfl⟩, _, _,
      ⟨hExports, rfl⟩, _, _, ⟨hOpens, rfl⟩, _, _, ⟨hUses, rfl⟩, _, _,
      ⟨hProvides, rfl⟩, hParts, rfl⟩ := hRun
    cases hParts
    exact ⟨⟨hRequires, hExports, hOpens, hUses, hProvides⟩, rfl⟩
  · intro hSpelled
    obtain ⟨⟨hRequires, hExports, hOpens, hUses, hProvides⟩, rfl⟩ := hSpelled
    exact ⟨name, _, rfl, flags, _, rfl, version, _, rfl, requires, _, ⟨hRequires, rfl⟩,
      exports, _, ⟨hExports, rfl⟩, opens, _, ⟨hOpens, rfl⟩, uses, _, ⟨hUses, rfl⟩,
      provides, rest, ⟨hProvides, rfl⟩, rfl, rfl⟩

end ClassFormat
