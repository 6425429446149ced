import ClassFormat.ClassFile.Description
import ClassFormat.ClassFile.Layout
import ClassFormat.Validator
import ClassFormat.Proofs.Spelling.Basic
import ClassFormat.Proofs.Spelling.Segments
import ClassFormat.Proofs.Spelling.Texts
import ClassFormat.Proofs.Spelling.CodeUnits
import ClassFormat.Proofs.Spelling.Frames
import ClassFormat.Proofs.Spelling.Parts
import ClassFormat.Proofs.Spelling.Annotations
import ClassFormat.Proofs.Spelling.Pools
import ClassFormat.Proofs.Spelling.Attributes
import ClassFormat.Proofs.Spelling.ClassFiles
import ClassFormat.Proofs.Spelling.Limits
import ClassFormat.Proofs.Spelling.Sizes
import ClassFormat.Proofs.RoundTrip
import ClassFormat.Proofs.Costs.Items
import ClassFormat.Proofs.Costs.Basic
import ClassFormat.Proofs.Costs.Attributes
import ClassFormat.Proofs.Costs.ClassFiles
import ClassFormat.Proofs.Composition
import ClassFormat.Proofs.ForwardScan
import ClassFormat.Proofs.Validity.Decisions
import ClassFormat.Proofs.Validity.Rules
import ClassFormat.Proofs.Validity.Checks
import ClassFormat.Proofs.Validity.Links
import ClassFormat.Proofs.Lookups
import ClassFormat.Proofs.Validity.SingleChecks
import ClassFormat.Proofs.Validity.Verdicts
import ClassFormat.Proofs.Validity.FirstFault
import ClassFormat.Proofs.Validity.Accessors
import ClassFormat.Proofs.Validity.Levels
import ClassFormat.Proofs.Validity.Versions
import ClassFormat.Proofs.Validity.PoolIndices
import ClassFormat.Proofs.Validity.Origins
import ClassFormat.Proofs.NestingLimit
import ClassFormat.Proofs.PoolLayout
import ClassFormat.Proofs.AttributeNames
import ClassFormat.Proofs.Places
import ClassFormat.Proofs.ReadingPlaces
import ClassFormat.Proofs.OpaqueRuns
import ClassFormat.Proofs.DeclaredLengths
import ClassFormat.Proofs.GrowingPool
import ClassFormat.Proofs.FaultFamilies
import ClassFormat.Proofs.PoolTexts
import ClassFormat.Proofs.Descriptors.Runs
import ClassFormat.Proofs.Descriptors.Offsets
import ClassFormat.Proofs.Descriptors.Declarations
import ClassFormat.Proofs.Descriptors.Acceptance
import ClassFormat.Proofs.FrameCoding
