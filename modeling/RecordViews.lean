import RecordViews.Expansion
import RecordViews.Files.Generator
import RecordViews.Value.BuiltIn
import RecordViews.Proofs.GeneratedNames
import RecordViews.Proofs.RoundStep
import RecordViews.Round.Session
import RecordViews.Proofs.Emission
import RecordViews.Proofs.Priority
import RecordViews.Proofs.DiscoveryOrder
import RecordViews.Proofs.Customising
import RecordViews.Proofs.OverrideTargets
import RecordViews.Proofs.Histories
import RecordViews.Proofs.Pipeline
import RecordViews.Proofs.MemberMerge
import RecordViews.Proofs.Isolation
import RecordViews.Proofs.Backing
import RecordViews.Proofs.FieldNames
import RecordViews.Proofs.UnitNames
import RecordViews.Proofs.Accounting
import RecordViews.Proofs.Paths
import RecordViews.Proofs.PrintedPaths
import RecordViews.Proofs.Collected
import RecordViews.Proofs.DeclaredPaths
import RecordViews.Proofs.FieldTypes
import RecordViews.Proofs.Parameters
import RecordViews.Proofs.Contributions
import RecordViews.Proofs.MergedUnits
import RecordViews.Proofs.HelperAttributes
import RecordViews.Proofs.Accessors
import RecordViews.Proofs.DroppedProperties
import RecordViews.Proofs.Exclusions
import RecordViews.Proofs.UnwritableNames
import RecordViews.Proofs.Rerun
import RecordViews.Proofs.Words
import RecordViews.Proofs.NameTexts
import RecordViews.Proofs.StoredUnits
import RecordViews.Proofs.Relocation
import RecordViews.Proofs.TokenTaking
import RecordViews.Proofs.LocalPaths
import RecordViews.Proofs.LocalOptions
import RecordViews.Proofs.RelocatedUnits
import RecordViews.Proofs.RelocatedViews
import RecordViews.Proofs.RelocatedRecords
import RecordViews.Proofs.RelocatedRounds
import RecordViews.Proofs.RelocatedRuns
import RecordViews.Proofs.TargetWords
import RecordViews.Proofs.Requesters
import RecordViews.Proofs.OwnModule
import RecordViews.Proofs.Conservation
import RecordViews.Proofs.MethodNames
import RecordViews.Proofs.MergedOverrides
import RecordViews.Proofs.WholePatterns
import RecordViews.Proofs.ComputedGetters
import RecordViews.Proofs.Documentation
import RecordViews.Proofs.ItemOrder
import RecordViews.Proofs.CratePaths
import RecordViews.Proofs.SelfReferences
import RecordViews.Proofs.Reexpansion
import RecordViews.Proofs.ConstantNames
import RecordViews.Proofs.NameSegments
import RecordViews.Proofs.NameKeys
