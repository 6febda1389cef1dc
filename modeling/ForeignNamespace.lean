import ForeignNamespace.Bridge.Run
import ForeignNamespace.ProcessWide
import ForeignNamespace.Proofs.AttributeDecision
import ForeignNamespace.Proofs.IdentityStability
import ForeignNamespace.Proofs.ImportWalkAgreement
import ForeignNamespace.Script.Runner
import ForeignNamespace.Proofs.ClassListAnswers
import ForeignNamespace.Proofs.ClassListImports
import ForeignNamespace.Proofs.ActingHosts
import ForeignNamespace.Proofs.ScriptAccounts
import ForeignNamespace.Proofs.ReactingRuns
import ForeignNamespace.Proofs.ReentrantLoad
import ForeignNamespace.Proofs.CheckedCreation
import ForeignNamespace.Proofs.SubmoduleBindings
import ForeignNamespace.Proofs.SingleLoads
import ForeignNamespace.Proofs.TeardownRecovery
import ForeignNamespace.Proofs.AccessEffects
import ForeignNamespace.Proofs.AliasedRegistries
import ForeignNamespace.Proofs.RepeatedAccess
import ForeignNamespace.Proofs.ErrorOrigins
import ForeignNamespace.Proofs.FromImports
import ForeignNamespace.Proofs.StarImports
import ForeignNamespace.Proofs.NodeFreeCaches
import ForeignNamespace.Proofs.ModuleMetadata
import ForeignNamespace.Proofs.MetaPaths
import ForeignNamespace.Proofs.LibraryInstallation
import ForeignNamespace.Proofs.Verbosity
import ForeignNamespace.Proofs.LinkedNodes
import ForeignNamespace.Proofs.ReachablePlays
import ForeignNamespace.Proofs.SegmentLists
import ForeignNamespace.Proofs.LastParts
