import SourceRecovery.Main
import SourceRecovery.Proofs.ClassFile.Format
import SourceRecovery.Proofs.ClassFile.Reads
import SourceRecovery.Proofs.ClassFile.Marks
import SourceRecovery.Proofs.ClassFile.Members
import SourceRecovery.Proofs.ClassFile.Validity
import SourceRecovery.Proofs.ClassFile.Scan
import SourceRecovery.Proofs.ClassFile.Unique
import SourceRecovery.Proofs.ClassFile.Accepted
import SourceRecovery.Proofs.ClassFile.Steady
import SourceRecovery.Proofs.ClassFile.Truncation
import SourceRecovery.Proofs.FileTree.Nodes
import SourceRecovery.Proofs.FileTree.Reach
import SourceRecovery.Proofs.Path.Below
import SourceRecovery.Proofs.FileTree.Descent
import SourceRecovery.Proofs.FileTree.Folders
import SourceRecovery.Proofs.Run.OutputTree
import SourceRecovery.Proofs.ClassFile.Movable
import SourceRecovery.Proofs.ClassFile.Skipped
import SourceRecovery.Proofs.FileTree.Removal
import SourceRecovery.Proofs.FileTree.NewFolders
import SourceRecovery.Proofs.Run.Reset
import SourceRecovery.Proofs.Run.Verdict
import SourceRecovery.Proofs.Run.Configuration
import SourceRecovery.Proofs.FileTree.Sparing
import SourceRecovery.Proofs.FileTree.Alike
import SourceRecovery.Proofs.Run.SparedInput
import SourceRecovery.Proofs.FileTree.Remaking
import SourceRecovery.Proofs.Run.Repetition
import SourceRecovery.Proofs.Run.Accounts
import SourceRecovery.Proofs.Engine.Decompiler
import SourceRecovery.Proofs.Engine.Harvest
import SourceRecovery.Proofs.Run.KeptPlaces
import SourceRecovery.Proofs.Run.Order
import SourceRecovery.Proofs.Run.KeptFiles
import SourceRecovery.Proofs.Run.ScanAgreement
import SourceRecovery.Proofs.FileTree.Joined
import SourceRecovery.Proofs.Run.VariantFolder
import SourceRecovery.Proofs.Run.VariantRuns
import SourceRecovery.Proofs.SourceUnit.Confinement
import SourceRecovery.Proofs.FileTree.Traversal
import SourceRecovery.Proofs.ClassFiles
import SourceRecovery.Proofs.FileTree.Ensuring
import SourceRecovery.Proofs.FileTree.SingleFile
import SourceRecovery.Proofs.Host
import SourceRecovery.Proofs.Engine.JarCache
import SourceRecovery.Proofs.FileTree.StayingBelow
import SourceRecovery.Proofs.Engine.Launch
import SourceRecovery.Proofs.Engine.Handover
import SourceRecovery.Proofs.Run.EngineEnds
import SourceRecovery.Proofs.ClassFile.Marked
import SourceRecovery.Proofs.FileTree.Files
import SourceRecovery.Proofs.MarkedClasses
import SourceRecovery.Proofs.Engine.StagedFiles
import SourceRecovery.Proofs.Engine.Collected
import SourceRecovery.Proofs.SourceUnit.PackageLine
import SourceRecovery.Proofs.Libraries
import SourceRecovery.Proofs.CompileTask
import SourceRecovery.Proofs.ClassName
import SourceRecovery.Proofs.SourceUnit.Declaration
import SourceRecovery.Proofs.ClassFile.ElementValues
import SourceRecovery.Proofs.ClassFile.Safety
import SourceRecovery.Proofs.Text.Erasure
