import Codemod.CommandLine.Execute
import Codemod.Config.Load
import Codemod.Diff.Unified
import Codemod.Log.Writer
import Codemod.Main
import Codemod.Proofs.ClosedSet.Finds
import Codemod.Proofs.ClosedSet.Idempotent
import Codemod.Proofs.ClosedSet.Items
import Codemod.Proofs.ClosedSet.Lists
import Codemod.Proofs.ClosedSet.Passes
import Codemod.Proofs.ClosedSet.Settled
import Codemod.Proofs.CommandLine.Diffs
import Codemod.Proofs.Config.Load
import Codemod.Proofs.Config.Runnable
import Codemod.Proofs.Disk.Along
import Codemod.Proofs.Disk.Entry
import Codemod.Proofs.Disk.FileName
import Codemod.Proofs.Disk.Joined
import Codemod.Proofs.Disk.Kinds
import Codemod.Proofs.Disk.Normal
import Codemod.Proofs.Disk.Parents
import Codemod.Proofs.Disk.Past
import Codemod.Proofs.Disk.Paths
import Codemod.Proofs.Disk.Tree
import Codemod.Proofs.Log.Delivery
import Codemod.Proofs.Log.Lines
import Codemod.Proofs.Log.Size
import Codemod.Proofs.Log.Touched
import Codemod.Proofs.Pattern.Span
import Codemod.Proofs.Relocation.Again
import Codemod.Proofs.Relocation.Moves
import Codemod.Proofs.Rule.Blocks
import Codemod.Proofs.Rule.Chain
import Codemod.Proofs.Rule.Compiled
import Codemod.Proofs.Rule.Hits
import Codemod.Proofs.Rule.Literal
import Codemod.Proofs.Rule.Marked
import Codemod.Proofs.Rule.Missed
import Codemod.Proofs.Rule.Nearest
import Codemod.Proofs.Rule.Splice
import Codemod.Proofs.Run.Account
import Codemod.Proofs.Run.Again
import Codemod.Proofs.Run.Apart
import Codemod.Proofs.Run.Atomic
import Codemod.Proofs.Run.Below
import Codemod.Proofs.Run.Beside
import Codemod.Proofs.Run.Containment
import Codemod.Proofs.Run.Deletion
import Codemod.Proofs.Run.Effect
import Codemod.Proofs.Run.Elsewhere
import Codemod.Proofs.Run.Exclusion
import Codemod.Proofs.Run.Failures
import Codemod.Proofs.Run.Order
import Codemod.Proofs.Run.Preview
import Codemod.Proofs.Run.Progress
import Codemod.Proofs.Run.Refused
import Codemod.Proofs.Run.Removals
import Codemod.Proofs.Run.Replace
import Codemod.Proofs.Run.Rewrite
import Codemod.Proofs.Run.Rewriting
import Codemod.Proofs.Run.Skipped
import Codemod.Proofs.Run.Tidy
import Codemod.Proofs.Run.Totals
import Codemod.Proofs.Run.Trace
import Codemod.Proofs.Run.Walk
import Codemod.Rule.Describe
import Codemod.Run.Basic
