import TreeAccord.Compare.Comparison
import TreeAccord.Config.KotlinPsi
import TreeAccord.Config.Reading
import TreeAccord.Config.Writing
import TreeAccord.Dump.Decode
import TreeAccord.Dump.Print
import TreeAccord.Dump.Report
import TreeAccord.Tree.Listing
import TreeAccord.Cli.Arguments
import TreeAccord.Cli.Batch
import TreeAccord.Cli.TestData
import TreeAccord.Cli.Run
import TreeAccord.Main
import TreeAccord.Proofs.Compare.Paths
import TreeAccord.Proofs.Compare.Concurrence
import TreeAccord.Proofs.Compare.Mirror
import TreeAccord.Proofs.Compare.Noise
import TreeAccord.Proofs.Compare.Policies
import TreeAccord.Proofs.Compare.Wrappers
import TreeAccord.Proofs.Dump.Grammar
import TreeAccord.Proofs.Dump.Indentation
import TreeAccord.Proofs.Dump.RoundTrip
import TreeAccord.Proofs.Tree.Order
import TreeAccord.Proofs.Compare.Pairs
import TreeAccord.Proofs.Compare.Reflexivity
import TreeAccord.Proofs.Compare.Chains
import TreeAccord.Proofs.Dump.FixedPoint
import TreeAccord.Proofs.Compare.DepthLimit
import TreeAccord.Proofs.Compare.Localisation
import TreeAccord.Proofs.Compare.Transitivity
import TreeAccord.Proofs.Dump.Canonical
import TreeAccord.Proofs.Compare.Extension
import TreeAccord.Proofs.Tree.Linkage
import TreeAccord.Proofs.View.Bare
import TreeAccord.Proofs.Dump.Produced
import TreeAccord.Proofs.Compare.OwnDump
import TreeAccord.Proofs.Json.Spelling
import TreeAccord.Proofs.Json.Texts
import TreeAccord.Proofs.Json.Records
import TreeAccord.Proofs.Json.Library
import TreeAccord.Proofs.Config.RoundTrip
import TreeAccord.Proofs.Dump.Renaming
import TreeAccord.Proofs.View.Hollowness
import TreeAccord.Proofs.View.Worth
import TreeAccord.Proofs.View.SingleChildren
import TreeAccord.Proofs.View.Places
import TreeAccord.Proofs.View.Blocks
import TreeAccord.Proofs.Config.Contents
import TreeAccord.Proofs.Compare.Contents
import TreeAccord.Proofs.Cli.Tallies
import TreeAccord.Proofs.Cli.Batches
import TreeAccord.Proofs.Config.Tables
import TreeAccord.Proofs.Dump.Places
import TreeAccord.Proofs.Dump.Respacing
import TreeAccord.Proofs.Dump.Runs
import TreeAccord.Proofs.Compare.Nesting
import TreeAccord.Proofs.View.Thorough
import TreeAccord.Proofs.Dump.LinePerNode
