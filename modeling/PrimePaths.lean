import PrimePaths.Analysis.Patch
import PrimePaths.Generator.CommandLine
import PrimePaths.Main
import PrimePaths.Proofs.Analysis.Concatenation
import PrimePaths.Proofs.Analysis.Coverage
import PrimePaths.Proofs.Analysis.EntryOrder
import PrimePaths.Proofs.CommandLine.Form
import PrimePaths.Proofs.Listing.Comments
import PrimePaths.Proofs.Listing.Controls
import PrimePaths.Proofs.Search.Acyclic
import PrimePaths.Proofs.Search.Order
import PrimePaths.Proofs.Search.Session
import PrimePaths.Proofs.Search.Stack
import PrimePaths.Proofs.Search.Statistics
import PrimePaths.Proofs.Search.Thin
