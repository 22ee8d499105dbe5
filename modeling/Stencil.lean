import Stencil.Main
import Stencil.Node.Display
import Stencil.Node.Shape
import Stencil.Proofs.Blame
import Stencil.Proofs.Concat
import Stencil.Proofs.RoundTrip
import Stencil.Scope
import Stencil.Token.Channel
import Stencil.Proofs.FirstFailure
import Stencil.Proofs.Pieces
import Stencil.Proofs.Codec
import Stencil.Proofs.Blocks
import Stencil.Proofs.Simulation
import Stencil.Proofs.Faults
import Stencil.Proofs.ReadToEnd
import Stencil.Proofs.FailedSource
import Stencil.Proofs.Truncation
import Stencil.Proofs.Crash
import Stencil.Proofs.Handoff
import Stencil.Proofs.Discipline
import Stencil.Proofs.Spelling
import Stencil.Proofs.ListMachine
import Stencil.Proofs.Ledger
import Stencil.Proofs.PrefixTest
import Stencil.Proofs.Remains
import Stencil.Proofs.Styles
import Stencil.Proofs.Highlighting
import Stencil.Proofs.Recovery
import Stencil.Proofs.Blanks
import Stencil.Proofs.Quoting
import Stencil.Proofs.Outline
import Stencil.Proofs.Dump
import Stencil.Proofs.Display
import Stencil.Proofs.Shape
import Stencil.Proofs.Skeleton
import Stencil.Proofs.Scoping
import Stencil.Proofs.Regions
import Stencil.Proofs.Watching
import Stencil.Proofs.Moments
