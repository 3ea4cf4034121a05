import Stencil.Main
import Stencil.Json.OfError
import Stencil.Json.OfOptions
import Stencil.Json.OfToken
import Stencil.Node.Outline
import Stencil.Proofs.Assignments
import Stencil.Proofs.Atomicity
import Stencil.Proofs.Automaton
import Stencil.Proofs.Blocks
import Stencil.Proofs.Chains
import Stencil.Proofs.Codecs
import Stencil.Proofs.Comments
import Stencil.Proofs.Concatenation
import Stencil.Proofs.Conversions
import Stencil.Proofs.ErrorSpans
import Stencil.Proofs.Evaluation
import Stencil.Proofs.Files
import Stencil.Proofs.Invocation
import Stencil.Proofs.Items
import Stencil.Proofs.JsonText
import Stencil.Proofs.Loops
import Stencil.Proofs.Lossless
import Stencil.Proofs.Maps
import Stencil.Proofs.Merging
import Stencil.Proofs.Noninterference
import Stencil.Proofs.Positions
import Stencil.Proofs.Precedence
import Stencil.Proofs.Printing
import Stencil.Proofs.Progress
import Stencil.Proofs.ReadBack
import Stencil.Proofs.Renaming
import Stencil.Proofs.Scoping
import Stencil.Proofs.Tiling
import Stencil.Proofs.Verdicts
import Stencil.Proofs.Codes
import Stencil.Proofs.Listing
import Stencil.Proofs.Outlines
import Stencil.Proofs.Locations
