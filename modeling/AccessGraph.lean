import AccessGraph.Buffer.Read
import AccessGraph.Main
import AccessGraph.Program.Encode
import AccessGraph.Proofs.Assembly.Sites
import AccessGraph.Proofs.Assembly.Verdict
import AccessGraph.Proofs.Extraction
import AccessGraph.Proofs.Program.Kinds
import AccessGraph.Proofs.Program.RoundTrip
import AccessGraph.Proofs.Program.Scopes
import AccessGraph.Proofs.Table.Described
import AccessGraph.Proofs.Program.Alike
import AccessGraph.Proofs.Program.Parts
import AccessGraph.Proofs.Program.Desugaring
import AccessGraph.Proofs.Program.Sequencing
import AccessGraph.Proofs.Table.Contiguous
import AccessGraph.Proofs.Dot.Label
import AccessGraph.Proofs.Dot.Drawing
import AccessGraph.Proofs.Listing
import AccessGraph.Proofs.Json.Decoding
import AccessGraph.Proofs.Program.Recoding
import AccessGraph.Proofs.Buffer.Writing
import AccessGraph.Proofs.Assembly.Stray
import AccessGraph.Proofs.Program.Reading
import AccessGraph.Proofs.Outline.Indentation
import AccessGraph.Proofs.Command
import AccessGraph.Proofs.Program.Rearranged
import AccessGraph.Proofs.Json.Tag
