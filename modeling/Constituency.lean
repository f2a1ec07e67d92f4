import Constituency.Main
import Constituency.Session
import Constituency.Proofs.Source.Printing
import Constituency.Proofs.Source.Assembly
import Constituency.Proofs.Source.Classification
import Constituency.Proofs.Chunking
import Constituency.Proofs.Renaming.Parse
import Constituency.Proofs.Chart.Termination
import Constituency.Proofs.Chart.Discovery
import Constituency.Proofs.Grammar.Canonical
import Constituency.Proofs.Grammar.Defect
import Constituency.Proofs.Chart.Excerpt
import Constituency.Proofs.Chart.Readers
import Constituency.Proofs.Source.Relaid
import Constituency.Proofs.Text.Tokens
import Constituency.Proofs.Text.Lowercase
import Constituency.Proofs.Text.Words
import Constituency.Proofs.Text.Stable
import Constituency.Proofs.Tree.Walk
import Constituency.Proofs.Tree.Bracketed
import Constituency.Proofs.Tree.Drawing
import Constituency.Proofs.Chart.Pruning
import Constituency.Proofs.Chart.Cuts
import Constituency.Proofs.Chart.Fixpoint
import Constituency.Proofs.Ambiguity
