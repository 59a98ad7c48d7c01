import Scaffold.Main
import Scaffold.Proofs.Arrival
import Scaffold.Proofs.Silent
import Scaffold.Proofs.Claiming
import Scaffold.Proofs.Consent
import Scaffold.Proofs.Ground
import Scaffold.Proofs.Catalogue
import Scaffold.Proofs.Session
import Scaffold.Proofs.Comments
import Scaffold.Proofs.Agreement
import Scaffold.Proofs.Contract
import Scaffold.Proofs.Confinement
import Scaffold.Proofs.Preview
import Scaffold.Proofs.Interleaving
import Scaffold.Proofs.Collisions
import Scaffold.Proofs.BaseNames
import Scaffold.Proofs.Imprint
import Scaffold.Proofs.CommandLine
import Scaffold.Proofs.Repetition
import Scaffold.Proofs.Descent
import Scaffold.Proofs.Interview
import Scaffold.Proofs.Commutation
import Scaffold.Proofs.Reindentation
import Scaffold.Proofs.Identifiers
import Scaffold.Proofs.Directives
import Scaffold.Proofs.Closure
import Scaffold.Proofs.Levels
import Scaffold.Proofs.Nesting
import Scaffold.Proofs.Modes
import Scaffold.Proofs.Overwrite
import Scaffold.Proofs.Settings
import Scaffold.Proofs.Enclosure
