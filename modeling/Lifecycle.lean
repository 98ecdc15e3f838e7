import Lifecycle.Demo.Session
import Lifecycle.Json.Model
import Lifecycle.Manifest
import Lifecycle.Observer.Expand
import Lifecycle.Order
import Lifecycle.Proofs.CallHistory
import Lifecycle.Proofs.Capabilities
import Lifecycle.Proofs.Cleaning
import Lifecycle.Proofs.Pieces
import Lifecycle.Proofs.DispatchAll
import Lifecycle.Proofs.Expansion
import Lifecycle.Proofs.Extraction
import Lifecycle.Proofs.Grammar.Keeping.Statements
import Lifecycle.Proofs.Grammar.TypeShapes
import Lifecycle.Proofs.Json.Reading
import Lifecycle.Proofs.Json.ReportText
import Lifecycle.Proofs.Marks
import Lifecycle.Proofs.Parsable
import Lifecycle.Proofs.RuntimePath
import Lifecycle.Proofs.Spelling
import Lifecycle.Proofs.Token.Lexed
import Lifecycle.Proofs.TypeNotation
import Lifecycle.Proofs.UnitLookup
