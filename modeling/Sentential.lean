import Sentential.Cli.World
import Sentential.Main
import Sentential.Proofs.Alignment
import Sentential.Proofs.Blanks
import Sentential.Proofs.Cancellation
import Sentential.Proofs.CanonicalText
import Sentential.Proofs.Chaining
import Sentential.Proofs.Chains
import Sentential.Proofs.Classification
import Sentential.Proofs.Cli.Failure
import Sentential.Proofs.Coloring
import Sentential.Proofs.Completion
import Sentential.Proofs.Depth
import Sentential.Proofs.Diagnosis
import Sentential.Proofs.Diagram.Numbering
import Sentential.Proofs.Diagram.Reading
import Sentential.Proofs.Display
import Sentential.Proofs.Enumeration
import Sentential.Proofs.Expectation
import Sentential.Proofs.Formatting
import Sentential.Proofs.Lexing
import Sentential.Proofs.Lockstep
import Sentential.Proofs.Logging
import Sentential.Proofs.Occurrences
import Sentential.Proofs.Places
import Sentential.Proofs.Restriction
import Sentential.Proofs.Sessions
import Sentential.Proofs.SharedWork
import Sentential.Proofs.Simplification
import Sentential.Proofs.UniqueReadability
import Sentential.Proofs.Viability
