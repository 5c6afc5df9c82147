import BorrowFlow.Config.Settings
import BorrowFlow.Term.Coverage
import BorrowFlow.Proofs.Choice
import BorrowFlow.Proofs.Graph.Rerouting
import BorrowFlow.Proofs.Term.Checking
import BorrowFlow.Proofs.Term.Conjunctions
import BorrowFlow.Proofs.Term.Repetition
import BorrowFlow.Proofs.Inference.FanOut
import BorrowFlow.Proofs.Inference.Features
import BorrowFlow.Proofs.Inference.Lifetimes
import BorrowFlow.Proofs.Inference.Loans
import BorrowFlow.Proofs.Inference.Supplies
import BorrowFlow.Proofs.Rendering
import BorrowFlow.Proofs.Reporting
import BorrowFlow.Proofs.Term.Mismatches
