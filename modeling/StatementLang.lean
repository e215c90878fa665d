import StatementLang.Main
import StatementLang.Proofs.Reset
import StatementLang.Proofs.CanonicalForm
import StatementLang.Proofs.Provenance
import StatementLang.Proofs.Schedules
import StatementLang.Proofs.Configuration
import StatementLang.Proofs.ExactPositions
import StatementLang.Proofs.Masking
import StatementLang.Proofs.Watching
import StatementLang.Proofs.Formatting
import StatementLang.Proofs.Grammar
import StatementLang.Proofs.Verdicts
import StatementLang.Proofs.Bookkeeping
import StatementLang.Proofs.History
import StatementLang.Proofs.Literals
import StatementLang.Proofs.Endings
import StatementLang.Proofs.PageShape
import StatementLang.Proofs.Replay
import StatementLang.Proofs.Dumps
import StatementLang.Proofs.Stepping
import StatementLang.Proofs.Supply
