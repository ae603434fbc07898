import Gherkin.Json.Compact
import Gherkin.Json.Reader
import Gherkin.Lookup
import Gherkin.Stream
import Gherkin.Proofs.Assembling
import Gherkin.Proofs.Columns
import Gherkin.Proofs.Grouping
import Gherkin.Proofs.Promise
import Gherkin.Proofs.Replay
import Gherkin.Proofs.Acceptance
import Gherkin.Proofs.RuleEffect
import Gherkin.Proofs.Faithful
import Gherkin.Proofs.Closing
import Gherkin.Proofs.Marks
import Gherkin.Proofs.Reading
import Gherkin.Proofs.RoundTrip
import Gherkin.Proofs.Rebuilding
import Gherkin.Proofs.Invariants
import Gherkin.Proofs.Uncommented
import Gherkin.Proofs.Comments
import Gherkin.Proofs.Reuse
import Gherkin.Proofs.Overlooked
import Gherkin.Proofs.Reordering
import Gherkin.Proofs.Moved
import Gherkin.Proofs.Positions
import Gherkin.Proofs.Origins
import Gherkin.Proofs.Accounts
import Gherkin.Proofs.Reports
import Gherkin.Proofs.Stopping
import Gherkin.Proofs.Paths
import Gherkin.Proofs.Issues
import Gherkin.Proofs.Spelling
import Gherkin.Proofs.Innermost
import Gherkin.Proofs.Tables
import Gherkin.Proofs.Refusals
import Gherkin.Proofs.Filing
import Gherkin.Proofs.Lines
import Gherkin.Proofs.Messages
import Gherkin.Proofs.Lockstep
import Gherkin.Proofs.History
import Gherkin.Proofs.Numbers
