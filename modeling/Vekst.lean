import Vekst.Proof.Reports.Conservation
import Vekst.Isolation.Discipline
import Vekst.Proof.Reports.Periods
import Vekst.Ledger.Schema
import Vekst.Failure
import Vekst.Ledger.Store
import Vekst.Relational.Join
import Vekst.Reports.Service
import Vekst.Proof.Reports.DrillDown
import Vekst.Proof.Reports.Agreement
import Vekst.Ledger.Classification
import Vekst.Dedup.Lookup
import Vekst.Dedup.Transfer
import Vekst.Classify.Request
import Vekst.Ingest.Statement
import Vekst.Job
import Vekst.Classify.Run
import Vekst.Ingest.Persist
import Vekst.Jobs
import Vekst.Isolation.View
import Vekst.Proof.Ledger.Tables
import Vekst.Relational.Numbering
import Vekst.Proof.Ledger.Writes
import Vekst.Proof.Ingest.Persist
import Vekst.Proof.Jobs
import Vekst.Proof.Ledger.OneLive
import Vekst.Proof.Ingest.Duplicates
import Vekst.Proof.Ledger.Currency
import Vekst.Proof.Ledger.Unclassified
import Vekst.Proof.Reports.Transfers
import Vekst.Isolation.Moves
import Vekst.Isolation.Snapshot
import Vekst.Proof.Reports.OneMoment
import Vekst.Proof.Reports.Columns
import Vekst.Proof.Reports.Reconciliation
import Vekst.Dedup.Operations
import Vekst.Isolation.Alone
import Vekst.Proof.Dedup.Pairing
import Vekst.Proof.Dedup.Soundness
import Vekst.Proof.Dedup.Arrival
import Vekst.Ingest.Pipeline
import Vekst.Ingest.Upload
import Vekst.Isolation.Watch
import Vekst.Proof.Ingest.Transitions
import Vekst.Proof.Ingest.Forward
import Vekst.Isolation.Replay
import Vekst.Isolation.Rehearse
import Vekst.Proof.Ingest.Confirm
import Vekst.Proof.Ingest.Stages
import Vekst.Proof.Ingest.ConfirmOnce
import Vekst.Proof.Taxonomy.Sections
import Vekst.Review.Picker
import Vekst.Proof.Classify.Chunk
import Vekst.Proof.Taxonomy.Codes
import Vekst.Proof.Review.Resolve
import Vekst.Eval.Norm
import Vekst.Normalize.Description
import Vekst.Text.Squeeze
import Vekst.Proof.Normalize.Description
import Vekst.Proof.Classify.Versions
import Vekst.Isolation.Solo
import Vekst.Proof.Review.Queue
import Vekst.Proof.Review.Undo
import Vekst.Proof.Review.InStep
import Vekst.Proof.Review.Imports
import Vekst.Proof.Review.Decisions
import Vekst.Identity.SignIn
import Vekst.Proof.Identity.SignIn
import Vekst.Normalize.Counterparty
import Vekst.Classify.Engine
import Vekst.Eval.Engine
import Vekst.Proof.Eval.Engine
import Vekst.Ingest.Locale
import Vekst.Text.Csv
import Vekst.Ingest.Decode
import Vekst.Ingest.Profile
import Vekst.Ingest.Priorbank
import Vekst.Proof.Ingest.MapOrder
import Vekst.Ingest.Validate
import Vekst.Proof.Money.Decimal
import Vekst.Proof.Ingest.Separator
import Vekst.Ingest.Stages
import Vekst.Proof.Ingest.Reread
import Vekst.Ingest.Landing
import Vekst.Proof.Ingest.Landing
import Vekst.Proof.Money.Format
import Vekst.Proof.Ingest.Amounts
import Vekst.Ingest.Report
import Vekst.Proof.Ingest.Report
import Vekst.Proof.Ledger.ContentKey
import Vekst.Proof.Classify.Precedence
import Vekst.Proof.Ingest.Charset
import Vekst.Proof.Ingest.Detect
import Vekst.Proof.Ingest.Rows
import Vekst.Proof.Ingest.Balance
import Vekst.Proof.Ingest.OneCurrency
import Vekst.Proof.Classify.Pages
import Vekst.Proof.Classify.Retries
import Vekst.Proof.Classify.Offers
import Vekst.Proof.Classify.OfferedOnce
import Vekst.Proof.Classify.Conditions
import Vekst.Classify.Matcher
import Vekst.Proof.Classify.ReadWhole
import Vekst.Proof.Classify.Spelling
import Vekst.Proof.Reports.Labels
import Vekst.Proof.Reports.Paging
import Vekst.Proof.Taxonomy.Adoption
import Vekst.Isolation.Locks
import Vekst.Proof.Ledger.Supersession
import Vekst.Ingest.Override
import Vekst.Isolation.Posted
import Vekst.Proof.Ingest.Override
import Vekst.Proof.Reports.Months
import Vekst.Proof.Ingest.Reasons
import Vekst.Proof.Ingest.Expiry
import Vekst.Identity.Accounts
import Vekst.Proof.Identity.Accounts
import Vekst.Isolation.Order
import Vekst.Proof.Tenancy.Organisations
import Vekst.Money.Display
import Vekst.Proof.Money.Display
import Vekst.Web.Proto
import Vekst.Web.Report
import Vekst.Proof.Web.Report
import Vekst.Proof.Web.Drilldown
import Vekst.Proof.Normalize.DigitGroups
import Vekst.Proof.Normalize.Gapless
import Vekst.Proof.Normalize.Idempotence
import Vekst.Proof.Web.CategoryTree
import Vekst.Proof.Web.Picker
import Vekst.Web.ReviewScreen
import Vekst.Proof.Web.ReviewScreen
import Vekst.Proof.Ingest.Sequence
import Vekst.Text.Quoted
import Vekst.Eval.Sources
import Vekst.Proof.Normalize.Marks
import Vekst.Proof.Eval.Sources
import Vekst.Relational.Policy
import Vekst.Relational.Separation
import Vekst.Relational.Interleaving
import Vekst.Tenancy.Tables
import Vekst.Proof.Tenancy.Isolation
import Vekst.Identity.Access
import Vekst.Relational.Simulation
import Vekst.Proof.Identity.Access
import Vekst.Proof.Review.Alike
import Vekst.Proof.Review.TakenBack
import Vekst.Proof.Reports.Figures
import Vekst.Proof.Review.Moved
import Vekst.Proof.Classify.Deployed
import Vekst.Proof.Classify.Frame
import Vekst.Proof.Ingest.Booked
import Vekst.Proof.Reports.Balances
