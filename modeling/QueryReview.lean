import QueryReview.Http.Exchange
import QueryReview.Main
import QueryReview.MySql.Server
import QueryReview.Proofs.Http.Sizes
import QueryReview.Proofs.MySql.Explained
import QueryReview.Proofs.Plan.Assembly
import QueryReview.Proofs.Plan.Modes
import QueryReview.Proofs.Plan.Parents
import QueryReview.Proofs.Plan.Quotation
import QueryReview.Proofs.Plan.Ranges
import QueryReview.Proofs.Plan.Reprint
import QueryReview.Proofs.Plan.Search
import QueryReview.Proofs.Report.Scans
import QueryReview.Proofs.Report.Slowest
import QueryReview.Proofs.Session.Independence
import QueryReview.Proofs.Session.Limits
import QueryReview.Proofs.Session.Measuring
import QueryReview.Proofs.Session.Outcome
import QueryReview.Proofs.Session.Permits
import QueryReview.Proofs.Session.Requests
import QueryReview.Proofs.Session.Results
import QueryReview.Proofs.Session.Totals
import QueryReview.Proofs.Statement.Joins
import QueryReview.Proofs.Statement.LetterCase
import QueryReview.Proofs.Statement.Masking
import QueryReview.Proofs.Statement.Terminators
import QueryReview.Proofs.Statement.Trivia
import QueryReview.Proofs.Wire.Answers
