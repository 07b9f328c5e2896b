import PocketSql.Main
import PocketSql.Token.Scanner
import PocketSql.Proofs.Store.Footprint
import PocketSql.Proofs.Store.Numbering
import PocketSql.Proofs.Store.Reachable
import PocketSql.Proofs.Syntax.LazyLexing
import PocketSql.Proofs.Syntax.PrecedenceClimbing
import PocketSql.Proofs.Syntax.DepthLimit
import PocketSql.Proofs.Token.Location
import PocketSql.Proofs.Token.Lossless
import PocketSql.Proofs.Token.Spelling
import PocketSql.Proofs.Query.Aggregation
import PocketSql.Proofs.Syntax.StatementReading
import PocketSql.Proofs.Query.Script
import PocketSql.Proofs.Query.Safety
import PocketSql.Proofs.Query.Condition
import PocketSql.Proofs.Syntax.StatementPromptness
import PocketSql.Proofs.Query.RoundTrip
import PocketSql.Proofs.Query.Simultaneous
import PocketSql.Proofs.Query.Independence
import PocketSql.Proofs.Token.LineBreaks
import PocketSql.Proofs.Store.CompleteRows
import PocketSql.Proofs.Query.Drivers
import PocketSql.Proofs.Query.Idempotence
import PocketSql.Proofs.Store.Placement
import PocketSql.Proofs.Store.Defaults
import PocketSql.Proofs.Query.ShellMeaning
import PocketSql.Proofs.Query.AggregateCheck
import PocketSql.Proofs.Query.IntegerExpressions
import PocketSql.Proofs.Query.Extrema
import PocketSql.Proofs.Query.Comparison
import PocketSql.Proofs.Timestamp.RoundTrip
import PocketSql.Proofs.Syntax.DepthRelease
import PocketSql.Proofs.Syntax.SourceOrder
import PocketSql.Proofs.Syntax.Dump
import PocketSql.Proofs.Query.ErrorPositions
import PocketSql.Proofs.Query.ResultShape
import PocketSql.Proofs.Token.Scanning
import PocketSql.Proofs.Syntax.Numeral
import PocketSql.Proofs.Token.LetterCase
import PocketSql.Proofs.Report.GridReading
