import ByteSearch.Main
import ByteSearch.Proofs.EngineMatches
import ByteSearch.Proofs.LaneTotals
import ByteSearch.Proofs.Reports
import ByteSearch.Proofs.SourceText
import ByteSearch.Proofs.StandardReport
import ByteSearch.Proofs.CommandLines
import ByteSearch.Proofs.Exhaustion
import ByteSearch.Proofs.Deliveries
import ByteSearch.Proofs.Sessions
import ByteSearch.Proofs.RecordedOffsets
import ByteSearch.Proofs.PercentEncoding
import ByteSearch.Proofs.Compilation
import ByteSearch.Proofs.Backslashes
import ByteSearch.Proofs.EscapeCount
import ByteSearch.Proofs.FileUrls
import ByteSearch.Proofs.Loading
import ByteSearch.Proofs.LongerLines
import ByteSearch.Proofs.Selections
import ByteSearch.Proofs.Verdicts
import ByteSearch.Proofs.TextReports
import ByteSearch.Proofs.RenderedReports
import ByteSearch.Proofs.Unescaping
import ByteSearch.Proofs.FirstBytes
import ByteSearch.Proofs.SharedSinks
import ByteSearch.Proofs.FaultFreedom
