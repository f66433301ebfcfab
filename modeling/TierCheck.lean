import TierCheck.Json.Reader
import TierCheck.Main
import TierCheck.Proofs.Calibration.Transitions
import TierCheck.Proofs.Catalog.ArrayOperations
import TierCheck.Proofs.Catalog.Extremes
import TierCheck.Proofs.Catalog.Filter
import TierCheck.Proofs.Catalog.MixUps
import TierCheck.Proofs.Catalog.Standard
import TierCheck.Proofs.Catalog.Store
import TierCheck.Proofs.Catalog.StringTail
import TierCheck.Proofs.CommandLine.Outcome
import TierCheck.Proofs.Number.Pattern
import TierCheck.Proofs.Report.Balance
import TierCheck.Proofs.Report.Lossless
import TierCheck.Proofs.Report.Mentions
import TierCheck.Proofs.Run.CleanState
import TierCheck.Proofs.Run.Completeness
import TierCheck.Proofs.Run.Coverage
import TierCheck.Proofs.Run.Flapping
import TierCheck.Proofs.Run.Independence
import TierCheck.Proofs.Run.Interleaving
import TierCheck.Proofs.Run.Interruption
import TierCheck.Proofs.Run.NumberVerdict
import TierCheck.Proofs.Run.Soundness
import TierCheck.Proofs.Run.SummaryLines
import TierCheck.Proofs.Run.Threshold
import TierCheck.Proofs.Script.Conformance
import TierCheck.Proofs.Settings.ScheduleText
import TierCheck.Proofs.Subject.TailReader
import TierCheck.Subject.Mimic
