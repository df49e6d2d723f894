import MissionTime.Formula.Measure
import MissionTime.Formula.Order
import MissionTime.Formula.Edit
import MissionTime.Journal
import MissionTime.Proofs.Satisfaction
import MissionTime.Proofs.PrettyRoundTrip
import MissionTime.Proofs.SubTrace
import MissionTime.Proofs.Awaiting
import MissionTime.Proofs.PrettyMeaning
import MissionTime.Proofs.Reach
import MissionTime.Proofs.Stopping
import MissionTime.Proofs.Refusal
import MissionTime.Proofs.Places
import MissionTime.Proofs.ErrorPosition
import MissionTime.Proofs.RelevantBits
import MissionTime.Proofs.Ordering
import MissionTime.Proofs.CanonicalText
import MissionTime.Proofs.NestingBound
import MissionTime.Proofs.MutationRun
import MissionTime.Proofs.Duality
import MissionTime.Proofs.Persistence
import MissionTime.Proofs.Saturation
import MissionTime.Proofs.Unrolling
import MissionTime.Proofs.IntervalAlgebra
import MissionTime.Proofs.Classification
import MissionTime.Proofs.Borders
import MissionTime.Proofs.NestingLevels
import MissionTime.Proofs.Respacing
import MissionTime.Proofs.LinearOrder
import MissionTime.Proofs.BinaryExpansion
import MissionTime.Proofs.Conservation
import MissionTime.Proofs.Monotonicity
import MissionTime.Proofs.StepTexts
import MissionTime.Proofs.Metrics
import MissionTime.Proofs.CheckedEvaluation
import MissionTime.Proofs.Progress
