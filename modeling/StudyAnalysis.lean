import StudyAnalysis.CommandLine.FileTree
import StudyAnalysis.Main
import StudyAnalysis.Proofs.Selection.Modes
import StudyAnalysis.Proofs.Data.WellFormed
import StudyAnalysis.Proofs.Data.Cells
import StudyAnalysis.Proofs.Hypothesis.Bindings
import StudyAnalysis.Proofs.Data.KeepRows
import StudyAnalysis.Proofs.Hypothesis.Renumbering
import StudyAnalysis.Proofs.Hypothesis.RowRestriction
import StudyAnalysis.Proofs.Hypothesis.Multivariate
import StudyAnalysis.Proofs.Hypothesis.Observations
import StudyAnalysis.Proofs.Hypothesis.Direction
import StudyAnalysis.Proofs.Selection.Monotonicity
import StudyAnalysis.Proofs.Hypothesis.SessionRuns
import StudyAnalysis.Proofs.Data.Representation
import StudyAnalysis.Proofs.Hypothesis.Comparisons
import StudyAnalysis.Proofs.Hypothesis.FilterChecks
import StudyAnalysis.Proofs.Hypothesis.FilterLaws
import StudyAnalysis.Proofs.Hypothesis.LabelOrder
import StudyAnalysis.Proofs.Hypothesis.DesignThreshold
import StudyAnalysis.Proofs.Hypothesis.Relevance
import StudyAnalysis.Proofs.Hypothesis.Correction
import StudyAnalysis.Proofs.Hypothesis.UnitInvariance
import StudyAnalysis.Proofs.Selection.RankTests
import StudyAnalysis.Proofs.Statistics.OrderTest
import StudyAnalysis.Proofs.Selection.TableTests
import StudyAnalysis.Proofs.Selection.CodedSamples
import StudyAnalysis.Proofs.Hypothesis.CrossTabulation
import StudyAnalysis.Proofs.Statistics.Collinearity
import StudyAnalysis.Proofs.Selection.Fallback
import StudyAnalysis.Proofs.Statistics.Symmetry
import StudyAnalysis.Proofs.Statistics.MeanInterval
import StudyAnalysis.Proofs.Hypothesis.OpposedPredictions
import StudyAnalysis.Proofs.Number.Probabilities
import StudyAnalysis.Proofs.Selection.Verdicts
import StudyAnalysis.Proofs.Hypothesis.PredictionText
import StudyAnalysis.Proofs.Hypothesis.ResultChanges
import StudyAnalysis.Proofs.Hypothesis.PredictedResults
import StudyAnalysis.Proofs.Data.ConditionOrder
import StudyAnalysis.Proofs.Hypothesis.IntegerColumns
import StudyAnalysis.Proofs.Statistics.DoubleRanks
