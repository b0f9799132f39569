import Reshape.CommandLine.Transcript
import Reshape.Main
import Reshape.Program.Holes
import Reshape.Proofs.Alignment
import Reshape.Proofs.Application
import Reshape.Proofs.Domains
import Reshape.Proofs.WholeNumbers
import Reshape.Proofs.Shape
import Reshape.Proofs.StaticKinds
import Reshape.Proofs.SearchEvents
import Reshape.Proofs.PremiseChains
import Reshape.Proofs.Fillings
import Reshape.Proofs.Instantiation
import Reshape.Proofs.Run
import Reshape.Proofs.Wanted
import Reshape.Proofs.Acceptance
import Reshape.Proofs.SolutionSet
import Reshape.Proofs.Truncation
import Reshape.Proofs.Completeness
import Reshape.Proofs.Origins
import Reshape.Proofs.NewValues
import Reshape.Proofs.Choices
import Reshape.Proofs.RowSources
import Reshape.Proofs.Separators
import Reshape.Proofs.Requirements
import Reshape.Proofs.Extension
import Reshape.Proofs.Reshaping
import Reshape.Proofs.Reunion
import Reshape.Proofs.Disunion
import Reshape.Proofs.Naming
import Reshape.Proofs.CheckedEvaluation
import Reshape.Proofs.WellFormedness
import Reshape.Proofs.IndicesInRange
import Reshape.Proofs.RulingOut
import Reshape.Proofs.FinalChecks
import Reshape.Proofs.Refusals
import Reshape.Proofs.DomainCompleteness
import Reshape.Proofs.NameBlindness
import Reshape.Proofs.FewerRows
import Reshape.Proofs.DomainSoundness
import Reshape.Proofs.InclusionOrder
import Reshape.Proofs.InputsFirst
import Reshape.Proofs.PremiseTree
import Reshape.Proofs.Widening
import Reshape.Proofs.SpreadAfterGather
import Reshape.Proofs.GatherAfterSpread
import Reshape.Proofs.RowOrder
import Reshape.Proofs.JsonRoundTrip
import Reshape.Proofs.FullGrids
import Reshape.Proofs.SeparateAfterUnite
import Reshape.Proofs.ProgramTexts
import Reshape.Proofs.UniformRecords
import Reshape.Proofs.HolePaths
import Reshape.Proofs.SketchOrder
import Reshape.Proofs.AdmissibleLengths
import Reshape.Proofs.Overrides
import Reshape.Proofs.ReportUnion
import Reshape.Proofs.NameHistories
import Reshape.Proofs.Combinations
