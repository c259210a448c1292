import RebasePlan.Main
import RebasePlan.Proofs.FirstCut
import RebasePlan.Proofs.Lines
import RebasePlan.Proofs.RuleLine
import RebasePlan.Proofs.PlanGrammar
import RebasePlan.Proofs.PlanText
import RebasePlan.Proofs.CallSequence
import RebasePlan.Proofs.ReturnToStart
import RebasePlan.Proofs.ReturnToHead
import RebasePlan.Proofs.ChainMark
import RebasePlan.Proofs.FirstFault
import RebasePlan.Proofs.ReportAccounts
import RebasePlan.Proofs.ToldWarnings
import RebasePlan.Proofs.SharedCapture
import RebasePlan.Proofs.GitProcesses
import RebasePlan.Proofs.JobOutcome
import RebasePlan.Proofs.ExecutorSteps
import RebasePlan.Proofs.TomlNames
import RebasePlan.Proofs.SingleSettings
import RebasePlan.Proofs.MergedValues
import RebasePlan.Proofs.Numerals
import RebasePlan.Proofs.SettingVariables
import RebasePlan.Proofs.LoaderCalls
import RebasePlan.Proofs.SourceTables
import RebasePlan.Proofs.SettingLayers
import RebasePlan.Proofs.TomlStrings
import RebasePlan.Proofs.GivenAlone
import RebasePlan.Proofs.SettingPaths
import RebasePlan.Proofs.SettingVerbosities
import RebasePlan.Proofs.JoinedPlans
import RebasePlan.Proofs.ShownPlan
import RebasePlan.Proofs.PlanLayout
import RebasePlan.Proofs.Patterns
import RebasePlan.Proofs.StatusHeader
import RebasePlan.Proofs.CommitReading
import RebasePlan.Proofs.SpelledOptions
import RebasePlan.Proofs.ProgramSettings
import RebasePlan.Proofs.UnknownSettings
import RebasePlan.Proofs.CutByBytes
import RebasePlan.Proofs.ShownCommands
import RebasePlan.Proofs.LogSettings
import RebasePlan.Proofs.ListedSources
