import PatternHooks.Journal.Viewer
import PatternHooks.Json.Formats
import PatternHooks.Session
import PatternHooks.Settings.Load
import PatternHooks.Proofs.DispatchCourse
import PatternHooks.Proofs.RegistryHistory
import PatternHooks.Proofs.MatchStateBounds
import PatternHooks.Proofs.LeftmostMatch
import PatternHooks.Proofs.FirstFailure
import PatternHooks.Proofs.SteeredMatch
import PatternHooks.Proofs.StillHooks
import PatternHooks.Proofs.VisitOrder
import PatternHooks.Proofs.HostRuns
import PatternHooks.Proofs.UnscopedHooks
import PatternHooks.Proofs.KeySnapshot
import PatternHooks.Proofs.SharedHost
import PatternHooks.Proofs.ScopeKeys
import PatternHooks.Proofs.Compilation
import PatternHooks.Proofs.KeyOrder
import PatternHooks.Proofs.WorldSteps
import PatternHooks.Proofs.RegistryTrail
import PatternHooks.Proofs.SettingsLayers
import PatternHooks.Proofs.SettingsOrigins
import PatternHooks.Proofs.DigitText
import PatternHooks.Proofs.JsonText
import PatternHooks.Proofs.LosslessFormats
import PatternHooks.Proofs.JsonSource
import PatternHooks.Proofs.SchemaLayouts
import PatternHooks.Proofs.ShortestDigits
import PatternHooks.Proofs.PrintedJson
import PatternHooks.Proofs.PrintedLayouts
import PatternHooks.Proofs.RecordLayouts
import PatternHooks.Proofs.MatchStateSetters
import PatternHooks.Proofs.MatchStatePosition
import PatternHooks.Proofs.ScopeHistory
import PatternHooks.Proofs.PatternIdForms
import PatternHooks.Proofs.DispatchRecords
import PatternHooks.Proofs.DiscreetHooks
import PatternHooks.Proofs.EngineRecords
