import Bundler.Config.Json
import Bundler.Discovery.Timed
import Bundler.Discovery.Workers
import Bundler.Loader
import Bundler.Main
import Bundler.Proofs.ImportCycles
import Bundler.Proofs.SessionDeterminism
import Bundler.Proofs.IdentityPaths
import Bundler.Proofs.LoaderCalls
import Bundler.Proofs.ArtifactImports
import Bundler.Proofs.ArtifactContents
import Bundler.Proofs.DiscoveryOrigins
import Bundler.Proofs.WorkerRuns
import Bundler.Proofs.SessionOutcome
import Bundler.Proofs.LoaderErrors
import Bundler.Proofs.DepthFirst
import Bundler.Proofs.LoaderOrder
import Bundler.Proofs.SessionEffects
import Bundler.Proofs.SessionInputs
import Bundler.Proofs.PathDrafts
import Bundler.Loader.Stack
import Bundler.Proofs.LoaderStack
import Bundler.Proofs.DiscoveryBounds
import Bundler.Proofs.BreadthFirst
import Bundler.Proofs.DiscoveryBreadth
import Bundler.Proofs.PathJoins
import Bundler.Proofs.ArtifactBanner
import Bundler.Proofs.ArtifactOrder
import Bundler.Proofs.ImportNeighbors
import Bundler.Proofs.CycleText
import Bundler.Proofs.ArtifactStyles
import Bundler.Proofs.LoaderFailures
import Bundler.Proofs.Results
import Bundler.Proofs.TreeWrites
import Bundler.Proofs.OutputPlace
import Bundler.Proofs.TextPaths
import Bundler.Proofs.BuildStages
import Bundler.Proofs.TomlKeys
import Bundler.Proofs.SettingValues
import Bundler.Proofs.SettingLayers
import Bundler.Proofs.TableEdits
import Bundler.Proofs.ArtifactRefusals
import Bundler.Proofs.VariableTexts
import Bundler.Proofs.SettingVariables
import Bundler.Proofs.SyntaxParts
import Bundler.Proofs.UnsupportedConstructs
