import Federation.Main
import Federation.Proofs.Application.ContextSources
import Federation.Proofs.Application.QualifiedUids
import Federation.Proofs.Client.Reporting
import Federation.Proofs.Client.Standing
import Federation.Proofs.CommandLine.BuiltManifests
import Federation.Proofs.Dependency.Placeholders
import Federation.Proofs.Dependency.Specifiers
import Federation.Proofs.Manifest.Successions
import Federation.Proofs.Manifest.Writers
import Federation.Proofs.Plugin.Loads
import Federation.Proofs.Plugin.OwnDependencies
import Federation.Proofs.Resolver.BlankFields
import Federation.Proofs.Resolver.EntryUrls
import Federation.Proofs.Resolver.Requests
import Federation.Proofs.Resolver.Uids
import Federation.Proofs.Workspace.Histories
import Federation.Proofs.Simulation.Fleets
import Federation.Proofs.Dependency.Faults
import Federation.Proofs.Workspace.Catalogs
import Federation.Proofs.Plugin.Frames
import Federation.Proofs.Plugin.VersionPrefixes
import Federation.Proofs.Client.Subscribers
import Federation.Proofs.Token.Sources
import Federation.Proofs.Workspace.Exclusions
import Federation.Manifest.Builder
import Federation.Proofs.Manifest.Builders
import Federation.Proofs.Token.CleanTokens
import Federation.Proofs.Url.Directories
import Federation.Proofs.Application.UidSegments
import Federation.Proofs.Resolver.Questions
