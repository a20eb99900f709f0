import Slate.Library.FiniteMap
import Slate.Library.Programs
import Slate.Library.Interleaving
import Slate.Library.Versions
import Slate.Library.Serving
import Slate.Library.Traversals
import Slate.Library.Confined
import Slate.Library.Upholding
import Slate.Cache
import Slate.Entities
import Slate.Server
import Slate.Groups
import Slate.Users
import Slate.Memberships
import Slate.Clusters
import Slate.Access
import Slate.Listings
import Slate.MembershipCalls
import Slate.AccessCalls
import Slate.UserCalls
import Slate.UserRequests
import Slate.Messages
import Slate.Credentials
import Slate.CredentialCalls
import Slate.VolumeRequests
import Slate.InstallRequests
import Slate.Volumes
import Slate.Instances
import Slate.Secrets
import Slate.RecordCalls
import Slate.ClusterRecords
import Slate.Commands
import Slate.Applications
import Slate.ApplicationCalls
import Slate.Deletions
import Slate.Versions
import Slate.Catalogue
import Slate.DNSManipulator
import Slate.Proofs.NamedPlaces
import Slate.Proofs.OnlyReads
import Slate.Proofs.Creations
import Slate.Proofs.VolumeCreations
import Slate.Proofs.SecretCreations
import Slate.Proofs.InstallCreations
import Slate.Proofs.UserCaches
import Slate.Proofs.MembershipCache
import Slate.Proofs.MembershipDecisions
import Slate.Proofs.AccessDecisions
import Slate.Proofs.InstanceListings
import Slate.Proofs.VolumeListings
import Slate.Proofs.SecretLookups
import Slate.Proofs.MembershipRaces
import Slate.Proofs.AccessRaces
import Slate.Proofs.UserRaces
import Slate.Proofs.CredentialRaces
import Slate.Proofs.RecordRaces
import Slate.Proofs.ClusterHistories
import Slate.Proofs.ApplicationPermissions
import Slate.Proofs.ApplicationRaces
import Slate.Proofs.DanglingReferences
import Slate.Proofs.VersionOrder
import Slate.Proofs.HelmTables
import Slate.Proofs.CatalogueAnswers
import Slate.Proofs.DNSOwnership
import Slate.Proofs.GroupListings
import Slate.Library.Paging
import Slate.PagedQueries
import Slate.Proofs.PagedQueries
import Slate.Proofs.GzipStreams
import Slate.Proofs.GzipChecksums
import Slate.Proofs.ProcessExits
import Slate.Base64
import Slate.Proofs.Base64
import Slate.Quantities
import Slate.Proofs.Quantities
import Slate.ClusterNodes
import Slate.Proofs.ClusterNodes
import Slate.Tar
import Slate.Proofs.TarEntries
import Slate.Proofs.CredentialRemoval
import Slate.ClusterSetup
import Slate.Proofs.SetupExits
import Slate.ClaimDeletion
import Slate.Proofs.ClaimDeletions
import Slate.ProcessPipes
import Slate.Proofs.FedPrograms
import Slate.Proofs.CommandSteps
import Slate.Proofs.CommandRuns
import Slate.ClientVersions
import Slate.Proofs.ClientVersions
import Slate.Responses
import Slate.CredentialRequests
import Slate.Proofs.CredentialTexts
import Slate.Library.Blocks
import Slate.TarWriter
import Slate.Proofs.TarStreams
import Slate.Proofs.TarRoundTrips
import Slate.Proofs.ArchivedTrees
import Slate.Locations
import Slate.Proofs.LocationTexts
import Slate.Library.Separators
import Slate.Identifiers
import Slate.GroupRequests
import Slate.HelmValues
import Slate.Proofs.HelmValues
import Slate.Extraction
import Slate.Archiving
import Slate.Library.Lockstep
import Slate.Proofs.Extractions
import Slate.Library.FileTrees
import Slate.Proofs.ResolvedPaths
import Slate.Proofs.Confinement
import Slate.Proofs.PathResolution
import Slate.HandlerCommands
import Slate.InstanceScale
import Slate.Proofs.InstanceScales
import Slate.TableLayout
import Slate.Library.Columns
import Slate.Proofs.TableLines
import Slate.Proofs.TableLayouts
import Slate.SecretRequests
import Slate.Proofs.SecretCopies
import Slate.Texts
import Slate.Proofs.TextReplacements
import Slate.Proofs.TextWrapping
import Slate.Endpoints
import Slate.Proofs.Endpoints
import Slate.Fixup
import Slate.Library.EditDistance
import Slate.Proofs.Fixups
import Slate.Configuration
import Slate.Proofs.Configurations
import Slate.Multimap
import Slate.Proofs.Multimaps
import Slate.OutputFormats
import Slate.Proofs.OutputFormats
import Slate.Proofs.SecretHistories
import Slate.Proofs.SecretKeeping
import Slate.Proofs.Parties
import Slate.Proofs.PartySecrets
import Slate.Proofs.Privileges
import Slate.Proofs.SecretPrivileges
import Slate.Proofs.UserPrivileges
