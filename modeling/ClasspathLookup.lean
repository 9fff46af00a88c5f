import ClasspathLookup.Access
import ClasspathLookup.Answer
import ClasspathLookup.Archive.Cache
import ClasspathLookup.Archive.Index
import ClasspathLookup.Declaration.Lexeme
import ClasspathLookup.Declaration.TopLevel
import ClasspathLookup.Disk.Basic
import ClasspathLookup.Disk.Path
import ClasspathLookup.Disk.Position
import ClasspathLookup.Environment.Basic
import ClasspathLookup.Environment.Guard
import ClasspathLookup.Environment.Options
import ClasspathLookup.Environment.Scan
import ClasspathLookup.Glob
import ClasspathLookup.Keyed
import ClasspathLookup.Location.Basic
import ClasspathLookup.Location.Query
import ClasspathLookup.Location.Storage
import ClasspathLookup.LocationSet
import ClasspathLookup.Lookup
import ClasspathLookup.Modules
import ClasspathLookup.Proofs.AddedProjects
import ClasspathLookup.Proofs.Agreement
import ClasspathLookup.Proofs.ArchiveIndex
import ClasspathLookup.Proofs.BareArchives
import ClasspathLookup.Proofs.ByteOrder
import ClasspathLookup.Proofs.CacheHistories
import ClasspathLookup.Proofs.Cancellation
import ClasspathLookup.Proofs.Cleanup
import ClasspathLookup.Proofs.DroppedLocations
import ClasspathLookup.Proofs.Eligible
import ClasspathLookup.Proofs.FallbackRank
import ClasspathLookup.Proofs.FileTree
import ClasspathLookup.Proofs.GlobRelation
import ClasspathLookup.Proofs.HandleNames
import ClasspathLookup.Proofs.HandleNumbers
import ClasspathLookup.Proofs.Histories
import ClasspathLookup.Proofs.ImposedRules
import ClasspathLookup.Proofs.IndexedArchives
import ClasspathLookup.Proofs.IndexedEntries
import ClasspathLookup.Proofs.Ineligible
import ClasspathLookup.Proofs.LexicalElements
import ClasspathLookup.Proofs.ListedFiles
import ClasspathLookup.Proofs.ListingOrder
import ClasspathLookup.Proofs.Lists
import ClasspathLookup.Proofs.LocationAnswers
import ClasspathLookup.Proofs.MatchingEnvironments
import ClasspathLookup.Proofs.MatchingLocations
import ClasspathLookup.Proofs.ModuleConfinement
import ClasspathLookup.Proofs.ModuleTags
import ClasspathLookup.Proofs.NotFound
import ClasspathLookup.Proofs.OfferedLocations
import ClasspathLookup.Proofs.OpenPrecedence
import ClasspathLookup.Proofs.OpenUnits
import ClasspathLookup.Proofs.Outcome
import ClasspathLookup.Proofs.PackagePatterns
import ClasspathLookup.Proofs.PackageTrees
import ClasspathLookup.Proofs.PackedFolders
import ClasspathLookup.Proofs.PackedTree
import ClasspathLookup.Proofs.PathSpellings
import ClasspathLookup.Proofs.PrimaryScan
import ClasspathLookup.Proofs.RedundantSlashes
import ClasspathLookup.Proofs.RelatedLookups
import ClasspathLookup.Proofs.SameKey
import ClasspathLookup.Proofs.SecondaryChoice
import ClasspathLookup.Proofs.SetGrowth
import ClasspathLookup.Proofs.SharedHandles
import ClasspathLookup.Proofs.SingleRoots
import ClasspathLookup.Proofs.SlashedNames
import ClasspathLookup.Proofs.Snapshots
import ClasspathLookup.Proofs.SpareLocations
import ClasspathLookup.Proofs.TextBlocks
import ClasspathLookup.Proofs.TopLevelNames
import ClasspathLookup.Proofs.TypesInPackages
import ClasspathLookup.Proofs.UnitFileNames
import ClasspathLookup.Proofs.WidenedPatterns
import ClasspathLookup.Proofs.WiderFilters
import ClasspathLookup.Text.GeneralCategory
import ClasspathLookup.Text.Slash
import ClasspathLookup.Text.Sorted
import ClasspathLookup.TypeName
import ClasspathLookup.WorkingCopy
