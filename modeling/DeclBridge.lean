import DeclBridge.Command.Run
import DeclBridge.Main
import DeclBridge.Proofs.ManifestLines
import DeclBridge.Proofs.ManifestSections
import DeclBridge.Proofs.FirstOccurrences
import DeclBridge.Proofs.ManifestMerging
import DeclBridge.Proofs.ManifestEncoding
import DeclBridge.Proofs.ListSplitting
import DeclBridge.Proofs.FieldCodecs
import DeclBridge.Proofs.ManifestRoundTrip
import DeclBridge.Proofs.KotlinHeaders
import DeclBridge.Proofs.TypeTexts
import DeclBridge.Proofs.ScanRoundTrip
import DeclBridge.Proofs.ManifestMergeLaws
import DeclBridge.Proofs.DecodedDeclarations
import DeclBridge.Proofs.ManifestNormalForm
import DeclBridge.Proofs.SourceSyntax
import DeclBridge.Proofs.BracketStacks
import DeclBridge.Proofs.BalancedTexts
import DeclBridge.Proofs.TypeGrammar
import DeclBridge.Proofs.TypeSpellings
import DeclBridge.Proofs.MaskedSources
import DeclBridge.Proofs.QuietTexts
import DeclBridge.Proofs.ParameterEntries
import DeclBridge.Proofs.ParameterLists
import DeclBridge.Proofs.HeaderPlaces
import DeclBridge.Proofs.SourceScopes
import DeclBridge.Proofs.SourceScan
import DeclBridge.Proofs.ScannedKeys
import DeclBridge.Proofs.TransformedCode
import DeclBridge.Proofs.HierarchySyntax
import DeclBridge.Proofs.HierarchyHeaders
import DeclBridge.Proofs.HierarchyScan
import DeclBridge.Proofs.RawStrings
import DeclBridge.Proofs.LocalReaders
import DeclBridge.Proofs.CrossingReaders
import DeclBridge.Proofs.CrossingHeaders
import DeclBridge.Proofs.LiteralPlaces
import DeclBridge.Proofs.DeclarationReadings
import DeclBridge.Proofs.ShiftedScopes
import DeclBridge.Proofs.LiteralReadings
import DeclBridge.Proofs.InertRawStrings
import DeclBridge.Proofs.AdmittedDeclarations
import DeclBridge.Proofs.TreeEntries
import DeclBridge.Proofs.ToldMessages
import DeclBridge.Proofs.CommandEffects
import DeclBridge.Proofs.TypeClauses
import DeclBridge.Proofs.ClauseSearches
import DeclBridge.Proofs.FunctionClauses
import DeclBridge.Proofs.ClauseScans
import DeclBridge.Proofs.GenericArguments
import DeclBridge.Proofs.LiteralSegments
import DeclBridge.Proofs.MaskedLists
import DeclBridge.Proofs.StepwiseReaders
import DeclBridge.Proofs.MaskedParameters
import DeclBridge.Proofs.LineComments
import DeclBridge.Proofs.SourceOrder
import DeclBridge.Proofs.EnclosedReaders
import DeclBridge.Proofs.EnclosedSources
import DeclBridge.Proofs.EnclosedScopes
import DeclBridge.Proofs.ClassReferences
import DeclBridge.Proofs.FunctionBodies
import DeclBridge.Proofs.BracePartners
import DeclBridge.Proofs.HeaderBodies
import DeclBridge.Proofs.TypeExtents
import DeclBridge.Proofs.CaseAttribution
import DeclBridge.Proofs.HeaderKeywords
import DeclBridge.Proofs.UnterminatedTypes
import DeclBridge.Proofs.FunctionKeywords
import DeclBridge.Proofs.AnnotationLines
import DeclBridge.Proofs.AnnotatedHeaders
import DeclBridge.Proofs.AdoptionMarkers
import DeclBridge.Proofs.MappedTypes
import DeclBridge.Proofs.DefaultOverloads
import DeclBridge.Proofs.TypeExpressions
import DeclBridge.Proofs.QualifiedNames
import DeclBridge.Proofs.FunctionTypes
import DeclBridge.Proofs.ManifestEdits
import DeclBridge.Proofs.LoadedSettings
import DeclBridge.Proofs.LiteralMasks
import DeclBridge.Proofs.BracketPairs
