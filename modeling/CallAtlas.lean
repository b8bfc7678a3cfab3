import CallAtlas.Artifact.Bundle
import CallAtlas.Artifact.Json
import CallAtlas.Artifact.Report
import CallAtlas.BodyFilter
import CallAtlas.Bytecode.Instruction
import CallAtlas.Bytecode.Listing
import CallAtlas.Bytecode.Opcode
import CallAtlas.ClassFile.Annotations
import CallAtlas.ClassFile.CompiledType
import CallAtlas.ClassFile.FormatError
import CallAtlas.ClassFile.ModifiedUtf8
import CallAtlas.ClassFile.Pool
import CallAtlas.ClassFile.Reader
import CallAtlas.Decimal.Double
import CallAtlas.Decimal.Shortest
import CallAtlas.Endpoint
import CallAtlas.Fallible
import CallAtlas.Files.Disk
import CallAtlas.Files.Path
import CallAtlas.Graph.Basic
import CallAtlas.Graph.Calls
import CallAtlas.Graph.Interfaces
import CallAtlas.Graph.Reach
import CallAtlas.Java.BodyPattern
import CallAtlas.Java.Outline
import CallAtlas.Java.OutlineParser
import CallAtlas.Java.SourceIndex
import CallAtlas.Java.Token
import CallAtlas.Java.TokenTree
import CallAtlas.Log
import CallAtlas.Main
import CallAtlas.MethodId
import CallAtlas.Project.BodyStore
import CallAtlas.Project.LoadedTypes
import CallAtlas.Project.SourceLocator
import CallAtlas.Proofs.ArtifactFiles
import CallAtlas.Proofs.ArtifactsBeside
import CallAtlas.Proofs.Assembly
import CallAtlas.Proofs.AssemblyRoundTrip
import CallAtlas.Proofs.AtomicExtraction
import CallAtlas.Proofs.Attribution
import CallAtlas.Proofs.BigEndian
import CallAtlas.Proofs.BlankedSearch
import CallAtlas.Proofs.BodyAgreement
import CallAtlas.Proofs.BodyLoading
import CallAtlas.Proofs.BodyOrigins
import CallAtlas.Proofs.BodySearch
import CallAtlas.Proofs.BraceNesting
import CallAtlas.Proofs.CallEdges
import CallAtlas.Proofs.CanonicalGraph
import CallAtlas.Proofs.ClassFileDiscovery
import CallAtlas.Proofs.ClassFileLayout
import CallAtlas.Proofs.ClassFileRoundTrip
import CallAtlas.Proofs.ClassFilesKept
import CallAtlas.Proofs.ControllerMethods
import CallAtlas.Proofs.EndpointRegistration
import CallAtlas.Proofs.EndpointRuns
import CallAtlas.Proofs.Exclusion
import CallAtlas.Proofs.Exploration
import CallAtlas.Proofs.FileWrites
import CallAtlas.Proofs.FittingOutlines
import CallAtlas.Proofs.Identifiers
import CallAtlas.Proofs.IndexVisits
import CallAtlas.Proofs.InterfaceExpansion
import CallAtlas.Proofs.LayoutInversion
import CallAtlas.Proofs.LexedPieces
import CallAtlas.Proofs.ListingLines
import CallAtlas.Proofs.MappingAnnotations
import CallAtlas.Proofs.MethodBlocks
import CallAtlas.Proofs.MethodGrammar
import CallAtlas.Proofs.ModifiedText
import CallAtlas.Proofs.NormalPaths
import CallAtlas.Proofs.Outcomes
import CallAtlas.Proofs.OutlineAddresses
import CallAtlas.Proofs.OwnPieces
import CallAtlas.Proofs.OwnText
import CallAtlas.Proofs.PoolLookups
import CallAtlas.Proofs.ProjectRoots
import CallAtlas.Proofs.Reachability
import CallAtlas.Proofs.Reading
import CallAtlas.Proofs.SetTables
import CallAtlas.Proofs.Sorting
import CallAtlas.Proofs.SourceContainment
import CallAtlas.Proofs.StageOrder
import CallAtlas.Proofs.Stages
import CallAtlas.Proofs.SubgraphAgreement
import CallAtlas.Proofs.SyntaxTrees
import CallAtlas.Proofs.Tables
import CallAtlas.Proofs.TextGrammar
import CallAtlas.Proofs.Tiling
import CallAtlas.Proofs.Truncation
import CallAtlas.Proofs.WalkOrder
import CallAtlas.Proofs.WriteRuns
import CallAtlas.Run.Analysis
import CallAtlas.Run.CommandLine
import CallAtlas.Run.Program
import CallAtlas.Run.Settings
import CallAtlas.Run.Summary
import CallAtlas.Table
import CallAtlas.Text.Blank
import CallAtlas.Text.CharRange
import CallAtlas.Text.CodeText
import CallAtlas.Text.DecimalDigit
import CallAtlas.Text.Hex
import CallAtlas.Text.Order
import CallAtlas.Text.Printable
import CallAtlas.Text.Quoted
import CallAtlas.Text.Split
import CallAtlas.Text.Uppercase
import CallAtlas.Text.Utf8
import CallAtlas.Text.WordChar
