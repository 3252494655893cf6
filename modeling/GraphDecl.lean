import GraphDecl.Files.Zip.Member
import GraphDecl.Main
import GraphDecl.Proofs.Document.Names
import GraphDecl.Proofs.Imports
import GraphDecl.Proofs.Document.NamedDefinitions
import GraphDecl.Proofs.Projection.Path
import GraphDecl.Proofs.Projection.Direct
import GraphDecl.Proofs.Projection.Leaves
import GraphDecl.Proofs.Compilation
import GraphDecl.Proofs.Schema.Exports
import GraphDecl.Proofs.TypeScript.Grammar
import GraphDecl.Proofs.TypeScript.Layers
import GraphDecl.Proofs.Projection.Meaning
import GraphDecl.Proofs.TypeScript.Capture
import GraphDecl.Proofs.TypeScript.Members
import GraphDecl.Proofs.Projection.Conditions
import GraphDecl.Proofs.Schema.DistinctNames
import GraphDecl.Proofs.TypeScript.ReadBack
import GraphDecl.Proofs.Joining
import GraphDecl.Proofs.Supported
import GraphDecl.Proofs.TypeScript.Pointers
import GraphDecl.Proofs.Files.WrittenFiles
import GraphDecl.Proofs.Schema.Arrangement
import GraphDecl.Proofs.Rendering.OperationsFile
import GraphDecl.Proofs.Rendering.Descriptions
import GraphDecl.Proofs.TokensOnly
import GraphDecl.Proofs.OperationNames
import GraphDecl.Proofs.Projection.Descent
import GraphDecl.Proofs.CommandLine.RejectedRuns
import GraphDecl.Proofs.Sources.Failures
import GraphDecl.Proofs.Rendering.TemplateLiteral
import GraphDecl.Proofs.Rendering.CompleteDeclarations
import GraphDecl.Proofs.Rendering.ImportStatement
import GraphDecl.Proofs.Sources.UniqueFiles
import GraphDecl.Proofs.Sources.BasePath
import GraphDecl.Proofs.Sources.ArchiveTexts
import GraphDecl.Proofs.Files.FailedWrites
import GraphDecl.Proofs.OrderedUnion
import GraphDecl.Proofs.Rendering.CommentBlock
import GraphDecl.Proofs.Rendering.Indentation
