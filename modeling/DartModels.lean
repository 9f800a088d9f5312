import DartModels.Main
import DartModels.Proofs.Dart.RoundTrip
import DartModels.Proofs.Generation.Imports
import DartModels.Proofs.Generation.Writes
import DartModels.Proofs.Dart.Nesting
import DartModels.Proofs.Dart.Templates
import DartModels.Proofs.Dart.StructuralCheck
import DartModels.Proofs.Generation.Directives
import DartModels.Proofs.Generation.Reports
import DartModels.Proofs.Path.Confinement
import DartModels.Proofs.Generation.Confinement
import DartModels.Proofs.Model.Names
import DartModels.Proofs.Generation.Independence
import DartModels.Proofs.Generation.Collisions
import DartModels.Proofs.Dart.Acceptance
import DartModels.Proofs.Generation.Regeneration
import DartModels.Proofs.Generation.Warnings
import DartModels.Proofs.Generation.Failures
import DartModels.Proofs.Generation.Deletion
import DartModels.Proofs.Model.OwnNames
import DartModels.Proofs.Dart.ValueEquality
import DartModels.Proofs.Dart.EnumMethods
import DartModels.Proofs.Options.Entries
import DartModels.Proofs.Model.Clashes
import DartModels.Proofs.Model.LibraryTypes
import DartModels.Proofs.Generation.ImportLists
import DartModels.Proofs.Generation.SharedFiles
import DartModels.Proofs.Dart.StringLiterals
import DartModels.Proofs.Schema.Encoding
import DartModels.Proofs.Generation.References
import DartModels.Proofs.CommandLine.HeaderLine
import DartModels.Proofs.CommandLine.Folders
import DartModels.Proofs.Dart.Pieces
import DartModels.Proofs.Naming.FirstCase
