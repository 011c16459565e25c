import OpenCrud.Compile
import OpenCrud.Main
import OpenCrud.Schema.OfDocument
import OpenCrud.Proofs.Computation
import OpenCrud.Proofs.Datamodel.Graph
import OpenCrud.Proofs.FieldMap
import OpenCrud.Proofs.Generate.Answers
import OpenCrud.Proofs.Naming
import OpenCrud.Proofs.Generate.Bodies
import OpenCrud.Proofs.Generate.EmptyInputs
import OpenCrud.Proofs.Generate.QueryFields
import OpenCrud.Proofs.Generate.Reached
import OpenCrud.Proofs.Generate.UniqueNames
import OpenCrud.Proofs.Generate.MutationFields
import OpenCrud.Proofs.Generate.FilterFields
import OpenCrud.Proofs.Generate.Assembled
import OpenCrud.Proofs.Client.Delegates
import OpenCrud.Proofs.Client.TemplateLiteral
import OpenCrud.Proofs.Client.TypeDefs
import OpenCrud.Proofs.Client.PrintedText
import OpenCrud.Proofs.Generate.Descriptions
import OpenCrud.Proofs.Generate.Sessions
import OpenCrud.Proofs.Generate.Termination
import OpenCrud.Proofs.Generate.KeptNames
import OpenCrud.Proofs.Generate.ObjectFields
import OpenCrud.Proofs.Datamodel.Lawful
import OpenCrud.Proofs.Generate.FiniteInputs
import OpenCrud.Proofs.Client.ExportedNames
import OpenCrud.Proofs.Client.ClosedNames
import OpenCrud.Proofs.Datamodel.Order
import OpenCrud.Proofs.Datamodel.Databases
import OpenCrud.Proofs.Generate.Extension
import OpenCrud.Proofs.Client.ExistenceChecks
import OpenCrud.Proofs.Generate.NodeInterface
import OpenCrud.Proofs.Generate.TypeOrder
import OpenCrud.Proofs.Generate.Selectors
import OpenCrud.Proofs.Datamodel.RelationDirective
import OpenCrud.Proofs.Client.ArgumentTypes
import OpenCrud.Proofs.Client.RootParameters
import OpenCrud.Proofs.Generate.NestedOperations
import OpenCrud.Proofs.Generate.WritableFields
import OpenCrud.Proofs.Client.NodeShape
import OpenCrud.Proofs.Client.InputFieldTypes
import OpenCrud.Proofs.Client.BlockComment
import OpenCrud.Proofs.Generate.MergedFilters
import OpenCrud.Proofs.Generate.OwnRootFields
import OpenCrud.Proofs.Generate.KeptDescriptions
import OpenCrud.Proofs.CommandLine.Outcome
