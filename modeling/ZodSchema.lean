import ZodSchema.Annotations.Basic
import ZodSchema.Annotations.Chain
import ZodSchema.Annotations.Directive
import ZodSchema.Annotations.Paren
import ZodSchema.Annotations.Prose
import ZodSchema.Annotations.Segment
import ZodSchema.Assoc
import ZodSchema.Brand.Registry
import ZodSchema.Cli.Args
import ZodSchema.Cli.Basic
import ZodSchema.Cli.Switch
import ZodSchema.Contract.Assign
import ZodSchema.Contract.Check
import ZodSchema.Contract.Config
import ZodSchema.Contract.Datamodel
import ZodSchema.Contract.Issue
import ZodSchema.Crud.Args
import ZodSchema.Crud.Block
import ZodSchema.Crud.Build
import ZodSchema.Crud.File
import ZodSchema.Crud.Rules
import ZodSchema.Datamodel.Basic
import ZodSchema.Datamodel.Config
import ZodSchema.Digest.Sha256
import ZodSchema.Display
import ZodSchema.Export.Basic
import ZodSchema.Export.Manifest
import ZodSchema.Export.Run
import ZodSchema.Files.Plain
import ZodSchema.Files.Pool
import ZodSchema.Files.Route
import ZodSchema.Files.Tree
import ZodSchema.Files.Write
import ZodSchema.Generation.Document
import ZodSchema.Generation.Files
import ZodSchema.Generation.Input
import ZodSchema.Generation.Load
import ZodSchema.Generation.Memo
import ZodSchema.Json.Printer
import ZodSchema.Json.Reader
import ZodSchema.Layer.Basic
import ZodSchema.Layer.File
import ZodSchema.Main
import ZodSchema.Moment
import ZodSchema.Number.Double
import ZodSchema.Number.Shortest
import ZodSchema.Proofs.Annotations.Balance
import ZodSchema.Proofs.Annotations.Chain
import ZodSchema.Proofs.Annotations.Cutting
import ZodSchema.Proofs.Annotations.Description
import ZodSchema.Proofs.Annotations.Directive
import ZodSchema.Proofs.Annotations.Escapes
import ZodSchema.Proofs.Annotations.Lines
import ZodSchema.Proofs.Annotations.Member
import ZodSchema.Proofs.Annotations.Paren
import ZodSchema.Proofs.Annotations.Prose
import ZodSchema.Proofs.Annotations.Rendering
import ZodSchema.Proofs.Annotations.Segment
import ZodSchema.Proofs.Assoc
import ZodSchema.Proofs.Brand.Agreement
import ZodSchema.Proofs.Brand.Declared
import ZodSchema.Proofs.Brand.Order
import ZodSchema.Proofs.Brand.Registry
import ZodSchema.Proofs.Cli.Agreement
import ZodSchema.Proofs.Cli.Args
import ZodSchema.Proofs.Contract.Assign
import ZodSchema.Proofs.Contract.Check
import ZodSchema.Proofs.Contract.Config
import ZodSchema.Proofs.Contract.Directories
import ZodSchema.Proofs.Crud.Aliases
import ZodSchema.Proofs.Crud.Arrays
import ZodSchema.Proofs.Crud.Comments
import ZodSchema.Proofs.Crud.Conflicts
import ZodSchema.Proofs.Crud.Create
import ZodSchema.Proofs.Crud.Declarations
import ZodSchema.Proofs.Crud.Directives
import ZodSchema.Proofs.Crud.File
import ZodSchema.Proofs.Crud.Keys
import ZodSchema.Proofs.Crud.Literals
import ZodSchema.Proofs.Crud.Names
import ZodSchema.Proofs.Crud.Options
import ZodSchema.Proofs.Crud.Overlong
import ZodSchema.Proofs.Crud.PageSize
import ZodSchema.Proofs.Crud.Update
import ZodSchema.Proofs.Export.Batch
import ZodSchema.Proofs.Export.Concurrent
import ZodSchema.Proofs.Export.Confined
import ZodSchema.Proofs.Export.Converge
import ZodSchema.Proofs.Export.Isolated
import ZodSchema.Proofs.Export.Jobs
import ZodSchema.Proofs.Export.Manifest
import ZodSchema.Proofs.Export.Outcomes
import ZodSchema.Proofs.Export.Outside
import ZodSchema.Proofs.Export.Passes
import ZodSchema.Proofs.Export.Plain
import ZodSchema.Proofs.Export.Pool
import ZodSchema.Proofs.Export.Turns
import ZodSchema.Proofs.Files.Frame
import ZodSchema.Proofs.Files.Opened
import ZodSchema.Proofs.Files.Tree
import ZodSchema.Proofs.Files.Write
import ZodSchema.Proofs.Generation.Barrels
import ZodSchema.Proofs.Generation.Closure
import ZodSchema.Proofs.Generation.Docs
import ZodSchema.Proofs.Generation.Load
import ZodSchema.Proofs.Generation.Memo
import ZodSchema.Proofs.Generation.Merge
import ZodSchema.Proofs.Generation.Names
import ZodSchema.Proofs.Generation.Order
import ZodSchema.Proofs.Generation.Overrides
import ZodSchema.Proofs.Generation.Passed
import ZodSchema.Proofs.Generation.Paths
import ZodSchema.Proofs.Generation.Rewording
import ZodSchema.Proofs.Generation.Source
import ZodSchema.Proofs.Generation.Twins
import ZodSchema.Proofs.Json.Encoding
import ZodSchema.Proofs.Json.Line
import ZodSchema.Proofs.Json.Strings
import ZodSchema.Proofs.Layer.File
import ZodSchema.Proofs.Layer.Names
import ZodSchema.Proofs.Layer.Nullish
import ZodSchema.Proofs.Run.Gates
import ZodSchema.Proofs.Run.Generation
import ZodSchema.Proofs.Run.Summary
import ZodSchema.Proofs.Run.Totals
import ZodSchema.Proofs.Schema.Entry
import ZodSchema.Proofs.Schema.Imports
import ZodSchema.Proofs.Schema.Inferred
import ZodSchema.Proofs.Schema.Names
import ZodSchema.Proofs.Schema.Nullish
import ZodSchema.Proofs.Schema.Unknown
import ZodSchema.Proofs.Text.Bytes
import ZodSchema.Proofs.Text.Casing
import ZodSchema.Proofs.Text.Chars
import ZodSchema.Proofs.Text.CodePoint
import ZodSchema.Proofs.Text.Directory
import ZodSchema.Proofs.Text.Line
import ZodSchema.Proofs.Text.Literal
import ZodSchema.Proofs.Text.Lower
import ZodSchema.Proofs.Text.Path
import ZodSchema.Proofs.Text.Property
import ZodSchema.Proofs.Text.Relative
import ZodSchema.Proofs.Text.Replace
import ZodSchema.Proofs.Text.Words
import ZodSchema.Proofs.TypeScript.Comment
import ZodSchema.Proofs.TypeScript.Imports
import ZodSchema.Proofs.TypeScript.Module
import ZodSchema.Proofs.TypeScript.Names
import ZodSchema.Proofs.Validation.Foresight
import ZodSchema.Proofs.Validation.Identifiers
import ZodSchema.Proofs.Validation.Keys
import ZodSchema.Proofs.Validation.Names
import ZodSchema.Proofs.Validation.Passed
import ZodSchema.Proofs.Value
import ZodSchema.Proofs.Zod.Validators
import ZodSchema.Run.Basic
import ZodSchema.Run.Report
import ZodSchema.Schema.Base
import ZodSchema.Schema.Entry
import ZodSchema.Text.Alnum
import ZodSchema.Text.Base64
import ZodSchema.Text.CaseTable
import ZodSchema.Text.Chars
import ZodSchema.Text.Class
import ZodSchema.Text.CodePoint
import ZodSchema.Text.Literal
import ZodSchema.Text.Lower
import ZodSchema.Text.Numeral
import ZodSchema.Text.Path
import ZodSchema.Text.Unprintable
import ZodSchema.Text.Utf8
import ZodSchema.Text.Words
import ZodSchema.TypeScript.Doc
import ZodSchema.TypeScript.Module
import ZodSchema.Validation.Concern
import ZodSchema.Validation.Finding
import ZodSchema.Validation.Rules
import ZodSchema.Value
import ZodSchema.Yaml.Block
import ZodSchema.Yaml.Cursor
import ZodSchema.Yaml.Date
import ZodSchema.Yaml.Fault
import ZodSchema.Yaml.Node
import ZodSchema.Yaml.Plain
import ZodSchema.Yaml.Quoted
import ZodSchema.Yaml.Reader
import ZodSchema.Yaml.Resolve
import ZodSchema.Yaml.Scalar
import ZodSchema.Yaml.Tag
import ZodSchema.Yaml.Token
import ZodSchema.Zod.Expr
import ZodSchema.Zod.Primitive
