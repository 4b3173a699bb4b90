import ModelCompiler.BuiltIn
import ModelCompiler.Calendar
import ModelCompiler.Classification
import ModelCompiler.Command.Arguments
import ModelCompiler.Command.Run
import ModelCompiler.Compilation
import ModelCompiler.Conformance
import ModelCompiler.Disk
import ModelCompiler.Emission.Naming
import ModelCompiler.Emission.SourceModule
import ModelCompiler.Emission.Validator
import ModelCompiler.Fault
import ModelCompiler.Generation
import ModelCompiler.Json.Basic
import ModelCompiler.Json.Reader
import ModelCompiler.Keyed
import ModelCompiler.Layout
import ModelCompiler.Layout.Draft
import ModelCompiler.Loading
import ModelCompiler.Log
import ModelCompiler.Main
import ModelCompiler.Model
import ModelCompiler.Model.Shape
import ModelCompiler.ModelSet
import ModelCompiler.ModelSet.Cycle
import ModelCompiler.Number.Binary64
import ModelCompiler.Number.Shortest
import ModelCompiler.Path
import ModelCompiler.Problem
import ModelCompiler.Proofs.Acceptance
import ModelCompiler.Proofs.Accounting
import ModelCompiler.Proofs.Classified
import ModelCompiler.Proofs.Compiled
import ModelCompiler.Proofs.Conformity
import ModelCompiler.Proofs.CycleOrder
import ModelCompiler.Proofs.CycleSearch
import ModelCompiler.Proofs.GeneratedValidator
import ModelCompiler.Proofs.Instances
import ModelCompiler.Proofs.Offences
import ModelCompiler.Proofs.RecordGrammar
import ModelCompiler.Proofs.Records
import ModelCompiler.Proofs.ReferenceGraph
import ModelCompiler.Proofs.Resolution
import ModelCompiler.Proofs.Results
import ModelCompiler.Proofs.SelfEquality
import ModelCompiler.Proofs.Serialisation
import ModelCompiler.Proofs.Tables
import ModelCompiler.Proofs.Texts
import ModelCompiler.Record
import ModelCompiler.Scope
import ModelCompiler.Settings
import ModelCompiler.Text.Digit
import ModelCompiler.Text.Printable
import ModelCompiler.Text.Quoted
import ModelCompiler.Universe
import ModelCompiler.Value.Basic
import ModelCompiler.Value.Equality
import ModelCompiler.Value.Literal
import ModelCompiler.Proofs.Imports
import ModelCompiler.Proofs.Ranking
import ModelCompiler.Proofs.Persistence
import ModelCompiler.Proofs.CheckedRun
import ModelCompiler.Proofs.Widening
import ModelCompiler.Proofs.Registrations
import ModelCompiler.Proofs.MemberNames
import ModelCompiler.Proofs.Brackets
import ModelCompiler.Proofs.Nesting
import ModelCompiler.Proofs.Attributes
import ModelCompiler.Proofs.RecordFree
import ModelCompiler.Proofs.Directories
import ModelCompiler.Proofs.LongIntegers
import ModelCompiler.Proofs.ExitCodes
import ModelCompiler.Proofs.CatalogHistory
import ModelCompiler.Proofs.Indentation
import ModelCompiler.Proofs.LateLines
import ModelCompiler.Proofs.Declarations
