import Casework.Argument
import Casework.Backend.CommandLine
import Casework.Backend.Dispatch
import Casework.Backend.Engine
import Casework.Backend.Exchange
import Casework.CommandLine.Arguments
import Casework.Main
import Casework.CommandLine.Help
import Casework.CommandLine.Program
import Casework.Config
import Casework.Decimal.Binary64
import Casework.Decimal.Places
import Casework.Decimal.Shortest
import Casework.Graph
import Casework.Host.Channel
import Casework.Host.Delivery
import Casework.Host.FileTree
import Casework.Host.Path
import Casework.Host.Process
import Casework.Host.Program
import Casework.Host.System
import Casework.Host.Utility.Basic
import Casework.Host.Utility.Cat
import Casework.Host.Utility.Cut
import Casework.Host.Utility.Mkdir
import Casework.Json.Basic
import Casework.Json.Number
import Casework.Json.Reader
import Casework.Moment
import Casework.NameMap
import Casework.Plugin
import Casework.Render
import Casework.Run.State
import Casework.Run.Result
import Casework.Run.Timeline
import Casework.Schedule.Basic
import Casework.Shell.Arithmetic
import Casework.Shell.Builtin
import Casework.Shell.Draft
import Casework.Shell.Eval
import Casework.Shell.Expansion
import Casework.Shell.Fields
import Casework.Shell.Format
import Casework.Shell.Grammar
import Casework.Shell.Job
import Casework.Shell.Names
import Casework.Shell.Session
import Casework.Shell.Pattern
import Casework.Shell.Reader
import Casework.Shell.Redirection
import Casework.Shell.Test
import Casework.Shell.Tree
import Casework.Shell.Variables
import Casework.Store.Basic
import Casework.Store.Traffic
import Casework.Task
import Casework.Text.Blank
import Casework.Text.Case
import Casework.Text.Utf8
import Casework.Text.Quoted
import Casework.Workflow
import Casework.Yaml.Cursor
import Casework.Yaml.Decode
import Casework.Yaml.Event
import Casework.Yaml.Node
import Casework.Yaml.Plain
import Casework.Yaml.Property
import Casework.Yaml.Scalar
import Casework.Yaml.Scan
import Casework.Proofs.NameMap
import Casework.Proofs.Text.Utf8
import Casework.Proofs.Text.Octets
import Casework.Proofs.Text.Lines
import Casework.Proofs.Argument.Flags
import Casework.Proofs.Argument.Forwarding
import Casework.Proofs.Argument.Occurrence
import Casework.Proofs.Host.Path
import Casework.Proofs.Host.Components
import Casework.Proofs.Host.FileTree
import Casework.Proofs.Host.Growth
import Casework.Proofs.Host.Program
import Casework.Proofs.Json.Numeral
import Casework.Proofs.Json.Characters
import Casework.Proofs.Json.RoundTrip
import Casework.Proofs.Json.Behind
import Casework.Proofs.Graph.Links
import Casework.Proofs.Graph.Placement
import Casework.Proofs.Graph.Order
import Casework.Proofs.Graph.Acceptance
import Casework.Proofs.Graph.Cycle
import Casework.Proofs.Graph.Filling
import Casework.Proofs.Graph.Choice
import Casework.Proofs.Graph.Depth
import Casework.Proofs.Graph.Chains
import Casework.Proofs.Schedule.Pass
import Casework.Proofs.Schedule.Safety
import Casework.Proofs.Schedule.Fixpoint
import Casework.Proofs.Schedule.Waves
import Casework.Proofs.Backend.Results
import Casework.Proofs.Backend.Images
import Casework.Proofs.Run.Course
import Casework.Proofs.Run.Invariant
import Casework.Proofs.Run.Confluence
import Casework.Proofs.Run.History
import Casework.Proofs.Run.Progress
import Casework.Proofs.Run.Timeline
import Casework.Proofs.Run.Interleaving
import Casework.Proofs.Run.Life
import Casework.Proofs.Run.Protocol
import Casework.Proofs.Run.Permits
import Casework.Proofs.Shell.Words
import Casework.Proofs.Shell.Lines
import Casework.Proofs.Shell.Leading
import Casework.Proofs.Shell.Literal
import Casework.Proofs.Shell.Splitting
import Casework.Proofs.Shell.Programs
import Casework.Proofs.Backend.Script
import Casework.Proofs.Backend.Checked
import Casework.Proofs.Backend.Mount
import Casework.Proofs.Store.Items
import Casework.Proofs.Store.Records
import Casework.Proofs.Store.Appending
import Casework.Proofs.Store.Identifiers
import Casework.Proofs.Store.Traffic
import Casework.Proofs.Store.Exports
import Casework.Proofs.Workflow.Cache
import Casework.Proofs.Workflow.Leaf
import Casework.Proofs.Render
import Casework.Proofs.Run.Waits
import Casework.Proofs.Run.Ending
import Casework.Proofs.CommandLine.Batch
import Casework.Proofs.Host.Names
import Casework.Proofs.Backend.Recipes
import Casework.Proofs.Backend.Volume
import Casework.Proofs.Backend.Attribution
import Casework.Proofs.Store.Sequence
import Casework.Proofs.Run.Views
import Casework.Proofs.CommandLine.Printing
import Casework.Proofs.Host.Diagnostics
import Casework.Proofs.Graph.Tables
import Casework.Proofs.Text.Decoding
import Casework.Proofs.Host.Delivery
import Casework.Proofs.Yaml.NumberLine
import Casework.Proofs.CommandLine.Accepted
import Casework.Proofs.CommandLine.Caps
