import ScriptHost.Assertion
import ScriptHost.Bridge
import ScriptHost.Config.Events
import ScriptHost.Config.Reader
import ScriptHost.Config.Writer
import ScriptHost.Debugger.Connection
import ScriptHost.Engine.Ownership
import ScriptHost.Engine.View
import ScriptHost.Files.Tree
import ScriptHost.Proofs.Engine.Heap
import ScriptHost.Proofs.Engine.Region
import ScriptHost.Proofs.Engine.Basic
import ScriptHost.Proofs.Engine.Confinement
import ScriptHost.Proofs.Debugger.Gate
import ScriptHost.Proofs.Debugger.Interleaving
import ScriptHost.Proofs.Engine.Balance
import ScriptHost.Proofs.Host.Balance
import ScriptHost.Proofs.Registry.Native
import ScriptHost.Proofs.Bridge.Balance
import ScriptHost.Proofs.Bridge.Session
import ScriptHost.Proofs.Engine.Lockstep
import ScriptHost.Proofs.Engine.Snapshot
import ScriptHost.Proofs.Registry.Builtin
import ScriptHost.Proofs.Host.Lockstep
import ScriptHost.Proofs.Bridge.Strategy
import ScriptHost.Proofs.Host.Outcome
import ScriptHost.Proofs.Bridge.Outcome
import ScriptHost.Proofs.Host.Basic
import ScriptHost.Proofs.Registry.Requests
import ScriptHost.Proofs.Registry.Laziness
import ScriptHost.Proofs.Engine.Quiet
import ScriptHost.Proofs.Host.Quiet
import ScriptHost.Proofs.Bridge.Wholeness
import ScriptHost.Proofs.Text.Utf8
import ScriptHost.Proofs.Debugger.Line
import ScriptHost.Proofs.Debugger.Orderly
import ScriptHost.Proofs.Debugger.Delivery
import ScriptHost.Proofs.Debugger.Answer
import ScriptHost.Proofs.Engine.Correspondence
import ScriptHost.Proofs.Host.Correspondence
import ScriptHost.Proofs.Bridge.Correspondence
import ScriptHost.Proofs.Bridge.History
import ScriptHost.Proofs.Host.Work
import ScriptHost.Proofs.Bridge.Counterpart
import ScriptHost.Proofs.Bridge.Identity
import ScriptHost.Proofs.Bridge.Course
import ScriptHost.Proofs.Bridge.Cycle
import ScriptHost.Proofs.Text.Order
import ScriptHost.Proofs.Registry.Views
import ScriptHost.Proofs.Config.Order
import ScriptHost.Proofs.Config.Latest
import ScriptHost.Proofs.Config.RoundTrip
import ScriptHost.Proofs.Script.Program
import ScriptHost.Proofs.Script.Comment
import ScriptHost.Proofs.Script.Composition
import ScriptHost.Proofs.Host.Record
import ScriptHost.Proofs.Bridge.Listing
import ScriptHost.Proofs.Engine.Scriptless
import ScriptHost.Proofs.Host.Tame
import ScriptHost.Proofs.Bridge.Termination
import ScriptHost.Proofs.Engine.Evolution
import ScriptHost.Proofs.Engine.Watch
import ScriptHost.Proofs.Engine.Integrity
import ScriptHost.Proofs.Engine.Turnover
import ScriptHost.Proofs.Engine.Deeds
import ScriptHost.Proofs.Engine.Ownership
import ScriptHost.Proofs.Engine.Custody
import ScriptHost.Proofs.Script.Paths
import ScriptHost.Proofs.Engine.SyntaxFree
import ScriptHost.Proofs.Config.Document
import ScriptHost.Proofs.Config.Meaning
import ScriptHost.Proofs.Config.Equivalence
import ScriptHost.Proofs.Script.TopLevel
