import RunControl.Cli.Arguments
import RunControl.Cli.Invocation
import RunControl.Cli.Report
import RunControl.Cli.Run
import RunControl.Cli.Tool
import RunControl.Components.Command
import RunControl.Components.Reply
import RunControl.Config
import RunControl.Controller
import RunControl.Decimal.Shortest
import RunControl.Deployment.Component
import RunControl.Deployment.Description
import RunControl.Deployment.Script
import RunControl.Deployment.Status
import RunControl.HostEnvironment.Exports
import RunControl.HostEnvironment.Locks
import RunControl.HostEnvironment.Saga
import RunControl.HostEnvironment.Schedule
import RunControl.Json.Basic
import RunControl.Json.Doc
import RunControl.Json.Message
import RunControl.Json.Numeral
import RunControl.Json.Printer
import RunControl.Json.Reader
import RunControl.Main
import RunControl.Process.Lifecycle
import RunControl.Process.Spec
import RunControl.Proofs.Components.Arrangement
import RunControl.Proofs.Components.Size
import RunControl.Proofs.Cli.Batch
import RunControl.Proofs.Config
import RunControl.Proofs.Controller.Containment
import RunControl.Proofs.Controller.RunStates
import RunControl.Proofs.Controller.Settings
import RunControl.Proofs.Controller.Status
import RunControl.Proofs.Controller.Teardown
import RunControl.Proofs.Deployment.Survival
import RunControl.Proofs.HostEnvironment.Course
import RunControl.Proofs.HostEnvironment.Discipline
import RunControl.Proofs.HostEnvironment.Exports
import RunControl.Proofs.HostEnvironment.Freshness
import RunControl.Proofs.HostEnvironment.Identity
import RunControl.Proofs.HostEnvironment.Interleaved
import RunControl.Proofs.HostEnvironment.LostReplies
import RunControl.Proofs.HostEnvironment.Outcome
import RunControl.Proofs.HostEnvironment.Rendering
import RunControl.Proofs.HostEnvironment.Preamble
import RunControl.Proofs.HostEnvironment.Restoration
import RunControl.Proofs.HostEnvironment.Serial
import RunControl.Proofs.HostEnvironment.Turns
import RunControl.Proofs.Json.Keeping
import RunControl.Proofs.Json.Numbers
import RunControl.Proofs.Json.Printing
import RunControl.Proofs.Json.Record
import RunControl.Proofs.Json.Reordering
import RunControl.Proofs.Json.Spelled
import RunControl.Proofs.Json.Spelling
import RunControl.Proofs.Registrar
import RunControl.Proofs.Rpc.Locality
import RunControl.Proofs.Rpc.Services
import RunControl.Proofs.Simulation.Beside
import RunControl.Proofs.Simulation.Site
import RunControl.Proofs.Supervisor.Isolation
import RunControl.Proofs.Supervisor.Refinement
import RunControl.Proofs.Supervisor.Removal
import RunControl.Proofs.Template.Expansion
import RunControl.Proofs.Wire.Field
import RunControl.Proofs.Wire.Payload
import RunControl.Proofs.Wire.Record
import RunControl.Proofs.Wire.RoundTrip
import RunControl.Registrar
import RunControl.Rpc.Endpoint
import RunControl.Rpc.Error
import RunControl.Rpc.Plan
import RunControl.Rpc.Request
import RunControl.Rpc.Transport
import RunControl.Simulation.Clock
import RunControl.Simulation.Endpoint
import RunControl.Simulation.Host
import RunControl.Simulation.Line
import RunControl.Simulation.World
import RunControl.Supervisor.Binding
import RunControl.Table
import RunControl.Template
import RunControl.Text.Blank
import RunControl.Text.Cut
import RunControl.Text.Numeral
import RunControl.Text.Utf8
import RunControl.Text.Visible
import RunControl.Wire.Component
import RunControl.Wire.Field
import RunControl.Wire.Key
import RunControl.Wire.Message
import RunControl.Wire.Supervisor
import RunControl.Wire.Varint
