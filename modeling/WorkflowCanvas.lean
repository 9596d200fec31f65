import WorkflowCanvas.Json.Tree.Reader
import WorkflowCanvas.Service.Mock
import WorkflowCanvas.Proofs.Canvas.Editor
import WorkflowCanvas.Proofs.Canvas.Notices
import WorkflowCanvas.Proofs.Canvas.Palette
import WorkflowCanvas.Proofs.Canvas.StoredNames
import WorkflowCanvas.Proofs.Command.Accounts
import WorkflowCanvas.Proofs.Command.Reconciliation
import WorkflowCanvas.Proofs.Document.Export
import WorkflowCanvas.Proofs.Document.Format
import WorkflowCanvas.Proofs.Graph.Independence
import WorkflowCanvas.Proofs.Graph.Passing
import WorkflowCanvas.Proofs.Graph.Refusal
import WorkflowCanvas.Proofs.Schedule.WireForm
import WorkflowCanvas.Proofs.Service.Containment
import WorkflowCanvas.Proofs.Service.Formats
import WorkflowCanvas.Proofs.Service.Served
import WorkflowCanvas.Proofs.Service.Stored
import WorkflowCanvas.Proofs.Service.Together
import WorkflowCanvas.Proofs.Service.Verdict
import WorkflowCanvas.Proofs.Summary.Instants
