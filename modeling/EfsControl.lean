import EfsControl.Correlator.History
import EfsControl.Main
import EfsControl.Proofs.Connector.Connected
import EfsControl.Proofs.Connector.Frames
import EfsControl.Proofs.Connector.InFlight
import EfsControl.Proofs.Connector.Lines
import EfsControl.Proofs.Connector.Noise
import EfsControl.Proofs.Connector.Perform
import EfsControl.Proofs.Connector.Positional
import EfsControl.Proofs.Connector.Resync
import EfsControl.Proofs.Connector.Secrets
import EfsControl.Proofs.Command.Logged
import EfsControl.Proofs.Command.Places
import EfsControl.Proofs.Reply.Tokens
import EfsControl.Proofs.Reply.Language
import EfsControl.Proofs.Correlator.Session
import EfsControl.Proofs.Correlator.Projection
import EfsControl.Proofs.Service.Paths
import EfsControl.Simulation.Session
import EfsControl.Simulation.Shell
import EfsControl.Proofs.Connector.Stopped
import EfsControl.Proofs.Service.Stopping
import EfsControl.Proofs.Json.Grammar
import EfsControl.Proofs.Message.Kind
import EfsControl.Proofs.Http.Serving
import EfsControl.Proofs.Toml.Quoted
import EfsControl.Proofs.Toml.Document
import EfsControl.Proofs.Config
import EfsControl.Proofs.Outcome
import EfsControl.Proofs.Command.Refusal
import EfsControl.Proofs.Connector.Failed
import EfsControl.Proofs.Cli.Input
import EfsControl.Proofs.Config.Defaults
import EfsControl.Proofs.Client.BodyBuffer
