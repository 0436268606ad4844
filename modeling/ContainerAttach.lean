import ContainerAttach.Main
import ContainerAttach.Control.Encoding
import ContainerAttach.Session.Progress
import ContainerAttach.Proofs.Keys.Borders
import ContainerAttach.Proofs.Keys.Scanning
import ContainerAttach.Proofs.Keys.History
import ContainerAttach.Proofs.Input.Forwarding
import ContainerAttach.Proofs.Output.Account
import ContainerAttach.Proofs.Socket.Handles
import ContainerAttach.Proofs.Session.Arrival
import ContainerAttach.Proofs.Session.Reporting
import ContainerAttach.Proofs.Session.Delivery
import ContainerAttach.Proofs.Session.Sealing
import ContainerAttach.Proofs.Session.Detaching
import ContainerAttach.Proofs.CommandLine.Relaying
import ContainerAttach.Proofs.Output.Encoding
import ContainerAttach.Proofs.Input.Refusals
import ContainerAttach.Proofs.Session.Resizing
import ContainerAttach.Proofs.FileSystem.Walking
import ContainerAttach.Proofs.FileSystem.Changing
import ContainerAttach.Proofs.Socket.Listening
import ContainerAttach.Proofs.Socket.Ownership
import ContainerAttach.Proofs.Input.Holding
import ContainerAttach.Proofs.Output.Journals
import ContainerAttach.Proofs.Packet.SharedBuffer
import ContainerAttach.Proofs.Output.Sequels
import ContainerAttach.Proofs.Stream.Interruptions
import ContainerAttach.Proofs.Output.Interruptions
import ContainerAttach.Proofs.Keys.Notation
import ContainerAttach.Proofs.Control.RoundTrip
import ContainerAttach.Proofs.CommandLine.Failures
import ContainerAttach.Proofs.Socket.Routes
import ContainerAttach.Proofs.CommandLine.Concluding
import ContainerAttach.Proofs.Socket.Capacity
import ContainerAttach.Proofs.Session.InputFailures
import ContainerAttach.Proofs.CommandLine.Naming
import ContainerAttach.Proofs.Session.Diagnostics
import ContainerAttach.Proofs.Control.Notifying
import ContainerAttach.Proofs.Control.Watching
import ContainerAttach.Proofs.Input.WriteSizes
import ContainerAttach.Proofs.Session.MessageSizes
import ContainerAttach.Proofs.Socket.CutPaths
import ContainerAttach.Proofs.Keys.Accesses
import ContainerAttach.Proofs.CommandLine.Arguments
import ContainerAttach.Proofs.CommandLine.Reading
import ContainerAttach.Proofs.CommandLine.AttachLines
