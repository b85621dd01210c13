import MulticastDns.Client.Browse
import MulticastDns.Client.Lookup
import MulticastDns.Client.Printer
import MulticastDns.Client.Run
import MulticastDns.Client.Session
import MulticastDns.CommandLine.Grammar
import MulticastDns.Config
import MulticastDns.Daemon.Run
import MulticastDns.Host
import MulticastDns.Log
import MulticastDns.Main
import MulticastDns.Message
import MulticastDns.Name
import MulticastDns.Net.Address
import MulticastDns.Net.Link
import MulticastDns.Proofs.Agreement
import MulticastDns.Proofs.Client.Browsing
import MulticastDns.Proofs.Client.Hearing
import MulticastDns.Proofs.Client.JsonOutput
import MulticastDns.Proofs.Client.Lookup
import MulticastDns.Proofs.Client.Printing
import MulticastDns.Proofs.Draft
import MulticastDns.Proofs.Machine
import MulticastDns.Proofs.Machine.Answering
import MulticastDns.Proofs.Machine.Decoding
import MulticastDns.Proofs.Machine.Naming
import MulticastDns.Proofs.Machine.Reading
import MulticastDns.Proofs.Machine.Writing
import MulticastDns.Proofs.Message
import MulticastDns.Proofs.Message.Data
import MulticastDns.Proofs.Message.Extents
import MulticastDns.Proofs.Message.Framing
import MulticastDns.Proofs.Message.Trailing
import MulticastDns.Proofs.Name.Encoding
import MulticastDns.Proofs.Name.Grammar
import MulticastDns.Proofs.Name.Local
import MulticastDns.Proofs.Name.RoundTrip
import MulticastDns.Proofs.Name.Rounds
import MulticastDns.Proofs.Name.Spelling
import MulticastDns.Proofs.Name.Text
import MulticastDns.Proofs.Packet
import MulticastDns.Proofs.Query
import MulticastDns.Proofs.Registry.Catalog
import MulticastDns.Proofs.Registry.Identity
import MulticastDns.Proofs.Registry.Loading
import MulticastDns.Proofs.Registry.Runs
import MulticastDns.Proofs.Resolution
import MulticastDns.Proofs.Resolution.Naming
import MulticastDns.Proofs.Resolution.Selection
import MulticastDns.Proofs.Responder.Answering
import MulticastDns.Proofs.Responder.Echo
import MulticastDns.Proofs.Responder.Group
import MulticastDns.Proofs.Responder.Loop
import MulticastDns.Proofs.Responder.Soundness
import MulticastDns.Proofs.Responder.Spelling
import MulticastDns.Proofs.Response.Agreement
import MulticastDns.Proofs.Response.Counting
import MulticastDns.Proofs.Response.Encodable
import MulticastDns.Proofs.Response.Filling
import MulticastDns.Proofs.Response.Growth
import MulticastDns.Proofs.Response.Host
import MulticastDns.Proofs.Response.Layout
import MulticastDns.Proofs.Response.Reading
import MulticastDns.Proofs.Response.RoundTrip
import MulticastDns.Proofs.Response.Services
import MulticastDns.Proofs.Response.Skipping
import MulticastDns.Proofs.Text.Controls
import MulticastDns.Proofs.Writer
import MulticastDns.Proofs.Writer.Names
import MulticastDns.Proofs.Writer.Tape
import MulticastDns.Registry
import MulticastDns.Report
import MulticastDns.Resolution
import MulticastDns.Responder
import MulticastDns.Text.Basic
import MulticastDns.Text.Hex
import MulticastDns.Text.Json
import MulticastDns.Text.Parser
import MulticastDns.Text.Quoted
import MulticastDns.Text.Utf8
import MulticastDns.Toml.Document
import MulticastDns.Toml.Scalar
import MulticastDns.Toml.Tree
import MulticastDns.Toml.Value
import MulticastDns.Wire.Message
import MulticastDns.Wire.Name
import MulticastDns.Wire.Packet
import MulticastDns.Wire.Response
import MulticastDns.Wire.Writer
