import ForwardProxy.Address
import ForwardProxy.Address.Ip
import ForwardProxy.Balancer.Dispatch
import ForwardProxy.Balancer.Rotation
import ForwardProxy.Balancer.Routes
import ForwardProxy.Balancer.SharedBalancer
import ForwardProxy.Balancer.Strategy
import ForwardProxy.Bytes
import ForwardProxy.Calendar.Date
import ForwardProxy.Certificate.Document
import ForwardProxy.Certificate.Error
import ForwardProxy.Certificate.Facts
import ForwardProxy.Certificate.Identity
import ForwardProxy.Certificate.KeyPair
import ForwardProxy.Certificate.Minting
import ForwardProxy.Certificate.Store
import ForwardProxy.CommandLine
import ForwardProxy.Config.Layer
import ForwardProxy.Config.Loading
import ForwardProxy.Config.Schema
import ForwardProxy.Config.Setting
import ForwardProxy.Console.Command
import ForwardProxy.Console.Session
import ForwardProxy.Der.Item
import ForwardProxy.Der.Oid
import ForwardProxy.Digest.Adler
import ForwardProxy.Digest.Sha256
import ForwardProxy.Files.Fault
import ForwardProxy.Files.Tree
import ForwardProxy.Http.Chunked
import ForwardProxy.Http.Framing
import ForwardProxy.Http.Head
import ForwardProxy.Http.Headers
import ForwardProxy.Http.Inbound
import ForwardProxy.Http.Message
import ForwardProxy.Http.Reply
import ForwardProxy.Http.Status
import ForwardProxy.Http.Wire
import ForwardProxy.Interception.Decrypted
import ForwardProxy.Interception.Error
import ForwardProxy.Interception.Interceptor
import ForwardProxy.Interception.LeafCache
import ForwardProxy.Interception.LeafName
import ForwardProxy.Interception.Lifetimes
import ForwardProxy.Interception.SharedCache
import ForwardProxy.Main
import ForwardProxy.Moderation.Gate
import ForwardProxy.Moderation.History
import ForwardProxy.Moderation.Log
import ForwardProxy.Moderation.LoggedGate
import ForwardProxy.Moderation.Queue
import ForwardProxy.Moderation.SharedQueue
import ForwardProxy.Moderation.Switch
import ForwardProxy.Number.Entropy
import ForwardProxy.Number.Modular
import ForwardProxy.Outside.Disk
import ForwardProxy.Outside.Service
import ForwardProxy.Outside.Sockets
import ForwardProxy.Pem.Block
import ForwardProxy.Program
import ForwardProxy.Proxy.Connection
import ForwardProxy.Proxy.Contacts
import ForwardProxy.Proxy.Error
import ForwardProxy.Proxy.LoopProbe
import ForwardProxy.Proxy.Network
import ForwardProxy.Proxy.Parents
import ForwardProxy.Proxy.Relay
import ForwardProxy.Proxy.Session
import ForwardProxy.Proxy.Settings
import ForwardProxy.Proxy.Transport
import ForwardProxy.Proxy.Tunnel
import ForwardProxy.Proxy.TunnelHistory
import ForwardProxy.Rsa.Envelope
import ForwardProxy.Rsa.Numbers
import ForwardProxy.Rsa.PrivateKey
import ForwardProxy.Staging.Chain
import ForwardProxy.Staging.Hall
import ForwardProxy.Staging.Launch
import ForwardProxy.Staging.Pipes
import ForwardProxy.Staging.Props
import ForwardProxy.Staging.Scene
import ForwardProxy.Staging.Shelf
import ForwardProxy.Staging.Transcript
import ForwardProxy.Staging.Visit
import ForwardProxy.Staging.World
import ForwardProxy.StepSystem
import ForwardProxy.Text.Ascii
import ForwardProxy.Text.Base64
import ForwardProxy.Text.Blank
import ForwardProxy.Text.Decimal
import ForwardProxy.Text.Split
import ForwardProxy.Tls.Name
import ForwardProxy.Toml.Document
import ForwardProxy.Toml.Quoted
import ForwardProxy.Toml.Scalar
import ForwardProxy.Toml.Value
import ForwardProxy.Uri
import ForwardProxy.Uri.Parts
import ForwardProxy.Proofs.Address.Notations
import ForwardProxy.Proofs.Address.Sockets
import ForwardProxy.Proofs.Address.TunnelTargets
import ForwardProxy.Proofs.Balancer.Choosing
import ForwardProxy.Proofs.Balancer.Lookup
import ForwardProxy.Proofs.Balancer.Redirecting
import ForwardProxy.Proofs.Balancer.RoundRobin
import ForwardProxy.Proofs.Balancer.Routing
import ForwardProxy.Proofs.Balancer.Turns
import ForwardProxy.Proofs.Certificate.LoadedKeys
import ForwardProxy.Proofs.Certificate.Loading
import ForwardProxy.Proofs.Certificate.Minting
import ForwardProxy.Proofs.Certificate.Obtaining
import ForwardProxy.Proofs.Certificate.Reuse
import ForwardProxy.Proofs.Certificate.Saving
import ForwardProxy.Proofs.Certificate.Steps
import ForwardProxy.Proofs.Config.Layering
import ForwardProxy.Proofs.Config.Loading
import ForwardProxy.Proofs.Console.Grammar
import ForwardProxy.Proofs.Console.LineByLine
import ForwardProxy.Proofs.Console.Replies
import ForwardProxy.Proofs.Der.Items
import ForwardProxy.Proofs.Der.Numbers
import ForwardProxy.Proofs.Files.Growth
import ForwardProxy.Proofs.Files.Linkless
import ForwardProxy.Proofs.Files.Names
import ForwardProxy.Proofs.Files.Operations
import ForwardProxy.Proofs.Http.Inbound
import ForwardProxy.Proofs.Http.RequestHeads
import ForwardProxy.Proofs.Interception.Confined
import ForwardProxy.Proofs.Interception.Destination
import ForwardProxy.Proofs.Interception.Issuing
import ForwardProxy.Proofs.Interception.LeafCache
import ForwardProxy.Proofs.Interception.LeafFiles
import ForwardProxy.Proofs.Interception.LeafName
import ForwardProxy.Proofs.Interception.LoadsOnce
import ForwardProxy.Proofs.Interception.NamelessHosts
import ForwardProxy.Proofs.Interception.SharedCache
import ForwardProxy.Proofs.Interception.StoredLeaves
import ForwardProxy.Proofs.Lists
import ForwardProxy.Proofs.Moderation.Balance
import ForwardProxy.Proofs.Moderation.Conservation
import ForwardProxy.Proofs.Moderation.Entries
import ForwardProxy.Proofs.Moderation.InStep
import ForwardProxy.Proofs.Moderation.Operator
import ForwardProxy.Proofs.Moderation.Queue
import ForwardProxy.Proofs.Moderation.Requests
import ForwardProxy.Proofs.Moderation.ReusedIds
import ForwardProxy.Proofs.Moderation.Screening
import ForwardProxy.Proofs.Moderation.Signals
import ForwardProxy.Proofs.Moderation.Waiting
import ForwardProxy.Proofs.Pem.RoundTrip
import ForwardProxy.Proofs.Pem.Torn
import ForwardProxy.Proofs.Program.Serving
import ForwardProxy.Proofs.Proxy.Dialing
import ForwardProxy.Proofs.Proxy.Exchanges
import ForwardProxy.Proofs.Proxy.Fetching
import ForwardProxy.Proofs.Proxy.NamedPorts
import ForwardProxy.Proofs.Proxy.ParentChoice
import ForwardProxy.Proofs.Proxy.ParentNames
import ForwardProxy.Proofs.Proxy.ProbeTargets
import ForwardProxy.Proofs.Proxy.Relaying
import ForwardProxy.Proofs.Proxy.Sending
import ForwardProxy.Proofs.Results
import ForwardProxy.Proofs.Rsa.Conversion
import ForwardProxy.Proofs.Rsa.Envelope
import ForwardProxy.Proofs.Rsa.Generated
import ForwardProxy.Proofs.Rsa.PlainKey
import ForwardProxy.Proofs.Text.Base64
import ForwardProxy.Proofs.Text.Bytes
import ForwardProxy.Proofs.Text.Numerals
import ForwardProxy.Proofs.Text.Visible
import ForwardProxy.Proofs.Text.Words
import ForwardProxy.Proofs.Uri.Authorities
import ForwardProxy.Proofs.Uri.Ports
import ForwardProxy.Proofs.Uri.Rendering
import ForwardProxy.Proofs.Uri.Spelling
import ForwardProxy.Proofs.Uri.Targets
