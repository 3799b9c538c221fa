import StatusBoard.Address
import StatusBoard.Address.Socket
import StatusBoard.Ascending
import StatusBoard.Changes
import StatusBoard.Chat
import StatusBoard.Config
import StatusBoard.Cycle
import StatusBoard.Flag
import StatusBoard.Flag.Countries
import StatusBoard.Json
import StatusBoard.Json.Document
import StatusBoard.Json.Record
import StatusBoard.Json.Token
import StatusBoard.MasterList
import StatusBoard.MasterList.Document
import StatusBoard.MasterList.Sighting
import StatusBoard.Mentions
import StatusBoard.Message
import StatusBoard.Message.ClientLine
import StatusBoard.Message.Content
import StatusBoard.MessageRef
import StatusBoard.Procedure
import StatusBoard.Reaction
import StatusBoard.Rehearsal
import StatusBoard.Rehearsal.Database
import StatusBoard.Server
import StatusBoard.Server.Canonical
import StatusBoard.Snapshot
import StatusBoard.Store
import StatusBoard.Store.Announced
import StatusBoard.Store.Key
import StatusBoard.Store.Schema
import StatusBoard.Table
import StatusBoard.Text.Blank
import StatusBoard.Text.Cut
import StatusBoard.Text.Markdown
import StatusBoard.Text.Numeral
import StatusBoard.Threshold
import StatusBoard.Toml
import StatusBoard.Toml.Number
import StatusBoard.Toml.Reader
import StatusBoard.Tracking
import StatusBoard.Tracking.Lifecycle
import StatusBoard.Proofs.Json.RoundTrip
import StatusBoard.Proofs.Store.Invariant
import StatusBoard.Proofs.Store.Announced
import StatusBoard.Proofs.Store.Replace
import StatusBoard.Proofs.Procedure
import StatusBoard.Proofs.Session
import StatusBoard.Proofs.Store.Reachable
import StatusBoard.Proofs.Changes
import StatusBoard.Proofs.Cycle.Effect
import StatusBoard.Proofs.Cycle.Interleaved
import StatusBoard.Proofs.Reaction.Handling
import StatusBoard.Proofs.Reaction.Audience
import StatusBoard.Proofs.Reaction.Agreement
import StatusBoard.Proofs.Cycle.Repeated
import StatusBoard.Proofs.Reaction.OwnRemoval
import StatusBoard.Proofs.Message.Length
import StatusBoard.Proofs.Tracking.Fate
import StatusBoard.Proofs.Tracking.Mirror
import StatusBoard.Proofs.Changes.Patch
import StatusBoard.Proofs.Server.Canonical
import StatusBoard.Proofs.Message.Layout
import StatusBoard.Proofs.Reaction.Effect
import StatusBoard.Proofs.Store.Retained
import StatusBoard.Proofs.Reaction.History
import StatusBoard.Proofs.MasterList.Folding
import StatusBoard.Proofs.Address.Spelling
import StatusBoard.Proofs.Message.Literal
import StatusBoard.Proofs.MasterList.Document
import StatusBoard.Proofs.Tracking.Unique
import StatusBoard.Proofs.Json.Grammar
import StatusBoard.Proofs.Json.Accepted
import StatusBoard.Proofs.Json.Members
import StatusBoard.Proofs.MasterList.Fields
import StatusBoard.Proofs.MasterList.Presentation
import StatusBoard.Proofs.Store.Deletion
import StatusBoard.Proofs.Store.Footprint
import StatusBoard.Proofs.Store.Independent
import StatusBoard.Proofs.Mentions
import StatusBoard.Proofs.Message.Truncation
import StatusBoard.Proofs.Tracking.Creation
import StatusBoard.Proofs.Tracking.Deliverable
import StatusBoard.Proofs.Store.Schema
import StatusBoard.Proofs.Message.ClientTable
import StatusBoard.Proofs.Toml.Integers
import StatusBoard.Proofs.Config
