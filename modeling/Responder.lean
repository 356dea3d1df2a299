import Responder.Backend.Any
import Responder.Backend.Basic
import Responder.Backend.Mock
import Responder.Chat
import Responder.Chat.Ancestry
import Responder.Chat.Context
import Responder.Config.Basic
import Responder.Config.SocketAddress
import Responder.Decimal.Binary
import Responder.Decimal.Shortest
import Responder.Failure
import Responder.Http.Exchange
import Responder.Http.Query
import Responder.Http.Refusal
import Responder.Http.Route
import Responder.Id
import Responder.Item.Basic
import Responder.Item.Normal
import Responder.Json.Basic
import Responder.Json.Fault
import Responder.Json.Number
import Responder.Json.Raw
import Responder.Json.Shape
import Responder.Json.Token
import Responder.Json.Writer
import Responder.Main
import Responder.Page
import Responder.Remote.Body
import Responder.Remote.Client
import Responder.Remote.Decoder
import Responder.Request
import Responder.Response
import Responder.Schema.Basic
import Responder.Schema.Check
import Responder.Schema.Sample
import Responder.Schema.Validate
import Responder.Server.Admission
import Responder.Server.Basic
import Responder.Server.Clock
import Responder.Status
import Responder.Store
import Responder.Text
import Responder.Tool.Basic
import Responder.Tool.Registry
import Responder.Turn.Accumulator
import Responder.Turn.Action
import Responder.Turn.Basic
import Responder.Turn.Channel
import Responder.Turn.Event
import Responder.Url
import Responder.Wait
import Responder.Proofs.Turn.Account
import Responder.Proofs.Turn.Telling
import Responder.Proofs.Server.Admission
import Responder.Proofs.Turn.Grammar
import Responder.Proofs.Turn.Reconstruction
import Responder.Proofs.Turn.Agreement
import Responder.Proofs.Turn.Accrual
import Responder.Proofs.Turn.Verdict
import Responder.Proofs.Tool.Contract
import Responder.Proofs.Turn.Outline
import Responder.Proofs.Turn.Interruption
import Responder.Proofs.Turn.Refusal
import Responder.Proofs.Turn.Contract
import Responder.Proofs.Remote.Cutting
import Responder.Proofs.Chat.Truncation
import Responder.Proofs.Chat.Selection
import Responder.Proofs.Chat.Folding
import Responder.Proofs.Server.Run
import Responder.Proofs.Store.Entries
import Responder.Proofs.Store.Log
import Responder.Proofs.Chat.Ancestry
import Responder.Proofs.Chat.Lineage
import Responder.Proofs.Chat.Resolution
import Responder.Proofs.Server.Refusal
import Responder.Proofs.Server.Lineage
import Responder.Proofs.Remote.EventStream
import Responder.Proofs.Remote.Buffers
import Responder.Proofs.Remote.Reassembly
import Responder.Proofs.Remote.StreamedUsage
import Responder.Proofs.Store.Growth
import Responder.Proofs.Http.Walk
import Responder.Proofs.Http.Listing
import Responder.Proofs.Item.Reading
import Responder.Proofs.Server.Turns
import Responder.Proofs.Turn.Wholeness
import Responder.Proofs.Chat.Replay
import Responder.Proofs.Turn.Rank
import Responder.Proofs.Server.Asking
import Responder.Proofs.Server.Hearing
import Responder.Proofs.Server.Fairness
import Responder.Proofs.Server.Ending
import Responder.Proofs.Http.Creation
import Responder.Proofs.Turn.LastEvent
import Responder.Proofs.Server.Scene
import Responder.Proofs.Server.Decision
import Responder.Proofs.Server.Settlement
import Responder.Proofs.Server.Delivery
import Responder.Proofs.Server.Observers
import Responder.Proofs.Json.Margins
import Responder.Proofs.Schema.Shape
import Responder.Proofs.Schema.Location
import Responder.Proofs.Turn.Structured
import Responder.Proofs.Remote.Undecodable
import Responder.Proofs.Http.Cursor
import Responder.Proofs.Item.Ids
import Responder.Proofs.Http.InputItems
import Responder.Proofs.Turn.Silence
import Responder.Proofs.Server.Frame
import Responder.Proofs.Turn.Cancellation
import Responder.Proofs.Server.Cancelling
import Responder.Proofs.Turn.Sameness
import Responder.Proofs.Turn.Story
import Responder.Proofs.Turn.Retelling
import Responder.Proofs.Server.Story
import Responder.Proofs.Server.Independence
import Responder.Proofs.Server.Overrun
import Responder.Proofs.Json.Members
import Responder.Proofs.Json.Spelling
import Responder.Proofs.Item.Showing
import Responder.Proofs.Remote.Conversation
import Responder.Proofs.Remote.Finishing
import Responder.Proofs.Remote.Stalling
import Responder.Proofs.Backend.Pieces
import Responder.Proofs.Json.Depth
import Responder.Proofs.Schema.Conforming
import Responder.Proofs.Schema.Reading
import Responder.Proofs.Turn.Sampling
