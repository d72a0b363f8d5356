import TimetableFeed.Command.Files
import TimetableFeed.Command.Flag
import TimetableFeed.Command.Options
import TimetableFeed.Command.Report
import TimetableFeed.Command.Run
import TimetableFeed.Delivery.Assembly
import TimetableFeed.Delivery.Basic
import TimetableFeed.Delivery.Datum
import TimetableFeed.Delivery.Decode
import TimetableFeed.Delivery.DecodeError
import TimetableFeed.Delivery.Draft
import TimetableFeed.Delivery.Dump
import TimetableFeed.Delivery.Field
import TimetableFeed.Feed.Action
import TimetableFeed.Feed.Excerpt
import TimetableFeed.Feed.Fetch
import TimetableFeed.Feed.Gate
import TimetableFeed.Feed.Log
import TimetableFeed.Feed.Poller
import TimetableFeed.Feed.Settings
import TimetableFeed.Json.Literal
import TimetableFeed.Json.Members
import TimetableFeed.Json.Printer
import TimetableFeed.Json.Reader
import TimetableFeed.Json.SyntaxError
import TimetableFeed.Json.Value
import TimetableFeed.Main
import TimetableFeed.Number.Binary64
import TimetableFeed.Number.Layout
import TimetableFeed.Number.Numeral
import TimetableFeed.Number.Quantity
import TimetableFeed.Number.Shortest
import TimetableFeed.Proofs.GateRuns
import TimetableFeed.Proofs.PollerRuns
import TimetableFeed.Text.Ascii
import TimetableFeed.Text.Blank
import TimetableFeed.Text.DecimalDigit
import TimetableFeed.Text.Hex
import TimetableFeed.Text.Pieces
import TimetableFeed.Text.Printable
import TimetableFeed.Text.Quoted
import TimetableFeed.Text.Utf8
import TimetableFeed.Time.Date
import TimetableFeed.Time.Duration
import TimetableFeed.Time.Iso
import TimetableFeed.Time.Lenient
import TimetableFeed.Time.Timestamp
import TimetableFeed.Url.Host
import TimetableFeed.Url.Mask
import TimetableFeed.Url.Parts
import TimetableFeed.Url.Query
import TimetableFeed.Proofs.Results
import TimetableFeed.Proofs.Polls
import TimetableFeed.Proofs.Schema
import TimetableFeed.Proofs.Drafts
import TimetableFeed.Proofs.Checks
import TimetableFeed.Proofs.Decoding
import TimetableFeed.Proofs.Precedence
import TimetableFeed.Proofs.DamagedBodies
import TimetableFeed.Proofs.Connections
import TimetableFeed.Proofs.Masking
import TimetableFeed.Proofs.Secrecy
import TimetableFeed.Proofs.Utf8Text
import TimetableFeed.Proofs.JsonText
import TimetableFeed.Proofs.ZoneIds
import TimetableFeed.Proofs.WrittenTime
import TimetableFeed.Proofs.WrittenOffsets
import TimetableFeed.Proofs.FeedText
import TimetableFeed.Proofs.Containment
import TimetableFeed.Proofs.Places
import TimetableFeed.Proofs.Locations
import TimetableFeed.Proofs.Construction
import TimetableFeed.Proofs.NodeNames
import TimetableFeed.Proofs.Raising
import TimetableFeed.Proofs.Readings
import TimetableFeed.Proofs.KeyOrder
import TimetableFeed.Proofs.DumpedDeliveries
import TimetableFeed.Proofs.Userinfo
import TimetableFeed.Proofs.Rounding
import TimetableFeed.Proofs.SettingsErrors
import TimetableFeed.Proofs.BuiltSettings
import TimetableFeed.Proofs.Calendar
import TimetableFeed.Proofs.Starting
import TimetableFeed.Proofs.DumpedTimes
import TimetableFeed.Proofs.PollingLoop
import TimetableFeed.Proofs.QueryText
import TimetableFeed.Proofs.MaskedParts
import TimetableFeed.Proofs.Exchanges
import TimetableFeed.Proofs.SavedBodies
import TimetableFeed.Proofs.TextLengths
import TimetableFeed.Proofs.LogLengths
import TimetableFeed.Proofs.TimeTexts
import TimetableFeed.Proofs.RefusedRequests
import TimetableFeed.Proofs.Excerpts
import TimetableFeed.Proofs.SettingsSources
import TimetableFeed.Proofs.QuotedNumbers
import TimetableFeed.Proofs.ReportedPaths
import TimetableFeed.Proofs.WrittenPaths
import TimetableFeed.Proofs.NodeLines
