import Fieldbus.Catalogue.Document
import Fieldbus.Catalogue.Standard
import Fieldbus.Config.Document
import Fieldbus.Config.Environment
import Fieldbus.Datatype.Schema
import Fieldbus.Device.Cache
import Fieldbus.Literal.Write
import Fieldbus.PresentValue
import Fieldbus.Session.Call
import Fieldbus.Simulation.Scenario
import Fieldbus.Text.Duration
import Fieldbus.Value.Decode
import Fieldbus.Value.Json
import Fieldbus.Proofs.Binary.Integers
import Fieldbus.Proofs.Catalogue.Document
import Fieldbus.Proofs.Config.Checks
import Fieldbus.Proofs.Datatype.Schema
import Fieldbus.Proofs.Device.Records
import Fieldbus.Proofs.Engine.Accounting
import Fieldbus.Proofs.Engine.Client
import Fieldbus.Proofs.Engine.Delivery
import Fieldbus.Proofs.Engine.Descent
import Fieldbus.Proofs.Engine.Expiry
import Fieldbus.Proofs.Engine.Fate
import Fieldbus.Proofs.Engine.Flight
import Fieldbus.Proofs.Engine.Hearing
import Fieldbus.Proofs.Engine.Lifetime
import Fieldbus.Proofs.Engine.Rotation
import Fieldbus.Proofs.Engine.Service
import Fieldbus.Proofs.Engine.Settlement
import Fieldbus.Proofs.Engine.Spared
import Fieldbus.Proofs.Engine.Step
import Fieldbus.Proofs.Engine.Traffic
import Fieldbus.Proofs.Engine.Verdict
import Fieldbus.Proofs.Link.Connections
import Fieldbus.Proofs.Link.Recorded
import Fieldbus.Proofs.Link.Tapped
import Fieldbus.Proofs.Link.View
import Fieldbus.Proofs.Literal.Calendar
import Fieldbus.Proofs.Literal.Date
import Fieldbus.Proofs.Literal.Field
import Fieldbus.Proofs.Literal.Octets
import Fieldbus.Proofs.Literal.Open
import Fieldbus.Proofs.Literal.Restored
import Fieldbus.Proofs.Literal.Shown
import Fieldbus.Proofs.Literal.Starred
import Fieldbus.Proofs.Literal.Time
import Fieldbus.Proofs.Literal.Write
import Fieldbus.Proofs.Name
import Fieldbus.Proofs.Object.Reference
import Fieldbus.Proofs.PresentValue.Kinds
import Fieldbus.Proofs.PresentValue.Spelled
import Fieldbus.Proofs.PresentValue.Stable
import Fieldbus.Proofs.PresentValue.Whole
import Fieldbus.Proofs.Result
import Fieldbus.Proofs.Session.Cache
import Fieldbus.Proofs.Session.Calls
import Fieldbus.Proofs.Session.Configuration
import Fieldbus.Proofs.Session.Discovery
import Fieldbus.Proofs.Session.Engines
import Fieldbus.Proofs.Session.Enumeration
import Fieldbus.Proofs.Session.Happening
import Fieldbus.Proofs.Session.Heard
import Fieldbus.Proofs.Session.Identifiers
import Fieldbus.Proofs.Session.Lifecycle
import Fieldbus.Proofs.Session.Listing
import Fieldbus.Proofs.Session.Ownership
import Fieldbus.Proofs.Session.Range
import Fieldbus.Proofs.Session.Reading
import Fieldbus.Proofs.Session.Refusal
import Fieldbus.Proofs.Session.Release
import Fieldbus.Proofs.Session.Remembered
import Fieldbus.Proofs.Session.Run
import Fieldbus.Proofs.Session.Scene
import Fieldbus.Proofs.Session.Settings
import Fieldbus.Proofs.Session.Traffic
import Fieldbus.Proofs.Session.Underway
import Fieldbus.Proofs.Session.View
import Fieldbus.Proofs.Session.Windows
import Fieldbus.Proofs.Text.Numeral
import Fieldbus.Proofs.Text.Spelling
import Fieldbus.Proofs.Text.Split
import Fieldbus.Proofs.Value.Delimited
import Fieldbus.Proofs.Value.Grammar
import Fieldbus.Proofs.Value.Kinds
import Fieldbus.Proofs.Value.Octets
import Fieldbus.Proofs.Value.RoundTrip
import Fieldbus.Proofs.Value.Shortest
import Fieldbus.Proofs.Walk.History
import Fieldbus.Proofs.Walk.Honest
import Fieldbus.Proofs.Walk.Interpretation
import Fieldbus.Proofs.Walk.Order
import Fieldbus.Proofs.Walk.Tally
