import DivoomDev.Library.Bytes
import DivoomDev.Library.Loop
import DivoomDev.Library.Gregorian
import DivoomDev.Library.Run
import DivoomDev.Library.Fallible
import DivoomDev.Library.KeyedList
import DivoomDev.Library.Base64
import DivoomDev.Library.JsonValues
import DivoomDev.Ics.TextUtils
import DivoomDev.Ics.Timezone
import DivoomDev.Ics.Models
import DivoomDev.Ics.Datetime
import DivoomDev.Ics.Instants
import DivoomDev.Ics.Recurrence
import DivoomDev.Ics.EventBuilder
import DivoomDev.Ics.Window
import DivoomDev.Ics.OverrideApplier
import DivoomDev.Ics.Pipeline
import DivoomDev.Ics.Clocks
import DivoomDev.Ics.ClockArithmetic
import DivoomDev.Ics.ClockPipeline
import DivoomDev.Ics.ParseErrors
import DivoomDev.Ics.Series
import DivoomDev.Ics.Properties
import DivoomDev.Ics.Exclusion
import DivoomDev.Ics.Selection
import DivoomDev.Ics.Repetition
import DivoomDev.Ics.Expansion
import DivoomDev.Ics.Months
import DivoomDev.Ics.ZonedRules
import DivoomDev.Ics.Finished
import DivoomDev.Ics.Cancellation
import DivoomDev.Ics.Unfolding
import DivoomDev.Ics.Reordering
import DivoomDev.Ics.Folding
import DivoomDev.Ics.RoundTrip
import DivoomDev.Ics.UnfoldedText
import DivoomDev.Ics.Cache
import DivoomDev.Ics.CacheFile
import DivoomDev.Ics.Loading
import DivoomDev.Ics.CacheIntegrity
import DivoomDev.Ics.NextEvents
import DivoomDev.Storage.Transaction
import DivoomDev.Storage.Migrations
import DivoomDev.Storage.Models
import DivoomDev.Storage.SqliteBackend
import DivoomDev.Storage.OpenTransactions
import DivoomDev.Storage.JsonBackend
import DivoomDev.Storage.Durability
import DivoomDev.Storage.FailedSaves
import DivoomDev.Storage.Simulation
import DivoomDev.Storage.Equivalence
import DivoomDev.Storage.Representation
import DivoomDev.Divoom.Models
import DivoomDev.Divoom.Handlers
import DivoomDev.Divoom.Results
import DivoomDev.Divoom.Client
import DivoomDev.Service.Updater
import DivoomDev.Service.Delivery
import DivoomDev.Service.TokenErrors
import DivoomDev.Service.Retries
import DivoomDev.Service.WriteBack
import DivoomDev.Service.ClockRoundTrip
import DivoomDev.Service.LoginOutcome
import DivoomDev.Service.Cycles
import DivoomDev.Service.Reauthentication
import DivoomDev.Service.Lifecycle
import DivoomDev.Service.EventFormatter
import DivoomDev.Jenkins.Client
import DivoomDev.Jenkins.Builds
import DivoomDev.Jira.Client
import DivoomDev.Ics.HttpSource
import DivoomDev.Ics.ContentLines
import DivoomDev.Ics.Durations
import DivoomDev.Ics.Alarms
import DivoomDev.Ics.AlarmBlocks
import DivoomDev.Ics.ValueTypes
import DivoomDev.Ics.RuleParts
import DivoomDev.Ics.SubComponents
import DivoomDev.Ics.LocalTime
import DivoomDev.Ics.LocalKeys
import DivoomDev.Ics.ExactIntegers
import DivoomDev.Ics.IntegerRanges
import DivoomDev.Ics.Respelling
import DivoomDev.Ics.LetterCase
import DivoomDev.Ics.CacheHistory
import DivoomDev.Storage.Recall
import DivoomDev.Service.Displays
import DivoomDev.Service.Traffic
import DivoomDev.Service.Shutdown
import DivoomDev.Jenkins.UserBuilds
import DivoomDev.Service.DisplayText
import DivoomDev.Service.EndToEnd
import DivoomDev.Library.View
import DivoomDev.Library.Commuting
import DivoomDev.Ics.Timeline
import DivoomDev.Ics.ShownEvents
import DivoomDev.Ics.Joining
import DivoomDev.Ics.PropertyOrder
import DivoomDev.Ics.WrittenZones
import DivoomDev.Ics.WrittenProperties
import DivoomDev.Ics.WrittenEvents
import DivoomDev.Ics.EventLedger
import DivoomDev.Ics.Published
import DivoomDev.Storage.Bystanders
import DivoomDev.Divoom.DeviceCommands
import DivoomDev.Ics.Backoff
