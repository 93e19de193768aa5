import W1Retap.Sensors.History
import W1Retap.Schedule.Intervals
import W1Retap.Schedule.Search
import W1Retap.Schedule.Adjustment
import W1Retap.Schedule.Cycle
import W1Retap.Couplers.Couplers
import W1Retap.Support.SwitchBank
import W1Retap.Couplers.Initialisation
import W1Retap.Couplers.Switching
import W1Retap.Couplers.Exclusion
import W1Retap.Couplers.Cache
import W1Retap.Sensors.Readers
import W1Retap.Sensors.Steps
import W1Retap.Sensors.ReadAll
import W1Retap.Config.RcFile
import W1Retap.Config.Startup
import W1Retap.Support.Refinement
import W1Retap.Config.Settings
import W1Retap.Config.Reload
import W1Retap.Config.Idempotence
import W1Retap.Main.Loop
import W1Retap.Main.Steps
import W1Retap.Main.Freshness
import W1Retap.Main.RateLimit
import W1Retap.Main.Reloading
import W1Retap.Main.Completeness
import W1Retap.Support.Grouping
import W1Retap.Tables.Entries
import W1Retap.Tables.Databases
import W1Retap.Couplers.Branches
import W1Retap.Tables.Merging
import W1Retap.Tables.Loading
import W1Retap.Support.Reordering
import W1Retap.Tables.ColumnOrder
import W1Retap.Tables.Files
import W1Retap.Tables.Agreement
import W1Retap.Support.Triples
import W1Retap.Support.Calls
import W1Retap.Sensors.Setup
import W1Retap.Sensors.Alone
import W1Retap.Tables.Counters
import W1Retap.Plugins.Rows
import W1Retap.Plugins.Sqlite
import W1Retap.Plugins.Pgsql
import W1Retap.Plugins.Statements
import W1Retap.Plugins.Mysql
import W1Retap.Plugins.Odbc
import W1Retap.Plugins.Mongo
import W1Retap.Plugins.Connections
import W1Retap.Plugins.DocumentIds
import W1Retap.Plugins.Commits
import W1Retap.Plugins.Layout
import W1Retap.Plugins.Destinations
import W1Retap.Sensors.Tallies
import W1Retap.Sensors.Ds2438
import W1Retap.Support.TwoRuns
import W1Retap.Sensors.Temperatures
import W1Retap.Sensors.Twins
import W1Retap.Sensors.Compensation
import W1Retap.Sensors.Integrity
import W1Retap.Sensors.Reports
import W1Retap.Sensors.Counts
import W1Retap.Sensors.Collisions
import W1Retap.Sensors.SuccessCount
import W1Retap.Config.Precedence
import W1Retap.Main.TmpLog
import W1Retap.Main.Ownership
import W1Retap.Main.Snapshots
import W1Retap.Main.Signals
import W1Retap.Tables.RateLimits
import W1Retap.Tables.KeySafety
import W1Retap.Config.Show
import W1Retap.Plugins.HostTable
import W1Retap.Pressure.Conversions
import W1Retap.Plugins.TextLoggers
import W1Retap.Tables.Backends
import W1Retap.Pressure.Calibration
import W1Retap.Sensors.Params
import W1Retap.Sensors.Offsets
import W1Retap.Support.Printf
import W1Retap.Plugins.Numbers
import W1Retap.Plugins.Dates
import W1Retap.Support.Words
import W1Retap.Plugins.OdbcRows
import W1Retap.Plugins.Wxdata
import W1Retap.Support.Json
import W1Retap.Main.Recovery
import W1Retap.Main.Wakeup
import W1Retap.Sensors.WindVane
import W1Retap.Bus.Wire
import W1Retap.Bus.Ds1921
import W1Retap.Bus.Polling
import W1Retap.Bus.HobbyBoards
import W1Retap.Support.Crc
import W1Retap.Bus.Sht11
import W1Retap.Support.Lines
import W1Retap.Config.LongLines
import W1Retap.Plugins.BufferSizes
import W1Retap.Support.Csv
import W1Retap.Support.SqlText
import W1Retap.Support.Xml
import W1Retap.Plugins.Quoting
import W1Retap.Sensors.Serials
import W1Retap.Sensors.Slots
import W1Retap.Sensors.SlotRuns
import W1Retap.Tables.Piles
import W1Retap.Tables.SlotSafety
import W1Retap.Support.Lockstep
import W1Retap.Support.Unwinding
import W1Retap.Pressure.Sharing
import W1Retap.Pressure.Bystanders
import W1Retap.Pressure.Turns
import W1Retap.Pressure.Interference
import W1Retap.Support.BitSearch
import W1Retap.Support.Framing
import W1Retap.Bus.Ds2480
import W1Retap.Bus.Network
import W1Retap.Bus.InStep
import W1Retap.Bus.Callers
import W1Retap.Bus.Search
import W1Retap.Bus.Finding
import W1Retap.Support.Bursts
import W1Retap.Bus.Exchanges
import W1Retap.Bus.Thermometer
import W1Retap.Bus.Registers
import W1Retap.Bus.Verify
import W1Retap.Support.Rings
import W1Retap.Bus.Errors
import W1Retap.Pages.Cache
