import BenchPrinter.Document.Values
import BenchPrinter.Settings.Basic

/-!
Settings as documents. A document may leave out any section and any field; what is left out has its
standard value.
-/

namespace BenchPrinter

namespace LinkKind

def names : List (String × LinkKind) := [("serial", serial), ("stdio", stdio)]

def data : LinkKind → Data
  | serial => .text "serial"
  | stdio => .text "stdio"

def ofData? (dialect : Dialect) : Data → Option LinkKind := Data.choice? dialect names

end LinkKind

namespace ConnectionSettings

def data (settings : ConnectionSettings) : Data :=
  .record [("kind", settings.kind.data), ("port", .text settings.port),
    ("baud_rate", .integer settings.baudRate.toNat),
    ("read_timeout_ms", .integer settings.readTimeout.toNat),
    ("poll_interval_ms", .integer settings.pollInterval.toNat)]

def ofData? (dialect : Dialect) (data : Data) : Option ConnectionSettings := do
  let field ← data.fields? dialect
    ["kind", "port", "baud_rate", "read_timeout_ms", "poll_interval_ms"]
  let kind ← Data.orDefault (LinkKind.ofData? dialect) standard.kind (field "kind")
  let port ← Data.orDefault Data.text? standard.port (field "port")
  let baudRate ← Data.orDefault Data.word32? standard.baudRate (field "baud_rate")
  let readTimeout ← Data.orDefault Data.word64? standard.readTimeout (field "read_timeout_ms")
  let pollInterval ← Data.orDefault Data.word64? standard.pollInterval (field "poll_interval_ms")
  return ⟨kind, port, baudRate, readTimeout, pollInterval⟩

end ConnectionSettings

namespace TimingSettings

def data (settings : TimingSettings) : Data :=
  .record [("busy_interval_ms", .integer settings.busyInterval.toNat),
    ("line_delay_ms", .integer settings.lineDelay.toNat)]

def ofData? (dialect : Dialect) (data : Data) : Option TimingSettings := do
  let field ← data.fields? dialect ["busy_interval_ms", "line_delay_ms"]
  let busyInterval ← Data.orDefault Data.word64? standard.busyInterval (field "busy_interval_ms")
  let lineDelay ← Data.orDefault Data.word64? standard.lineDelay (field "line_delay_ms")
  return ⟨busyInterval, lineDelay⟩

end TimingSettings

namespace ThermalSettings

/-- A seed is written only when there is one. -/
def seedField : Option UInt64 → List (String × Data)
  | some seed => [("seed", .integer seed.toNat)]
  | none => []

def data (settings : ThermalSettings) : Data :=
  .record (("room_temperature", .decimal settings.room) :: seedField settings.seed ++
    [("hotend", settings.hotend.data), ("bed", settings.bed.data)])

/-- A heater's missing constants are those of the same heater's standard profile. -/
def ofData? (dialect : Dialect) (data : Data) : Option ThermalSettings := do
  let field ← data.fields? dialect ["room_temperature", "seed", "hotend", "bed"]
  let room ← Data.orDefault Data.double? standard.room (field "room_temperature")
  let seed ← Data.orDefault (Data.optional? Data.word64?) standard.seed (field "seed")
  let hotend ← Data.orDefault (HeaterProfile.overlay? dialect standard.hotend) standard.hotend
    (field "hotend")
  let bed ← Data.orDefault (HeaterProfile.overlay? dialect standard.bed) standard.bed
    (field "bed")
  return ⟨room, seed, hotend, bed⟩

end ThermalSettings

namespace Settings

/-- The last section has a single field. -/
def ignoredStart? (dialect : Dialect) (data : Data) : Option String := do
  let field ← data.fields? dialect ["ignore_prefix"]
  Data.orDefault Data.text? standard.ignoredStart (field "ignore_prefix")

def data (settings : Settings) : Data :=
  .record [("connection", settings.connection.data), ("timing", settings.timing.data),
    ("thermal", settings.thermal.data),
    ("session", .record [("ignore_prefix", .text settings.ignoredStart)])]

def ofData? (dialect : Dialect) (data : Data) : Option Settings := do
  let field ← data.fields? dialect ["connection", "timing", "thermal", "session"]
  let connection ← Data.orDefault (ConnectionSettings.ofData? dialect) standard.connection
    (field "connection")
  let timing ← Data.orDefault (TimingSettings.ofData? dialect) standard.timing (field "timing")
  let thermal ←
    Data.orDefault (ThermalSettings.ofData? dialect) standard.thermal (field "thermal")
  let ignoredStart ←
    Data.orDefault (ignoredStart? dialect) standard.ignoredStart (field "session")
  return ⟨connection, timing, thermal, ignoredStart⟩

end Settings

end BenchPrinter
