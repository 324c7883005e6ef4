import BenchPrinter.Number.Shortest
import BenchPrinter.Settings.Basic
import BenchPrinter.Settings.Failure

/-!
Checking settings. The rules are tried in a fixed order, and the first one that is broken is
reported.
-/

namespace BenchPrinter

namespace ConnectionSettings

/-- Only a serial port needs a read timeout; a baud rate is always asked for. -/
def check (settings : ConnectionSettings) : Except SettingsFailure Unit :=
  if settings.baudRate = 0 then .error (.invalid "connection.baud_rate" "must be > 0")
  else if settings.kind = .serial ∧ settings.readTimeout = 0 then
    .error (.invalid "connection.read_timeout_ms" "must be > 0 for serial links")
  else .ok ()

end ConnectionSettings

def TimingSettings.check (settings : TimingSettings) : Except SettingsFailure Unit :=
  if settings.busyInterval = 0 then .error (.invalid "timing.busy_interval_ms" "must be > 0")
  else .ok ()

namespace ThermalSettings

/-- A constant must be finite and not negative, and zero only where that is allowed. -/
def checkConstant (id : HeaterId) (name : String) (allowsZero : Bool) (value : Float) :
    Except SettingsFailure Unit :=
  if !Quantity.isFinite value || decide (value < 0.0) || (value == 0.0 && !allowsZero) then
    .error (.outOfRange ("thermal." ++ id.name ++ "." ++ name) (DoubleStyle.plain.write value))
  else .ok ()

/-- The rates must be positive; there may be no noise. -/
def checkProfile (id : HeaterId) (profile : HeaterProfile Float) : Except SettingsFailure Unit := do
  checkConstant id "heat_rate" false profile.heatRate
  checkConstant id "cool_rate" false profile.coolRate
  checkConstant id "noise" true profile.noise

def checkRoom (room : Float) : Except SettingsFailure Unit :=
  if Quantity.isFinite room then .ok ()
  else .error (.invalid "thermal.room_temperature" "must be a finite number")

def check (settings : ThermalSettings) : Except SettingsFailure Unit := do
  checkProfile .hotend settings.hotend
  checkProfile .bed settings.bed
  checkRoom settings.room

end ThermalSettings

def Settings.check (settings : Settings) : Except SettingsFailure Unit := do
  settings.connection.check
  settings.timing.check
  settings.thermal.check

end BenchPrinter
