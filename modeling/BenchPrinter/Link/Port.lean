import BenchPrinter.Command.Table
import BenchPrinter.Settings.Basic

/-!
Serial ports. A port that is not named is found by its description.
-/

namespace BenchPrinter

/-- What a system tells about a port; the two numbers are those of an adapter on a USB port. -/
structure PortInfo where
  name : String
  description : String
  manufacturer : Option String
  vendor : Option UInt16
  product : Option UInt16
deriving DecidableEq

namespace PortInfo

/-- The host is expected behind an adapter that calls itself serial, in capitals. -/
def isHostCandidate (port : PortInfo) : Bool :=
  occursIn "SERIAL".toList port.description.toList

def findHost? (ports : List PortInfo) : Option PortInfo :=
  ports.find? isHostCandidate

end PortInfo

namespace ConnectionSettings

/-- A port that is named need not be among the ports that are known. -/
def resolvePort (settings : ConnectionSettings) (ports : List PortInfo) : Except Failure String :=
  if settings.seeksPort then
    match PortInfo.findHost? ports with
    | some port => .ok port.name
    | none => .error (.connection .noHostPort)
  else .ok settings.port

end ConnectionSettings

end BenchPrinter
