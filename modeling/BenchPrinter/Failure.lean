/-!
What can go wrong outside a printer. The host never sees a failure: a line that makes no sense is
acknowledged or ignored.
-/

namespace BenchPrinter

inductive ConnectionFailure where
  | noHostPort
  | failedToOpen (port reason : String)
  | connectionLost (reason : String)
  | serialError (reason : String)
  | invalidParameters (reason : String)
deriving DecidableEq

inductive FirmwareFailure where
  | responseNotSent (line reason : String)
  | configurationError (reason : String)
deriving DecidableEq

inductive Failure where
  | connection (failure : ConnectionFailure)
  | firmware (failure : FirmwareFailure)
  | cancelled
deriving DecidableEq

def ConnectionFailure.message : ConnectionFailure → String
  | noHostPort => "No host serial port detected"
  | failedToOpen port reason => "Failed to open port " ++ port ++ ": " ++ reason
  | connectionLost reason => "Connection lost: " ++ reason
  | serialError reason => "Serial port error: " ++ reason
  | invalidParameters reason => "Invalid connection parameters: " ++ reason

def FirmwareFailure.message : FirmwareFailure → String
  | responseNotSent line reason => "Failed to send response '" ++ line ++ "': " ++ reason
  | configurationError reason => "Firmware configuration error: " ++ reason

namespace Failure

def message : Failure → String
  | connection failure => failure.message
  | firmware failure => failure.message
  | cancelled => "Operation cancelled"

def isConnection : Failure → Bool
  | connection _ => true
  | _ => false

def isFirmware : Failure → Bool
  | firmware _ => true
  | _ => false

def isCancelled : Failure → Bool
  | cancelled => true
  | _ => false

/-- A response that could not be sent names the line and the cause. -/
def notSent (line reason : String) : Failure :=
  firmware (.responseNotSent line reason)

def lost (reason : String) : Failure :=
  connection (.connectionLost reason)

end Failure

end BenchPrinter
