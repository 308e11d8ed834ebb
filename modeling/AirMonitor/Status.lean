import AirMonitor.Modem.Flags

/-!
The status register of a node, one 32-bit word. Each region of the word belongs to
a part of the node, and each flag to a class of severity; a bit that is in no other
class counts as an error.
-/
namespace AirMonitor

/-- A set of status flags. -/
structure StatusFlags where
  bits : UInt32
deriving DecidableEq, Repr

/-- How bad a status is, from benign to fatal. -/
inductive Severity
  | ok
  | info
  | wait
  | warning
  | error
deriving DecidableEq, Repr

namespace Severity

def rank : Severity → Nat
  | ok => 0
  | info => 1
  | wait => 2
  | warning => 3
  | error => 4

def name : Severity → String
  | ok => "ok"
  | info => "info"
  | wait => "wait"
  | warning => "warning"
  | error => "error"

end Severity

namespace StatusFlags

def union (a b : StatusFlags) : StatusFlags := ⟨a.bits ||| b.bits⟩

/-- All flags of `b` are in `a`. -/
def contains (a b : StatusFlags) : Bool := a.bits &&& b.bits = b.bits

/-- Some flag of `b` is in `a`. -/
def intersects (a b : StatusFlags) : Bool := a.bits &&& b.bits ≠ 0

def isOk (a : StatusFlags) : Bool := a.bits = 0

def insert (a b : StatusFlags) : StatusFlags := a.union b

def remove (a b : StatusFlags) : StatusFlags := ⟨a.bits &&& ~~~b.bits⟩

/-- Inserts or removes flags. -/
def assign (a b : StatusFlags) (on : Bool) : StatusFlags := if on then a.insert b else a.remove b

/-! ### The board -/

def ok : StatusFlags := ⟨0⟩
def batteryLow : StatusFlags := ⟨0x00000001⟩
def usbRequested : StatusFlags := ⟨0x00000002⟩
def inputRequested : StatusFlags := ⟨0x00000004⟩
def consoleConnected : StatusFlags := ⟨0x00000008⟩

/-! ### WiFi -/

def wifiDisconnected : StatusFlags := ⟨0x01000000⟩
def clientConnected : StatusFlags := ⟨0x02000000⟩
def wifiFailed : StatusFlags := ⟨0x04000000⟩

/-! ### The climate sensor -/

def climateCommFailed : StatusFlags := ⟨0x00010000⟩
def climateSleepFailed : StatusFlags := ⟨0x00020000⟩
def climateMemoryFailed : StatusFlags := ⟨0x00040000⟩
def climateNotFound : StatusFlags := ⟨0x00080000⟩
def climateFailed : StatusFlags := ⟨0x00100000⟩
def climateSamplingInvalid : StatusFlags := ⟨0x00200000⟩
def climateReading : StatusFlags := ⟨0x00400000⟩

/-! ### The gas sensor -/

def gasSelfTestFailed : StatusFlags := ⟨0x00000100⟩
def gasCommFailed : StatusFlags := ⟨0x00000200⟩
def gasFailed : StatusFlags := ⟨0x00000400⟩
def gasInvalid : StatusFlags := ⟨0x00000800⟩
def gasUnstable : StatusFlags := ⟨0x00001000⟩
def gasReading : StatusFlags := ⟨0x00002000⟩

/-! ### The particle sensor -/

def particleCommFailed : StatusFlags := ⟨0x00000010⟩
def particleFailed : StatusFlags := ⟨0x00000020⟩
def particleNoData : StatusFlags := ⟨0x00000040⟩
def particleReading : StatusFlags := ⟨0x00000080⟩

/-! ### Regions and classes -/

def boardRegion : StatusFlags := ⟨0x0000000f⟩
def particleRegion : StatusFlags := ⟨0x000000f0⟩
def gasRegion : StatusFlags := ⟨0x0000ff00⟩
def climateRegion : StatusFlags := ⟨0x00ff0000⟩
def wifiRegion : StatusFlags := ⟨0xff000000⟩

/-- All flags of a list. -/
def ofList (flags : List StatusFlags) : StatusFlags := flags.foldl union ok

/-- The node waits for its user. -/
def waitClass : StatusFlags := .ofList [usbRequested, inputRequested]

def infoClass : StatusFlags := .ofList [consoleConnected, clientConnected, climateReading, gasReading, particleReading]

def warningClass : StatusFlags :=
  .ofList [batteryLow, wifiDisconnected, climateSamplingInvalid, gasInvalid, gasUnstable, particleNoData]

/-- What is in no other class. -/
def errorClass : StatusFlags := ⟨~~~(StatusFlags.ofList [waitClass, infoClass, warningClass]).bits⟩

/-- The worst class of which a flag is set. -/
def severity (a : StatusFlags) : Severity :=
  if a.intersects errorClass then .error
  else if a.intersects warningClass then .warning
  else if a.intersects waitClass then .wait
  else if a.intersects infoClass then .info
  else .ok

/-- The flags that show what is known of the co-processor's links. -/
def showLinks (modem : ModemFlags) (a : StatusFlags) : StatusFlags :=
  (a.assign wifiDisconnected (!modem.contains .wifiConnected)).assign clientConnected
    (modem.contains .clientConnected)

/-! ### Names -/

/-- The flags, regions and classes by the names that the register's manual gives them. -/
def named : List (String × StatusFlags) :=
  [("OK", ok), ("W_BATT_LOW", batteryLow), ("U_REQ_USB", usbRequested), ("U_REQ_USER_INPUT", inputRequested),
   ("I_CONSOLE_CONNECTED", consoleConnected), ("W_WIFI_DISCONNECTED", wifiDisconnected),
   ("I_CLIENT_CONNECTED", clientConnected), ("E_WIFI_FAIL", wifiFailed), ("E_BME280_COMM_FAIL", climateCommFailed),
   ("E_BME280_SLEEP_FAIL", climateSleepFailed), ("E_BME280_NVM_FAIL", climateMemoryFailed),
   ("E_BME280_NOT_FOUND", climateNotFound), ("E_BME280_GENERAL_FAIL", climateFailed),
   ("W_BME280_OSR_INVALID", climateSamplingInvalid), ("I_BME280_READING", climateReading),
   ("E_BME680_SELFTEST_FAIL", gasSelfTestFailed), ("E_BME680_COMM_FAIL", gasCommFailed),
   ("E_BME680_GENERAL_FAIL", gasFailed), ("W_BME680_GAS_INVALID", gasInvalid),
   ("W_BME680_GAS_UNSTABLE", gasUnstable), ("I_BME680_READING", gasReading),
   ("E_PM2_5_COMM_FAIL", particleCommFailed), ("E_PM2_5_GENERAL_FAIL", particleFailed),
   ("W_PM2_5_NO_DATA", particleNoData), ("I_PM2_5_READING", particleReading), ("REGION_BOARD", boardRegion),
   ("REGION_PM2_5", particleRegion), ("REGION_BME680", gasRegion), ("REGION_BME280", climateRegion),
   ("REGION_WIFI", wifiRegion), ("MASK_WAIT", waitClass), ("MASK_INFO", infoClass), ("MASK_WARNING", warningClass),
   ("MASK_ERROR", errorClass)]

/-- The flags of a name. -/
def ofName? (name : String) : Option StatusFlags := named.lookup name

end StatusFlags
end AirMonitor
