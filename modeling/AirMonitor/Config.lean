import AirMonitor.Log.Entry
import AirMonitor.Modem.Session
import AirMonitor.Output.Mux

/-!
The settings of a node, each in the unit and width in which it is set, and the
values that the parts of the node make of them.
-/
namespace AirMonitor

structure NodeConfig where
  /-- Milliseconds. -/
  commandTimeout : UInt32 := 5000
  /-- Milliseconds. -/
  probeTimeout : UInt32 := 1000
  attempts : UInt8 := 5
  /-- Microseconds. -/
  resetHold : UInt32 := 20000
  /-- Microseconds. -/
  bootDelay : UInt32 := 500000
  consolePriority : UInt8 := 4
  wifiPriority : UInt8 := 3
  sleepPriority : UInt8 := 10
  /-- How often a task may be passed; zero for no limit. -/
  fairnessLimit : UInt8 := 8
  serverPort : UInt16 := 333
  /-- The rank of the level up to which entries are written. -/
  logRank : UInt8 := 2
  /-- Seconds. -/
  refreshInterval : UInt32 := 10
  /-- Milliseconds. -/
  sampleInterval : UInt32 := 2000
deriving DecidableEq, Repr

namespace NodeConfig

def timing (c : NodeConfig) : Timing where
  commandTimeout := .ofMillis c.commandTimeout.toNat
  probeTimeout := .ofMillis c.probeTimeout.toNat
  attempts := c.attempts
  resetHold := c.resetHold
  bootDelay := c.bootDelay

def muxSettings (c : NodeConfig) : MuxSettings where
  consolePriority := c.consolePriority
  wifiPriority := c.wifiPriority
  sleepPriority := c.sleepPriority
  fairness := .ofLimit c.fairnessLimit

def logLevel (c : NodeConfig) : LogLevel := .ofRank c.logRank.toNat

def setLogLevel (level : LogLevel) (c : NodeConfig) : NodeConfig := { c with logRank := .ofNat level.rank }

/-- From one refresh of the status to the next. -/
def refreshTime (c : NodeConfig) : Duration := .ofSecs c.refreshInterval.toNat

/-- From one frame to the next. -/
def sampleTime (c : NodeConfig) : Duration := .ofMillis c.sampleInterval.toNat

/-- The parts of the node agree on what is standard. -/
theorem standard_parts : timing {} = {} ∧ muxSettings {} = {} ∧ logLevel {} = .info := by decide

end NodeConfig
end AirMonitor
