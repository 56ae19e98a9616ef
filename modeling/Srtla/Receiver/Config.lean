import Mathlib.Tactic

/-!
# Receiver constants and counters

The constants of `src/receiver_config.h` and the counters of
`src/metrics/prometheus.h`. Floating-point constants are rationals: the quality
evaluator is modelled in exact arithmetic.
-/

namespace Srtla.Receiver

/-! ## Limits and timeouts (`src/receiver_config.h:18-40`) -/

def maxConnsPerGroup : ℕ := 16
def maxGroups : ℕ := 200

def cleanupPeriod : ℤ := 3
def groupTimeout : ℤ := 30
def pendingGroupTimeout : ℤ := 5
def connTimeout : ℤ := 15

def keepalivePeriod : ℤ := 1
def recoveryChancePeriod : ℤ := 5

def authFailThreshold : ℤ := 5
def authFailWindow : ℤ := 60
def authFailCooldown : ℤ := 60

/-! ## Quality evaluation (`src/receiver_config.h:42-76`) -/

def connQualityEvalPeriod : ℤ := 5
def minAcceptableTotalBandwidthKbps : ℚ := 1000
def goodConnectionThreshold : ℚ := 1 / 2
def connectionGracePeriod : ℤ := 10

def weightFull : UInt8 := 100
def weightExcellent : UInt8 := 85
def weightDegraded : UInt8 := 70
def weightFair : UInt8 := 55
def weightPoor : UInt8 := 40
def weightCritical : UInt8 := 10

def rttThresholdCritical : UInt32 := 500
def rttThresholdHigh : UInt32 := 200
def rttThresholdModerate : UInt32 := 100
def rttVarianceThreshold : ℚ := 50
def keepaliveStalenessThreshold : ℤ := 2
def rttHistorySize : ℕ := 5

def nakRateCritical : ℚ := 20 / 100
def nakRateHigh : ℚ := 10 / 100
def nakRateModerate : ℚ := 5 / 100
def nakRateLow : ℚ := 1 / 100

def windowUtilizationCongested : ℚ := 95 / 100

/-- `RECV_ACK_INT`: data packets per SRTLA ACK. -/
def recvAckInt : ℕ := 10

/-- `RECV_BATCH_SIZE` (`src/protocol/srtla_handler.h:12`). -/
def recvBatchSize : ℕ := 64

/-! ## Counters (`src/metrics/prometheus.h:13-48`) -/

/-- `enum Counter`. -/
inductive Counter
  | packetsReceived | bytesReceived | recvBatches
  | forwardedPackets | forwardedBytes | forwardErrors | forwardDropped
  | srtPacketsReceived | srtBytesReceived
  | naksReceived | naksSuppressed
  | groupRegistrations | groupRegThrottled | groupRegTableFull | groupRegDupAddr
  | groupRegSendError
  | connRegistrations | connRegNoGroup | connRegGroupMismatch | connRegMaxConns
  | connRegSendError
  | groupsRemovedIdle | groupsRemovedAuth | groupsRemovedSrtError | groupsRemovedEvicted
  | connectionsRemoved | authFailures
  | sendErrAck | sendErrKeepalive | sendErrDownstream
  | recoveryStarted | recoveryCompleted | recoveryFailed
deriving DecidableEq

/-- The counters, read as integers. -/
abbrev Metrics := Counter → ℕ

/-- A list of `metrics::inc(c, n)` calls. -/
abbrev Incs := List (Counter × ℕ)

/-- The counters after the calls `is`. -/
def Metrics.bump (m : Metrics) (is : Incs) : Metrics :=
  fun c => m c + (is.map fun p => if p.1 = c then p.2 else 0).sum

end Srtla.Receiver
