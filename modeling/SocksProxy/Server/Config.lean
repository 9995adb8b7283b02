import Mathlib.Tactic.Common

/-!
# Run-time configuration and metrics

`config.c` and `metrics.c`: the parameters SMCP may change while the server
runs, with their validated setters, and the volatile counters. Both are held by
`main()` for the whole process, so the tests for a missing instance are not
modelled.
-/

namespace SocksProxy

def CONFIG_SELECTOR_FD_RESERVE : UInt32 := 24

def CONFIG_FDS_PER_CONNECTION : UInt32 := 2

def CONFIG_CONN_TIMEOUT_DEFAULT : UInt32 := 60

def CONFIG_CONN_TIMEOUT_MIN : UInt32 := 1

def CONFIG_CONN_TIMEOUT_MAX : UInt32 := 3600

def CONFIG_IO_BUFFER_SIZE_DEFAULT : UInt32 := 4096

def CONFIG_IO_BUFFER_SIZE_MIN : UInt32 := 512

def CONFIG_IO_BUFFER_SIZE_MAX : UInt32 := 65536

/-- `struct Config`. -/
structure Config where
  connTimeout : UInt32
  ioBufferSize : UInt32
  maxConnections : UInt32
  maxConnectionsHard : UInt32
  deriving DecidableEq, Repr

/-- `max_connections_for_selector`. -/
def maxConnectionsForSelector (selectorFdCapacity : UInt32) : UInt32 :=
  if selectorFdCapacity ≤ CONFIG_SELECTOR_FD_RESERVE then 1
  else (selectorFdCapacity - CONFIG_SELECTOR_FD_RESERVE) / CONFIG_FDS_PER_CONNECTION

/-- `config_init`. -/
def configInit (selectorFdCapacity : UInt32) : Config where
  connTimeout := CONFIG_CONN_TIMEOUT_DEFAULT
  ioBufferSize := CONFIG_IO_BUFFER_SIZE_DEFAULT
  maxConnections := maxConnectionsForSelector selectorFdCapacity
  maxConnectionsHard := maxConnectionsForSelector selectorFdCapacity

/-- `config_set_conn_timeout`: `none` where the source returns `false`. -/
def configSetConnTimeout (c : Config) (v : UInt32) : Option Config :=
  if v < CONFIG_CONN_TIMEOUT_MIN ∨ CONFIG_CONN_TIMEOUT_MAX < v then none
  else some { c with connTimeout := v }

/-- `config_set_io_buffer_size`. -/
def configSetIoBufferSize (c : Config) (v : UInt32) : Option Config :=
  if v < CONFIG_IO_BUFFER_SIZE_MIN ∨ CONFIG_IO_BUFFER_SIZE_MAX < v then none
  else some { c with ioBufferSize := v }

/-- `config_set_max_connections`. -/
def configSetMaxConnections (c : Config) (v : UInt32) : Option Config :=
  if v < 1 ∨ c.maxConnectionsHard < v then none
  else some { c with maxConnections := v }

/-- The buffer size is the one the setter accepts. -/
def Config.BufferSizeInRange (c : Config) : Prop :=
  CONFIG_IO_BUFFER_SIZE_MIN.toNat ≤ c.ioBufferSize.toNat ∧
    c.ioBufferSize.toNat ≤ CONFIG_IO_BUFFER_SIZE_MAX.toNat

theorem configInit_bufferSizeInRange (capacity : UInt32) :
    (configInit capacity).BufferSizeInRange := by
  simp [Config.BufferSizeInRange, configInit, CONFIG_IO_BUFFER_SIZE_MIN,
    CONFIG_IO_BUFFER_SIZE_MAX, CONFIG_IO_BUFFER_SIZE_DEFAULT]

theorem configSetConnTimeout_bufferSizeInRange {c changed : Config} {v : UInt32}
    (accepted : configSetConnTimeout c v = some changed) (inRange : c.BufferSizeInRange) :
    changed.BufferSizeInRange := by
  unfold configSetConnTimeout at accepted
  split at accepted
  · cases accepted
  · cases accepted
    exact inRange

theorem configSetMaxConnections_bufferSizeInRange {c changed : Config} {v : UInt32}
    (accepted : configSetMaxConnections c v = some changed) (inRange : c.BufferSizeInRange) :
    changed.BufferSizeInRange := by
  unfold configSetMaxConnections at accepted
  split at accepted
  · cases accepted
  · cases accepted
    exact inRange

theorem configSetIoBufferSize_bufferSizeInRange {c changed : Config} {v : UInt32}
    (accepted : configSetIoBufferSize c v = some changed) : changed.BufferSizeInRange := by
  unfold configSetIoBufferSize at accepted
  split at accepted
  · cases accepted
  · rename_i outside
    cases accepted
    rw [not_or, UInt32.lt_iff_toNat_lt, UInt32.lt_iff_toNat_lt] at outside
    exact ⟨by simpa using outside.1, by simpa using outside.2⟩

/-- `struct Metrics`. -/
structure Metrics where
  historicalConnections : UInt64
  activeConnections : UInt64
  maxActiveConnections : UInt64
  bytesClientToOrigin : UInt64
  bytesOriginToClient : UInt64
  deriving DecidableEq, Repr

/-- `metrics_init`. -/
def metricsInit : Metrics := ⟨0, 0, 0, 0, 0⟩

/-- `metrics_connection_opened`. -/
def metricsConnectionOpened (m : Metrics) : Metrics :=
  let counted :=
    { m with
      historicalConnections := m.historicalConnections + 1
      activeConnections := m.activeConnections + 1 }
  if counted.maxActiveConnections < counted.activeConnections then
    { counted with maxActiveConnections := counted.activeConnections }
  else counted

/-- `metrics_connection_closed`. -/
def metricsConnectionClosed (m : Metrics) : Metrics :=
  if 0 < m.activeConnections then { m with activeConnections := m.activeConnections - 1 } else m

/-- `metrics_bytes_client_to_origin`. -/
def metricsBytesClientToOrigin (m : Metrics) (n : Nat) : Metrics :=
  { m with bytesClientToOrigin := m.bytesClientToOrigin + UInt64.ofNat n }

/-- `metrics_bytes_origin_to_client`. -/
def metricsBytesOriginToClient (m : Metrics) (n : Nat) : Metrics :=
  { m with bytesOriginToClient := m.bytesOriginToClient + UInt64.ofNat n }

end SocksProxy
