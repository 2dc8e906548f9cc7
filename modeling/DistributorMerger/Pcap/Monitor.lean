import DistributorMerger.Gtp.Header

/-!
# Stream monitors

A monitor counts the packets and bytes of one session between two reports. The counters are
`long long` and are taken as integers. The time of the last report is compared with a tick that
each source file including the header holds in a copy of its own, so the tick is an argument and a
result here and the caller says whose copy it is.
-/

namespace DistributorMerger

/-- `struct monitor`, less its description. -/
structure Monitor where
  /-- The identifier of the session that owns the monitor. -/
  id : ℕ
  /-- Packets since the last report. -/
  packets : ℤ := 0
  /-- Bytes since the last report. -/
  bytes : ℤ := 0
  /-- GTP packets since the last report. -/
  gtpPackets : ℤ := 0
  /-- GTP bytes since the last report. -/
  gtpBytes : ℤ := 0
  /-- GTP packets with the extension flag. -/
  gtpExt : ℤ := 0
  /-- GTP packets with the sequence number flag. -/
  gtpSeqno : ℤ := 0
  /-- GTP packets with the N-PDU flag. -/
  gtpNpdu : ℤ := 0
  /-- The tick at which the monitor was opened or last reported. -/
  lastOutputTime : ℤ := 0
  deriving DecidableEq, Repr

/-- `MONITOR_OUTPUT_INTERVAL`, in seconds. -/
def monitorOutputInterval : ℤ := 10

/-- `monitor_open` at time `now` in a source file whose copy of the tick is `tick`: the new value
of the tick and the new monitor. -/
def monitorOpen (id : ℕ) (tick now : ℤ) : ℤ × Monitor :=
  let tick := if tick = 0 then now else tick
  (tick, { id := id, lastOutputTime := tick })

/-- `monitor_increment`. -/
def Monitor.increment (m : Monitor) (packets bytes : ℤ) : Monitor :=
  { m with packets := m.packets + packets, bytes := m.bytes + bytes }

/-- `monitor_increment_gtp`. -/
def Monitor.incrementGtp (m : Monitor) (gtpPackets gtpBytes : ℤ) (gtpOptions : ℕ) : Monitor :=
  { m with
    gtpPackets := m.gtpPackets + gtpPackets
    gtpBytes := m.gtpBytes + gtpBytes
    gtpExt := m.gtpExt + gtpExtFlag gtpOptions
    gtpSeqno := m.gtpSeqno + gtpSeqFlag gtpOptions
    gtpNpdu := m.gtpNpdu + gtpNpduFlag gtpOptions }

/-- The tick after the first test of `handle_monitor` at time `now`. -/
def nextTick (tick now : ℤ) : ℤ := if now - tick ≥ monitorOutputInterval then now else tick

/-- The last statements of `handle_monitor`: record the output time and clear the counters. -/
def Monitor.clear (m : Monitor) (tick : ℤ) : Monitor := { id := m.id, lastOutputTime := tick }

end DistributorMerger
