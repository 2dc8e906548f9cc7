import Mathlib
import DistributorMerger.Pcap.Monitor
import DistributorMerger.Concurrency.Runs

/-!
# Reporting a monitor while it is being incremented

The supervisor reports a monitor in `handle_monitor`: it prints the counters, records the time and
then clears the counters one by one. The packet handlers increment the same counters in threads of
their own, and no lock is held by both sides. Here one monitor is followed from `monitor_open` on:
each statement of `handle_monitor` is a step, a call of `monitor_increment` is a step, and the steps
of the two sides come in any order.

What was added is then the sum of what was printed and what is still there, except for what is added
between the printing of a counter and its clearing, which is lost.
-/

namespace DistributorMerger

/-- Where the supervisor stands in `handle_monitor`: the statement that it executes next. -/
inductive ReportPoint
  /-- Outside, or in front of the tests. -/
  | outside
  /-- Print the packets and bytes. -/
  | output
  /-- Print the GTP counters. -/
  | outputGtp
  /-- Record the output time. -/
  | recordTime
  /-- `monitor->bytes = 0`. -/
  | clearBytes
  /-- `monitor->packets = 0`. -/
  | clearPackets
  /-- `monitor->gtp_bytes = 0`. -/
  | clearGtpBytes
  /-- `monitor->gtp_packets = 0`. -/
  | clearGtpPackets
  /-- `monitor->gtp_ext = 0`. -/
  | clearGtpExt
  /-- `monitor->gtp_seqno = 0`. -/
  | clearGtpSeqno
  /-- `monitor->gtp_npdu = 0`. -/
  | clearGtpNpdu
  deriving DecidableEq, Repr

/-- The packets have been printed and not been cleared yet. -/
def ReportPoint.packetsPending : ReportPoint → Bool
  | .outputGtp | .recordTime | .clearBytes | .clearPackets => true
  | _ => false

/-- The bytes have been printed and not been cleared yet. -/
def ReportPoint.bytesPending : ReportPoint → Bool
  | .outputGtp | .recordTime | .clearBytes => true
  | _ => false

/-- A monitor, the supervisor's place in `handle_monitor` for it, what has been printed and what
has been added. -/
structure Reporting where
  /-- The monitor. -/
  monitor : Monitor
  /-- `monitor_last_output_time` in the supervisor's source file. -/
  tick : ℤ
  /-- The next statement of the supervisor. -/
  point : ReportPoint := .outside
  /-- The packets and bytes of each report. -/
  printed : List (ℤ × ℤ) := []
  /-- The packets and bytes added since `monitor_open`. -/
  added : ℤ × ℤ := 0
  deriving DecidableEq, Repr

/-- A step of either side. -/
inductive ReportEvent
  /-- A packet handler calls `monitor_increment`. -/
  | increment (packets bytes : ℤ)
  /-- A packet handler calls `monitor_increment_gtp`. -/
  | incrementGtp (gtpPackets gtpBytes : ℤ) (gtpOptions : ℕ)
  /-- The supervisor calls `handle_monitor` for another monitor, which moves the tick. -/
  | visitOther (now : ℤ)
  /-- The supervisor enters `handle_monitor` and makes its tests. -/
  | visit (now : ℤ)
  /-- The supervisor executes its next statement. -/
  | advance
  deriving DecidableEq, Repr

namespace Reporting

/-- The monitor as `monitor_open` leaves it, with the tick of the supervisor's source file. -/
def opened (id : ℕ) (moduleTick now tick : ℤ) : Reporting where
  monitor := (monitorOpen id moduleTick now).2
  tick := tick

/-- The next statement of the supervisor, once it is past the tests. -/
def advance (s : Reporting) : Option Reporting :=
  match s.point with
  | .outside => none
  | .output =>
    some { s with
      printed := s.printed ++ [(s.monitor.packets, s.monitor.bytes)], point := .outputGtp }
  | .outputGtp => some { s with point := .recordTime }
  | .recordTime =>
    some { s with monitor := { s.monitor with lastOutputTime := s.tick }, point := .clearBytes }
  | .clearBytes =>
    some { s with monitor := { s.monitor with bytes := 0 }, point := .clearPackets }
  | .clearPackets =>
    some { s with monitor := { s.monitor with packets := 0 }, point := .clearGtpBytes }
  | .clearGtpBytes =>
    some { s with monitor := { s.monitor with gtpBytes := 0 }, point := .clearGtpPackets }
  | .clearGtpPackets =>
    some { s with monitor := { s.monitor with gtpPackets := 0 }, point := .clearGtpExt }
  | .clearGtpExt =>
    some { s with monitor := { s.monitor with gtpExt := 0 }, point := .clearGtpSeqno }
  | .clearGtpSeqno =>
    some { s with monitor := { s.monitor with gtpSeqno := 0 }, point := .clearGtpNpdu }
  | .clearGtpNpdu =>
    some { s with monitor := { s.monitor with gtpNpdu := 0 }, point := .outside }

/-- One step. The supervisor is one thread: it enters `handle_monitor` only from outside. -/
def step (s : Reporting) : ReportEvent → Option Reporting
  | .increment packets bytes =>
    some { s with monitor := s.monitor.increment packets bytes,
                  added := s.added + (packets, bytes) }
  | .incrementGtp gtpPackets gtpBytes gtpOptions =>
    some { s with monitor := s.monitor.incrementGtp gtpPackets gtpBytes gtpOptions }
  | .visitOther now =>
    if s.point = .outside then some { s with tick := nextTick s.tick now } else none
  | .visit now =>
    if s.point = .outside then
      if nextTick s.tick now ≤ s.monitor.lastOutputTime then
        some { s with tick := nextTick s.tick now }
      else some { s with tick := nextTick s.tick now, point := .output }
    else none
  | .advance => s.advance

/-- A report on which no handler interferes prints the counters and clears them. -/
theorem uninterrupted_report (s : Reporting) (now : ℤ) (hpoint : s.point = .outside)
    (hdue : s.monitor.lastOutputTime < nextTick s.tick now) :
    (ReportEvent.visit now :: List.replicate 10 .advance).foldlM step s
      = some { s with
          monitor := s.monitor.clear (nextTick s.tick now)
          tick := nextTick s.tick now
          printed := s.printed ++ [(s.monitor.packets, s.monitor.bytes)] } := by
  have hvisit : s.step (.visit now)
      = some { s with tick := nextTick s.tick now, point := .output } := by
    rw [step, if_pos hpoint, if_neg (not_le.mpr hdue)]
  rw [List.foldlM_cons, hvisit, hpoint]
  rfl

/-! ## What is lost and what is not -/

/-- The packets of all reports. -/
def printedPackets (s : Reporting) : ℤ := (s.printed.map Prod.fst).sum

/-- The bytes of all reports. -/
def printedBytes (s : Reporting) : ℤ := (s.printed.map Prod.snd).sum

/-- What was printed and what is still held is what was added, for each counter that is not between
its printing and its clearing. -/
def Conserved (s : Reporting) : Prop :=
  (s.point.packetsPending = false → s.printedPackets + s.monitor.packets = s.added.1) ∧
    (s.point.bytesPending = false → s.printedBytes + s.monitor.bytes = s.added.2)

/-- Nothing is added to a counter between its printing and its clearing. -/
def Undisturbed (s : Reporting) : ReportEvent → Prop
  | .increment packets bytes =>
    (s.point.packetsPending = true → packets = 0) ∧ (s.point.bytesPending = true → bytes = 0)
  | _ => True

/-- The packets held that have not been printed, if nothing was added since they were. -/
def heldPackets (s : Reporting) : ℤ := if s.point.packetsPending then 0 else s.monitor.packets

/-- The bytes held that have not been printed, if nothing was added since they were. -/
def heldBytes (s : Reporting) : ℤ := if s.point.bytesPending then 0 else s.monitor.bytes

/-- What an undisturbed run maintains. -/
structure Accounted (s : Reporting) : Prop where
  /-- The packets. -/
  packets : s.printedPackets + s.heldPackets = s.added.1
  /-- The bytes. -/
  bytes : s.printedBytes + s.heldBytes = s.added.2

theorem accounted_opened (id : ℕ) (moduleTick now tick : ℤ) :
    (opened id moduleTick now tick).Accounted := ⟨rfl, rfl⟩

theorem Accounted.conserved {s : Reporting} (h : s.Accounted) : s.Conserved := by
  refine ⟨fun hpending ↦ ?_, fun hpending ↦ ?_⟩
  · rw [← h.packets, heldPackets, hpending]
    rfl
  · rw [← h.bytes, heldBytes, hpending]
    rfl

theorem Accounted.of_eq {s s' : Reporting} (h : s.Accounted) (hprinted : s'.printed = s.printed)
    (hadded : s'.added = s.added) (hpackets : s'.heldPackets = s.heldPackets)
    (hbytes : s'.heldBytes = s.heldBytes) : s'.Accounted := by
  refine ⟨?_, ?_⟩
  · rw [printedPackets, hprinted, hadded, hpackets]
    exact h.packets
  · rw [printedBytes, hprinted, hadded, hbytes]
    exact h.bytes

theorem Accounted.increment {s : Reporting} {packets bytes : ℤ} (h : s.Accounted)
    (hpackets : s.point.packetsPending = true → packets = 0)
    (hbytes : s.point.bytesPending = true → bytes = 0) :
    Accounted { s with
      monitor := s.monitor.increment packets bytes, added := s.added + (packets, bytes) } := by
  refine ⟨?_, ?_⟩
  · have hheld : ∀ q, q = s.point.packetsPending → (if q then 0 else s.monitor.packets + packets)
        = (if q then 0 else s.monitor.packets) + packets := by
      intro q hq
      cases q with
      | false => rfl
      | true => rw [hpackets hq.symm]; rfl
    have := h.packets
    simp only [printedPackets, heldPackets, Monitor.increment, Prod.fst_add] at this ⊢
    rw [hheld _ rfl, ← this, add_assoc]
  · have hheld : ∀ q, q = s.point.bytesPending → (if q then 0 else s.monitor.bytes + bytes)
        = (if q then 0 else s.monitor.bytes) + bytes := by
      intro q hq
      cases q with
      | false => rfl
      | true => rw [hbytes hq.symm]; rfl
    have := h.bytes
    simp only [printedBytes, heldBytes, Monitor.increment, Prod.snd_add] at this ⊢
    rw [hheld _ rfl, ← this, add_assoc]

/-- A statement of the supervisor: printing moves a counter to the reports, and clearing removes
what has been printed. -/
theorem Accounted.advance {s s' : Reporting} (h : s.Accounted) (hs' : s.advance = some s') :
    s'.Accounted := by
  obtain ⟨monitor, tick, point, printed, added⟩ := s
  cases point with
  | outside => cases hs'
  | output =>
    obtain rfl := Option.some.inj hs'
    obtain ⟨hpackets, hbytes⟩ := h
    refine ⟨?_, ?_⟩
    · rw [← hpackets]
      simp [printedPackets, heldPackets, ReportPoint.packetsPending]
    · rw [← hbytes]
      simp [printedBytes, heldBytes, ReportPoint.bytesPending]
  | _ =>
    obtain rfl := Option.some.inj hs'
    exact h.of_eq rfl rfl rfl rfl

theorem Accounted.step {s s' : Reporting} {e : ReportEvent} (h : s.Accounted)
    (hundisturbed : s.Undisturbed e) (hs' : s.step e = some s') : s'.Accounted := by
  cases e with
  | increment packets bytes =>
    obtain rfl := Option.some.inj hs'
    exact h.increment hundisturbed.1 hundisturbed.2
  | incrementGtp gtpPackets gtpBytes gtpOptions =>
    obtain rfl := Option.some.inj hs'
    exact h.of_eq rfl rfl rfl rfl
  | visitOther now =>
    obtain ⟨-, heq⟩ := Option.ite_none_right_eq_some.mp hs'
    obtain rfl := Option.some.inj heq
    exact h.of_eq rfl rfl rfl rfl
  | visit now =>
    obtain ⟨hpoint, heq⟩ := Option.ite_none_right_eq_some.mp hs'
    obtain ⟨monitor, tick, point, printed, added⟩ := s
    obtain rfl : point = .outside := hpoint
    split at heq
    · obtain rfl := Option.some.inj heq
      exact h.of_eq rfl rfl rfl rfl
    · obtain rfl := Option.some.inj heq
      exact h.of_eq rfl rfl rfl rfl
  | advance => exact h.advance hs'

/-- **No traffic is lost from the statistics as long as none arrives during a report.** In every
interleaving in which nothing is added to a counter between its printing and its clearing, what was
printed and what is held are together what was added since `monitor_open`, in every state in which
the counter is not between its printing and its clearing. -/
theorem traffic_conserved (id : ℕ) (moduleTick now tick : ℤ) (events : List ReportEvent)
    (s : Reporting) (hrun : events.foldlM Reporting.step (opened id moduleTick now tick) = some s)
    (hundisturbed : ∀ es₁ e es₂ s₁, events = es₁ ++ e :: es₂ →
      es₁.foldlM Reporting.step (opened id moduleTick now tick) = some s₁ → s₁.Undisturbed e) :
    s.Conserved :=
  (foldlM_induction (fun _ _ _ h hundisturbed hs' ↦ h.step hundisturbed hs') hundisturbed
    (accounted_opened id moduleTick now tick) hrun).conserved

/-- One packet is added and then reported. -/
theorem traffic_conserved_reported :
    Conserved ⟨{ id := 0, lastOutputTime := 10 }, 10, .outside, [(1, 100)], (1, 100)⟩ := by
  refine traffic_conserved 0 0 0 0
    (.increment 1 100 :: .visit 10 :: List.replicate 10 .advance) _ (by decide) ?_
  intro es₁ e es₂ s₁ hevents hs₁
  cases es₁ with
  | nil =>
    obtain rfl := Option.some.inj hs₁
    obtain rfl := (List.cons.inj hevents).1
    exact ⟨fun hpending ↦ absurd hpending (by decide), fun hpending ↦ absurd hpending (by decide)⟩
  | cons e₁ es₁ =>
    have hmem : e ∈ ReportEvent.visit 10 :: List.replicate 10 .advance := by
      rw [(List.cons.inj hevents).2]
      exact List.mem_append_right _ List.mem_cons_self
    rcases List.mem_cons.mp hmem with rfl | hmem
    · trivial
    · obtain rfl := List.eq_of_mem_replicate hmem
      trivial

/-- A packet that is added between the printing and the clearing is in no report. -/
theorem traffic_lost_during_report :
    ∃ s : Reporting, (ReportEvent.increment 1 100 :: .visit 10 :: .advance :: .increment 1 60 ::
        List.replicate 9 .advance).foldlM Reporting.step (opened 0 0 0 0) = some s ∧
      s.point = .outside ∧ ¬ s.Conserved := by
  refine ⟨⟨{ id := 0, lastOutputTime := 10 }, 10, .outside, [(1, 100)], (2, 160)⟩, by decide, rfl,
    ?_⟩
  intro h
  exact absurd (h.1 rfl) (by decide)

end Reporting

end DistributorMerger
