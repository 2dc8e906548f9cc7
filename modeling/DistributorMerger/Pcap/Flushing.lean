import Mathlib
import DistributorMerger.Pcap.Reporting

/-!
# How long a dumped packet waits

`pcap_dump` writes to a buffered stream. The supervisor flushes the stream of a session whose
monitor has counted no bytes since its last report, and reports monitors every
`MONITOR_OUTPUT_INTERVAL` seconds. A packet that is dumped just before the traffic stops therefore
waits until the bytes counted for it have been reported, and is flushed on the next visit.

One running session with a monitor and a dumper is followed. A packet handler holds the lock of the
dumper around `pcap_dump`, and the supervisor around `pcap_dump_flush`, so each of the two is a
step; counting the packet, the test for bytes and the statements of `handle_monitor` are steps of
their own. The stream may be flushed by itself when its buffer is full, which is not followed: what
is called unflushed here is what may still be in the buffer.
-/

namespace DistributorMerger

/-- What the supervisor does next on its visit to the session. -/
inductive VisitStage
  /-- Nothing: it visits other sessions, or is inside `handle_monitor`. -/
  | outside
  /-- Flush the stream. -/
  | flush
  /-- Enter `handle_monitor`. -/
  | report
  deriving DecidableEq, Repr

/-- The monitor of the session with the supervisor's place in `handle_monitor`, the supervisor's
place in front of it, and the number of packets dumped since the last flush. -/
structure Output where
  /-- The monitor and its reports. -/
  reporting : Reporting
  /-- The place in front of `handle_monitor`. -/
  stage : VisitStage := .outside
  /-- The packets that may still be in the buffer. -/
  unflushed : ℕ := 0
  deriving DecidableEq, Repr

/-- A step of a packet handler or of the supervisor. -/
inductive OutputEvent
  /-- A packet handler dumps a packet. -/
  | dump
  /-- The supervisor tests whether bytes have been counted. -/
  | look
  /-- The supervisor flushes the stream. -/
  | flush
  /-- A step on the monitor. -/
  | monitor (e : ReportEvent)
  deriving DecidableEq, Repr

namespace Output

/-- The session as its runner leaves it. -/
def opened (id : ℕ) (moduleTick now tick : ℤ) : Output :=
  { reporting := Reporting.opened id moduleTick now tick }

/-- A step on the monitor. -/
def report (s : Output) (e : ReportEvent) : Option Output :=
  (s.reporting.step e).map fun r ↦ { s with reporting := r }

/-- One step. The supervisor looks at one session at a time. -/
def step (s : Output) : OutputEvent → Option Output
  | .dump => some { s with unflushed := s.unflushed + 1 }
  | .look =>
    if s.stage = .outside ∧ s.reporting.point = .outside then
      some { s with stage := if s.reporting.monitor.bytes = 0 then .flush else .report }
    else none
  | .flush => if s.stage = .flush then some { s with unflushed := 0, stage := .report } else none
  | .monitor (.visit now) =>
    if s.stage = .report then ({ s with stage := .outside } : Output).report (.visit now) else none
  | .monitor (.visitOther now) =>
    if s.stage = .outside then s.report (.visitOther now) else none
  | .monitor e => s.report e

/-- No packet is dumped and no bytes are counted. -/
def Quiet : OutputEvent → Prop
  | .dump => False
  | .monitor (.increment _ bytes) => bytes = 0
  | _ => True

/-- The clock readings taken in the step are at most `t`. -/
def ReadsUpTo (t : ℤ) : OutputEvent → Prop
  | .monitor (.visit now) => now ≤ t
  | .monitor (.visitOther now) => now ≤ t
  | _ => True

section Step

variable {s s' : Output} {e : ReportEvent}

theorem report_eq_some (h : s.report e = some s') :
    s.reporting.step e = some s'.reporting ∧ s'.unflushed = s.unflushed ∧
      s'.stage = s.stage := by
  obtain ⟨r, hr, rfl⟩ := Option.map_eq_some_iff.mp h
  exact ⟨hr, rfl, rfl⟩

theorem step_visit {now : ℤ} (h : s.step (.monitor (.visit now)) = some s') :
    s.stage = .report ∧ s.reporting.step (.visit now) = some s'.reporting ∧
      s'.unflushed = s.unflushed ∧ s'.stage = .outside := by
  obtain ⟨hstage, h⟩ := Option.ite_none_right_eq_some.mp h
  exact ⟨hstage, report_eq_some h⟩

/-- A step on the monitor flushes nothing, and the session's turn does not come by it. -/
theorem step_monitor (h : s.step (.monitor e) = some s') :
    s.reporting.step e = some s'.reporting ∧ s'.unflushed = s.unflushed ∧
      (s'.stage = .report → s.stage = .report) := by
  cases e with
  | visit now =>
    obtain ⟨hstage, hr, hunflushed, -⟩ := step_visit h
    exact ⟨hr, hunflushed, fun _ ↦ hstage⟩
  | visitOther now =>
    obtain ⟨-, h⟩ := Option.ite_none_right_eq_some.mp h
    obtain ⟨hr, hunflushed, hstage⟩ := report_eq_some h
    exact ⟨hr, hunflushed, fun hreport ↦ hstage ▸ hreport⟩
  | _ =>
    obtain ⟨hr, hunflushed, hstage⟩ := report_eq_some h
    exact ⟨hr, hunflushed, fun hreport ↦ hstage ▸ hreport⟩

end Step

end Output

/-! ## Reports -/

namespace Reporting

variable {s s' : Reporting} {e : ReportEvent} {t : ℤ}

/-- Neither the tick nor the last report is later than `t`. -/
structure UpTo (s : Reporting) (t : ℤ) : Prop where
  /-- The tick. -/
  tick : s.tick ≤ t
  /-- The last report. -/
  lastOutputTime : s.monitor.lastOutputTime ≤ t

theorem nextTick_le {tick now : ℤ} (htick : tick ≤ t) (hnow : now ≤ t) : nextTick tick now ≤ t := by
  unfold nextTick
  split
  · exact hnow
  · exact htick

theorem lt_nextTick_add (tick now : ℤ) : now < nextTick tick now + monitorOutputInterval := by
  unfold nextTick monitorOutputInterval
  split <;> omega

theorem UpTo.step (h : s.UpTo t) (he : Output.ReadsUpTo t (.monitor e))
    (hs' : s.step e = some s') : s'.UpTo t := by
  cases e with
  | increment packets bytes =>
    obtain rfl := Option.some.inj hs'
    exact ⟨h.tick, h.lastOutputTime⟩
  | incrementGtp gtpPackets gtpBytes gtpOptions =>
    obtain rfl := Option.some.inj hs'
    exact ⟨h.tick, h.lastOutputTime⟩
  | visitOther now =>
    obtain ⟨-, heq⟩ := Option.ite_none_right_eq_some.mp hs'
    obtain rfl := Option.some.inj heq
    exact ⟨nextTick_le h.tick he, h.lastOutputTime⟩
  | visit now =>
    obtain ⟨-, heq⟩ := Option.ite_none_right_eq_some.mp hs'
    split at heq <;>
    · obtain rfl := Option.some.inj heq
      exact ⟨nextTick_le h.tick he, h.lastOutputTime⟩
  | advance =>
    obtain ⟨monitor, tick, point, printed, added⟩ := s
    obtain ⟨htick, hlast⟩ := h
    cases point with
    | outside => cases hs'
    | recordTime =>
      -- the report is dated with the tick
      obtain rfl := Option.some.inj hs'
      exact ⟨htick, htick⟩
    | _ =>
      obtain rfl := Option.some.inj hs'
      exact ⟨htick, hlast⟩

/-- The bytes that have been counted, if any, have not been reported since time `t`, or are just
being cleared. -/
def StaleSince (s : Reporting) (t : ℤ) : Prop :=
  s.monitor.bytes = 0 ∨ s.monitor.lastOutputTime ≤ t ∨ s.point = .clearBytes

/-- There are no bytes, or they are about to be cleared. -/
def Clearing (s : Reporting) : Prop :=
  s.monitor.bytes = 0 ∨ s.point = .output ∨ s.point.bytesPending = true

theorem StaleSince.step (h : s.StaleSince t) (he : Output.Quiet (.monitor e))
    (hs' : s.step e = some s') : s'.StaleSince t := by
  cases e with
  | increment packets bytes =>
    obtain rfl : bytes = 0 := he
    obtain rfl := Option.some.inj hs'
    exact h.imp_left fun hzero ↦ (add_zero _).trans hzero
  | incrementGtp gtpPackets gtpBytes gtpOptions =>
    obtain rfl := Option.some.inj hs'
    exact h
  | visitOther now =>
    obtain ⟨-, heq⟩ := Option.ite_none_right_eq_some.mp hs'
    obtain rfl := Option.some.inj heq
    exact h
  | visit now =>
    obtain ⟨hpoint, heq⟩ := Option.ite_none_right_eq_some.mp hs'
    have hstale : s.monitor.bytes = 0 ∨ s.monitor.lastOutputTime ≤ t :=
      h.imp_right fun h' ↦ h'.resolve_right fun hclear ↦ by rw [hpoint] at hclear; cases hclear
    split at heq <;>
    · obtain rfl := Option.some.inj heq
      exact hstale.imp_right .inl
  | advance =>
    obtain ⟨monitor, tick, point, printed, added⟩ := s
    cases point with
    | outside => cases hs'
    | recordTime =>
      obtain rfl := Option.some.inj hs'
      exact .inr (.inr rfl)
    | clearBytes =>
      obtain rfl := Option.some.inj hs'
      exact .inl rfl
    | _ =>
      obtain rfl := Option.some.inj hs'
      exact h.imp_right fun h' ↦ .inl (h'.resolve_right (by dsimp only; decide))

/-- A visit that comes an interval later clears them. -/
theorem StaleSince.visit {now : ℤ} (h : s.StaleSince t) (hnow : t + monitorOutputInterval ≤ now)
    (hs' : s.step (.visit now) = some s') : s'.Clearing := by
  obtain ⟨hpoint, heq⟩ := Option.ite_none_right_eq_some.mp hs'
  have hlate := lt_nextTick_add s.tick now
  split at heq
  · -- the monitor has been reported since, and there is nothing to clear
    obtain rfl := Option.some.inj heq
    refine .inl ?_
    rcases h with hzero | hlast | hclear
    · exact hzero
    · omega
    · rw [hpoint] at hclear
      cases hclear
  · obtain rfl := Option.some.inj heq
    exact .inr (.inl rfl)

theorem Clearing.step (h : s.Clearing) (he : Output.Quiet (.monitor e))
    (hs' : s.step e = some s') : s'.Clearing := by
  cases e with
  | increment packets bytes =>
    obtain rfl : bytes = 0 := he
    obtain rfl := Option.some.inj hs'
    exact h.imp_left fun hzero ↦ (add_zero _).trans hzero
  | incrementGtp gtpPackets gtpBytes gtpOptions =>
    obtain rfl := Option.some.inj hs'
    exact h
  | visitOther now =>
    obtain ⟨-, heq⟩ := Option.ite_none_right_eq_some.mp hs'
    obtain rfl := Option.some.inj heq
    exact h
  | visit now =>
    obtain ⟨hpoint, heq⟩ := Option.ite_none_right_eq_some.mp hs'
    split at heq
    · obtain rfl := Option.some.inj heq
      exact h
    · obtain rfl := Option.some.inj heq
      exact .inr (.inl rfl)
  | advance =>
    obtain ⟨monitor, tick, point, printed, added⟩ := s
    cases point with
    | outside => cases hs'
    | output =>
      obtain rfl := Option.some.inj hs'
      exact .inr (.inr rfl)
    | outputGtp =>
      obtain rfl := Option.some.inj hs'
      exact .inr (.inr rfl)
    | recordTime =>
      obtain rfl := Option.some.inj hs'
      exact .inr (.inr rfl)
    | clearBytes =>
      obtain rfl := Option.some.inj hs'
      exact .inl rfl
    | _ =>
      obtain rfl := Option.some.inj hs'
      exact .inl (h.resolve_right (by dsimp only; decide))

end Reporting

/-! ## Runs -/

namespace Output

variable {s s' : Output} {e : OutputEvent} {t : ℤ}

theorem step_reporting (h : s.step e = some s') :
    s'.reporting = s.reporting ∨
      ∃ e', e = .monitor e' ∧ s.reporting.step e' = some s'.reporting := by
  cases e with
  | dump =>
    obtain rfl := Option.some.inj h
    exact .inl rfl
  | look =>
    obtain ⟨-, heq⟩ := Option.ite_none_right_eq_some.mp h
    obtain rfl := Option.some.inj heq
    exact .inl rfl
  | flush =>
    obtain ⟨-, heq⟩ := Option.ite_none_right_eq_some.mp h
    obtain rfl := Option.some.inj heq
    exact .inl rfl
  | monitor e' => exact .inr ⟨e', rfl, (step_monitor h).1⟩

/-- What holds from the late visit on: the bytes are cleared before the supervisor looks again, so
when it enters `handle_monitor` the stream has been flushed. -/
structure Settling (s : Output) : Prop where
  /-- The bytes are gone or going. -/
  clearing : s.reporting.Clearing
  /-- The stream has been flushed when the monitor's turn comes. -/
  unflushed : s.stage = .report → s.unflushed = 0

theorem Settling.step (h : s.Settling) (he : Quiet e) (hs' : s.step e = some s') :
    s'.Settling := by
  cases e with
  | dump => exact he.elim
  | look =>
    obtain ⟨⟨-, hpoint⟩, heq⟩ := Option.ite_none_right_eq_some.mp hs'
    have hzero : s.reporting.monitor.bytes = 0 := by
      refine h.clearing.resolve_right ?_
      rw [hpoint]
      decide
    obtain rfl := Option.some.inj heq
    refine ⟨h.clearing, fun hstage ↦ ?_⟩
    simp [hzero] at hstage
  | flush =>
    obtain ⟨-, heq⟩ := Option.ite_none_right_eq_some.mp hs'
    obtain rfl := Option.some.inj heq
    exact ⟨h.clearing, fun _ ↦ rfl⟩
  | monitor e =>
    obtain ⟨hr, hunflushed, hstage⟩ := step_monitor hs'
    exact ⟨h.clearing.step he hr, fun hreport ↦ hunflushed.trans (h.unflushed (hstage hreport))⟩

theorem unflushed_eq_zero_step (h : s.unflushed = 0) (he : Quiet e) (hs' : s.step e = some s') :
    s'.unflushed = 0 := by
  cases e with
  | dump => exact he.elim
  | look =>
    obtain ⟨-, heq⟩ := Option.ite_none_right_eq_some.mp hs'
    obtain rfl := Option.some.inj heq
    exact h
  | flush =>
    obtain ⟨-, heq⟩ := Option.ite_none_right_eq_some.mp hs'
    obtain rfl := Option.some.inj heq
    rfl
  | monitor e => exact (step_monitor hs').2.1.trans h

theorem run_induction {I : Output → Prop} {P : OutputEvent → Prop}
    (hstep : ∀ {s s' : Output} {e : OutputEvent}, I s → P e → s.step e = some s' → I s')
    {es : List OutputEvent} (hes : ∀ e ∈ es, P e) (hs : I s)
    (hrun : es.foldlM step s = some s') : I s' :=
  foldlM_induction (P := fun _ ↦ P) (fun _ _ _ h he hs' ↦ hstep h he hs')
    (fun _ e _ _ heq _ ↦ hes e (by simp [heq])) hs hrun

/-- **An idle stream is flushed.** Let the clock readings of a run be at most `t`, in any
interleaving of packets with visits, and let no packet be dumped or counted behind it. Once the
supervisor has entered `handle_monitor` for the session at time `t + 10` or later, and then a second
time, everything that was dumped has been flushed. -/
theorem idle_output_flushed (id : ℕ) (moduleTick opened tick t : ℤ)
    (hopened : (Reporting.opened id moduleTick opened tick).UpTo t)
    (before quiet₁ quiet₂ quiet₃ : List OutputEvent) (now now' : ℤ)
    (hbefore : ∀ e ∈ before, ReadsUpTo t e)
    (hquiet : ∀ e ∈ quiet₁ ++ quiet₂ ++ quiet₃, Quiet e) (hnow : t + monitorOutputInterval ≤ now)
    (s : Output)
    (hrun : (before ++ quiet₁ ++ .monitor (.visit now) :: (quiet₂ ++ .monitor (.visit now')
      :: quiet₃)).foldlM step (Output.opened id moduleTick opened tick) = some s) :
    s.unflushed = 0 := by
  rw [foldlM_append_eq_bind, foldlM_append_eq_bind] at hrun
  obtain ⟨s₂, hrun₂, hrun⟩ := Option.bind_eq_some_iff.mp hrun
  obtain ⟨s₁, hrun₁, hrun₂⟩ := Option.bind_eq_some_iff.mp hrun₂
  rw [List.foldlM_cons] at hrun
  obtain ⟨s₃, hvisit, hrun⟩ := Option.bind_eq_some_iff.mp hrun
  rw [foldlM_append_eq_bind] at hrun
  obtain ⟨s₄, hrun₄, hrun⟩ := Option.bind_eq_some_iff.mp hrun
  rw [List.foldlM_cons] at hrun
  obtain ⟨s₅, hvisit', hrun₅⟩ := Option.bind_eq_some_iff.mp hrun
  -- while there is traffic, no report is dated later than `t`
  have hupTo : s₁.reporting.UpTo t := by
    refine run_induction (I := fun s ↦ s.reporting.UpTo t) (fun h he hs' ↦ ?_) hbefore hopened hrun₁
    rcases step_reporting hs' with hsame | ⟨e', rfl, hr⟩
    · exact hsame ▸ h
    · exact h.step he hr
  -- once it has stopped, the last bytes wait for their report
  have hstale : s₂.reporting.StaleSince t := by
    refine run_induction (I := fun s ↦ s.reporting.StaleSince t) (P := Quiet) (fun h he hs' ↦ ?_)
      (fun e he ↦ hquiet e (by simp [he])) (.inr (.inl hupTo.lastOutputTime)) hrun₂
    rcases step_reporting hs' with hsame | ⟨e', rfl, hr⟩
    · exact hsame ▸ h
    · exact h.step he hr
  have hsettling : s₃.Settling := by
    obtain ⟨-, hr, -, hstage⟩ := step_visit hvisit
    refine ⟨hstale.visit hnow hr, fun hreport ↦ ?_⟩
    rw [hstage] at hreport
    cases hreport
  have hsettling' : s₄.Settling :=
    run_induction (P := Quiet) Settling.step (fun e he ↦ hquiet e (by simp [he])) hsettling hrun₄
  -- the supervisor has passed the flush on its way to the second report
  have hflushed : s₅.unflushed = 0 := by
    obtain ⟨hstage, -, hunflushed, -⟩ := step_visit hvisit'
    exact hunflushed.trans (hsettling'.unflushed hstage)
  exact run_induction (I := fun s ↦ s.unflushed = 0) (P := Quiet) unflushed_eq_zero_step
    (fun e he ↦ hquiet e (by simp [he])) hflushed hrun₅

/-- A packet is dumped and counted, and the supervisor finds its bytes. -/
def lastPacket : List OutputEvent := [.dump, .monitor (.increment 1 60), .look]

/-- The monitor is reported and cleared, and on the next visit the stream is flushed. -/
def reportAndFlush : List OutputEvent := List.replicate 10 (.monitor .advance) ++ [.look, .flush]

/-- The end of the traffic and two visits ten seconds later. -/
def idleRun : List OutputEvent :=
  lastPacket ++ [] ++ .monitor (.visit 11) :: (reportAndFlush ++ .monitor (.visit 12) :: [])

theorem idle_output_flushed_idleRun :
    ∃ s, idleRun.foldlM step (Output.opened 0 0 1 0) = some s ∧ s.unflushed = 0 := by
  obtain ⟨s, hs⟩ : ∃ s, idleRun.foldlM step (Output.opened 0 0 1 0) = some s :=
    Option.isSome_iff_exists.mp (by decide)
  refine ⟨s, hs, idle_output_flushed 0 0 1 0 1 ⟨by decide, by decide⟩ lastPacket [] reportAndFlush
    [] 11 12 ?_ ?_ (by decide) s hs⟩
  · simp [lastPacket, ReadsUpTo]
  · simp [reportAndFlush, Quiet]

end Output

end DistributorMerger
