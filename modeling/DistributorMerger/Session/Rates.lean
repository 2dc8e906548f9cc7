import DistributorMerger.Session.Run
import DistributorMerger.Concurrency.Runs

/-!
# The interval behind a reported rate

The rates in a report are the counters divided by the time since the last output of the monitor.
That time is taken from the monitor, where `monitor_open` stores the tick of the session's source
file and `handle_monitor` stores the tick of the supervisor's. Neither tick is the time of the step
that stores it: a source file sets its tick at its first `monitor_open` and never again, and the
supervisor's tick moves only once in `MONITOR_OUTPUT_INTERVAL`.

A history opens, visits and closes monitors of any slots in any order, with clock readings that do
not decrease. Each of these steps is taken without interruption.
-/

namespace DistributorMerger

/-- The world with its clock, and the time at which the counters of each slot's monitor were last
zero. -/
structure Timed where
  /-- The shared state. -/
  world : World
  /-- The last clock reading. -/
  clock : ℤ
  /-- When the slot's monitor was opened or, if that was later, last reported. -/
  zeroSince : Slot → ℤ

/-- A step in the life of the monitors. -/
inductive TimedEvent
  /-- `monitor_open` in the source file of `m`, for the session in slot `i`. -/
  | openMonitor (m : Module) (i : Slot) (now : ℤ)
  /-- `handle_monitor` for the monitor in slot `i`. -/
  | visit (i : Slot) (now : ℤ)
  /-- `monitor_close` for the monitor in slot `i`. -/
  | closeMonitor (i : Slot)
  deriving DecidableEq, Repr

/-- The supervisor's tick after the first test of `handle_monitor`. -/
def World.supervisorTick (w : World) (now : ℤ) : ℤ := nextTick (w.monitorLastOutputTime none) now

/-- A visit at time `now` reports the monitor `m`. -/
def World.Due (w : World) (m : Monitor) (now : ℤ) : Prop := m.lastOutputTime < w.supervisorTick now

instance (w : World) (m : Monitor) (now : ℤ) : Decidable (w.Due m now) :=
  inferInstanceAs (Decidable (_ < _))

/-- `time_since_output`, the interval by which a report at time `now` divides. -/
def Monitor.timeSinceOutput (m : Monitor) (now : ℤ) : ℤ := now - m.lastOutputTime

/-- The world after `handle_monitor` for a monitor that is there. -/
def World.afterVisit (w : World) (i : Slot) (m : Monitor) (now : ℤ) : World :=
  let w' := { w with
    monitorLastOutputTime := Function.update w.monitorLastOutputTime none (w.supervisorTick now) }
  if w.Due m now then
    { w'.modifySession i ({ · with monitor := some (m.clear (w.supervisorTick now)) }) with
      reports := w.reports ++ [m] }
  else w'

theorem exec_clearMonitor (answer : Query → ℤ) (i : Slot) (lastOutputTime : ℤ) (w : World) :
    (clearMonitor i lastOutputTime).exec answer w
      = some ((), w.modifySession i fun s ↦
        { s with monitor := s.monitor.map (·.clear lastOutputTime) }) := by
  unfold clearMonitor modifyMonitor
  simp only [Prog.exec_bind, exec_modifySession, Option.bind_some,
    World.modifySession_modifySession]
  congr 3
  funext s
  cases s.monitor with
  | none => rfl
  | some m => rfl

theorem exec_handleMonitor (answer : Query → ℤ) (i : Slot) (w : World) :
    (handleMonitor i).exec answer w
      = (w.session i).monitor.map fun m ↦ ((), w.afterVisit i m (answer .time)) := by
  unfold handleMonitor
  simp only [Prog.exec_bind, Prog.exec_query, Option.bind_some, Prog.exec_modify, Prog.exec_read,
    exec_readSession, Function.update_self]
  cases hmonitor : (w.session i).monitor with
  | none => rfl
  | some m =>
    dsimp only
    by_cases hdue : w.Due m (answer .time)
    · have hlt : m.lastOutputTime < nextTick (w.monitorLastOutputTime none) (answer .time) := hdue
      rw [if_pos hlt, Prog.exec_bind, Prog.exec_modify, Option.bind_some, exec_clearMonitor,
        Option.map_some, World.afterVisit, if_pos hdue]
      simp only [World.modifySession, hmonitor, Option.map_some, Option.toList_some]
      rfl
    · have hlt : ¬ m.lastOutputTime < nextTick (w.monitorLastOutputTime none) (answer .time) := hdue
      rw [if_neg hlt, Option.map_some, World.afterVisit, if_neg hdue]
      rfl

@[simp] theorem World.monitorLastOutputTime_openMonitor (w : World) (m : Module) (i : Slot)
    (now : ℤ) :
    (w.openMonitor m i now).monitorLastOutputTime = Function.update w.monitorLastOutputTime (some m)
      (monitorOpen i.val (w.monitorLastOutputTime (some m)) now).1 := rfl

theorem World.monitor_afterVisit_of_ne (w : World) {i j : Slot} (hj : j ≠ i) (m : Monitor)
    (now : ℤ) : ((w.afterVisit i m now).session j).monitor = (w.session j).monitor := by
  unfold World.afterVisit
  split
  · dsimp only
    rw [World.modifySession]
    dsimp only
    rw [Function.update_of_ne hj]
  · rfl

theorem World.monitor_afterVisit_of_due (w : World) (i : Slot) {m : Monitor} {now : ℤ}
    (h : w.Due m now) :
    ((w.afterVisit i m now).session i).monitor = some (m.clear (w.supervisorTick now)) := by
  rw [World.afterVisit, if_pos h, World.modifySession]
  dsimp only
  rw [Function.update_self]

theorem World.monitor_afterVisit_of_not_due (w : World) (i : Slot) {m : Monitor} {now : ℤ}
    (h : ¬ w.Due m now) : ((w.afterVisit i m now).session i).monitor = (w.session i).monitor := by
  rw [World.afterVisit, if_neg h]

namespace Timed

/-- One step. The clock does not run backwards, and `handle_monitor` is called for a monitor that
is there. -/
def step (s : Timed) : TimedEvent → Option Timed
  | .openMonitor m i now =>
    if s.clock ≤ now then
      some ⟨s.world.openMonitor m i now, now, Function.update s.zeroSince i now⟩
    else none
  | .visit i now =>
    if s.clock ≤ now then
      match (s.world.session i).monitor with
      | none => none
      | some monitor =>
        ((handleMonitor i).exec (fun _ ↦ now) s.world).map fun x ↦
          ⟨x.2, now, if s.world.Due monitor now then Function.update s.zeroSince i now
            else s.zeroSince⟩
    else none
  | .closeMonitor i =>
    some { s with world := s.world.modifySession i ({ · with monitor := none }) }

/-- The history begins before any monitor is opened. -/
def init : Timed := ⟨World.init, 0, fun _ ↦ 0⟩

/-- The step stores its own time: `monitor_open` finds the tick of its source file unset or set in
the same second, and a report is made when the supervisor's tick is now. -/
def Timely (s : Timed) : TimedEvent → Prop
  | .openMonitor m _ now =>
    s.world.monitorLastOutputTime (some m) = 0 ∨ s.world.monitorLastOutputTime (some m) = now
  | .visit i now => ∀ m ∈ (s.world.session i).monitor, s.world.Due m now →
    s.world.supervisorTick now = now
  | .closeMonitor _ => True

/-- A visit that reports divides by the time since the counters were last zero. -/
def RatesRight (s : Timed) : TimedEvent → Prop
  | .visit i now => ∀ m ∈ (s.world.session i).monitor, s.world.Due m now →
    m.timeSinceOutput now = now - s.zeroSince i
  | _ => True

/-- Every monitor holds the time at which its counters were last zero. -/
def Dated (s : Timed) : Prop :=
  ∀ i, ∀ m ∈ (s.world.session i).monitor, m.lastOutputTime = s.zeroSince i

theorem dated_init : init.Dated := by
  intro i m hm
  exact absurd hm (by simp [init, World.init, Session.zero])

theorem Dated.ratesRight {s : Timed} (h : s.Dated) (e : TimedEvent) : s.RatesRight e := by
  cases e with
  | visit i now =>
    intro m hm _
    rw [Monitor.timeSinceOutput, h i m hm]
  | _ => trivial

theorem Dated.openMonitor {s : Timed} {m : Module} {i : Slot} {now : ℤ} (h : s.Dated)
    (htimely : s.Timely (.openMonitor m i now)) :
    Dated ⟨s.world.openMonitor m i now, now, Function.update s.zeroSince i now⟩ := by
  intro j monitor hmonitor
  by_cases hj : j = i
  · subst hj
    dsimp only at hmonitor ⊢
    rw [World.openMonitor] at hmonitor
    dsimp only at hmonitor
    rw [Function.update_self, Option.mem_some_iff] at hmonitor
    rw [Function.update_self, ← hmonitor, monitorOpen]
    dsimp only
    split
    · rfl
    · rename_i hzero
      exact htimely.resolve_left hzero
  · dsimp only at hmonitor ⊢
    rw [World.openMonitor] at hmonitor
    dsimp only at hmonitor
    rw [Function.update_of_ne hj] at hmonitor
    rw [Function.update_of_ne hj]
    exact h j monitor hmonitor

theorem Dated.visit {s : Timed} {i : Slot} {m : Monitor} {now : ℤ} (h : s.Dated)
    (hm : (s.world.session i).monitor = some m) (htimely : s.Timely (.visit i now)) :
    Dated ⟨s.world.afterVisit i m now, now,
      if s.world.Due m now then Function.update s.zeroSince i now else s.zeroSince⟩ := by
  intro j monitor hmonitor
  dsimp only at hmonitor ⊢
  by_cases hj : j = i
  · subst hj
    -- the monitor that is visited, reported or not
    by_cases hdue : s.world.Due m now
    · rw [World.monitor_afterVisit_of_due _ _ hdue, Option.mem_some_iff] at hmonitor
      rw [if_pos hdue, Function.update_self, ← hmonitor]
      exact htimely m hm hdue
    · rw [World.monitor_afterVisit_of_not_due _ _ hdue] at hmonitor
      rw [if_neg hdue]
      exact h j monitor hmonitor
  · rw [World.monitor_afterVisit_of_ne _ hj] at hmonitor
    have hzero : (if s.world.Due m now then Function.update s.zeroSince i now else s.zeroSince) j
        = s.zeroSince j := by
      split
      · rw [Function.update_of_ne hj]
      · rfl
    rw [hzero]
    exact h j monitor hmonitor

theorem visit_cases {s s' : Timed} {i : Slot} {now : ℤ} (h : s.step (.visit i now) = some s') :
    s.clock ≤ now ∧ ∃ m, (s.world.session i).monitor = some m ∧
      s' = ⟨s.world.afterVisit i m now, now,
        if s.world.Due m now then Function.update s.zeroSince i now else s.zeroSince⟩ := by
  obtain ⟨hclock, heq⟩ := Option.ite_none_right_eq_some.mp h
  cases hm : (s.world.session i).monitor with
  | none =>
    rw [hm] at heq
    cases heq
  | some m =>
    rw [hm] at heq
    dsimp only at heq
    rw [exec_handleMonitor, hm] at heq
    exact ⟨hclock, m, rfl, (Option.some.inj heq).symm⟩

/-- One timely step keeps the dates right. -/
theorem Dated.step {s s' : Timed} {e : TimedEvent} (h : s.Dated) (htimely : s.Timely e)
    (hs' : s.step e = some s') : s'.Dated := by
  cases e with
  | openMonitor m i now =>
    obtain ⟨-, heq⟩ := Option.ite_none_right_eq_some.mp hs'
    obtain rfl := Option.some.inj heq
    exact h.openMonitor htimely
  | visit i now =>
    obtain ⟨-, m, hm, rfl⟩ := visit_cases hs'
    exact h.visit hm htimely
  | closeMonitor i =>
    obtain rfl := Option.some.inj hs'
    intro j monitor hmonitor
    dsimp only at hmonitor ⊢
    by_cases hj : j = i
    · subst hj
      rw [World.session_modifySession_self] at hmonitor
      exact absurd hmonitor (by simp)
    · rw [World.session_modifySession_of_ne _ hj] at hmonitor
      exact h j monitor hmonitor

/-- **Rates use the right interval as long as every step stores its own time.** In every history of
opens, visits and closes in which each `monitor_open` finds the tick of its source file unset or
set in the same second and each report is made when the supervisor's tick is now, every report
divides by the time since the counters of its monitor were last zero. -/
theorem rates_use_elapsed_time (events : List TimedEvent)
    (htimely : ∀ es₁ e es₂ s₁, events = es₁ ++ e :: es₂ →
      es₁.foldlM Timed.step init = some s₁ → s₁.Timely e)
    (es₁ : List TimedEvent) (e : TimedEvent) (es₂ : List TimedEvent) (s : Timed)
    (hevents : events = es₁ ++ e :: es₂) (hrun : es₁.foldlM Timed.step init = some s) :
    s.RatesRight e := by
  have hprefix : ∀ es₁' e' es₂' s₁, es₁ = es₁' ++ e' :: es₂' →
      es₁'.foldlM Timed.step init = some s₁ → s₁.Timely e' := by
    intro es₁' e' es₂' s₁ heq hs₁
    refine htimely es₁' e' (es₂' ++ e :: es₂) s₁ ?_ hs₁
    rw [hevents, heq, List.append_assoc, List.cons_append]
  have hdated : s.Dated :=
    foldlM_induction (fun _ _ _ h ht hs' ↦ h.step ht hs') hprefix dated_init hrun
  exact hdated.ratesRight e

/-- The first report of a monitor that is the first of its source file. -/
theorem rates_use_elapsed_time_first :
    ∃ s, [TimedEvent.openMonitor .client 0 100].foldlM Timed.step init = some s ∧
      s.RatesRight (.visit 0 110) := by
  refine ⟨_, rfl, rates_use_elapsed_time [.openMonitor .client 0 100, .visit 0 110] ?_
    [.openMonitor .client 0 100] _ [] _ rfl rfl⟩
  intro es₁ e es₂ s₁ hevents hs₁
  cases es₁ with
  | nil =>
    obtain rfl := Option.some.inj hs₁
    obtain rfl := (List.cons.inj hevents).1
    exact Or.inl rfl
  | cons e₁ es₁ =>
    obtain ⟨rfl, hrest⟩ := List.cons.inj hevents
    cases es₁ with
    | nil =>
      obtain rfl := Option.some.inj hs₁
      obtain rfl := (List.cons.inj hrest).1
      intro m _ _
      rfl
    | cons e₂ es₁ => exact absurd (List.cons.inj hrest).2 (by simp)

/-- A client that is restarted after 100 seconds and reported five seconds later has its counters
divided by 105. -/
theorem rates_use_stale_time :
    ∃ s, [TimedEvent.openMonitor .client 0 100, .closeMonitor 0, .openMonitor .client 0 200].foldlM
        Timed.step init = some s ∧ ¬ s.RatesRight (.visit 0 205) := by
  refine ⟨_, rfl, fun h ↦ ?_⟩
  have hrate := h { id := 0, lastOutputTime := 100 } rfl (by decide)
  exact absurd hrate (by decide)

end Timed

end DistributorMerger
