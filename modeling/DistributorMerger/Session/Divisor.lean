import DistributorMerger.Config.Text
import DistributorMerger.Session.Rates

/-!
# The divisor of a reported rate

`handle_monitor` divides the counters of a monitor by `time_since_output` without a test that it is
positive. That it is follows from the order of three times. The tick of the supervisor is a clock
reading of an earlier visit or of this one, so it is not later than now. A monitor is reported only
when its own time, which came from the tick of another source file or from an earlier value of the
supervisor's, is before the supervisor's tick. All times are non-negative, so their difference is in
the range of an `int`.

The clock readings are those that an `int` holds, for which the conversion of `time_t` to
`current_time` changes nothing.
-/

namespace DistributorMerger

/-- The clock reading of a step. -/
def TimedEvent.reading : TimedEvent → Option ℤ
  | .openMonitor _ _ now => some now
  | .visit _ now => some now
  | .closeMonitor _ => none

/-- `time_since_output` as an `int`, with `current_time` converted to one too. -/
def Monitor.intTimeSinceOutput (m : Monitor) (now : ℤ) : ℤ := toInt (m.timeSinceOutput (toInt now))

theorem World.monitorLastOutputTime_afterVisit (w : World) (i : Slot) (m : Monitor) (now : ℤ) :
    (w.afterVisit i m now).monitorLastOutputTime
      = Function.update w.monitorLastOutputTime none (w.supervisorTick now) := by
  unfold World.afterVisit
  split
  · rfl
  · rfl

theorem World.supervisorTick_eq_or (w : World) (now : ℤ) :
    w.supervisorTick now = now ∨ w.supervisorTick now = w.monitorLastOutputTime none := by
  rw [World.supervisorTick, nextTick]
  split
  · exact Or.inl rfl
  · exact Or.inr rfl

namespace Timed

/-- The supervisor's tick is not later than the clock, and no time is negative. -/
structure Ordered (s : Timed) : Prop where
  /-- The clock has not passed the supervisor's tick. -/
  tick_le : s.world.monitorLastOutputTime none ≤ s.clock
  /-- The ticks of all source files. -/
  tick_nonneg : ∀ m, 0 ≤ s.world.monitorLastOutputTime m
  /-- The times of all monitors. -/
  monitor_nonneg : ∀ i, ∀ m ∈ (s.world.session i).monitor, 0 ≤ m.lastOutputTime

theorem ordered_init : init.Ordered where
  tick_le := le_refl _
  tick_nonneg _ := le_refl _
  monitor_nonneg i m hm := absurd hm (by simp [init, World.init, Session.zero])

theorem Ordered.supervisorTick_le {s : Timed} (h : s.Ordered) {now : ℤ} (hclock : s.clock ≤ now) :
    s.world.supervisorTick now ≤ now := by
  rcases s.world.supervisorTick_eq_or now with heq | heq
  · exact heq.le
  · exact heq.le.trans (h.tick_le.trans hclock)

theorem Ordered.supervisorTick_nonneg {s : Timed} (h : s.Ordered) {now : ℤ} (hnow : 0 ≤ now) :
    0 ≤ s.world.supervisorTick now := by
  rcases s.world.supervisorTick_eq_or now with heq | heq
  · exact hnow.trans heq.ge
  · exact (h.tick_nonneg none).trans heq.ge

theorem Ordered.openMonitor {s : Timed} (h : s.Ordered) {m : Module} {i : Slot} {now : ℤ}
    (hclock : s.clock ≤ now) (hnow : 0 ≤ now) (zeroSince : Slot → ℤ) :
    Ordered ⟨s.world.openMonitor m i now, now, zeroSince⟩ := by
  have hopened : 0 ≤ (monitorOpen i.val (s.world.monitorLastOutputTime (some m)) now).1 := by
    rw [monitorOpen]
    dsimp only
    split
    · exact hnow
    · exact h.tick_nonneg (some m)
  refine ⟨?_, fun m' ↦ ?_, fun j monitor hmonitor ↦ ?_⟩
  · dsimp only
    rw [World.monitorLastOutputTime_openMonitor, Function.update_of_ne (by simp)]
    exact h.tick_le.trans hclock
  · dsimp only
    rw [World.monitorLastOutputTime_openMonitor]
    by_cases hm' : m' = some m
    · rw [hm', Function.update_self]
      exact hopened
    · rw [Function.update_of_ne hm']
      exact h.tick_nonneg m'
  · dsimp only at hmonitor
    rw [World.openMonitor] at hmonitor
    dsimp only at hmonitor
    by_cases hj : j = i
    · subst hj
      rw [Function.update_self, Option.mem_some_iff] at hmonitor
      rw [← hmonitor]
      exact hopened
    · rw [Function.update_of_ne hj] at hmonitor
      exact h.monitor_nonneg j monitor hmonitor

/-- A visit moves the supervisor's tick to the time now at most, and stores it in the monitor that
it reports. -/
theorem Ordered.visit {s : Timed} (h : s.Ordered) {i : Slot} {m : Monitor} {now : ℤ}
    (hclock : s.clock ≤ now) (hnow : 0 ≤ now) (zeroSince : Slot → ℤ) :
    Ordered ⟨s.world.afterVisit i m now, now, zeroSince⟩ := by
  refine ⟨?_, fun m' ↦ ?_, fun j monitor hmonitor ↦ ?_⟩
  · dsimp only
    rw [World.monitorLastOutputTime_afterVisit, Function.update_self]
    exact h.supervisorTick_le hclock
  · dsimp only
    rw [World.monitorLastOutputTime_afterVisit]
    by_cases hm' : m' = none
    · rw [hm', Function.update_self]
      exact h.supervisorTick_nonneg hnow
    · rw [Function.update_of_ne hm']
      exact h.tick_nonneg m'
  · dsimp only at hmonitor
    by_cases hj : j = i
    · subst hj
      by_cases hdue : s.world.Due m now
      · rw [World.monitor_afterVisit_of_due _ _ hdue, Option.mem_some_iff] at hmonitor
        rw [← hmonitor]
        exact h.supervisorTick_nonneg hnow
      · rw [World.monitor_afterVisit_of_not_due _ _ hdue] at hmonitor
        exact h.monitor_nonneg j monitor hmonitor
    · rw [World.monitor_afterVisit_of_ne _ hj] at hmonitor
      exact h.monitor_nonneg j monitor hmonitor

theorem Ordered.step {s s' : Timed} {e : TimedEvent} (h : s.Ordered)
    (hreading : ∀ now ∈ e.reading, 0 ≤ now) (hs' : s.step e = some s') : s'.Ordered := by
  cases e with
  | openMonitor m i now =>
    obtain ⟨hclock, heq⟩ := Option.ite_none_right_eq_some.mp hs'
    obtain rfl := Option.some.inj heq
    exact h.openMonitor hclock (hreading now rfl) _
  | visit i now =>
    obtain ⟨hclock, m, -, rfl⟩ := visit_cases hs'
    exact h.visit hclock (hreading now rfl) _
  | closeMonitor i =>
    obtain rfl := Option.some.inj hs'
    refine ⟨h.tick_le, h.tick_nonneg, fun j monitor hmonitor ↦ ?_⟩
    dsimp only at hmonitor
    by_cases hj : j = i
    · subst hj
      rw [World.session_modifySession_self] at hmonitor
      exact absurd hmonitor (by simp)
    · rw [World.session_modifySession_of_ne _ hj] at hmonitor
      exact h.monitor_nonneg j monitor hmonitor

/-- **A reported rate is not divided by zero.** In every history of opens, visits and closes with
clock readings from 10 to `2 ^ 31 - 1` that do not decrease, a visit that reports a monitor divides
by a positive number of seconds. -/
theorem timeSinceOutput_pos {es : List TimedEvent} {i : Slot} {now : ℤ} {s s' : Timed}
    {m : Monitor}
    (hreadings : ∀ e ∈ es ++ [.visit i now], ∀ t ∈ e.reading, 10 ≤ t ∧ t ≤ 2 ^ 31 - 1)
    (hrun : es.foldlM Timed.step init = some s) (hvisit : s.step (.visit i now) = some s')
    (hm : m ∈ (s.world.session i).monitor) (hdue : s.world.Due m now) :
    0 < m.intTimeSinceOutput now := by
  have hordered : s.Ordered := by
    refine foldlM_induction (P := fun _ e ↦ ∀ t ∈ e.reading, 0 ≤ t)
      (fun _ _ _ h hreading hs' ↦ h.step hreading hs') ?_ ordered_init hrun
    intro es₁ e es₂ s₁ heq _ t ht
    have hmem : e ∈ es ++ [.visit i now] := by
      rw [heq]
      simp
    exact le_trans (by norm_num) (hreadings e hmem t ht).1
  obtain ⟨hlow, hhigh⟩ := hreadings (.visit i now) (by simp) now rfl
  have htick := hordered.supervisorTick_le (visit_cases hvisit).1
  have hmonitor := hordered.monitor_nonneg i m hm
  have hlt : m.lastOutputTime < s.world.supervisorTick now := hdue
  have hnow : toInt now = now := toInt_of_nonneg (by omega) (by omega)
  rw [Monitor.intTimeSinceOutput, hnow, Monitor.timeSinceOutput,
    toInt_of_nonneg (by omega) (by omega)]
  omega

/-- A monitor that is opened at 100 and reported at 110. -/
theorem timeSinceOutput_pos_first :
    0 < ({ id := 0, lastOutputTime := 100 } : Monitor).intTimeSinceOutput 110 := by
  have hrun : [TimedEvent.openMonitor .client 0 100].foldlM Timed.step init
      = some ⟨World.init.openMonitor .client 0 100, 100, Function.update (fun _ ↦ 0) 0 100⟩ := rfl
  exact timeSinceOutput_pos (i := 0) (by decide) hrun rfl rfl (by decide)

end Timed

end DistributorMerger
