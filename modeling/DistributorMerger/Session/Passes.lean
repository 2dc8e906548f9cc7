import DistributorMerger.Session.Discipline
import DistributorMerger.Session.Persistence

/-!
# File captures make the passes they are asked for

A file capture is opened with a number of passes over its directory. The runner takes one off when
it begins a pass, and the stopper asks for a restart as long as passes are left, so a capture that
is terminated in the middle goes on with the passes that it has not begun.

The passes begun and the passes left always add up. That a runner is never started without a pass
left, and never goes round its loop without one, is what makes the last pass the last.
-/

namespace DistributorMerger

/-! ## The steps of the runner -/

/-- The session waits for its runner. -/
def SessionState.Fresh (state : SessionState) : Prop := state = .start ∨ state = .starting

/-- The counters of slot `i` are left alone, and so is its state or the session does not wait for
its runner. -/
structure SparesPasses (i : Slot) (w w' : World) : Prop where
  /-- The passes left. -/
  iterations : (w'.session i).iterations = (w.session i).iterations
  /-- The passes begun. -/
  passes : (w'.session i).passes = (w.session i).passes
  /-- Nobody makes the session wait. -/
  fresh : (w'.session i).state.Fresh → (w'.session i).state = (w.session i).state

/-- A session begins a pass. -/
def Session.beginPass (s : Session) : Session :=
  { s with
    iterations := if s.iterations ≠ pcapSessionIterateInfinity ∧ s.iterations ≠ 0
      then s.iterations - 1 else s.iterations
    passes := s.passes + 1 }

/-- A statement of the thread of a file capture: it begins a pass only when one is left. -/
def PassStep (i : Slot) (w w' : World) : Prop :=
  SparesPasses i w w' ∨ (w.session i).iterations ≠ 0 ∧ ¬ (w.session i).state.Fresh ∧
    w' = w.modifySession i Session.beginPass

section Steps

variable {i j : Slot} {w w' w'' : World}

instance : Std.Refl (SparesPasses i) := ⟨fun _ ↦ ⟨rfl, rfl, fun _ ↦ rfl⟩⟩

instance : IsTrans World (SparesPasses i) := by
  refine ⟨fun _ _ _ h h' ↦ ⟨h'.iterations.trans h.iterations, h'.passes.trans h.passes, ?_⟩⟩
  intro hfresh
  have hsame := h'.fresh hfresh
  exact hsame.trans (h.fresh (hsame ▸ hfresh))

instance : Std.Refl (PassStep i) := ⟨fun w ↦ .inl (refl_of (SparesPasses i) w)⟩

theorem sparesPasses_of_unmoved (h : (w.session i).Unmoved (w'.session i)) :
    SparesPasses i w w' := by
  refine ⟨unmoved_iterations _ _ h, ?_, fun _ ↦ unmoved_state _ _ h⟩
  rw [h]

theorem sparesPasses_modifySession {w₁ : World} {f : Session → Session}
    (hw₁ : w₁.session = w.session) (hiterations : ∀ s, (f s).iterations = s.iterations)
    (hpasses : ∀ s, (f s).passes = s.passes)
    (hstate : ∀ s, (f s).state = s.state ∨ ¬ (f s).state.Fresh) :
    SparesPasses i w (w₁.modifySession i f) := by
  constructor <;> rw [World.session_modifySession_self, hw₁]
  · exact hiterations _
  · exact hpasses _
  · intro hfresh
    exact (hstate _).resolve_right (absurd hfresh)

theorem within_changeState {newState : SessionState} (h : ¬ newState.Fresh) :
    (pcapsessionChangeState i newState).Within (SparesPasses i) :=
  .modify fun _ ↦ sparesPasses_modifySession rfl (fun _ ↦ rfl) (fun _ ↦ rfl) fun _ ↦ .inr h

theorem not_fresh_running : ¬ SessionState.running.Fresh := by
  rintro (h | h) <;> cases h

theorem not_fresh_terminate : ¬ SessionState.terminate.Fresh := by
  rintro (h | h) <;> cases h

theorem within_streamFiles (files : ℕ) : (streamFiles i files).Within (SparesPasses i) := by
  have hassign : ∀ {w v : World} {f : Session → Session}, v.session = w.session →
      (∀ s, (f s).iterations = s.iterations) → (∀ s, (f s).passes = s.passes) →
      (∀ s, (f s).state = s.state) → SparesPasses i w (v.modifySession i f) :=
    fun hv hiterations hpasses hstate ↦
      sparesPasses_modifySession hv hiterations hpasses fun s ↦ .inl (hstate s)
  induction files with
  | zero => exact .pure _
  | succ files ih =>
    refine (Prog.Within.query _).bind fun fd ↦ Prog.Within.bind (.modify fun w ↦ ?_) fun _ ↦ ?_
    · split
      · exact hassign rfl (fun _ ↦ rfl) (fun _ ↦ rfl) fun _ ↦ rfl
      · exact hassign rfl (fun _ ↦ rfl) (fun _ ↦ rfl) fun _ ↦ rfl
    refine (Prog.Within.read _).bind fun handle ↦ ?_
    cases handle with
    | none => exact (within_changeState not_fresh_terminate).bind fun _ ↦ .pure _
    | some handle =>
      refine (Prog.Within.query _).bind fun selectable ↦ ?_
      refine Prog.Within.bind (.modify fun w ↦ ?_) fun _ ↦
        Prog.Within.bind (.modify fun w ↦ ?_) fun _ ↦ ?_
      · exact hassign rfl (fun _ ↦ rfl) (fun _ ↦ rfl) fun _ ↦ rfl
      · exact hassign rfl (fun _ ↦ rfl) (fun _ ↦ rfl) fun _ ↦ rfl
      refine (Prog.Within.query _).bind fun _ ↦ ?_
      refine Prog.Within.bind (.modify fun w ↦ ?_) fun _ ↦
        Prog.Within.bind (.modify fun w ↦ ?_) fun _ ↦ ?_
      · exact hassign rfl (fun _ ↦ rfl) (fun _ ↦ rfl) fun _ ↦ rfl
      · exact hassign rfl (fun _ ↦ rfl) (fun _ ↦ rfl) fun _ ↦ rfl
      refine Prog.Within.bind (.modify fun w ↦ ?_) fun _ ↦ ih
      exact hassign (v := w.close handle.fd) rfl (fun _ ↦ rfl) (fun _ ↦ rfl) fun _ ↦ rfl

/-- The runner has begun, and `φ` is said of the passes left. -/
def Begun (i : Slot) (φ : ℤ → Prop) (w : World) : Prop :=
  ¬ (w.session i).state.Fresh ∧ φ (w.session i).iterations

theorem Begun.stable {φ : ℤ → Prop} : Prog.Stable (SparesPasses i) (Begun i φ) := by
  rintro w w' h ⟨hbegun, hφ⟩
  refine ⟨fun hfresh ↦ hbegun (h.fresh hfresh ▸ hfresh), ?_⟩
  rw [h.iterations]
  exact hφ

theorem passes_frame {α : Type} {p : SessionProg α} {φ : ℤ → Prop}
    (h : p.Within (SparesPasses i)) :
    Prog.Triple (SparesPasses i) (PassStep i) (Begun i φ) p fun _ ↦ Begun i φ :=
  .frame h Begun.stable (fun w w' hstep hw ↦ Begun.stable w w' hstep hw) fun _ _ hstep _ ↦
    .inl hstep

/-- **Each round of the loop begins one pass**, and there is a round only when a pass is left. -/
theorem passes_filePasses (rounds : ℕ) :
    Prog.Triple (SparesPasses i) (PassStep i) (Begun i (· ≠ 0)) (filePasses i rounds)
      fun _ _ ↦ True := by
  have hterminates : ∀ {φ : ℤ → Prop}, Prog.Triple (SparesPasses i) (PassStep i) (Begun i φ)
      (pcapsessionChangeState i .terminate) fun _ _ ↦ True := fun {φ} ↦
    (passes_frame (within_changeState not_fresh_terminate)).weaken (fun _ h ↦ h) fun _ _ _ ↦ trivial
  induction rounds with
  | zero => exact .pure Begun.stable fun _ _ ↦ trivial
  | succ rounds ih =>
    refine Prog.Triple.bind (M := fun _ ↦ Begun i fun _ ↦ True) (.modify Begun.stable Begun.stable
      (fun w h ↦ .inr ⟨h.2, h.1, rfl⟩) fun w h ↦ ?_) fun _ ↦ ?_
    · rw [Begun, World.session_modifySession_self]
      exact ⟨h.1, trivial⟩
    refine (passes_frame (.query _)).bind fun opened ↦ .ite (fun _ ↦ hterminates) fun _ ↦ ?_
    refine (passes_frame (.query _)).bind fun files ↦
      (passes_frame (within_streamFiles _)).bind fun all ↦ .ite (fun _ ↦ ?_) fun _ ↦
        .pure Begun.stable fun _ _ ↦ trivial
    refine Prog.Triple.bind (M := fun iterations ↦ Begun i (· = iterations))
      (.read Begun.stable (fun _ ↦ Begun.stable) fun w h ↦ ⟨h.1, rfl⟩) fun iterations ↦ ?_
    refine .ite (fun hleft ↦ ih.pre fun w h ↦ ⟨h.1, ?_⟩) fun _ ↦ hterminates
    rw [h.2]
    exact hleft.1

/-- The runner of a file capture, when it is started with a pass left. -/
theorem passes_pcapsessionFilecaptureRun :
    Prog.Triple (SparesPasses i) (PassStep i) (fun w ↦ (w.session i).iterations ≠ 0)
      (pcapsessionFilecaptureRun i) fun _ _ ↦ True := by
  refine Prog.Triple.bind (M := fun _ ↦ Begun i (· ≠ 0)) (.modify ?_ Begun.stable
    (fun w _ ↦ .inl ?_) fun w h ↦ ?_) fun _ ↦ ?_
  · intro w w' h hleft
    rw [h.iterations]
    exact hleft
  · exact sparesPasses_modifySession rfl (fun _ ↦ rfl) (fun _ ↦ rfl) fun _ ↦ .inr not_fresh_running
  · rw [Begun, World.session_modifySession_self]
    exact ⟨not_fresh_running, h⟩
  have hmonitor : (monitorOpenSession .filecapture i).Within (SparesPasses i) :=
    (within_monitorOpenSession .filecapture i).mono fun _ _ h ↦
      sparesPasses_of_unmoved (h.session i)
  refine (passes_frame hmonitor).bind fun _ ↦ (passes_frame (.query _)).bind fun rounds ↦ ?_
  exact passes_filePasses rounds.toNat

theorem SupervisorStep.counters (h : SupervisorStep i w w') :
    (w'.session i).iterations = (w.session i).iterations ∧
      (w'.session i).passes = (w.session i).passes := by
  have hassign : ∀ {f : Session → Session}, (∀ s, (f s).iterations = s.iterations) →
      (∀ s, (f s).passes = s.passes) →
      ((w.modifySession i f).session i).iterations = (w.session i).iterations ∧
        ((w.modifySession i f).session i).passes = (w.session i).passes := by
    intro f hiterations hpasses
    rw [World.session_modifySession_self]
    exact ⟨hiterations _, hpasses _⟩
  cases h with
  | tends h =>
    have hspares := sparesPasses_of_unmoved (h.session i)
    exact ⟨hspares.iterations, hspares.passes⟩
  | creates m =>
    rw [World.session_createThread_self]
    exact ⟨rfl, rfl⟩
  | orders newState => exact hassign (fun _ ↦ rfl) fun _ ↦ rfl
  | counts n => exact hassign (fun _ ↦ rfl) fun _ ↦ rfl
  | starts => exact hassign (fun _ ↦ rfl) fun _ ↦ rfl
  | forgets => exact hassign (fun _ ↦ rfl) fun _ ↦ rfl
  | clearsDumper => exact hassign (fun _ ↦ rfl) fun _ ↦ rfl
  | clearsHandle => exact hassign (fun _ ↦ rfl) fun _ ↦ rfl
  | clearsFd => exact hassign (fun _ ↦ rfl) fun _ ↦ rfl
  | decides m => exact hassign (fun _ ↦ rfl) fun _ ↦ rfl
  | releases => exact hassign (fun _ ↦ rfl) fun _ ↦ rfl
  | _ => exact ⟨rfl, rfl⟩

/-- While a session has a thread, a visit does not make it wait for another. -/
theorem SupervisorStep.sparesPasses (h : SupervisorStep j w w') (hthread : w.HasThread i) :
    SparesPasses i w w' := by
  by_cases hij : i = j
  · subst hij
    refine ⟨h.counters.1, h.counters.2, fun hfresh ↦ ?_⟩
    cases h with
    | tends h => exact unmoved_state _ _ (h.session i)
    | creates m => rw [World.session_createThread_self]
    | orders newState _ hnew =>
      rw [World.setState, World.session_modifySession_self] at hfresh
      rcases hnew with rfl | rfl | ⟨rfl | rfl, -⟩ <;> rcases hfresh with h | h <;> cases h
    | counts n => rw [World.session_modifySession_self]
    | starts halone => exact absurd hthread halone
    | forgets halone => exact absurd hthread halone
    | clearsDumper halone => exact absurd hthread halone
    | clearsHandle halone => exact absurd hthread halone
    | clearsFd halone => exact absurd hthread halone
    | decides m halone => exact absurd hthread halone
    | releases halone => exact absurd hthread halone
    | _ => rfl
  · exact sparesPasses_of_unmoved (h.unmoved hij)

end Steps

/-! ## The count -/

/-- The passes of the file capture in slot `i` add up to `total`. -/
structure Counted (i : Slot) (total : ℤ) (w : World) : Prop where
  /-- The slot is in use. -/
  used : (w.session i).state ≠ .unused
  /-- It holds a file capture. -/
  module : (w.session i).module = some .filecapture
  /-- No passes are owed. -/
  left : 0 ≤ (w.session i).iterations
  /-- The passes begun and the passes left. -/
  total : (w.session i).passes + (w.session i).iterations = total
  /-- A session that waits for its runner has a pass left. -/
  waits : (w.session i).state.Fresh → (w.session i).iterations ≠ 0

section Counted

variable {i j : Slot} {total : ℤ} {w w' : World}

theorem Counted.of_spares (h : Counted i total w) (hspares : SparesPasses i w w')
    (hused : (w'.session i).state ≠ .unused)
    (hmodule : (w'.session i).module = (w.session i).module) : Counted i total w' where
  used := hused
  module := hmodule.trans h.module
  left := hspares.iterations ▸ h.left
  total := by
    rw [hspares.iterations, hspares.passes]
    exact h.total
  waits := by
    intro hfresh
    rw [hspares.iterations]
    exact h.waits (hspares.fresh hfresh ▸ hfresh)

theorem Counted.of_unmoved (h : Counted i total w)
    (hunmoved : (w.session i).Unmoved (w'.session i)) : Counted i total w' :=
  h.of_spares (sparesPasses_of_unmoved hunmoved) (unmoved_state _ _ hunmoved ▸ h.used)
    (unmoved_module _ _ hunmoved)

theorem Counted.beginPass (h : Counted i total w) (hleft : (w.session i).iterations ≠ 0)
    (hbegun : ¬ (w.session i).state.Fresh) :
    Counted i total (w.modifySession i Session.beginPass) := by
  have hnonneg := h.left
  have htotal := h.total
  have hfinite : (w.session i).iterations ≠ pcapSessionIterateInfinity := by
    rw [pcapSessionIterateInfinity]
    omega
  have hstep : ((w.session i).beginPass).iterations = (w.session i).iterations - 1 :=
    if_pos ⟨hfinite, hleft⟩
  have hpasses : ((w.session i).beginPass).passes = (w.session i).passes + 1 := rfl
  constructor <;> rw [World.session_modifySession_self]
  · exact h.used
  · exact h.module
  · rw [hstep]
    omega
  · rw [hstep, hpasses]
    push_cast
    omega
  · exact fun hfresh ↦ absurd hfresh hbegun

theorem Counted.passStep (h : Counted i total w) (hstep : PassStep i w w')
    (hused : (w'.session i).state ≠ .unused)
    (hmodule : (w'.session i).module = (w.session i).module) : Counted i total w' := by
  rcases hstep with hspares | ⟨hleft, hbegun, rfl⟩
  · exact h.of_spares hspares hused hmodule
  · exact h.beginPass hleft hbegun

/-- What the stopper decides: for good when no pass is left, and otherwise to start again. -/
theorem stateAfterStop_filecapture {s : Session} (haborting : s.state ≠ .aborting) :
    s.stateAfterStop .filecapture = if s.iterations = 0 then .stopped else .start := by
  rw [Session.stateAfterStop]
  by_cases hleft : s.iterations = 0
  · rw [if_pos (.inr hleft), if_pos hleft]
  · rw [if_neg (by rintro (h | h) <;> contradiction), if_neg hleft]

theorem Counted.supervises (h : Counted i total w) (hstep : SupervisorStep j w w')
    (haborting : (w.session i).state ≠ .aborting) (hused : (w'.session i).state ≠ .unused) :
    Counted i total w' := by
  by_cases hij : i = j
  · subst hij
    obtain ⟨hiterations, hpasses⟩ := hstep.counters
    refine ⟨hused, hstep.module.trans h.module, hiterations ▸ h.left, ?_, fun hfresh ↦ ?_⟩
    · rw [hiterations, hpasses]
      exact h.total
    · rw [hiterations]
      have hturn := hstep.turn (j := i)
      generalize (w'.session i).state = state at hturn hfresh
      cases hturn with
      | stays => exact h.waits hfresh
      | opens hunused => exact absurd hunused h.used
      | writes _ _ hnew => rcases hnew with rfl | rfl <;> rcases hfresh with h | h <;> cases h
      | orders _ _ hnew =>
        rcases hnew with rfl | rfl | ⟨rfl | rfl, -⟩ <;> rcases hfresh with h | h <;> cases h
      | starts hstart => exact h.waits (.inl hstart)
      | decides m _ hm =>
        obtain rfl := Option.some.inj (h.module.symm.trans hm)
        rw [stateAfterStop_filecapture haborting] at hfresh
        intro hleft
        rw [if_pos hleft] at hfresh
        rcases hfresh with h | h <;> cases h
      | releases => rcases hfresh with h | h <;> cases h
  · exact h.of_unmoved (hstep.unmoved hij)

/-- A file capture that is stopped for good without an abort has no pass left. -/
theorem Turn.none_left {handling : SessionState} (h : Turn handling (w.session i) .stopped)
    (hcounted : Counted i total w) (haborting : (w.session i).state ≠ .aborting)
    (hstops : (w.session i).state ≠ .stopped) : (w.session i).iterations = 0 := by
  generalize hstate : SessionState.stopped = state at h
  cases h with
  | stays => exact absurd hstate.symm hstops
  | opens => cases hstate
  | writes _ _ hnew => rcases hnew with rfl | rfl <;> cases hstate
  | orders _ _ hnew => rcases hnew with rfl | rfl | ⟨rfl | rfl, -⟩ <;> cases hstate
  | starts => cases hstate
  | decides m _ hm =>
    obtain rfl := Option.some.inj (hcounted.module.symm.trans hm)
    rw [stateAfterStop_filecapture haborting] at hstate
    by_contra hleft
    rw [if_neg hleft] at hstate
    cases hstate
  | releases => cases hstate

/-- The file capture in slot `i` counts its passes, and its thread begins them one by one. -/
def passDiscipline (i : Slot) (total : ℤ) : Discipline where
  inv := Counted i total
  visit := fun _ _ ↦ True
  thread := fun _ j _ p w ↦ j = i → p.Sat (SparesPasses i) (PassStep i) (fun _ _ ↦ True) w

/-- The session is not aborted, and its slot is not given back. -/
def Unaborted (i : Slot) (c : Machine) (w' : World) : Prop :=
  (c.world.session i).state ≠ .aborting ∧ (w'.session i).state ≠ .unused

theorem passDiscipline_lawful (i : Slot) (total : ℤ) :
    (passDiscipline i total).Lawful (Unaborted i) where
  opens := by
    intro c w' hc _ heffect
    have hunmoved := heffect.unmoved hc.inv.used
    exact ⟨Counted.of_unmoved hc.inv hunmoved, trivial, fun ht hj ↦
      (hc.thread ht hj).rely (sparesPasses_of_unmoved hunmoved)⟩
  visits := fun _ _ _ ↦ trivial
  supervises := by
    intro c w' k z p hc hpermitted hstep _
    refine ⟨Counted.supervises hc.inv hstep hpermitted.1 hpermitted.2, trivial,
      fun {t j m} ht hj ↦ ?_⟩
    subst hj
    exact (hc.thread ht rfl).rely (hstep.sparesPasses ⟨t, m, ht⟩)
  creates := by
    intro c j m hc _ _ hstate hm hj
    subst hj
    have hinv : Counted j total c.world := hc.inv
    obtain rfl := Option.some.inj (hm.symm.trans hinv.module)
    refine passes_pcapsessionFilecaptureRun _ (?_ : (World.session _ j).iterations ≠ 0)
    rw [World.session_createThread_self]
    exact hinv.waits (.inr hstate)
  runs := by
    intro c w' t j m z p hc hpermitted _ ht hthread hnext
    have hinv : Counted i total c.world := hc.inv
    by_cases hji : j = i
    · subst hji
      obtain ⟨hG, hrest⟩ := (hc.thread ht rfl).step (Prog.step_of_next hnext)
      have hstep : PassStep j c.world w' := by
        rcases hG with hG | rfl
        · exact hG
        · exact refl_of (PassStep j) _
      -- neither the runner nor a packet handler changes the module
      have hmodule : (w'.session j).module = (c.world.session j).module := by
        rcases hthread with h | h
        · exact h.module hinv.used
        · exact unmoved_module _ _ (h.session j)
      exact ⟨hinv.passStep hstep hpermitted.2 hmodule, trivial, fun _ ↦ hrest,
        fun _ _ hne hj ↦ absurd hj hne⟩
    · -- the thread of another session
      have hunmoved := hthread.unmoved (Ne.symm hji) hinv.used
      refine ⟨hinv.of_unmoved hunmoved, trivial, fun hj ↦ absurd hj hji, fun ht' _ _ hj ↦ ?_⟩
      exact (hc.thread ht' hj).rely (sparesPasses_of_unmoved hunmoved)
  delivers := by
    intro c t j m k p handler hc _ ht hpool hhandler hj
    have hwait := hc.thread ht hj
    rw [hpool] at hwait
    have hframe := Prog.Triple.frame (R := SparesPasses i) (H := PassStep i)
      (P := (Prog.ask .pcapLoop k).Sat (SparesPasses i) (PassStep i) fun _ _ ↦ True)
      (handles_packetHandler hhandler) (fun _ _ hR hs ↦ hs.rely hR)
      (fun w w' hw hs ↦ hs.rely (sparesPasses_of_unmoved (hw.session i)))
      fun w w' hw _ ↦ .inl (sparesPasses_of_unmoved (hw.session i))
    exact (hframe _ hwait).bind
  ends := fun _ _ _ _ ↦ fun _ _ ↦ trivial
  closes := fun hc ↦ ⟨Counted.of_unmoved hc.inv (.refl _), trivial, fun ht hj ↦
    (hc.thread ht hj).rely ⟨rfl, rfl, fun _ ↦ rfl⟩⟩

theorem counted_of_exec {answer : Query → ℤ} (htotal : 1 ≤ total)
    (h : (pcapsessionFilecaptureOpen total).exec answer w = some (some i, w')) :
    Counted i total w' := by
  obtain ⟨w₁, hfill, rfl⟩ := exec_openSession_some h
  simp only [Prog.exec_bind, exec_modifySession, Option.bind_some, Prog.exec_pure, World.place,
    World.modifySession_modifySession] at hfill
  cases hfill
  have hzero : Session.zero.passes = 0 := rfl
  constructor <;> rw [World.modifySession_modifySession, World.session_modifySession_self]
  · simp
  · exact Int.le_trans Int.one_nonneg htotal
  · dsimp only
    rw [hzero]
    omega
  · intro _
    dsimp only
    omega

/-- **A file capture makes exactly the passes it was opened with.** When its stopper stops it for
good, it has begun all of them, and every stop before that asks for a restart. -/
theorem filecapture_passes (as as' : List Action) (c c₁ c₂ : Machine) (answer : Query → ℤ)
    (total : ℤ) (i : Slot) (w : World) (z : ℤ) (htotal : 1 ≤ total)
    (hrun : Machine.init.run as = some c)
    (hopen : (pcapsessionFilecaptureOpen total).exec answer c.world = some (some i, w))
    (hrun' : Machine.run { c with world := w } as' = some c₁)
    (hlives : ∀ as₁ as₂ c', as' = as₁ ++ as₂ → Machine.run { c with world := w } as₁ = some c' →
      (c'.world.session i).state ≠ .aborting ∧ (c'.world.session i).state ≠ .unused)
    (hstep : c₁.step (.supervises z) = some c₂)
    (hstops : (c₁.world.session i).state ≠ (c₂.world.session i).state) :
    ((c₂.world.session i).state = .stopped → (c₂.world.session i).passes = total) ∧
    ((c₂.world.session i).state = .start → (c₂.world.session i).passes < total) := by
  have hsound :=
    (Machine.sound_of_run hrun).opens (openEffect_of_exec (c := .filecapture total) hopen)
  have hw : Counted i total w := counted_of_exec htotal hopen
  -- the slot was free until now, so no thread runs in it yet
  have halone : ¬ w.HasThread i := by
    obtain ⟨w₁, -, rfl⟩ := exec_openSession_some hopen
    refine hsound.orderly.lifecycle.idle (.inr ?_)
    rw [World.session_modifySession_self]
  have hkept : (passDiscipline i total).Kept { c with world := w } :=
    ⟨hsound, hw, trivial, fun {t j m} ht hj ↦ absurd ⟨t, m, hj ▸ ht⟩ halone⟩
  have hkept₁ : (passDiscipline i total).Kept c₁ := by
    refine (passDiscipline_lawful i total).run hkept
      (fun as₁ a as₂ c' c'' has hrun₁ hstep' ↦ ?_) hrun'
    refine ⟨(hlives as₁ (a :: as₂) c' has hrun₁).1, ?_⟩
    have has' : as' = as₁ ++ [a] ++ as₂ := by rw [has, List.append_assoc, List.singleton_append]
    exact (hlives _ as₂ c'' has' (Machine.run_snoc hrun₁ hstep')).2
  have hcounted : Counted i total c₁.world := hkept₁.inv
  have haborting : (c₁.world.session i).state ≠ .aborting :=
    (hlives as' [] c₁ (List.append_nil _).symm hrun').1
  obtain ⟨k, hsupervises⟩ := hkept₁.sound.supervised hstep
  -- only a visit of the session itself changes its state here
  have hik : i = k := by
    by_contra hne
    exact hstops (unmoved_state _ _ (hsupervises.unmoved hne)).symm
  subst hik
  obtain ⟨-, hpasses⟩ := hsupervises.counters
  constructor
  · intro hstopped
    have hturn := hsupervises.turn (j := i)
    rw [hstopped] at hturn hstops
    have hnone : (c₁.world.session i).iterations = 0 := hturn.none_left hcounted haborting hstops
    rw [hpasses, ← hcounted.total, hnone, Int.add_zero]
  · intro hstart
    have hused : (c₂.world.session i).state ≠ .unused := hstart ▸ nofun
    have hcounted₂ := hcounted.supervises hsupervises haborting hused
    have hleft := hcounted₂.waits (.inl hstart)
    have hnonneg := hcounted₂.left
    have htotal₂ := hcounted₂.total
    omega

/-- The thread of a file capture begins a pass over a directory that cannot be read. -/
def unreadablePass (t : ℕ) : List Action :=
  silentRuns t 3 ++ [.runs t 1, .runs t 0, .runs t (-1), .runs t 0]

/-- A file capture with two passes whose directory cannot be read is restarted after its first pass,
and stopped for good after its second. -/
theorem filecapture_passes_unreadable :
    ∃ c w c₁ c₂, Machine.init.run [] = some c ∧
      (pcapsessionFilecaptureOpen 2).exec (fun _ ↦ 0) c.world = some (some 0, w) ∧
      Machine.run { c with world := w } (silentVisit 0 11 ++ unreadablePass 1 ++ silentVisit 0 19 ++
        silentVisit 0 11 ++ unreadablePass 2 ++ silentVisit 0 16) = some c₁ ∧
      c₁.step (.supervises 0) = some c₂ ∧ (c₂.world.session 0).state = .stopped ∧
      (c₂.world.session 0).passes = (2 : ℤ) := by
  let as' : List Action := silentVisit 0 11 ++ unreadablePass 1 ++ silentVisit 0 19 ++
    silentVisit 0 11 ++ unreadablePass 2 ++ silentVisit 0 16
  have hruns : (((pcapsessionFilecaptureOpen 2).exec (fun _ ↦ 0) World.init).bind fun x ↦
      (Machine.run { Machine.init with world := x.2 } as').bind fun c₁ ↦
        (c₁.step (.supervises 0)).map fun c₂ ↦
          (x.1, (c₁.world.session 0).state, (c₂.world.session 0).state))
      = some (some 0, .terminating, .stopped) := by
    decide +kernel
  have hstates : ∀ n ≤ as'.length,
    (((pcapsessionFilecaptureOpen 2).exec (fun _ ↦ 0) World.init).bind
      fun x ↦ Machine.run { Machine.init with world := x.2 } (as'.take n)).all (fun c ↦
        (c.world.session 0).state ≠ .aborting ∧ (c.world.session 0).state ≠ .unused) = true := by
    decide +kernel
  obtain ⟨⟨r, w⟩, hopen, hruns⟩ := Option.bind_eq_some_iff.mp hruns
  obtain ⟨c₁, hrun', hruns⟩ := Option.bind_eq_some_iff.mp hruns
  obtain ⟨c₂, hstep, hresult⟩ := Option.map_eq_some_iff.mp hruns
  simp only [Prod.mk.injEq] at hresult
  obtain ⟨rfl, hterminating, hstopped⟩ := hresult
  have hlives : ∀ as₁ as₂ c', as' = as₁ ++ as₂ →
      Machine.run { Machine.init with world := w } as₁ = some c' →
      (c'.world.session 0).state ≠ .aborting ∧ (c'.world.session 0).state ≠ .unused := by
    intro as₁ as₂ c' has hrun₁
    refine Machine.all_of_take (p := fun c ↦ (c.world.session 0).state ≠ .aborting ∧
      (c.world.session 0).state ≠ .unused) (fun n hn ↦ ?_) has hrun₁
    have hstate := hstates n hn
    rwa [hopen, Option.bind_some] at hstate
  have hstops : (c₁.world.session 0).state ≠ (c₂.world.session 0).state := by
    rw [hterminating, hstopped]
    nofun
  refine ⟨Machine.init, w, c₁, c₂, rfl, hopen, hrun', hstep, hstopped, ?_⟩
  exact (filecapture_passes [] as' Machine.init c₁ c₂ (fun _ ↦ 0) 2 0 w 0 one_le_two rfl
    hopen hrun' hlives hstep hstops).1 hstopped

end Counted

end DistributorMerger
