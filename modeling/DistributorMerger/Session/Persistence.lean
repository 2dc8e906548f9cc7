import DistributorMerger.Session.Deeds

/-!
# Persistent sessions

Clients, mergers, servers and live captures are restarted whenever they are terminated. Only an
abort makes their stopper stop them for good, and an abort is ordered only when session handling
shuts down. Until then they keep their slots, so that a client can keep the number of the slot of
the merger that it hands its packets to.
-/

namespace DistributorMerger

/-! ## What becomes of a state -/

/-- What one deed may make of the state of a session, while session handling is in the state
`handling`. -/
inductive Turn (handling : SessionState) (s : Session) : SessionState → Prop
  /-- It is left as it is. -/
  | stays : Turn handling s s.state
  /-- An open function takes the slot. -/
  | opens (h : s.state = .unused) : Turn handling s .start
  /-- The runner writes it. -/
  | writes (newState : SessionState) (hused : s.state ≠ .unused)
      (h : newState = .running ∨ newState = .terminate) : Turn handling s newState
  /-- The supervisor orders a stop. -/
  | orders (newState : SessionState) (hused : s.state ≠ .unused)
      (h : newState = .terminate ∨ newState = .terminating ∨
        (newState = .abort ∨ newState = .aborting) ∧ handling ≠ .running) :
      Turn handling s newState
  /-- The supervisor starts the session. -/
  | starts (h : s.state = .start) : Turn handling s .starting
  /-- The stopper decides. -/
  | decides (m : Module) (hused : s.state ≠ .unused) (hm : s.module = some m) :
      Turn handling s (s.stateAfterStop m)
  /-- The supervisor gives the slot back. -/
  | releases (h : s.state = .stopped) : Turn handling s .unused

section Turn

variable {i j : Slot} {w w' : World} {m : Module} {t : ℕ}

theorem turn_of_unmoved {handling : SessionState} {s s' : Session} (h : s.Unmoved s') :
    Turn handling s s'.state := by
  rw [unmoved_state s s' h]
  exact .stays

theorem turn_place {k : Slot} {s : Session} {w₁ : World} (hw₁ : w₁.session = w.session)
    (hk : (w.session k).state = .unused) (hs : s.state = .unused ∨ s.state = .start) :
    Turn w.handlingState (w.session j) ((w₁.place k s).session j).state := by
  by_cases hjk : j = k
  · rw [hjk, World.place, World.session_modifySession_self]
    rcases hs with hs | hs
    · rw [hs, ← hk]
      exact .stays
    · rw [hs]
      exact .opens hk
  · rw [World.place, World.session_modifySession_of_ne _ hjk, hw₁]
    exact .stays

theorem OpenEffect.turn (h : OpenEffect w w') :
    Turn w.handlingState (w.session j) (w'.session j).state := by
  cases h with
  | full => exact .stays
  | refused k m hk => exact turn_place rfl hk (.inl rfl)
  | plain k s hk hs =>
    refine turn_place rfl hk (.inr ?_)
    rcases hs with hs | hs | hs <;> rw [hs] <;> rfl
  | server k fd hk => exact turn_place rfl hk (.inr rfl)
  | livecapture k fd selectable hk => exact turn_place rfl hk (.inr rfl)

theorem AcceptEffect.turn (h : AcceptEffect w w') :
    Turn w.handlingState (w.session j) (w'.session j).state := by
  cases h with
  | nothing => exact .stays
  | rejected fd hfd =>
    rw [World.close_session, (World.initClientconnlist_session _).1]
    exact .stays
  | accepted k fd hk =>
    refine turn_place ?_ hk (.inr rfl)
    rw [(World.initClientconnlist_session _).1]
    rfl

theorem RunnerStep.turn (h : RunnerStep i m w w') (hused : (w.session i).state ≠ .unused) :
    Turn w.handlingState (w.session j) (w'.session j).state := by
  by_cases hji : j = i
  · subst hji
    cases h with
    | pauses => exact .stays
    | lists => exact .stays
    | tends h => exact turn_of_unmoved (h.session j)
    | accepts h => exact h.turn
    | writes _ newState hnew =>
      rw [World.session_modifySession_self]
      exact .writes newState hused hnew
    | notes _ f hf =>
      rw [World.session_modifySession_self, hf]
      exact .stays
    | dumper =>
      rw [World.openDumper, World.session_modifySession_self]
      exact .stays
    | dumpFile _ fd =>
      rw [World.openDumper, World.session_modifySession_self]
      exact .stays
    | closesHandle _ handle =>
      rw [World.closeHandle, World.session_modifySession_self]
      exact .stays
    | _ =>
      rw [World.session_modifySession_self]
      exact .stays
  · rcases h.unmoved_or_accepts hji with hunmoved | haccepts
    · exact turn_of_unmoved hunmoved
    · exact haccepts.turn

theorem SupervisorStep.turn (h : SupervisorStep i w w') :
    Turn w.handlingState (w.session j) (w'.session j).state := by
  by_cases hji : j = i
  · subst hji
    cases h with
    | tends h => exact turn_of_unmoved (h.session j)
    | orders newState hused hnew =>
      rw [World.setState, World.session_modifySession_self]
      exact .orders newState hused hnew
    | starts _ hstate =>
      rw [World.setState, World.session_modifySession_self]
      exact .starts hstate
    | decides m _ hused hm =>
      rw [World.setState, World.session_modifySession_self]
      exact .decides m hused hm
    | releases _ hstate =>
      rw [World.setState, World.session_modifySession_self]
      exact .releases hstate
    | creates m =>
      rw [World.state_createThread]
      exact .stays
    | counts | forgets | clearsDumper | clearsHandle | clearsFd =>
      rw [World.session_modifySession_self]
      exact .stays
    | _ => exact .stays
  · exact turn_of_unmoved (h.unmoved hji)

/-- **What a deed makes of the state** of any session. -/
theorem Deed.turn (h : Deed w w') (hw : Orderly w) :
    Turn w.handlingState (w.session j) (w'.session j).state := by
  cases h with
  | opens h => exact h.turn
  | supervises i h => exact h.turn
  | runs t i m ht h => exact h.turn (hw.used_of_thread ht)
  | handles t i m ht h => exact turn_of_unmoved (h.session j)
  | closes => exact .stays

theorem Deed.handling (h : Deed w w') (hw' : w'.handlingState = .running) :
    w.handlingState = .running := by
  cases h with
  | opens h => exact h.rest.1.symm.trans hw'
  | supervises i h =>
    cases h with
    | tends h =>
      rw [h.rest] at hw'
      exact hw'
    | _ => exact hw'
  | runs t i m ht h => exact (h.rest (i := i)).1.symm.trans hw'
  | handles t i m ht h =>
    rw [h.rest] at hw'
    exact hw'
  | closes => cases hw'

theorem Deed.role (h : Deed w w') (hused : (w.session j).state ≠ .unused) :
    (w'.session j).module = (w.session j).module ∧
      (w'.session j).handler = (w.session j).handler := by
  have hunmoved : (w.session j).Unmoved (w'.session j) →
      (w'.session j).module = (w.session j).module ∧
        (w'.session j).handler = (w.session j).handler := by
    intro hunmoved
    rw [hunmoved]
    exact ⟨rfl, rfl⟩
  cases h with
  | opens h => exact hunmoved (h.unmoved hused)
  | supervises i h =>
    by_cases hji : j = i
    · subst hji
      refine ⟨h.module, ?_⟩
      cases h with
      | tends h => exact (hunmoved (h.session j)).2
      | creates m => rw [World.session_createThread_self]
      | pauses => rfl
      | cancels => rfl
      | joins => rfl
      | unlists => rfl
      | closesDumper => rfl
      | closesHandle => rfl
      | closesFd => rfl
      | _ => exact (congrArg Session.handler (World.session_modifySession_self ..)).trans rfl
    · exact hunmoved (h.unmoved hji)
  | runs t i m ht h =>
    by_cases hji : j = i
    · subst hji
      refine ⟨h.module hused, ?_⟩
      cases h with
      | pauses => rfl
      | lists => rfl
      | tends h => exact (hunmoved (h.session j)).2
      | accepts h => exact (hunmoved (h.unmoved hused)).2
      | notes _ f hf => rw [World.session_modifySession_self, hf]
      | _ => exact (congrArg Session.handler (World.session_modifySession_self ..)).trans rfl
    · exact hunmoved (h.unmoved hji hused)
  | handles t i m ht h => exact hunmoved (h.session j)
  | closes => exact ⟨rfl, rfl⟩

end Turn

/-! ## Persistence -/

/-- The stopper restarts a session of the module unless it is aborted. -/
def Module.Persistent (m : Module) : Prop := m ≠ .clientconn ∧ m ≠ .filecapture

/-- The session is not being aborted or stopped for good. -/
def SessionState.Lasts (state : SessionState) : Prop :=
  state ≠ .abort ∧ state ≠ .aborting ∧ state ≠ .stopped

/-- As long as session handling is running, no persistent session is being aborted or stopped for
good. -/
def Steady (w : World) : Prop :=
  w.handlingState = .running → ∀ i m, (w.session i).state ≠ .unused →
    (w.session i).module = some m → m.Persistent → (w.session i).state.Lasts

section Steady

variable {i j : Slot} {w w' : World} {m : Module}

theorem Module.Persistent.stateAfterStop (h : m.Persistent) {s : Session}
    (hs : s.state ≠ .aborting) : s.stateAfterStop m = .start := by
  cases m with
  | clientconn => exact absurd rfl h.1
  | filecapture => exact absurd rfl h.2
  | _ => exact if_neg hs

/-- The state of a persistent session goes on lasting, and the session keeps its slot. -/
theorem Turn.lasts {s : Session} {state : SessionState} (h : Turn .running s state)
    (hused : s.state ≠ .unused) (hs : s.state.Lasts) (hm : s.module = some m)
    (hpersistent : m.Persistent) : state.Lasts ∧ state ≠ .unused := by
  cases h with
  | stays => exact ⟨hs, hused⟩
  | opens => exact ⟨⟨nofun, nofun, nofun⟩, nofun⟩
  | writes _ _ hnew =>
    rcases hnew with rfl | rfl <;> exact ⟨⟨nofun, nofun, nofun⟩, nofun⟩
  | orders _ _ hnew =>
    rcases hnew with rfl | rfl | ⟨-, hhandling⟩
    · exact ⟨⟨nofun, nofun, nofun⟩, nofun⟩
    · exact ⟨⟨nofun, nofun, nofun⟩, nofun⟩
    · exact absurd rfl hhandling
  | starts => exact ⟨⟨nofun, nofun, nofun⟩, nofun⟩
  | decides m' _ hm' =>
    obtain rfl := Option.some.inj (hm.symm.trans hm')
    rw [hpersistent.stateAfterStop hs.2.1]
    exact ⟨⟨nofun, nofun, nofun⟩, nofun⟩
  | releases hstopped => exact absurd hstopped hs.2.2

theorem Turn.of_unused {handling state : SessionState} {s : Session} (h : Turn handling s state)
    (hs : s.state = .unused) : state = .unused ∨ state = .start := by
  cases h with
  | stays => exact .inl hs
  | opens => exact .inr rfl
  | writes _ hused => exact absurd hs hused
  | orders _ hused => exact absurd hs hused
  | starts hstart => exact absurd (hs.symm.trans hstart) nofun
  | decides _ hused => exact absurd hs hused
  | releases => exact .inl rfl

theorem Deed.steady (h : Deed w w') (hw : Orderly w) (hs : Steady w) : Steady w' := by
  intro hrunning' j m hused' hm hpersistent
  have hrunning := h.handling hrunning'
  have hturn := h.turn hw (j := j)
  rw [hrunning] at hturn
  by_cases hused : (w.session j).state = .unused
  · rcases hturn.of_unused hused with hstate | hstate
    · exact absurd hstate hused'
    · exact hstate ▸ ⟨nofun, nofun, nofun⟩
  · have hm' : (w.session j).module = some m := (h.role hused).1.symm.trans hm
    exact (hturn.lasts hused (hs hrunning j m hused hm' hpersistent) hm' hpersistent).1

/-- A slot that a persistent session with this handler keeps. -/
structure World.Keeps (w : World) (i : Slot) (m : Module) (handler : Option Slot) : Prop where
  /-- The slot is in use. -/
  used : (w.session i).state ≠ .unused
  /-- It is a session of its module. -/
  module : (w.session i).module = some m
  /-- It has its handler. -/
  handler : (w.session i).handler = handler

variable {handler : Option Slot}

theorem Deed.keeps (h : Deed w w') (hw : Orderly w) (hs : Steady w)
    (hrunning : w'.handlingState = .running) (hpersistent : m.Persistent)
    (hkeeps : w.Keeps i m handler) : w'.Keeps i m handler := by
  have hturn := h.turn hw (j := i)
  rw [h.handling hrunning] at hturn
  obtain ⟨hmodule, hhandler⟩ := h.role hkeeps.used
  have hlasts := hs (h.handling hrunning) i m hkeeps.used hkeeps.module hpersistent
  exact ⟨(hturn.lasts hkeeps.used hlasts hkeeps.module hpersistent).2,
    hmodule.trans hkeeps.module, hhandler.trans hkeeps.handler⟩

/-- **A persistent session keeps its slot** for as long as session handling is running. -/
theorem Machine.keeps_of_run {c c' : Machine} {as : List Action} (hsound : c.Sound)
    (hs : Steady c.world) (hpersistent : m.Persistent) (hkeeps : c.world.Keeps i m handler)
    (hrun : c.run as = some c') (hrunning : c'.world.handlingState = .running) :
    c'.world.Keeps i m handler := by
  let I (c : Machine) : Prop := c.Sound ∧ Steady c.world ∧
    (c.world.handlingState = .running → c.world.Keeps i m handler)
  have hI : I c' := by
    refine Machine.run_induction (P := fun _ _ ↦ True) (fun c a c' hc _ hstep ↦ ?_)
      (fun _ _ _ _ _ _ ↦ trivial) ⟨hsound, hs, fun _ ↦ hkeeps⟩ hrun
    obtain ⟨hsound, hs, hkeeps⟩ := hc
    obtain ⟨hdeed, hsound'⟩ := hsound.step hstep
    rcases hdeed with hdeed | hsame
    · refine ⟨hsound', hdeed.steady hsound.orderly hs, fun hrunning ↦ ?_⟩
      exact hdeed.keeps hsound.orderly hs hrunning hpersistent (hkeeps (hdeed.handling hrunning))
    · exact ⟨hsound', hsame ▸ hs, hsame ▸ hkeeps⟩
  exact hI.2.2 hrunning

end Steady

/-! ## Opened sessions -/

/-- The module of the session that a call opens. -/
def OpenCall.module : OpenCall → Module
  | .client _ => .client
  | .merger _ => .merger
  | .server => .server
  | .livecapture => .livecapture
  | .filecapture _ => .filecapture

/-- The handler of the session that a call opens. -/
def OpenCall.handler : OpenCall → Option Slot
  | .client mergerSlot => mergerSlot
  | _ => none

section Opened

variable {answer : Query → ℤ} {w w' : World} {i : Slot}

theorem exec_openSession_some {fill : Slot → SessionProg Bool}
    (h : (openSession fill).exec answer w = some (some i, w')) :
    ∃ w₁, (fill i).exec answer (w.place i { Session.zero with id := i, state := .stopped })
        = some (true, w₁) ∧ w' = w₁.modifySession i ({ · with state := .start, id := i }) := by
  rw [openSession, Prog.exec_bind, exec_pcapsessionHandlingGetNew] at h
  cases hk : w.firstUnused with
  | none =>
    rw [hk] at h
    cases h
  | some k =>
    simp only [hk, Option.bind_some, Prog.exec_bind, Option.bind_eq_some_iff] at h
    obtain ⟨⟨b, w₁⟩, hfill, hrest⟩ := h
    rw [Prog.exec_ite] at hrest
    cases b with
    | false => cases hrest
    | true =>
      simp only [if_true, pcapsessionHandlingAdd, Prog.exec_bind, exec_pcapsessionChangeState,
        exec_modifySession, Prog.exec_pure, Option.bind_some,
        World.modifySession_modifySession] at hrest
      cases hrest
      exact ⟨w₁, hfill, rfl⟩

/-- The session that an open function returns is in use, and what the call asked for. -/
theorem keeps_of_exec {call : OpenCall} (h : call.prog.exec answer w = some (some i, w')) :
    w'.Keeps i call.module call.handler := by
  have hplaced : ∀ {w₁ : World}, (w₁.session i).module = some call.module →
      (w₁.session i).handler = call.handler →
      (w₁.modifySession i ({ · with state := .start, id := i })).Keeps i call.module
        call.handler := by
    intro w₁ hm hhandler
    constructor <;> rw [World.session_modifySession_self]
    · nofun
    · exact hm
    · exact hhandler
  cases call with
  | client | merger | filecapture =>
    obtain ⟨w₁, hfill, rfl⟩ := exec_openSession_some h
    simp only [Prog.exec_bind, exec_modifySession, Option.bind_some, Prog.exec_pure, World.place,
      World.modifySession_modifySession] at hfill
    cases hfill
    apply hplaced <;> rw [World.session_modifySession_self] <;> rfl
  | server | livecapture =>
    -- without a descriptor the slot is given back, and no session is returned
    obtain ⟨w₁, hfill, rfl⟩ := exec_openSession_some h
    simp only [Prog.exec_bind, exec_modifySession, exec_pcapsessionChangeState, Option.bind_some,
      Prog.exec_query, Prog.exec_read, Prog.exec_modify, Prog.exec_pure, Prog.exec_ite, World.place,
      World.modifySession_modifySession, World.modifySession_openFd] at hfill
    split at hfill
    · cases hfill
      apply hplaced <;> rw [World.session_modifySession_self] <;> rfl
    · cases hfill

theorem ne_of_getNew {k : Slot} (hused : (w.session i).state ≠ .unused)
    (h : pcapsessionHandlingGetNew.exec answer w = some (some k, w')) : k ≠ i := by
  rintro rfl
  rw [exec_pcapsessionHandlingGetNew] at h
  cases hfirst : w.firstUnused with
  | none =>
    rw [hfirst] at h
    cases h
  | some k =>
    rw [hfirst] at h
    cases h
    exact hused (World.state_of_firstUnused hfirst)

/-- **Persistent sessions persist.** The slot of a client, merger, server or live capture that has
been opened is not given back or handed out while session handling is running, and the handler of a
client is the slot of the merger it was opened with. -/
theorem persistent_session_persists (as as' : List Action) (c c' : Machine) (call : OpenCall)
    (answer : Query → ℤ) (i : Slot) (w : World) (hrun : Machine.init.run as = some c)
    (hopen : call.prog.exec answer c.world = some (some i, w))
    (hpersistent : call.module.Persistent)
    (hrun' : Machine.run { c with world := w } as' = some c')
    (hrunning : c'.world.handlingState = .running) :
    (c'.world.session i).state ≠ .unused ∧
    (∀ answer' k w', pcapsessionHandlingGetNew.exec answer' c'.world = some (some k, w') → k ≠ i) ∧
    (∀ j, call = .client (some j) → (c.world.session j).state ≠ .unused →
      (c.world.session j).module = some .merger →
      (c'.world.session i).handler = some j ∧ (c'.world.session j).state ≠ .unused ∧
        (c'.world.session j).module = some .merger) := by
  have hsteady : c.Sound ∧ Steady c.world :=
    ⟨Machine.sound_of_run hrun, Machine.invariant_of_run (fun _ _ hw _ hdeed ↦ hdeed.steady hw)
      (fun _ _ _ hused ↦ absurd rfl hused) hrun⟩
  have hdeed : Deed c.world w := .opens (openEffect_of_exec hopen)
  have hsound : Machine.Sound { c with world := w } := hsteady.1.opens (openEffect_of_exec hopen)
  have hw : Steady w := hdeed.steady hsteady.1.orderly hsteady.2
  have hkeeps := Machine.keeps_of_run hsound hw hpersistent (keeps_of_exec hopen) hrun' hrunning
  refine ⟨hkeeps.used, fun _ _ _ ↦ ne_of_getNew hkeeps.used, fun j hcall hused hm ↦ ?_⟩
  have hunmoved := (openEffect_of_exec hopen).unmoved hused
  have hmerger : w.Keeps j .merger (w.session j).handler :=
    ⟨unmoved_state _ _ hunmoved ▸ hused, (unmoved_module _ _ hunmoved).trans hm, rfl⟩
  have hmerger' :=
    Machine.keeps_of_run (m := .merger) hsound hw ⟨nofun, nofun⟩ hmerger hrun' hrunning
  refine ⟨hkeeps.handler.trans ?_, hmerger'.used, hmerger'.module⟩
  rw [hcall]
  rfl

/-- A client that cannot connect is terminated and restarted, and keeps its slot and its merger. -/
theorem persistent_session_persists_restarted :
    ∃ c c' w, Machine.init.run [.opens (.merger false) fun _ ↦ 0] = some c ∧
      (OpenCall.client (some 0)).prog.exec (fun _ ↦ 0) c.world = some (some 1, w) ∧
      Machine.run { c with world := w } (silentVisit 1 12 ++ silentRuns 1 5 ++ silentVisit 1 20)
        = some c' ∧
      (c'.world.session 1).state = .start ∧ (c'.world.session 1).handler = some 0 ∧
      (c'.world.session 0).module = some .merger := by
  let as' : List Action := silentVisit 1 12 ++ silentRuns 1 5 ++ silentVisit 1 20
  have hruns : ((Machine.init.run [.opens (.merger false) fun _ ↦ 0]).bind fun c ↦
      ((OpenCall.client (some 0)).prog.exec (fun _ ↦ 0) c.world).bind fun x ↦
        (Machine.run { c with world := x.2 } as').map fun c' ↦
          (x.1, (c.world.session 0).state, (c.world.session 0).module, c'.world.handlingState,
            (c'.world.session 1).state))
      = some (some 1, .start, some .merger, .running, .start) := by
    decide +kernel
  obtain ⟨c, hrun, hruns⟩ := Option.bind_eq_some_iff.mp hruns
  obtain ⟨⟨r, w⟩, hopen, hruns⟩ := Option.bind_eq_some_iff.mp hruns
  obtain ⟨c', hrun', hresult⟩ := Option.map_eq_some_iff.mp hruns
  simp only [Prod.mk.injEq] at hresult
  obtain ⟨rfl, hstate, hmodule, hrunning, hstart⟩ := hresult
  have hused : (c.world.session 0).state ≠ .unused := hstate ▸ nofun
  obtain ⟨-, -, hmerger⟩ :=
    persistent_session_persists _ as' c c' (.client (some 0)) (fun _ ↦ 0) 1 w
    hrun hopen ⟨nofun, nofun⟩ hrun' hrunning
  obtain ⟨hhandler, -, hmerger⟩ := hmerger 0 rfl hused hmodule
  exact ⟨c, c', w, hrun, hopen, hrun', hstart, hhandler, hmerger⟩

end Opened

end DistributorMerger
