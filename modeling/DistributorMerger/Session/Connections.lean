import DistributorMerger.Session.Reachable
import DistributorMerger.Session.Listing

/-!
# Connections and their slots

What is true of client connections along every run: a connection is put on the list by the last
statement of its runner, when it is running and its dumper has been opened, and nothing is written
to its stream before. Every event but a packet either does not concern a slot, or stops the session
in it, or concerns a slot that serves no client yet.
-/

namespace DistributorMerger

/-! ## The runner of a connection -/

section Runner

variable {i : Slot} {w w' : World}

/-- What a connection's thread relies on: nobody else opens or drops its dumper, and nobody but its
stopper takes it out of `RUNNING`. -/
def ConnRely (i : Slot) (w w' : World) : Prop :=
  (w'.session i).pcapDumper = (w.session i).pcapDumper ∧
    ((w.session i).state = .running → (w'.session i).state = .running)

/-- A connection that has a dumper is running. -/
def ConnReady (i : Slot) (w : World) : Prop :=
  (w.session i).pcapDumper.isSome = true → (w.session i).state = .running

/-- What it guarantees. -/
def ConnStep (i : Slot) (w w' : World) : Prop := ConnReady i w → ConnReady i w'

instance (i : Slot) : Std.Refl (ConnRely i) := ⟨fun _ ↦ ⟨rfl, id⟩⟩

instance (i : Slot) : IsTrans World (ConnRely i) :=
  ⟨fun _ _ _ h h' ↦ ⟨h'.1.trans h.1, h'.2 ∘ h.2⟩⟩

instance (i : Slot) : Std.Refl (ConnStep i) := ⟨fun _ ↦ id⟩

theorem ConnReady.stable : Prog.Stable (ConnRely i) (ConnReady i) := by
  rintro w w' ⟨hdumper, hstate⟩ h hsome
  exact hstate (h (hdumper ▸ hsome))

/-- A connection that is running and has no dumper yet. -/
def ConnBegun (i : Slot) (w : World) : Prop :=
  (w.session i).state = .running ∧ (w.session i).pcapDumper = none

theorem ConnBegun.stable : Prog.Stable (ConnRely i) (ConnBegun i) := by
  rintro w w' ⟨hdumper, hstate⟩ ⟨hrunning, hnone⟩
  exact ⟨hstate hrunning, hdumper.trans hnone⟩

theorem pcapDumper_stable (dumper : Option PcapDumper) :
    Prog.Stable (ConnRely i) fun w ↦ (w.session i).pcapDumper = dumper := by
  rintro w w' ⟨hdumper, -⟩ h
  exact hdumper.trans h

theorem connReady_of_none (h : (w.session i).pcapDumper = none) : ConnReady i w := by
  intro hsome
  rw [h] at hsome
  cases hsome

/-- **The runner of a connection opens the dumper while it is running**, and gives up only without
one. -/
theorem connStep_pcapsessionClientconnRun :
    Prog.Triple (ConnRely i) (ConnStep i) (fun w ↦ (w.session i).pcapDumper = none)
      (pcapsessionClientconnRun i) fun _ _ ↦ True := by
  have hwrites : ∀ {w : World} (newState : SessionState), (w.session i).pcapDumper = none →
      ((w.modifySession i ({ · with state := newState })).session i).pcapDumper = none := by
    intro w newState h
    rw [World.session_modifySession_self]
    exact h
  refine Prog.Triple.bind (M := fun _ ↦ ConnBegun i) (.modify (pcapDumper_stable none)
    ConnBegun.stable (fun w h _ ↦ connReady_of_none (hwrites _ h)) fun w h ↦ ⟨?_, hwrites _ h⟩)
    fun _ ↦ ?_
  · rw [World.session_modifySession_self]
  refine Prog.Triple.bind (M := fun _ ↦ ConnBegun i) (.frame (within_monitorOpenSession _ i)
    ConnBegun.stable (fun w w' h hw ↦ ?_) fun w w' h hw _ ↦ connReady_of_none ?_) fun _ ↦ ?_
  · rw [ConnBegun, h.session i]
    exact hw
  · rw [h.session i]
    exact hw.2
  refine Prog.Triple.bind (M := fun _ ↦ ConnBegun i) (.query ConnBegun.stable fun _ _ h ↦ h)
    fun opened ↦ ?_
  have hopens : ∀ w, ConnBegun i w → ConnReady i (if opened = 0 then
      w.openDumper i (w.session i).fd else w.modifySession i ({ · with pcapDumper := none })) := by
    intro w h _
    split
    · exact (congrArg Session.state (World.session_modifySession_self ..)).trans h.1
    · exact (congrArg Session.state (World.session_modifySession_self ..)).trans h.1
  refine Prog.Triple.bind (M := fun _ ↦ ConnReady i) (.modify ConnBegun.stable ConnReady.stable
    (fun w h _ ↦ hopens w h) hopens) fun _ ↦ ?_
  refine Prog.Triple.bind (M := fun dumper w ↦ (w.session i).pcapDumper = dumper)
    (.read ConnReady.stable pcapDumper_stable fun w h ↦ rfl) fun dumper ↦ .ite (fun hnone ↦ ?_)
    fun _ ↦ .modify (pcapDumper_stable dumper) (fun _ _ _ h ↦ h) (fun w _ h ↦ h) fun _ _ ↦ trivial
  obtain rfl := Option.isNone_iff_eq_none.mp hnone
  exact .modify (pcapDumper_stable none) (fun _ _ _ h ↦ h)
    (fun w h _ ↦ connReady_of_none (hwrites _ h)) fun _ _ ↦ trivial

/-- The runner of a connection puts it on the list last of all. -/
theorem changesLast_pcapsessionClientconnRun :
    (pcapsessionClientconnRun i).ChangesLast World.clientconnlist () := by
  have hmodify : ∀ {f : Session → Session}, (modifySession i f).Within
      fun w w' ↦ w'.clientconnlist = w.clientconnlist := .modify fun _ ↦ rfl
  refine .bind hmodify fun _ ↦ .bind ?_ fun _ ↦ .bind (.query _) fun opened ↦ .bind ?_ fun _ ↦
    .bind ?_ fun dumper ↦ ?_
  · exact (Prog.Within.query _).bind fun now ↦ .modify fun _ ↦ rfl
  · refine .modify fun w ↦ ?_
    split <;> rfl
  · exact ⟨fun _ _ h ↦ Option.some.inj h ▸ rfl, fun _ ↦ trivial⟩
  · split
    · exact .modify _
    · exact .modify _

end Runner

/-! ## What is true of connections -/

/-- The runner of the connection in slot `j` has come to its end and has left a dumper. -/
structure System.Serves (c : System) (j : Slot) (d : PcapDumper) : Prop where
  /-- Nothing is left for the thread to execute. -/
  thread : ∃ t, c.world.threads t = some (j, .clientconn) ∧ c.pool t = .ret ()
  /-- The dumper. -/
  dumper : (c.world.session j).pcapDumper = some d

/-- What is true of a slot, with a connection in it or not. -/
structure System.HostsAt (c : System) (j : Slot) : Prop where
  /-- A session remembers its thread. -/
  remembered : (c.world.session j).thread ≠ 0 →
    ∃ m, c.world.threads (c.world.session j).thread = some (j, m)
  /-- A connection is filled in, and comes after the list has been cleared. -/
  conn : (c.world.session j).module = some .clientconn → (c.world.session j).state ≠ .unused →
    c.world.clientconnlistInitialized = true ∧ (c.world.session j).id = j ∧
      (c.world.session j).superviseFd = true ∧ ConnReady j c.world
  /-- Only a connection whose runner is done is listed. -/
  listed : ∀ {k}, c.world.clientconnlist j = some k → k = j ∧ ∃ d, c.Serves j d
  /-- What a connection's thread has still to execute. -/
  pool : ∀ {t}, c.world.threads t = some (j, .clientconn) →
    (c.pool t).Sat (ConnRely j) (ConnStep j) (fun _ _ ↦ True) c.world ∧
      (c.pool t).ChangesLast World.clientconnlist ()
  /-- Nothing is written before the connection is listed. -/
  fresh : ∀ {t d}, c.world.threads t = some (j, .clientconn) → c.pool t ≠ .ret () →
    (c.world.session j).pcapDumper = some d → c.world.written d.id = []

/-- What is true of all slots and streams. -/
structure System.Hosts (c : System) : Prop where
  /-- Streams are numbered in order. -/
  dumper_lt : ∀ {j d}, (c.world.session j).pcapDumper = some d → d.id < c.world.nextDumper
  /-- No two sessions write the same stream. -/
  dumper_inj : ∀ {j k d d'}, (c.world.session j).pcapDumper = some d →
    (c.world.session k).pcapDumper = some d' → d.id = d'.id → j = k
  /-- Nothing is written to a stream before it is opened. -/
  unwritten : ∀ {n}, c.world.nextDumper ≤ n → c.world.written n = []
  /-- Every slot. -/
  slot : ∀ j, c.HostsAt j

/-- What a connection depends on has not changed. -/
structure Session.Keeps (s s' : Session) : Prop where
  /-- The number. -/
  id : s'.id = s.id
  /-- The module. -/
  module : s'.module = s.module
  /-- The thread. -/
  thread : s'.thread = s.thread
  /-- The descriptor. -/
  fd : s'.fd = s.fd
  /-- Whether the descriptor is supervised. -/
  superviseFd : s'.superviseFd = s.superviseFd
  /-- The dumper. -/
  pcapDumper : s'.pcapDumper = s.pcapDumper
  /-- A running session goes on running. -/
  running : s.state = .running → s'.state = .running
  /-- A slot is not taken. -/
  used : s'.state ≠ .unused → s.state ≠ .unused

/-- An event does not concern the session in slot `j`. -/
structure Spares (j : Slot) (c c' : System) : Prop where
  /-- The session. -/
  session : (c.world.session j).Keeps (c'.world.session j)
  /-- Its thread. -/
  thread_iff : ∀ {t m}, c'.world.threads t = some (j, m) ↔ c.world.threads t = some (j, m)
  /-- What the thread has still to execute. -/
  pool : ∀ {t m}, c.world.threads t = some (j, m) → c'.pool t = c.pool t

section Slots

variable {c c' : System} {i j : Slot} {m : Module} {t : ℕ} {w w' : World} {s s' : Session}

theorem Session.Unmoved.keeps (h : s.Unmoved s') : s.Keeps s' := by
  refine ⟨?_, ?_, ?_, ?_, ?_, ?_, fun hstate ↦ ?_, fun hstate ↦ ?_⟩
  all_goals first | rw [h] | skip
  · exact hstate
  · rw [h] at hstate
    exact hstate

theorem Session.Keeps.rely (h : (w.session j).Keeps (w'.session j)) : ConnRely j w w' :=
  ⟨h.pcapDumper, h.running⟩

theorem Spares.serves {d : PcapDumper} (h : Spares j c c') (hserves : c.Serves j d) :
    c'.Serves j d := by
  obtain ⟨⟨t, ht, hpool⟩, hd⟩ := hserves
  exact ⟨⟨t, h.thread_iff.mpr ht, (h.pool ht).trans hpool⟩, h.session.pcapDumper.trans hd⟩

theorem System.Sound.thread_unique (h : c.Sound) {t' : ℕ} {m' : Module}
    (ht : c.world.threads t = some (j, m)) (ht' : c.world.threads t' = some (j, m')) : t' = t :=
  (h.quiet.lifecycle.thread_eq ht').symm.trans (h.quiet.lifecycle.thread_eq ht)

/-- A connection whose runner is not done is not listed. -/
theorem System.HostsAt.unlisted (h : c.HostsAt j) (hsound : c.Sound)
    (ht : c.world.threads t = some (j, m)) (hpool : c.pool t ≠ .ret ()) :
    c.world.clientconnlist j = none := by
  cases hlist : c.world.clientconnlist j with
  | none => rfl
  | some k =>
    obtain ⟨-, d, ⟨t', ht', hdone⟩, -⟩ := h.listed hlist
    rw [hsound.thread_unique ht ht'] at hdone
    exact absurd hdone hpool

theorem System.HostsAt.unlisted_of_ne (h : c.HostsAt j)
    (hthread : ∀ t, c.world.threads t ≠ some (j, .clientconn)) :
    c.world.clientconnlist j = none := by
  cases hlist : c.world.clientconnlist j with
  | none => rfl
  | some k =>
    obtain ⟨-, d, ⟨t', ht', -⟩, -⟩ := h.listed hlist
    exact absurd ht' (hthread t')

/-- An event that does not concern a slot, except that it may take it off the list. -/
theorem System.HostsAt.of_spares (h : c.HostsAt j) (hsound : c.Sound) (hspares : Spares j c c')
    (hlist : c'.world.clientconnlist j = c.world.clientconnlist j ∨
      c'.world.clientconnlist j = none)
    (hinit : c.world.clientconnlistInitialized = true →
      c'.world.clientconnlistInitialized = true)
    (hwritten : ∀ d, c.world.clientconnlist j = none →
      (c.world.session j).pcapDumper = some d → c'.world.written d.id = c.world.written d.id) :
    c'.HostsAt j where
  remembered := by
    intro hthread
    rw [hspares.session.thread] at hthread ⊢
    obtain ⟨m, hm⟩ := h.remembered hthread
    exact ⟨m, hspares.thread_iff.mpr hm⟩
  conn := by
    intro hm hused
    rw [hspares.session.module] at hm
    obtain ⟨hinitialized, hid, hfd, hready⟩ := h.conn hm (hspares.session.used hused)
    exact ⟨hinit hinitialized, hspares.session.id.trans hid, hspares.session.superviseFd.trans hfd,
      ConnReady.stable _ _ hspares.session.rely hready⟩
  listed := by
    intro k hk
    rcases hlist with hsame | hnone
    · obtain ⟨hkj, d, hserves⟩ := h.listed (hsame.symm.trans hk)
      exact ⟨hkj, d, hspares.serves hserves⟩
    · rw [hnone] at hk
      cases hk
  pool := by
    intro t ht
    have ht' := hspares.thread_iff.mp ht
    rw [hspares.pool ht']
    exact ⟨(h.pool ht').1.rely hspares.session.rely, (h.pool ht').2⟩
  fresh := by
    intro t d ht hpool hd
    have ht' := hspares.thread_iff.mp ht
    rw [hspares.pool ht'] at hpool
    rw [hspares.session.pcapDumper] at hd
    rw [hwritten d (h.unlisted hsound ht' hpool) hd]
    exact h.fresh ht' hpool hd

theorem System.HostsAt.of_idle (hidle : ∀ t m, c.world.threads t ≠ some (j, m))
    (hthread : (c.world.session j).thread = 0) (hlist : c.world.clientconnlist j = none)
    (hconn : (c.world.session j).module = some .clientconn →
      (c.world.session j).state ≠ .unused → c.world.clientconnlistInitialized = true ∧
        (c.world.session j).id = j ∧ (c.world.session j).superviseFd = true ∧
          ConnReady j c.world) : c.HostsAt j where
  remembered := fun h ↦ absurd hthread h
  conn := hconn
  listed := by
    intro k hk
    rw [hlist] at hk
    cases hk
  pool := fun ht ↦ absurd ht (hidle _ _)
  fresh := fun ht ↦ absurd ht (hidle _ _)

/-- What an event that is not a packet does to a slot. -/
inductive Fate (c c' : System) (e : Event) (j : Slot) : Prop
  /-- It does not concern the slot. -/
  | spared (h : Spares j c c') (hlist : c'.world.clientconnlist j = c.world.clientconnlist j)
  /-- It stops the session in the slot. -/
  | stopped {answer : Query → ℤ} (he : e = .visits j answer) (hstops : c.world.Stops answer j)
      (hlist : c'.world.clientconnlist j = none)
      (hdumper : (c'.world.session j).pcapDumper = none) (h : c'.HostsAt j)
  /-- It concerns a slot that does not serve a client yet. -/
  | changed (hserves : ∀ d, ¬ c.Serves j d)
      (hfresh : ∀ d, c'.Serves j d → c'.world.written d.id = []) (h : c'.HostsAt j)

theorem spares_of_keeps (hsession : (c.world.session j).Keeps (w'.session j))
    (hthreads : w'.threads = c.world.threads) : Spares j c ⟨w', c.pool⟩ := by
  refine ⟨hsession, ?_, fun _ ↦ rfl⟩
  intro t m
  change w'.threads t = _ ↔ _
  rw [hthreads]

theorem fate_place {e : Event} {w₁ : World} {pool : ℕ → SessionProg Unit} {k : Slot}
    (h : c.HostsAt j) (hsound : c.Sound) (hsession : w₁.session = c.world.session)
    (hthreads : w₁.threads = c.world.threads)
    (hlist : w₁.clientconnlist j = c.world.clientconnlist j)
    (hk : (c.world.session k).state = .unused)
    (hpool : ∀ {t m}, c.world.threads t = some (j, m) → pool t = c.pool t) (hs : s.thread = 0)
    (hconn : s.module = some .clientconn → s.state ≠ .unused →
      w₁.clientconnlistInitialized = true ∧ s.id = k ∧ s.superviseFd = true ∧
        s.pcapDumper = none) : Fate c ⟨w₁.place k s, pool⟩ e j := by
  by_cases hj : j = k
  · -- the slot itself, which no thread belongs to
    subst hj
    have hself : (w₁.place j s).session j = s := World.session_modifySession_self ..
    have hidle : ∀ t m, c.world.threads t ≠ some (j, m) := fun t m ht ↦
      hsound.quiet.lifecycle.idle (.inl hk) ⟨t, m, ht⟩
    have hidle' : ∀ t m, w₁.threads t ≠ some (j, m) := by
      rw [hthreads]
      exact hidle
    refine .changed (fun d hd ↦ ?_) (fun d hd ↦ ?_) (.of_idle hidle' ?_ ?_ fun hm hused ↦ ?_)
    · obtain ⟨t, ht, -⟩ := hd.thread
      exact hidle t _ ht
    · obtain ⟨t, ht, -⟩ := hd.thread
      exact absurd ht (hidle' t _)
    · change ((w₁.place j s).session j).thread = 0
      rw [hself]
      exact hs
    · exact hlist.trans (h.unlisted_of_ne fun t ↦ hidle t _)
    · change ((w₁.place j s).session j).module = _ at hm
      change ((w₁.place j s).session j).state ≠ _ at hused
      rw [hself] at hm hused
      obtain ⟨hinit, hid, hfd, hnone⟩ := hconn hm hused
      refine ⟨hinit, ?_, ?_, connReady_of_none ?_⟩
      · exact (congrArg Session.id hself).trans hid
      · exact (congrArg Session.superviseFd hself).trans hfd
      · exact (congrArg Session.pcapDumper hself).trans hnone
  · -- every other slot
    have hother : (w₁.place k s).session j = c.world.session j := by
      rw [World.place, World.session_modifySession_of_ne _ hj, hsession]
    refine .spared ⟨?_, ?_, hpool⟩ hlist
    · change (c.world.session j).Keeps ((w₁.place k s).session j)
      rw [hother]
      exact Session.Unmoved.keeps (.refl _)
    · intro t m
      change w₁.threads t = _ ↔ _
      rw [hthreads]

theorem fate_opens {e : Event} (h : c.HostsAt j) (hsound : c.Sound)
    (heffect : OpenEffect c.world w') : Fate c ⟨w', c.pool⟩ e j := by
  have hplace : ∀ {v : World} {k : Slot} {s : Session}, v.session = c.world.session →
      v.threads = c.world.threads → v.clientconnlist = c.world.clientconnlist →
      (c.world.session k).state = .unused → s.thread = 0 →
      (s.module = some .clientconn → s.state = .unused) → Fate c ⟨v.place k s, c.pool⟩ e j :=
    fun hsession hthreads hlist hk hs hm ↦ fate_place h hsound hsession hthreads
      (congrFun hlist j) hk (fun _ ↦ rfl) hs fun hmodule hused ↦ absurd (hm hmodule) hused
  cases heffect with
  | full => exact .spared (spares_of_keeps (Session.Unmoved.keeps (.refl _)) rfl) rfl
  | refused k m hk => exact hplace rfl rfl rfl hk rfl fun _ ↦ rfl
  | plain k s hk hs =>
    rcases hs with hs | hs | hs <;> rw [hs] <;> exact hplace rfl rfl rfl hk rfl nofun
  | server k fd hk hfd =>
    exact hplace (v := c.world.openFd fd .listening) rfl rfl rfl hk rfl nofun
  | livecapture k fd selectable hk hfd =>
    exact hplace (v := c.world.openFd fd .capture) rfl rfl rfl hk rfl nofun

theorem fate_visits_keeps {e : Event} (hsession : (c.world.session j).Keeps (w'.session j))
    (hthreads : w'.threads = c.world.threads)
    (hlist : w'.clientconnlist = c.world.clientconnlist) :
    Fate c ⟨w', spawned c.world w' c.pool⟩ e j := by
  rw [spawned_of_eq hthreads]
  exact .spared (spares_of_keeps hsession hthreads) (congrFun hlist j)

theorem fate_started_of_ne {e : Event} (hsound : c.Sound) (hj : j ≠ i) :
    Fate c ⟨(c.world.startOrdered i).createThread i m,
      spawned c.world ((c.world.startOrdered i).createThread i m) c.pool⟩ e j := by
  refine .spared ⟨?_, ?_, fun {t m'} ht ↦ ?_⟩ rfl
  · change (c.world.session j).Keeps (((c.world.startOrdered i).createThread i m).session j)
    rw [World.session_createThread_of_ne _ _ hj, World.session_startOrdered_of_ne _ _ hj]
    exact Session.Unmoved.keeps (.refl _)
  · intro t m'
    change ((c.world.startOrdered i).createThread i m).threads t = _ ↔ _
    rw [World.threads_createThread]
    split
    · rename_i ht
      refine ⟨fun h ↦ absurd (Prod.mk.inj (Option.some.inj h)).1.symm hj, fun h ↦ ?_⟩
      exact absurd (ht ▸ hsound.thread_lt h) (lt_irrefl _)
    · exact Iff.rfl
  · exact spawned_of_some ht

theorem fate_started {e : Event} (h : c.HostsAt i) (hsound : c.Sound)
    (hstart : (c.world.session i).state = .start) (hm : (c.world.session i).module = some m) :
    Fate c ⟨(c.world.startOrdered i).createThread i m,
      spawned c.world ((c.world.startOrdered i).createThread i m) c.pool⟩ e i := by
  have hself : ((c.world.startOrdered i).createThread i m).session i = { c.world.session i with
      state := .starting, intervalCounter := 0, thread := c.world.nextThread } := by
    rw [World.session_createThread_self, World.session_startOrdered_self]
    rfl
  -- a slot that is to be started has no thread, and is not listed
  have hidle : ∀ t m', c.world.threads t ≠ some (i, m') := fun t m' ht ↦
    hsound.quiet.lifecycle.idle (.inr hstart) ⟨t, m', ht⟩
  have hlist : c.world.clientconnlist i = none := h.unlisted_of_ne fun t ↦ hidle t _
  -- The new thread is the only one of the slot.
  have hnew : ∀ {t m'}, ((c.world.startOrdered i).createThread i m).threads t = some (i, m') →
      t = c.world.nextThread ∧ m' = m := by
    intro t m' ht
    rw [World.threads_createThread] at ht
    split at ht
    · rename_i hnext
      exact ⟨hnext, (Prod.mk.inj (Option.some.inj ht)).2.symm⟩
    · exact absurd ht (hidle t m')
  have hnone : (c.world.session i).module = some .clientconn →
      (((c.world.startOrdered i).createThread i m).session i).pcapDumper = none := by
    intro hconn
    rw [hself]
    exact ((hsound.fit i).start hstart .clientconn hconn).2
  have hundumped : ∀ {t d}, ((c.world.startOrdered i).createThread i m).threads t
      = some (i, .clientconn) →
      (((c.world.startOrdered i).createThread i m).session i).pcapDumper ≠ some d := by
    intro t d ht hd
    obtain ⟨rfl, rfl⟩ := hnew ht
    rw [hnone hm] at hd
    cases hd
  refine .changed (fun d hd ↦ ?_) (fun d hd ↦ ?_) ⟨fun _ ↦ ⟨m, ?_⟩, fun hconn _ ↦ ?_,
    fun {k} hk ↦ ?_, fun {t} ht ↦ ?_, fun {t d} ht _ hd ↦ absurd hd (hundumped ht)⟩
  · obtain ⟨t, ht, -⟩ := hd.thread
    exact hidle t _ ht
  · obtain ⟨t, ht, -⟩ := hd.thread
    exact absurd hd.dumper (hundumped ht)
  · change ((c.world.startOrdered i).createThread i m).threads
      (((c.world.startOrdered i).createThread i m).session i).thread = _
    rw [hself]
    exact (World.threads_createThread ..).trans (if_pos rfl)
  · change (((c.world.startOrdered i).createThread i m).session i).module = _ at hconn
    rw [hself] at hconn
    obtain ⟨hinit, hid, hfd, -⟩ := h.conn hconn (by rw [hstart]; nofun)
    refine ⟨hinit, ?_, ?_, connReady_of_none (hnone hconn)⟩
    · exact (congrArg Session.id hself).trans hid
    · exact (congrArg Session.superviseFd hself).trans hfd
  · change c.world.clientconnlist i = some k at hk
    rw [hlist] at hk
    cases hk
  · -- the new thread has the whole runner of a connection in front of it
    obtain ⟨rfl, rfl⟩ := hnew ht
    change (spawned _ _ _ _).Sat _ _ _ _ ∧ (spawned _ _ _ _).ChangesLast _ _
    rw [spawned_of_new (World.threads_nextThread hsound.thread_lt) ht]
    exact ⟨connStep_pcapsessionClientconnRun _ (hnone hm), changesLast_pcapsessionClientconnRun⟩

/-- A stop joins the thread of its own session only. -/
theorem System.Hosts.threads_stopAs (h : c.Hosts) (hsound : c.Sound) {answer : Query → ℤ}
    {newState : SessionState} {t : ℕ} {m' : Module} :
    (c.world.stopAs answer i m newState).threads t = some (j, m') ↔
      c.world.threads t = some (j, m') ∧ j ≠ i := by
  rw [World.stopAs_rest]
  change (c.world.joined i).threads t = some (j, m') ↔ _
  rw [World.threads_joined]
  split
  · rename_i hjoined
    obtain ⟨hthread, rfl⟩ := hjoined
    refine ⟨nofun, fun ⟨ht, hj⟩ ↦ ?_⟩
    obtain ⟨m₁, hm₁⟩ := (h.slot i).remembered hthread
    exact absurd (Prod.mk.inj (Option.some.inj (ht.symm.trans hm₁))).1 hj
  · rename_i hjoined
    refine ⟨fun ht ↦ ⟨ht, ?_⟩, fun ht ↦ ht.1⟩
    rintro rfl
    have heq := hsound.quiet.lifecycle.thread_eq ht
    refine hjoined ⟨fun hzero ↦ ?_, heq.symm⟩
    rw [hzero] at heq
    rw [← heq, hsound.quiet.lifecycle.threads_zero] at ht
    cases ht

theorem fate_stopped {answer : Query → ℤ} {newState : SessionState} (h : c.Hosts)
    (hsound : c.Sound) (hstops : c.world.Stops answer i)
    (hm : (c.world.session i).module = some m) :
    Fate c ⟨c.world.stopAs answer i m newState,
      spawned c.world (c.world.stopAs answer i m newState) c.pool⟩ (.visits i answer) j := by
  have hlist : (c.world.stopAs answer i m newState).clientconnlist
      = if m = .clientconn then Function.update c.world.clientconnlist i none
        else c.world.clientconnlist := by
    rw [World.stopAs_rest]
  by_cases hj : j = i
  · subst hj
    have hself := World.session_stopAs_self answer j c.world m newState
    obtain ⟨hmodule, -, -, hdumper, -⟩ := (hsound.fit j).cleared hm newState
    have hnone : (c.world.stopAs answer j m newState).clientconnlist j = none := by
      rw [hlist]
      split
      · exact Function.update_self ..
      · rename_i hconn
        refine (h.slot j).unlisted_of_ne fun t ht ↦ hconn ?_
        exact Option.some.inj (hm.symm.trans (hsound.thread_module ht))
    refine .stopped rfl hstops hnone ?_ (.of_idle (fun t m' ht ↦ ?_) ?_ hnone fun hconn hused ↦ ?_)
    · exact (congrArg Session.pcapDumper hself).trans hdumper
    · exact (h.threads_stopAs hsound |>.mp ht).2 rfl
    · exact (congrArg Session.thread hself).trans (congrArg Session.thread (Session.stopAs_eq ..))
    · -- A connection is not restarted.
      refine absurd ?_ hused
      obtain rfl : m = .clientconn := Option.some.inj
        (hmodule.symm.trans ((congrArg Session.module hself).symm.trans hconn))
      exact (congrArg Session.state hself).trans (Session.state_stopAs ..)
  · refine .spared ⟨?_, ?_, fun {t m'} ht ↦ ?_⟩ ?_
    · change (c.world.session j).Keeps ((c.world.stopAs answer i m newState).session j)
      rw [World.session_stopAs_of_ne _ _ _ _ _ hj]
      exact Session.Unmoved.keeps (.refl _)
    · intro t m'
      exact (h.threads_stopAs hsound).trans (and_iff_left hj)
    · change spawned _ _ _ t = _
      rw [spawned, ht]
    · change (c.world.stopAs answer i m newState).clientconnlist j = _
      rw [hlist]
      split
      · exact Function.update_of_ne hj ..
      · rfl

theorem fate_visits {answer : Query → ℤ} (h : c.Hosts) (hsound : c.Sound)
    (heffect : VisitEffect answer i c.world w') :
    Fate c ⟨w', spawned c.world w' c.pool⟩ (.visits i answer) j := by
  -- Orders other than a stop leave a session that is not running as it is, but for its state.
  have hkeeps : ∀ {f : Session → Session}, (c.world.session i).Keeps (f (c.world.session i)) →
      (c.world.session j).Keeps ((c.world.modifySession i f).session j) := by
    intro f hf
    by_cases hj : j = i
    · rw [hj, World.session_modifySession_self]
      exact hf
    · exact (c.world.unmoved_modifySession_of_ne hj f).keeps
  have hstate : ∀ {state : SessionState}, c.world.orderedState answer i = state →
      state ≠ .terminate → state ≠ .abort → (c.world.session i).state = state := by
    rintro state rfl hterminate habort
    exact (World.orderedState_eq_state hterminate habort).symm
  cases heffect with
  | skipped hunused => exact fate_visits_keeps (Session.Unmoved.keeps (.refl _)) rfl rfl
  | tended hused horder htends =>
    refine fate_visits_keeps (htends.session j).keeps ?_ ?_
    · rw [htends.rest]
    · rw [htends.rest]
  | started m horder hm hcreate =>
    by_cases hj : j = i
    · subst hj
      exact fate_started (h.slot j) hsound (hstate horder nofun nofun) hm
    · exact fate_started_of_ne hsound hj
  | startFailed m horder hm hcreate =>
    have hstart := hstate horder nofun nofun
    refine fate_visits_keeps (hkeeps ⟨rfl, rfl, rfl, rfl, rfl, rfl, ?_, ?_⟩) rfl rfl
    · rw [hstart]
      nofun
    · rw [hstart]
      nofun
  | waited horder hcount =>
    exact fate_visits_keeps (hkeeps ⟨rfl, rfl, rfl, rfl, rfl, rfl, id, id⟩) rfl rfl
  | timedOut horder hcount =>
    have hstarting := hstate horder nofun nofun
    refine fate_visits_keeps (hkeeps ⟨rfl, rfl, rfl, rfl, rfl, rfl, ?_, ?_⟩) rfl rfl
    · rw [hstarting]
      nofun
    · rw [hstarting]
      nofun
  | stopped m newState horder hused hm =>
    exact fate_stopped h hsound ⟨hused, horder.imp And.left And.left⟩ hm

/-! ## Statements of runners -/

theorem RunnerStep.clientconnlist (h : RunnerStep i m w w') :
    w'.clientconnlist = w.clientconnlist ∨
      (m = .clientconn ∧ (w.session i).pcapDumper.isSome = true ∧ w' = { w with
        clientconnlist := Function.update w.clientconnlist i (some i) }) ∨
      m = .server ∧ AcceptEffect w w' := by
  cases h with
  | lists _ hdumper => exact .inr (.inl ⟨rfl, hdumper, rfl⟩)
  | accepts h => exact .inr (.inr ⟨rfl, h⟩)
  | tends h =>
    refine .inl ?_
    rw [h.rest]
  | _ => exact .inl rfl

theorem RunnerStep.thread (h : RunnerStep i m w w') (hused : (w.session i).state ≠ .unused) :
    (w'.session i).thread = (w.session i).thread := by
  cases h.effect with
  | writes newState h => rw [World.session_modifySession_self]
  | keeps h => exact (h.session i).2.1
  | accepts h => exact (h.unmoved hused).keeps.thread

theorem RunnerStep.written (h : RunnerStep i m w w') : w'.written = w.written := by
  have hinit : ∀ w : World, w.initClientconnlist.written = w.written := by
    intro w
    rw [World.initClientconnlist]
    split <;> rfl
  cases h with
  | tends h => rw [h.rest]
  | accepts h =>
    cases h with
    | nothing => rfl
    | rejected fd => exact hinit (w.openFd fd .connection)
    | accepted k fd => exact hinit (w.openFd fd .connection)
  | _ => rfl

theorem RunnerStep.conn (h : RunnerStep i .clientconn w w') :
    w'.clientconnlistInitialized = w.clientconnlistInitialized ∧
      (w'.session i).id = (w.session i).id ∧
      (w'.session i).superviseFd = (w.session i).superviseFd := by
  cases h with
  | pauses => exact ⟨rfl, rfl, rfl⟩
  | lists => exact ⟨rfl, rfl, rfl⟩
  | tends h =>
    refine ⟨?_, (h.session i).keeps.id, (h.session i).keeps.superviseFd⟩
    rw [h.rest]
  | writes =>
    rw [World.session_modifySession_self]
    exact ⟨rfl, rfl, rfl⟩
  | dumper =>
    rw [World.openDumper, World.session_modifySession_self]
    exact ⟨rfl, rfl, rfl⟩
  | closesHandle _ _ hm => rcases hm with hm | hm <;> cases hm

/-- A dumper that a runner's session has was there before, or is the next stream. -/
theorem RunnerStep.dumper_cases (h : RunnerStep i m w w') {d : PcapDumper}
    (hd : (w'.session j).pcapDumper = some d) :
    (w.session j).pcapDumper = some d ∨
      j = i ∧ d.id = w.nextDumper ∧ w'.nextDumper = w.nextDumper + 1 := by
  rcases h.dumpers with ⟨w₁, fd, rfl, hsession, -, hnext, -, -, -⟩ | hkeeps
  · by_cases hj : j = i
    · rw [hj, World.openDumper, World.session_modifySession_self] at hd
      cases hd
      refine .inr ⟨hj, hnext, ?_⟩
      rw [← hnext]
      rfl
    · rw [World.openDumper, World.session_modifySession_of_ne _ hj] at hd
      exact .inl (hsession ▸ hd)
  · rcases hkeeps.dumper j with hsame | hnone
    · exact .inl (hsame.symm.trans hd)
    · rw [hnone] at hd
      cases hd

/-- The list is only cleared while it is empty. -/
theorem System.HostsAt.initClientconnlist (h : c.HostsAt j) (hsound : c.Sound)
    (hlist : w.clientconnlist = c.world.clientconnlist)
    (hinit : w.clientconnlistInitialized = c.world.clientconnlistInitialized) :
    w.initClientconnlist.clientconnlist j = c.world.clientconnlist j := by
  rw [World.initClientconnlist]
  split
  · rw [hlist]
  · rename_i hfalse
    cases hj : c.world.clientconnlist j with
    | none => rfl
    | some k =>
      obtain ⟨-, d, ⟨t, ht, -⟩, -⟩ := h.listed hj
      have hstarted := hsound.started ht
      exact absurd (hinit.trans (h.conn hstarted.module hstarted.used).1) hfalse

theorem World.initClientconnlist_initialized (w : World) :
    w.initClientconnlist.clientconnlistInitialized = true := by
  rw [World.initClientconnlist]
  split
  · assumption
  · rfl

theorem World.initClientconnlist_threads (w : World) :
    w.initClientconnlist.threads = w.threads := by
  rw [World.initClientconnlist]
  split <;> rfl

theorem fate_accepts {e : Event} {pool : ℕ → SessionProg Unit} (h : c.HostsAt j)
    (hsound : c.Sound) (heffect : AcceptEffect c.world w')
    (hpool : ∀ {t m}, c.world.threads t = some (j, m) → pool t = c.pool t) :
    Fate c ⟨w', pool⟩ e j := by
  have hlist : ∀ {fd}, (c.world.openFd fd .connection).initClientconnlist.clientconnlist j
      = c.world.clientconnlist j := h.initClientconnlist hsound rfl rfl
  cases heffect with
  | nothing => exact .spared ⟨Session.Unmoved.keeps (.refl _), Iff.rfl, hpool⟩ rfl
  | rejected fd hfd =>
    refine .spared ⟨?_, ?_, hpool⟩ hlist
    · change (c.world.session j).Keeps
        ((c.world.openFd fd .connection).initClientconnlist.session j)
      rw [(World.initClientconnlist_session _).1]
      exact Session.Unmoved.keeps (.refl _)
    · intro t m
      change (c.world.openFd fd .connection).initClientconnlist.threads t = _ ↔ _
      rw [World.initClientconnlist_threads]
      rfl
  | accepted k fd hk hfd =>
    refine fate_place h hsound ?_ ?_ hlist hk hpool rfl fun _ _ ↦ ⟨?_, rfl, rfl, rfl⟩
    · rw [(World.initClientconnlist_session _).1]
      rfl
    · rw [World.initClientconnlist_threads]
      rfl
    · exact World.initClientconnlist_initialized _

theorem fate_runs_of_ne {e : Event} {p : SessionProg Unit} (h : c.HostsAt j) (hsound : c.Sound)
    (ht : c.world.threads t = some (i, m)) (hstep : RunnerStep i m c.world w') (hj : j ≠ i) :
    Fate c ⟨w', Function.update c.pool t p⟩ e j := by
  have hpool : ∀ {t' m'}, c.world.threads t' = some (j, m') →
      Function.update c.pool t p t' = c.pool t' := by
    intro t' m' ht'
    refine Function.update_of_ne ?_ _ _
    rintro rfl
    exact hj (Prod.mk.inj (Option.some.inj (ht'.symm.trans ht))).1
  rcases hstep.clientconnlist with hlist | ⟨rfl, -, rfl⟩ | ⟨rfl, haccepts⟩
  · rcases hstep.unmoved_or_accepts hj with hunmoved | haccepts
    · refine .spared ⟨hunmoved.keeps, ?_, hpool⟩ (congrFun hlist j)
      intro t' m'
      change w'.threads t' = _ ↔ _
      rw [hstep.threads.1]
    · exact fate_accepts h hsound haccepts hpool
  · refine .spared ⟨Session.Unmoved.keeps (.refl _), Iff.rfl, hpool⟩ ?_
    exact Function.update_of_ne hj _ _
  · exact fate_accepts h hsound haccepts hpool

theorem fate_runs_of_module {e : Event} {p : SessionProg Unit} (h : c.HostsAt i)
    (hsound : c.Sound) (ht : c.world.threads t = some (i, m)) (hstep : RunnerStep i m c.world w')
    (hm : m ≠ .clientconn) : Fate c ⟨w', Function.update c.pool t p⟩ e i := by
  have hused := (hsound.started ht).used
  have hthread : ∀ t', c.world.threads t' ≠ some (i, .clientconn) := by
    intro t' ht'
    rw [hsound.thread_unique ht ht', ht] at ht'
    exact hm (Prod.mk.inj (Option.some.inj ht')).2
  have hthread' : ∀ t', w'.threads t' ≠ some (i, .clientconn) := by
    rw [hstep.threads.1]
    exact hthread
  have hlist : w'.clientconnlist i = none := by
    rcases hstep.clientconnlist with hlist | ⟨rfl, -⟩ | ⟨-, haccepts⟩
    · rw [hlist]
      exact h.unlisted_of_ne hthread
    · exact absurd rfl hm
    · cases haccepts with
      | nothing => exact h.unlisted_of_ne hthread
      | rejected fd =>
        exact (h.initClientconnlist hsound (w := c.world.openFd fd .connection) rfl rfl).trans
          (h.unlisted_of_ne hthread)
      | accepted k fd =>
        exact (h.initClientconnlist hsound (w := c.world.openFd fd .connection) rfl rfl).trans
          (h.unlisted_of_ne hthread)
  refine .changed (fun d hd ↦ ?_) (fun d hd ↦ ?_) ⟨fun _ ↦ ⟨m, ?_⟩, fun hconn _ ↦ ?_,
    fun {k} hk ↦ ?_, fun {t'} ht' ↦ absurd ht' (hthread' t'),
    fun {t' d} ht' ↦ absurd ht' (hthread' t')⟩
  · obtain ⟨t', ht', -⟩ := hd.thread
    exact hthread t' ht'
  · obtain ⟨t', ht', -⟩ := hd.thread
    exact absurd ht' (hthread' t')
  · change w'.threads (w'.session i).thread = _
    rw [hstep.thread hused, hsound.quiet.lifecycle.thread_eq ht, hstep.threads.1]
    exact ht
  · change (w'.session i).module = _ at hconn
    rw [hstep.module hused, hsound.thread_module ht] at hconn
    exact absurd (Option.some.inj hconn) hm
  · change w'.clientconnlist i = some k at hk
    rw [hlist] at hk
    cases hk

theorem fate_runs_clientconn {e : Event} {z : ℤ} {p : SessionProg Unit} (h : c.Hosts)
    (hsound : c.Sound) (ht : c.world.threads t = some (i, .clientconn))
    (hnext : (c.pool t).next z c.world = some (p, w'))
    (hstep : RunnerStep i .clientconn c.world w') :
    Fate c ⟨w', Function.update c.pool t p⟩ e i := by
  have hstarted := hsound.started ht
  obtain ⟨hinit, hid, hfd, hready⟩ := (h.slot i).conn hstarted.module hstarted.used
  obtain ⟨hinit', hid', hfd'⟩ := hstep.conn
  have hpool : c.pool t ≠ .ret () := by
    intro hret
    rw [hret] at hnext
    cases hnext
  have hlist : c.world.clientconnlist i = none := (h.slot i).unlisted hsound ht hpool
  obtain ⟨hsat, hlast⟩ := (h.slot i).pool ht
  obtain ⟨hG, hrest⟩ := hsat.step (Prog.step_of_next hnext)
  obtain ⟨hchange, hlast'⟩ := hlast.next hnext
  have hready' : ConnReady i w' := by
    rcases hG with hG | rfl
    · exact hG hready
    · exact hready
  have hself : ∀ {t'}, w'.threads t' = some (i, .clientconn) → t' = t := by
    intro t' ht'
    rw [hstep.threads.1] at ht'
    exact hsound.thread_unique ht ht'
  have hfresh : ∀ {d}, (w'.session i).pcapDumper = some d → w'.written d.id = [] := by
    intro d hd
    rw [hstep.written]
    rcases hstep.dumper_cases hd with hd | ⟨-, heq, -⟩
    · exact (h.slot i).fresh ht hpool hd
    · exact h.unwritten heq.ge
  refine .changed (fun d hd ↦ ?_) (fun d hd ↦ hfresh hd.dumper) ⟨fun _ ↦ ⟨.clientconn, ?_⟩,
    fun _ _ ↦ ⟨hinit'.trans hinit, hid'.trans hid, hfd'.trans hfd, hready'⟩, fun {k} hk ↦ ?_,
    fun {t'} ht' ↦ ?_, fun {t' d} _ _ hd ↦ hfresh hd⟩
  · obtain ⟨t', ht', hdone⟩ := hd.thread
    rw [hsound.thread_unique ht ht'] at hdone
    exact hpool hdone
  · change w'.threads (w'.session i).thread = _
    rw [hstep.thread hstarted.used, hsound.quiet.lifecycle.thread_eq ht, hstep.threads.1]
    exact ht
  · -- The connection has just been listed, by the last statement of its runner.
    change w'.clientconnlist i = some k at hk
    rcases hstep.clientconnlist with hsame | ⟨-, hsome, rfl⟩ | ⟨hm, -⟩
    · rw [hsame, hlist] at hk
      cases hk
    · obtain ⟨d, hd⟩ := Option.isSome_iff_exists.mp hsome
      have hupdate : Function.update c.world.clientconnlist i (some i) i = some i :=
        Function.update_self ..
      refine ⟨Option.some.inj (hk.symm.trans hupdate), d, ⟨t, ht, ?_⟩, hd⟩
      rcases hchange with hsame | rfl
      · have hsome := (congrFun hsame i).symm.trans hupdate
        rw [hlist] at hsome
        cases hsome
      · exact Function.update_self ..
    · cases hm
  · obtain rfl := hself ht'
    change (Function.update c.pool t' p t').Sat _ _ _ _ ∧
      (Function.update c.pool t' p t').ChangesLast _ _
    rw [Function.update_self]
    exact ⟨hrest, hlast'⟩

theorem fate_runs {e : Event} {z : ℤ} {p : SessionProg Unit} (h : c.Hosts) (hsound : c.Sound)
    (ht : c.world.threads t = some (i, m)) (hnext : (c.pool t).next z c.world = some (p, w')) :
    Fate c ⟨w', Function.update c.pool t p⟩ e j := by
  obtain ⟨hstep, -⟩ := hsound.next ht hnext
  by_cases hj : j = i
  · subst hj
    by_cases hm : m = .clientconn
    · subst hm
      exact fate_runs_clientconn h hsound ht hnext hstep
    · exact fate_runs_of_module (h.slot j) hsound ht hstep hm
  · exact fate_runs_of_ne (h.slot j) hsound ht hstep hj

theorem System.Hosts.fate {e : Event} (h : c.Hosts) (hsound : c.Sound)
    (hstep : c.step e = some c') (he : ∀ i p answer, e ≠ .captures i p answer) : Fate c c' e j := by
  cases e with
  | opens call answer =>
    obtain ⟨⟨r, w'⟩, hexec, rfl⟩ := Option.map_eq_some_iff.mp hstep
    exact fate_opens (h.slot j) hsound (openEffect_of_exec hexec)
  | visits i answer =>
    obtain ⟨⟨counted, w'⟩, hexec, rfl⟩ := Option.map_eq_some_iff.mp hstep
    exact fate_visits h hsound (hsound.visitEffect hexec)
  | runs t z =>
    obtain ⟨i, m, p, w', ht, hnext, rfl⟩ := System.runs_cases hstep
    exact fate_runs h hsound ht hnext
  | captures i p answer => exact absurd rfl (he i p answer)
  | closes =>
    cases hstep
    exact .spared (spares_of_keeps (Session.Unmoved.keeps (.refl _)) rfl) rfl

/-! ## Streams -/

/-- What an event that is not a packet does to streams: nothing is written, and at most one stream
is opened. -/
structure Dumps (w w' : World) : Prop where
  /-- Nothing is written. -/
  written : w'.written = w.written
  /-- Streams are numbered in order. -/
  nextDumper : w.nextDumper ≤ w'.nextDumper
  /-- A dumper was there before, or is the next stream. -/
  dumper : ∃ i, ∀ {j d}, (w'.session j).pcapDumper = some d →
    (w.session j).pcapDumper = some d ∨
      j = i ∧ d.id = w.nextDumper ∧ w'.nextDumper = w.nextDumper + 1
  /-- The list of connections has been cleared for good. -/
  initialized : w.clientconnlistInitialized = true → w'.clientconnlistInitialized = true

theorem KeepsDumpers.dumps (h : KeepsDumpers w w') (hwritten : w'.written = w.written)
    (hinit : w.clientconnlistInitialized = true → w'.clientconnlistInitialized = true) :
    Dumps w w' := by
  refine ⟨hwritten, h.nextDumper.ge, ⟨0, fun {j d} hd ↦ .inl ?_⟩, hinit⟩
  rcases h.dumper j with hsame | hnone
  · exact hsame.symm.trans hd
  · rw [hnone] at hd
    cases hd

theorem OpenEffect.dumps (h : OpenEffect w w') : Dumps w w' := by
  refine h.keepsDumpers.dumps ?_ ?_
  · cases h <;> rfl
  · cases h <;> exact id

theorem VisitEffect.dumps {answer : Query → ℤ} (h : VisitEffect answer i w w')
    (hfit : (w.session i).Fit) : Dumps w w' := by
  have hassign : ∀ {f : Session → Session}, (∀ s, (f s).pcapDumper = s.pcapDumper) →
      Dumps w (w.modifySession i f) := fun hf ↦
    (keepsDumpers_modifySession rfl rfl rfl hf).dumps rfl id
  cases h with
  | skipped => exact (refl_of Tends w).keepsDumpers.dumps rfl id
  | tended _ _ htends =>
    refine htends.keepsDumpers.dumps ?_ ?_
    · rw [htends.rest]
    · rw [htends.rest]
      exact id
  | started m =>
    refine KeepsDumpers.dumps (keepsDumpers_of_eq (fun j ↦ ?_) rfl rfl) rfl id
    by_cases hj : j = i
    · rw [hj, World.session_createThread_self, World.session_startOrdered_self]
    · rw [World.session_createThread_of_ne _ _ hj, World.session_startOrdered_of_ne _ _ hj]
  | startFailed => exact hassign fun _ ↦ rfl
  | waited => exact hassign fun _ ↦ rfl
  | timedOut => exact hassign fun _ ↦ rfl
  | stopped m newState _ _ hm =>
    refine ⟨?_, ?_, ⟨0, fun {j d} hd ↦ .inl ?_⟩, ?_⟩
    · rw [World.stopAs_rest]
    · rw [World.stopAs_rest]
    · by_cases hj : j = i
      · rw [hj, World.session_stopAs_self, (hfit.cleared hm newState).2.2.2.1] at hd
        cases hd
      · rw [World.session_stopAs_of_ne _ _ _ _ _ hj] at hd
        exact hd
    · rw [World.stopAs_rest]
      exact id

theorem RunnerStep.dumps (h : RunnerStep i m w w') : Dumps w w' := by
  refine ⟨h.written, ?_, ⟨i, h.dumper_cases⟩, fun hinit ↦ ?_⟩
  · rcases h.dumpers with ⟨w₁, fd, rfl, -, -, hnext, -, -, -⟩ | hkeeps
    · exact hnext.symm.le.trans (Nat.le_succ _)
    · exact hkeeps.nextDumper.ge
  · cases h with
    | tends h =>
      rw [h.rest]
      exact hinit
    | accepts h =>
      cases h with
      | nothing => exact hinit
      | rejected fd => exact World.initClientconnlist_initialized _
      | accepted k fd => exact World.initClientconnlist_initialized _
    | _ => exact hinit

theorem EventEffect.dumps {e : Event} (h : EventEffect c e w') (hsound : c.Sound)
    (he : ∀ i p answer, e ≠ .captures i p answer) : Dumps c.world w' := by
  cases h with
  | opens h => exact h.dumps
  | visits h => exact h.dumps (hsound.fit _)
  | runs ht h => exact h.dumps
  | captures h => exact absurd rfl (he _ _ _)
  | closes => exact ⟨rfl, le_refl _, ⟨0, fun hd ↦ .inl hd⟩, id⟩

theorem System.Hosts.of_fate {e : Event} (h : c.Hosts) (hsound : c.Sound)
    (hfate : ∀ j, Fate c c' e j) (hdumps : Dumps c.world c'.world) : c'.Hosts := by
  obtain ⟨i, hdumper⟩ := hdumps.dumper
  refine ⟨fun hd ↦ ?_, fun hd hd' heq ↦ ?_, fun hn ↦ ?_, fun j ↦ ?_⟩
  · rcases hdumper hd with hd | ⟨-, heq, hnext⟩
    · exact (h.dumper_lt hd).trans_le hdumps.nextDumper
    · rw [heq, hnext]
      exact Nat.lt_succ_self _
  · rcases hdumper hd with hold | ⟨hj, hid, -⟩
    · rcases hdumper hd' with hold' | ⟨-, hid, -⟩
      · exact h.dumper_inj hold hold' heq
      · exact absurd (heq.trans hid) (h.dumper_lt hold).ne
    · rcases hdumper hd' with hold' | ⟨hk, -, -⟩
      · exact absurd (heq.symm.trans hid) (h.dumper_lt hold').ne
      · exact hj.trans hk.symm
  · rw [hdumps.written]
    exact h.unwritten (hdumps.nextDumper.trans hn)
  · cases hfate j with
    | spared hspares hlist =>
      refine (h.slot j).of_spares hsound hspares (.inl hlist) hdumps.initialized fun d _ _ ↦ ?_
      rw [hdumps.written]
    | stopped _ _ _ _ h => exact h
    | changed _ _ h => exact h

end Slots

end DistributorMerger
