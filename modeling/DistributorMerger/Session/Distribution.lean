import DistributorMerger.Session.Connections
import DistributorMerger.Session.Merge

/-!
# Distribution delivers contiguous blocks

A client connection is put on the list once, by the last statement of its runner, and is taken off
it by the packet handler when its descriptor is found lost, or by its stopper. In between every
packet that is handled is dumped on it. A stream belongs to one connection, so that the stream of a
connection holds the packets handled between the two moments, whatever happens to the slots of other
clients, and whatever the slot is used for later.

What a connection notices of an event is a *sight*: a packet together with what the look at the
connection's descriptor reports, a visit of its slot, or the closing of session handling. What it
receives is a function of its own sights.
-/

namespace DistributorMerger

/-! ## What a connection receives -/

/-- The packets handled in some events. -/
def handled (es : List Event) : List Packet :=
  es.filterMap fun
    | .captures _ p _ => some p
    | _ => none

/-- What a client connection notices. -/
inductive Sight
  /-- A packet is handled, and `poll` reports these events on the client's descriptor. -/
  | packet (p : Packet) (events : ℤ)
  /-- The slot is visited, and `poll` reports these events on the client's descriptor. -/
  | visited (events : ℤ)
  /-- Session handling is closed. -/
  | closed

/-- What the connection in slot `j` notices of an event. -/
def Event.sight (j : Slot) : Event → Option Sight
  | .captures _ p answer => some (.packet p (answer (.pollDeliver j)))
  | .visits i answer => if i = j then some (.visited (answer (.pollSupervised j))) else none
  | .closes => some .closed
  | .opens _ _ | .runs _ _ => none

/-- The packets that a connection with descriptor `fd` receives while it is on the list, given
whether session handling is closing and what the connection notices. -/
def received (fd : ℤ) : Bool → List Sight → List Packet
  | _, [] => []
  | closing, .packet p events :: sights =>
    if events = 0 then p :: received fd closing sights else []
  | closing, .visited events :: sights =>
    if closing = true ∨ 2 < fd ∧ events ≠ 0 then [] else received fd closing sights
  | _, .closed :: sights => received fd true sights

/-- A connection receives the packets handled, from the first one on and without a gap, until it
receives no more. -/
theorem received_initial (fd : ℤ) (j : Slot) (closing : Bool) (es : List Event) :
    received fd closing (es.filterMap (Event.sight j)) <+: handled es := by
  induction es generalizing closing with
  | nil => exact List.nil_prefix
  | cons e es ih =>
    cases e with
    | opens => exact ih closing
    | runs => exact ih closing
    | closes => exact ih true
    | captures i p answer =>
      change received fd closing (.packet p (answer (.pollDeliver j)) :: _) <+: p :: handled es
      rw [received]
      split
      · exact (List.prefix_cons_inj p).mpr (ih closing)
      · exact List.nil_prefix
    | visits i answer =>
      by_cases hi : i = j
      · rw [List.filterMap_cons_some (by rw [Event.sight, if_pos hi]), received]
        split
        · exact List.nil_prefix
        · exact ih closing
      · rw [List.filterMap_cons_none (by rw [Event.sight, if_neg hi])]
        exact ih closing

/-! ## One packet -/

section Packet

variable {answer : Query → ℤ} {i j : Slot} {header : PcapPkthdr} {w w' : World}

/-- The look at the descriptor of a client reports nothing. -/
def World.FindsOpen (w : World) (answer : Query → ℤ) (j : Slot) : Prop :=
  w.seemsOpen (answer (.pollDeliver j)) (w.session j).fd

/-- What is true of the clients on the list when a packet is handled. -/
structure Clients (w : World) : Prop where
  /-- A client is listed under the number of its slot. -/
  slot : ∀ {j k}, w.clientconnlist j = some k → k = j ∧ (w.session j).id = j
  /-- It is running and has a dumper. -/
  serving : ∀ {j k}, w.clientconnlist j = some k →
    (w.session j).state = .running ∧ (w.session j).pcapDumper.isSome = true
  /-- No two sessions write the same stream. -/
  dumper_inj : ∀ {j k d d'}, (w.session j).pcapDumper = some d →
    (w.session k).pcapDumper = some d' → d.id = d'.id → j = k

theorem exec_pcapDump (d : PcapDumper) (data : World → Memory) :
    (pcapDump (some d) j header data).exec answer w
      = some ((), (w.write d j (.header header)).write d j
        (.bytes ((data (w.write d j (.header header))).bytes header.caplen.toNat))) := rfl

theorem World.written_write_write (w : World) (d : PcapDumper) (j : Slot) (r : Record) :
    ((w.write d j (.header r.header)).write d j (.bytes r.bytes)).written
      = Function.update w.written d.id (w.written d.id ++ taggedChunks [(j, r)]) := by
  rw [World.write, World.write]
  simp only [Function.update_self, Function.update_idem, List.append_assoc]
  rfl

theorem exec_clientHandlePacket {d : PcapDumper} (hstate : (w.session j).state = .running)
    (hdumper : (w.session j).pcapDumper = some d)
    (h : (pcapsessionClientconnClientHandlePacket i j header).exec answer w = some ((), w')) :
    w'.buffer = w.buffer ∧
    (w.FindsOpen answer j ∧ w'.clientconnlist = w.clientconnlist ∧
        w'.written = Function.update w.written d.id
          (w.written d.id ++ taggedChunks [(j, dumpRecord header (w.buffer i))]) ∨
      ¬ w.FindsOpen answer j ∧ w'.written = w.written ∧
        w'.clientconnlist = Function.update w.clientconnlist (w.session j).id none) := by
  by_cases hopen : w.FindsOpen answer j
  · have hopen' : w.seemsOpen (answer (.pollDeliver j)) (w.session j).fd := hopen
    simp only [pcapsessionClientconnClientHandlePacket, Prog.exec_bind, exec_readSession,
      Option.bind_some, hstate, if_true, exec_iotestsFdOpen, hopen', decide_true] at h
    obtain ⟨⟨⟨⟩, w₁⟩, hlock, h⟩ := Option.bind_eq_some_iff.mp h
    obtain ⟨hdumper₁, hwritten, hlist, hbuffer⟩ : (w₁.session j).pcapDumper = some d ∧
        w₁.written = w.written ∧ w₁.clientconnlist = w.clientconnlist ∧ w₁.buffer = w.buffer := by
      rw [lockPcapMutex, Prog.exec_await] at hlock
      split at hlock
      · cases hlock
        exact ⟨(congrArg Session.pcapDumper (World.session_modifySession_self ..)).trans hdumper,
          rfl, rfl, rfl⟩
      · cases hlock
    rw [hdumper₁, exec_pcapDump, Option.bind_some] at h
    cases h
    rw [← hwritten, ← hlist, ← hbuffer]
    refine ⟨rfl, .inl ⟨hopen, rfl, ?_⟩⟩
    exact World.written_write_write w₁ d j (dumpRecord header (w₁.buffer i))
  · have hopen' : ¬ w.seemsOpen (answer (.pollDeliver j)) (w.session j).fd := hopen
    simp only [pcapsessionClientconnClientHandlePacket, Prog.exec_bind, exec_readSession,
      Option.bind_some, hstate, if_true, exec_iotestsFdOpen, hopen', decide_false,
      Bool.false_eq_true, if_false, Prog.exec_modify, Option.some.injEq, Prod.mk.injEq,
      true_and] at h
    subst h
    exact ⟨rfl, .inr ⟨hopen, rfl, rfl⟩⟩

theorem Clients.of_handles (h : Clients w) (hhandles : Handles w w') : Clients w' := by
  have hlisted : ∀ {j k}, w'.clientconnlist j = some k → w.clientconnlist j = some k := by
    intro j k hj
    rcases hhandles.unlisted j with hsame | hnone
    · exact hsame.symm.trans hj
    · rw [hnone] at hj
      cases hj
  have hdumper : ∀ j, (w'.session j).pcapDumper = (w.session j).pcapDumper := fun j ↦
    unmoved_pcapDumper _ _ (hhandles.session j)
  refine ⟨fun {j k} hj ↦ ?_, fun {j k} hj ↦ ?_, fun {j k d d'} hd hd' ↦ ?_⟩
  · rw [hhandles.session j]
    exact h.slot (hlisted hj)
  · rw [hhandles.session j]
    exact h.serving (hlisted hj)
  · exact h.dumper_inj ((hdumper j).symm.trans hd) ((hdumper k).symm.trans hd')

/-- What handling a packet does to the clients in some slots. -/
structure Delivers (answer : Query → ℤ) (r : Record) (slots : List Slot) (w w' : World) : Prop where
  /-- Nothing else is touched. -/
  handles : Handles w w'
  /-- A client whose descriptor is found open is sent the record, and stays. -/
  sent : ∀ {j d}, j ∈ slots → w.clientconnlist j ≠ none → (w.session j).pcapDumper = some d →
    w.FindsOpen answer j → w'.written d.id = w.written d.id ++ taggedChunks [(j, r)] ∧
      w'.clientconnlist j = w.clientconnlist j
  /-- A client whose descriptor is found lost is taken off the list. -/
  lost : ∀ {j}, j ∈ slots → ¬ w.FindsOpen answer j → w'.clientconnlist j = none
  /-- Nothing is written for a client whose descriptor is found lost, nor for one that is not
  listed. -/
  written : ∀ {n}, (∀ j ∈ slots, ∀ d, w.clientconnlist j ≠ none → w.FindsOpen answer j →
    (w.session j).pcapDumper = some d → d.id ≠ n) → w'.written n = w.written n
  /-- The other slots of the list are left alone. -/
  others : ∀ {j}, j ∉ slots → w'.clientconnlist j = w.clientconnlist j

theorem Handles.findsOpen_iff (h : Handles w w') :
    w'.FindsOpen answer j ↔ w.FindsOpen answer j := by
  have hopen : w'.openFds = w.openFds := by rw [h.rest]
  have hfd : (w'.session j).fd = (w.session j).fd := by rw [h.session j]
  rw [World.FindsOpen, World.FindsOpen, World.seemsOpen, World.seemsOpen, hopen, hfd]

theorem delivers_none (r : Record) (hj : w.clientconnlist j = none) :
    Delivers answer r [j] w w where
  handles := refl_of Handles w
  sent := by
    intro k d hk hlisted
    rw [List.mem_singleton.mp hk] at hlisted
    exact absurd hj hlisted
  lost := by
    intro k hk _
    rw [List.mem_singleton.mp hk]
    exact hj
  written := fun _ ↦ rfl
  others := fun _ ↦ rfl

theorem delivers_client (hw : Clients w) {k : Slot} (hj : w.clientconnlist j = some k)
    (h : (pcapsessionClientconnClientHandlePacket i k header).exec answer w = some ((), w')) :
    Delivers answer (dumpRecord header (w.buffer i)) [j] w w' ∧ w'.buffer = w.buffer := by
  obtain ⟨rfl, hid⟩ := hw.slot hj
  obtain ⟨hstate, hsome⟩ := hw.serving hj
  obtain ⟨d, hd⟩ := Option.isSome_iff_exists.mp hsome
  have hhandles := (handles_pcapsessionClientconnClientHandlePacket i k header).exec h
  obtain ⟨hbuffer, hcase⟩ := exec_clientHandlePacket hstate hd h
  rw [hid] at hcase
  refine ⟨⟨hhandles, fun {j d'} hj' _ hd' hopen ↦ ?_, fun {j} hj' hlost ↦ ?_, fun {n} hn ↦ ?_,
    fun {j} hj' ↦ ?_⟩, hbuffer⟩
  · rw [List.mem_singleton.mp hj'] at hd' hopen ⊢
    obtain rfl := Option.some.inj (hd.symm.trans hd')
    rcases hcase with ⟨-, hlist, hwritten⟩ | ⟨hlost, -⟩
    · rw [hlist, hwritten, Function.update_self]
      exact ⟨rfl, rfl⟩
    · exact absurd hopen hlost
  · rw [List.mem_singleton.mp hj'] at hlost ⊢
    rcases hcase with ⟨hopen, -⟩ | ⟨-, -, hlist⟩
    · exact absurd hopen hlost
    · rw [hlist, Function.update_self]
  · rcases hcase with ⟨hopen, -, hwritten⟩ | ⟨-, hwritten, -⟩
    · have hne : d.id ≠ n := by
        refine hn k (List.mem_singleton.mpr rfl) d ?_ hopen hd
        rw [hj]
        nofun
      rw [hwritten, Function.update_of_ne hne.symm]
    · rw [hwritten]
  · have hne : j ≠ k := fun hjk ↦ hj' (List.mem_singleton.mpr hjk)
    rcases hcase with ⟨-, hlist, -⟩ | ⟨-, -, hlist⟩
    · rw [hlist]
    · rw [hlist, Function.update_of_ne hne]

theorem Delivers.cons {r : Record} {slots : List Slot} {w₁ : World} (hw : Clients w)
    (h : Delivers answer r [j] w w₁) (h' : Delivers answer r slots w₁ w') (hj : j ∉ slots) :
    Delivers answer r (j :: slots) w w' := by
  have hdumper : ∀ k, (w₁.session k).pcapDumper = (w.session k).pcapDumper := fun k ↦
    unmoved_pcapDumper _ _ (h.handles.session k)
  have hlist : ∀ {k}, k ∈ slots → w₁.clientconnlist k = w.clientconnlist k := fun hk ↦
    h.others fun hkj ↦ hj (List.mem_singleton.mp hkj ▸ hk)
  have hself := List.mem_singleton.mpr (rfl : j = j)
  refine ⟨h.handles.trans h'.handles, fun {k d} hk hlisted hd hopen ↦ ?_, fun {k} hk hlost ↦ ?_,
    fun {n} hn ↦ ?_, fun {k} hk ↦ ?_⟩
  · -- A client is sent the packet in its turn, and neither before nor after.
    rcases List.mem_cons.mp hk with rfl | hk
    · obtain ⟨hwritten, hsame⟩ := h.sent hself hlisted hd hopen
      rw [h'.others hj, hsame, ← hwritten]
      refine ⟨h'.written fun k' hk' d' _ _ hd' heq ↦ ?_, rfl⟩
      exact hj (hw.dumper_inj ((hdumper k').symm.trans hd') hd heq ▸ hk')
    · have hbefore : w₁.written d.id = w.written d.id := by
        refine h.written fun k' hk' d' _ _ hd' heq ↦ ?_
        rw [List.mem_singleton.mp hk'] at hd'
        exact hj (hw.dumper_inj hd' hd heq ▸ hk)
      rw [← hbefore, ← hlist hk]
      refine h'.sent hk ?_ ((hdumper k).trans hd) (h.handles.findsOpen_iff.mpr hopen)
      rw [hlist hk]
      exact hlisted
  · rcases List.mem_cons.mp hk with rfl | hk
    · rw [h'.others hj]
      exact h.lost hself hlost
    · exact h'.lost hk fun hopen ↦ hlost (h.handles.findsOpen_iff.mp hopen)
  · have hfirst : w₁.written n = w.written n := by
      refine h.written fun k hk d ↦ ?_
      rw [List.mem_singleton.mp hk]
      exact hn j List.mem_cons_self d
    rw [← hfirst]
    refine h'.written fun k hk d hlisted hopen hd ↦ ?_
    refine hn k (List.mem_cons_of_mem j hk) d ?_ (h.handles.findsOpen_iff.mp hopen)
      ((hdumper k).symm.trans hd)
    rw [← hlist hk]
    exact hlisted
  · rw [h'.others fun hk' ↦ hk (List.mem_cons_of_mem j hk')]
    exact h.others fun hk' ↦ hk (List.mem_singleton.mp hk' ▸ List.mem_cons_self)

theorem delivers_distributePacket {slots : List Slot} (hslots : slots.Nodup) (hw : Clients w)
    (h : (distributePacket i header slots).exec answer w = some ((), w')) :
    Delivers answer (dumpRecord header (w.buffer i)) slots w w' := by
  induction slots generalizing w with
  | nil =>
    cases h
    exact ⟨refl_of Handles _, fun hj ↦ (nomatch hj), fun hj ↦ (nomatch hj), fun _ ↦ rfl,
      fun _ ↦ rfl⟩
  | cons j slots ih =>
    obtain ⟨hj, hslots⟩ := List.nodup_cons.mp hslots
    rw [distributePacket, Prog.exec_bind, Prog.exec_read, Option.bind_some] at h
    cases hlist : w.clientconnlist j with
    | none =>
      rw [hlist] at h
      exact (delivers_none _ hlist).cons hw (ih hslots hw h) hj
    | some k =>
      rw [hlist, Prog.exec_bind] at h
      obtain ⟨⟨⟨⟩, w₁⟩, hclient, h⟩ := Option.bind_eq_some_iff.mp h
      obtain ⟨hfirst, hbuffer⟩ := delivers_client hw hlist hclient
      rw [← hbuffer]
      refine Delivers.cons hw ?_ (ih hslots (hw.of_handles hfirst.handles) h) hj
      rw [hbuffer]
      exact hfirst

/-- **Handling one packet.** Every client on the list is sent the packet or taken off the list, as
its own descriptor is found. -/
theorem delivers_capturePacket {p : Packet} (hw : Clients w)
    (h : (capturePacket i p).exec answer w = some ((), w')) :
    Delivers answer p.record (List.finRange pcapSessionMaxSessions) w w' := by
  let w₀ : World := { w with buffer := Function.update w.buffer i p.data }.modifySession i
    fun s ↦ { s with monitor := s.monitor.map (Monitor.increment · 1 p.header.len.toNat) }
  have hbuffer : w₀.buffer i = p.data := Function.update_self ..
  have hfill : Handles w { w with buffer := Function.update w.buffer i p.data } :=
    ⟨rfl, fun _ ↦ .refl _, fun _ ↦ .inl rfl⟩
  have hhandles : Handles w w₀ := hfill.trans (handles_modifySession i _ fun _ ↦ by rfl)
  have hrest : (distributePacket i p.header (List.finRange pcapSessionMaxSessions)).exec answer w₀
      = some ((), w') := h
  have hdelivers := delivers_distributePacket (List.nodup_finRange _) (hw.of_handles hhandles) hrest
  rw [hbuffer] at hdelivers
  have hdumper : ∀ j, (w₀.session j).pcapDumper = (w.session j).pcapDumper := fun j ↦
    unmoved_pcapDumper _ _ (hhandles.session j)
  refine ⟨hhandles.trans hdelivers.handles, fun hj hlisted hd hopen ↦ ?_, fun hj hlost ↦ ?_,
    fun hn ↦ ?_, hdelivers.others⟩
  · exact hdelivers.sent hj hlisted ((hdumper _).trans hd) (hhandles.findsOpen_iff.mpr hopen)
  · exact hdelivers.lost hj fun hopen ↦ hlost (hhandles.findsOpen_iff.mp hopen)
  · refine hdelivers.written fun j hj d hlisted hopen hd ↦ ?_
    exact hn j hj d hlisted (hhandles.findsOpen_iff.mp hopen) ((hdumper j).symm.trans hd)

end Packet

/-! ## Packets and slots -/

section Slots

variable {c c' : System} {i j : Slot} {w' : World}

theorem System.Hosts.clients (h : c.Hosts) (hsound : c.Sound) : Clients c.world where
  slot := by
    intro j k hj
    obtain ⟨hk, d, ⟨t, ht, -⟩, -⟩ := (h.slot j).listed hj
    have hstarted := hsound.started ht
    exact ⟨hk, ((h.slot j).conn hstarted.module hstarted.used).2.1⟩
  serving := by
    intro j k hj
    obtain ⟨-, d, ⟨t, ht, -⟩, hd⟩ := (h.slot j).listed hj
    have hstarted := hsound.started ht
    have hsome : (c.world.session j).pcapDumper.isSome = true := by
      rw [hd]
      rfl
    exact ⟨((h.slot j).conn hstarted.module hstarted.used).2.2.2 hsome, hsome⟩
  dumper_inj := h.dumper_inj

theorem Handles.spares (h : Handles c.world w') : Spares j c ⟨w', c.pool⟩ := by
  refine spares_of_keeps (h.session j).keeps ?_
  rw [h.rest]

theorem System.Hosts.written_of_unlisted {answer : Query → ℤ} {r : Record} {slots : List Slot}
    {n : ℕ} (hdelivers : Delivers answer r slots c.world w')
    (hn : ∀ j d, (c.world.session j).pcapDumper = some d → d.id = n →
      c.world.clientconnlist j = none) : w'.written n = c.world.written n :=
  hdelivers.written fun j _ d hlisted _ hd heq ↦ hlisted (hn j d hd heq)

theorem System.Hosts.of_delivers {answer : Query → ℤ} {r : Record} {slots : List Slot}
    (h : c.Hosts) (hsound : c.Sound) (hdelivers : Delivers answer r slots c.world w') :
    System.Hosts ⟨w', c.pool⟩ := by
  have hdumper : ∀ j, (w'.session j).pcapDumper = (c.world.session j).pcapDumper := fun j ↦
    unmoved_pcapDumper _ _ (hdelivers.handles.session j)
  have hnext : w'.nextDumper = c.world.nextDumper := by rw [hdelivers.handles.rest]
  refine ⟨fun {j d} hd ↦ ?_, fun {j k d d'} hd hd' ↦ ?_, fun {n} hn ↦ ?_, fun j ↦ ?_⟩
  · exact (h.dumper_lt ((hdumper j).symm.trans hd)).trans_eq hnext.symm
  · exact h.dumper_inj ((hdumper j).symm.trans hd) ((hdumper k).symm.trans hd')
  · have hn : c.world.nextDumper ≤ n := hnext.symm.trans_le hn
    refine (System.Hosts.written_of_unlisted hdelivers fun j d hd heq ↦ ?_).trans (h.unwritten hn)
    exact absurd (heq ▸ h.dumper_lt hd) hn.not_gt
  · refine (h.slot j).of_spares hsound hdelivers.handles.spares (hdelivers.handles.unlisted j) ?_
      fun d hlist hd ↦ ?_
    · intro hinit
      change w'.clientconnlistInitialized = true
      rw [hdelivers.handles.rest]
      exact hinit
    · refine System.Hosts.written_of_unlisted hdelivers fun k d' hd' heq ↦ ?_
      rw [h.dumper_inj hd' hd heq]
      exact hlist

theorem System.Hosts.delivers {answer : Query → ℤ} {p : Packet} (h : c.Hosts) (hsound : c.Sound)
    (hstep : c.step (.captures i p answer) = some c') :
    ∃ w', c' = ⟨w', c.pool⟩ ∧
      Delivers answer p.record (List.finRange pcapSessionMaxSessions) c.world w' := by
  obtain ⟨⟨⟨⟩, w'⟩, hexec, rfl⟩ := Option.map_eq_some_iff.mp hstep
  exact ⟨w', rfl, delivers_capturePacket (h.clients hsound) hexec⟩

/-- **One event** keeps what is true of connections. -/
theorem System.Hosts.step {e : Event} (h : c.Hosts) (hsound : c.Sound)
    (hstep : c.step e = some c') : c'.Hosts := by
  by_cases he : ∃ i p answer, e = .captures i p answer
  · obtain ⟨i, p, answer, rfl⟩ := he
    obtain ⟨w', rfl, hdelivers⟩ := h.delivers hsound hstep
    exact h.of_delivers hsound hdelivers
  · have he : ∀ i p answer, e ≠ .captures i p answer := fun i p answer heq ↦
      he ⟨i, p, answer, heq⟩
    exact h.of_fate hsound (fun j ↦ h.fate hsound hstep he)
      ((hsound.step hstep).1.dumps hsound he)

theorem System.hosts_init : System.init.Hosts :=
  ⟨nofun, nofun, fun _ ↦ rfl, fun _ ↦ .of_idle nofun rfl rfl nofun⟩

theorem System.hosts_of_run {es : List Event} (h : System.init.run es = some c) :
    c.Sound ∧ c.Hosts :=
  System.run_induction (I := fun c ↦ c.Sound ∧ c.Hosts) (P := fun _ _ ↦ True)
    (fun _ _ _ hc _ hstep ↦ ⟨(hc.1.step hstep).2, hc.2.step hc.1 hstep⟩)
    (fun _ _ _ _ _ _ ↦ trivial) ⟨System.sound_init, System.hosts_init⟩ h

end Slots

/-! ## The life of a connection -/

/-- The connection in slot `j` is on the list. -/
structure System.Live (c : System) (j : Slot) (d : PcapDumper) : Prop where
  /-- It is listed. -/
  listed : c.world.clientconnlist j ≠ none
  /-- Its runner is done. -/
  serves : c.Serves j d

/-- Nothing will be written to stream `n` any more: a session that still has its dumper has been
taken off the list, and its runner is done. -/
structure System.Over (c : System) (n : ℕ) : Prop where
  /-- The stream has been opened. -/
  lt : n < c.world.nextDumper
  /-- Who has its dumper. -/
  unlisted : ∀ {j d}, (c.world.session j).pcapDumper = some d → d.id = n →
    c.Serves j d ∧ c.world.clientconnlist j = none

section Life

variable {c c' : System} {i j : Slot} {d : PcapDumper} {e : Event} {n : ℕ}

theorem System.Over.step (hover : c.Over n) (h : c.Hosts) (hsound : c.Sound)
    (hstep : c.step e = some c') : c'.Over n ∧ c'.world.written n = c.world.written n := by
  by_cases he : ∃ i p answer, e = .captures i p answer
  · obtain ⟨i, p, answer, rfl⟩ := he
    obtain ⟨w', rfl, hdelivers⟩ := h.delivers hsound hstep
    have hhandles := hdelivers.handles
    refine ⟨⟨?_, fun {j d} hd heq ↦ ?_⟩, System.Hosts.written_of_unlisted hdelivers fun j d hd heq ↦
      (hover.unlisted hd heq).2⟩
    · change n < w'.nextDumper
      rw [hhandles.rest]
      exact hover.lt
    · have hdumper : (w'.session j).pcapDumper = (c.world.session j).pcapDumper :=
        unmoved_pcapDumper _ _ (hhandles.session j)
      obtain ⟨hserves, hlist⟩ := hover.unlisted (hdumper.symm.trans hd) heq
      refine ⟨hhandles.spares.serves hserves, ?_⟩
      rcases hhandles.unlisted j with hsame | hnone
      · exact hsame.trans hlist
      · exact hnone
  · have he : ∀ i p answer, e ≠ .captures i p answer := fun i p answer heq ↦
      he ⟨i, p, answer, heq⟩
    have hdumps := (hsound.step hstep).1.dumps hsound he
    obtain ⟨i, hdumper⟩ := hdumps.dumper
    refine ⟨⟨hover.lt.trans_le hdumps.nextDumper, fun {j d} hd heq ↦ ?_⟩,
      congrFun hdumps.written n⟩
    rcases hdumper hd with hold | ⟨-, hid, -⟩
    · obtain ⟨hserves, hlist⟩ := hover.unlisted hold heq
      cases h.fate (j := j) hsound hstep he with
      | spared hspares hsame => exact ⟨hspares.serves hserves, hsame.trans hlist⟩
      | stopped _ _ _ hnone _ =>
        rw [hnone] at hd
        cases hd
      | changed hserves' => exact absurd hserves (hserves' d)
    · exact absurd (heq.symm.trans hid) hover.lt.ne

theorem System.Over.run {es : List Event} (hover : c.Over n) (h : c.Hosts) (hsound : c.Sound)
    (hrun : c.run es = some c') : c'.world.written n = c.world.written n := by
  induction es generalizing c with
  | nil =>
    cases hrun
    rfl
  | cons e es ih =>
    obtain ⟨c₁, hstep, hrun⟩ := Option.bind_eq_some_iff.mp hrun
    obtain ⟨hover₁, hwritten⟩ := hover.step h hsound hstep
    exact (ih hover₁ (h.step hsound hstep) (hsound.step hstep).2 hrun).trans hwritten

theorem System.Live.running (hlive : c.Live j d) (h : c.Hosts) (hsound : c.Sound) :
    (c.world.session j).state = .running ∧ (c.world.session j).superviseFd = true ∧
      (c.world.session j).fd = d.fd ∧ 0 < d.fd ∧ d.fd ∈ c.world.openFds := by
  obtain ⟨t, ht, -⟩ := hlive.serves.thread
  have hd := hlive.serves.dumper
  have hstarted := hsound.started ht
  obtain ⟨-, -, hsupervise, hready⟩ := (h.slot j).conn hstarted.module hstarted.used
  obtain ⟨-, -, hshape⟩ := (hsound.fit j).shape _ hstarted.module
  obtain ⟨hfd, hpos⟩ := hshape d hd
  refine ⟨hready (by rw [hd]; rfl), hsupervise, hfd.symm, hfd ▸ hpos, hsound.ledger.subset j ?_⟩
  refine Finset.mem_union_right _ ?_
  rw [Session.dumperFds, hd]
  exact Finset.mem_singleton_self _

theorem System.Live.findsOpen_iff (hlive : c.Live j d) (h : c.Hosts) (hsound : c.Sound)
    {answer : Query → ℤ} : c.world.FindsOpen answer j ↔ answer (.pollDeliver j) = 0 := by
  obtain ⟨-, -, hfd, hpos, hopen⟩ := hlive.running h hsound
  rw [World.FindsOpen, World.seemsOpen, hfd]
  exact ⟨fun hseems ↦ (hseems.resolve_left hpos.not_gt).2, fun hevents ↦ .inr ⟨hopen, hevents⟩⟩

/-- A visit stops the connection when session handling is closing, or when its descriptor is found
lost. -/
theorem System.Live.stops_iff (hlive : c.Live j d) (h : c.Hosts) (hsound : c.Sound)
    {answer : Query → ℤ} : c.world.Stops answer j ↔
      c.world.handlingState ≠ .running ∨ 2 < d.fd ∧ answer (.pollSupervised j) ≠ 0 := by
  obtain ⟨hstate, hsupervise, hfd, hpos, hopen⟩ := hlive.running h hsound
  have hlost : c.world.Lost answer j ↔ 2 < d.fd ∧ answer (.pollSupervised j) ≠ 0 := by
    rw [World.Lost, World.seemsOpen, hfd]
    constructor
    · rintro ⟨-, hlarge, hseems⟩
      exact ⟨hlarge, fun hevents ↦ hseems (.inr ⟨hopen, hevents⟩)⟩
    · rintro ⟨hlarge, hevents⟩
      refine ⟨hsupervise, hlarge, ?_⟩
      rintro (hneg | ⟨-, heq⟩)
      · exact hpos.not_gt hneg
      · exact hevents heq
  rw [World.Stops, World.orderedState, hstate, ← hlost]
  by_cases hl : c.world.Lost answer j
  · simp [hl]
  · by_cases hclosing : c.world.handlingState = .running
    · simp [hl, hclosing]
    · simp [hl, hclosing]

theorem System.Hosts.over_of_unlisted (h : c.Hosts) (hserves : c.Serves j d)
    (hlist : c.world.clientconnlist j = none) : c.Over d.id := by
  refine ⟨h.dumper_lt hserves.dumper, fun {k d'} hd' heq ↦ ?_⟩
  obtain rfl := h.dumper_inj hd' hserves.dumper heq
  obtain rfl := Option.some.inj (hd'.symm.trans hserves.dumper)
  exact ⟨hserves, hlist⟩

theorem System.Hosts.over_of_stopped (h : c.Hosts) (hd : (c.world.session j).pcapDumper = some d)
    (hdumps : Dumps c.world c'.world) (hnone : (c'.world.session j).pcapDumper = none) :
    c'.Over d.id := by
  obtain ⟨i, hdumper⟩ := hdumps.dumper
  refine ⟨(h.dumper_lt hd).trans_le hdumps.nextDumper, fun {k d'} hd' heq ↦ ?_⟩
  rcases hdumper hd' with hold | ⟨-, hid, -⟩
  · rw [h.dumper_inj hold hd heq, hnone] at hd'
    cases hd'
  · exact absurd (heq.symm.trans hid) (h.dumper_lt hd).ne

theorem EventEffect.handlingState {w' : World} (h : EventEffect c e w') (he : e ≠ .closes) :
    w'.handlingState = c.world.handlingState := by
  cases h with
  | opens h => exact h.rest.1
  | visits h =>
    cases h with
    | tended _ _ htends => rw [htends.rest]
    | stopped => rw [World.stopAs_rest]
    | _ => rfl
  | runs _ h => exact (h.rest (i := 0)).1
  | captures h => rw [h.rest]
  | closes => exact absurd rfl he

theorem System.Live.unnoticed (hlive : c.Live j d) (h : c.Hosts) (hsound : c.Sound)
    (hstep : c.step e = some c') (he : e.sight j = none) :
    c'.Live j d ∧ c'.world.written d.id = c.world.written d.id ∧
      c'.world.handlingState = c.world.handlingState := by
  have hcaptures : ∀ i p answer, e ≠ .captures i p answer := by
    rintro i p answer rfl
    cases he
  have heffect := (hsound.step hstep).1
  refine ⟨?_, congrFun (heffect.dumps hsound hcaptures).written d.id, heffect.handlingState ?_⟩
  · cases h.fate (j := j) hsound hstep hcaptures with
    | spared hspares hlist => exact ⟨hlist ▸ hlive.listed, hspares.serves hlive.serves⟩
    | stopped heq =>
      rw [heq, Event.sight, if_pos rfl] at he
      cases he
    | changed hserves => exact absurd hlive.serves (hserves d)
  · rintro rfl
    cases he

/-- A packet is dumped on the connection, or the connection is taken off the list. -/
theorem System.Live.packet {p : Packet} {answer : Query → ℤ} (hlive : c.Live j d) (h : c.Hosts)
    (hsound : c.Sound) (hstep : c.step (.captures i p answer) = some c') :
    answer (.pollDeliver j) = 0 ∧ c'.Live j d ∧
        c'.world.written d.id = c.world.written d.id ++ taggedChunks [(j, p.record)] ∧
        c'.world.handlingState = c.world.handlingState ∨
      answer (.pollDeliver j) ≠ 0 ∧ c'.Over d.id ∧
        c'.world.written d.id = c.world.written d.id := by
  have hhosts := h.step hsound hstep
  have hhandling := (hsound.step hstep).1.handlingState nofun
  obtain ⟨w', rfl, hdelivers⟩ := h.delivers hsound hstep
  have hserves := hdelivers.handles.spares.serves hlive.serves
  by_cases hopen : c.world.FindsOpen answer j
  · obtain ⟨hwritten, hlist⟩ :=
      hdelivers.sent (List.mem_finRange j) hlive.listed hlive.serves.dumper hopen
    refine .inl ⟨(hlive.findsOpen_iff h hsound).mp hopen, ⟨?_, hserves⟩, hwritten, hhandling⟩
    change w'.clientconnlist j ≠ none
    rw [hlist]
    exact hlive.listed
  · refine .inr ⟨fun hevents ↦ hopen ((hlive.findsOpen_iff h hsound).mpr hevents),
      hhosts.over_of_unlisted hserves (hdelivers.lost (List.mem_finRange j) hopen), ?_⟩
    refine hdelivers.written fun k _ d' _ hopen' hd' heq ↦ hopen ?_
    rw [← h.dumper_inj hd' hlive.serves.dumper heq]
    exact hopen'

/-- A visit leaves the connection on the list, or stops it. -/
theorem System.Live.visited {answer : Query → ℤ} (hlive : c.Live j d) (h : c.Hosts)
    (hsound : c.Sound) (hstep : c.step (.visits j answer) = some c') :
    c'.world.written d.id = c.world.written d.id ∧
      (c.world.Stops answer j ∧ c'.Over d.id ∨ ¬ c.world.Stops answer j ∧ c'.Live j d ∧
        c'.world.handlingState = c.world.handlingState) := by
  have heffect := (hsound.step hstep).1
  have hdumps := heffect.dumps hsound nofun
  refine ⟨congrFun hdumps.written d.id, ?_⟩
  by_cases hstops : c.world.Stops answer j
  · refine .inl ⟨hstops, h.over_of_stopped hlive.serves.dumper hdumps ?_⟩
    obtain ⟨⟨counted, w'⟩, hexec, rfl⟩ := Option.map_eq_some_iff.mp hstep
    obtain ⟨m, newState, hm, -, heq⟩ := (hsound.visitEffect hexec).eq_stopAs hstops
    change (w'.session j).pcapDumper = none
    rw [heq, World.session_stopAs_self]
    exact ((hsound.fit j).cleared hm newState).2.2.2.1
  · refine .inr ⟨hstops, ?_, heffect.handlingState nofun⟩
    cases h.fate (j := j) hsound hstep nofun with
    | spared hspares hlist => exact ⟨hlist ▸ hlive.listed, hspares.serves hlive.serves⟩
    | stopped heq hstops' =>
      cases heq
      exact absurd hstops' hstops
    | changed hserves => exact absurd hlive.serves (hserves d)

theorem taggedChunks_cons (r : Slot × Record) (l : List (Slot × Record)) :
    taggedChunks (r :: l) = taggedChunks [r] ++ taggedChunks l := rfl

/-- From the moment a connection is on the list, its stream grows by what it receives. -/
theorem System.Live.run {es : List Event} (hlive : c.Live j d) (h : c.Hosts) (hsound : c.Sound)
    (hrun : c.run es = some c') :
    c'.world.written d.id = c.world.written d.id ++
      taggedChunks ((received d.fd (decide (c.world.handlingState ≠ .running))
        (es.filterMap (Event.sight j))).map fun p ↦ (j, p.record)) := by
  induction es generalizing c with
  | nil =>
    cases hrun
    exact (List.append_nil _).symm
  | cons e es ih =>
    obtain ⟨c₁, hstep, hrest⟩ := Option.bind_eq_some_iff.mp hrun
    have h₁ := h.step hsound hstep
    have hsound₁ := (hsound.step hstep).2
    -- events that the connection does not see
    have hunnoticed : e.sight j = none → c'.world.written d.id = c.world.written d.id ++
        taggedChunks ((received d.fd (decide (c.world.handlingState ≠ .running))
          (es.filterMap (Event.sight j))).map fun p ↦ (j, p.record)) := by
      intro he
      obtain ⟨hlive₁, hwritten, hhandling⟩ := hlive.unnoticed h hsound hstep he
      rw [ih hlive₁ h₁ hsound₁ hrest, hwritten, hhandling]
    cases e with
    | opens => exact hunnoticed rfl
    | runs => exact hunnoticed rfl
    | closes =>
      obtain ⟨hlive₁, hwritten, hhandling⟩ : c₁.Live j d ∧ c₁.world.written = c.world.written ∧
          c₁.world.handlingState = .terminating := by
        cases hstep
        exact ⟨⟨hlive.listed, hlive.serves.thread, hlive.serves.dumper⟩, rfl, rfl⟩
      rw [ih hlive₁ h₁ hsound₁ hrest, hwritten, hhandling]
      rfl
    | captures i p answer =>
      have hsight : (Event.captures i p answer).sight j
          = some (.packet p (answer (.pollDeliver j))) := rfl
      rw [List.filterMap_cons_some hsight, received]
      rcases hlive.packet h hsound hstep with ⟨hevents, hlive₁, hwritten, hhandling⟩ |
        ⟨hevents, hover, hwritten⟩
      · -- the packet is written, and the connection goes on
        rw [if_pos hevents, List.map_cons, taggedChunks_cons, ← List.append_assoc, ← hwritten,
          ← hhandling]
        exact ih hlive₁ h₁ hsound₁ hrest
      · -- the descriptor does not seem open, and nothing is written any more
        rw [if_neg hevents, hover.run h₁ hsound₁ hrest, hwritten]
        exact (List.append_nil _).symm
    | visits i answer =>
      by_cases hi : i = j
      · subst hi
        have hiff : decide (c.world.handlingState ≠ .running) = true ∨
            2 < d.fd ∧ answer (.pollSupervised i) ≠ 0 ↔ c.world.Stops answer i := by
          rw [decide_eq_true_eq, hlive.stops_iff h hsound]
        rw [List.filterMap_cons_some (by rw [Event.sight, if_pos rfl]), received]
        obtain ⟨hwritten, ⟨hstops, hover⟩ | ⟨hstops, hlive₁, hhandling⟩⟩ :=
          hlive.visited h hsound hstep
        · -- the visit stops the connection
          rw [if_pos (hiff.mpr hstops), hover.run h₁ hsound₁ hrest, hwritten]
          exact (List.append_nil _).symm
        · -- it goes on
          rw [if_neg (hiff.not.mpr hstops), ← hwritten, ← hhandling]
          exact ih hlive₁ h₁ hsound₁ hrest
      · have hsight : (Event.visits i answer).sight j = none := by rw [Event.sight, if_neg hi]
        rw [List.filterMap_cons_none hsight]
        exact hunnoticed hsight

/-- An event puts the connection in slot `j` on the list, with its dumper. -/
structure System.Enlists (c c' : System) (j : Slot) (d : PcapDumper) : Prop where
  /-- It was not on the list. -/
  unlisted : c.world.clientconnlist j = none
  /-- It is on the list now. -/
  listed : c'.world.clientconnlist j ≠ none
  /-- The dumper. -/
  dumper : (c'.world.session j).pcapDumper = some d

/-- The connection with stream `n` has been put on the list in a run. -/
def Enlisted (es : List Event) (n : ℕ) : Prop :=
  ∃ es₁ e es₂ c₁ c₂ j d, es = es₁ ++ e :: es₂ ∧ System.init.run es₁ = some c₁ ∧
    c₁.step e = some c₂ ∧ System.Enlists c₁ c₂ j d ∧ d.id = n

theorem Enlisted.concat {es : List Event} (h : Enlisted es n) (e : Event) :
    Enlisted (es ++ [e]) n := by
  obtain ⟨es₁, e₁, es₂, c₁, c₂, j, d, rfl, hrun, hstep, henlists, rfl⟩ := h
  refine ⟨es₁, e₁, es₂ ++ [e], c₁, c₂, j, d, ?_, hrun, hstep, henlists, rfl⟩
  rw [List.append_assoc, List.cons_append]

theorem System.Hosts.live_of_listed (h : c.Hosts) (hlist : c.world.clientconnlist j ≠ none) :
    ∃ d, c.Live j d := by
  obtain ⟨k, hk⟩ := Option.ne_none_iff_exists'.mp hlist
  obtain ⟨-, d, hserves⟩ := (h.slot j).listed hk
  exact ⟨d, hlist, hserves⟩

theorem System.Hosts.enlists (h : c.Hosts) (hsound : c.Sound) (hstep : c.step e = some c')
    (hlist : c.world.clientconnlist j = none) (hlist' : c'.world.clientconnlist j ≠ none) :
    ∃ d, c'.Live j d ∧ c'.world.written d.id = [] := by
  obtain ⟨d, hlive⟩ := (h.step hsound hstep).live_of_listed hlist'
  refine ⟨d, hlive, ?_⟩
  by_cases he : ∃ i p answer, e = .captures i p answer
  · obtain ⟨i, p, answer, rfl⟩ := he
    obtain ⟨w', rfl, hdelivers⟩ := h.delivers hsound hstep
    refine absurd ?_ hlist'
    rcases hdelivers.handles.unlisted j with hsame | hnone
    · exact hsame.trans hlist
    · exact hnone
  · cases h.fate (j := j) hsound hstep fun i p answer heq ↦ he ⟨i, p, answer, heq⟩ with
    | spared _ hsame => exact absurd (hsame.trans hlist) hlist'
    | stopped _ _ hnone => exact absurd hnone hlist'
    | changed _ hfresh => exact hfresh d hlive.serves

theorem System.Live.of_step (h : c.Hosts) (hsound : c.Sound) (hstep : c.step e = some c')
    (hlist : c.world.clientconnlist j ≠ none) (hlive : c'.Live j d) : c.Live j d := by
  obtain ⟨d', hd'⟩ := h.live_of_listed hlist
  suffices hsame : (c'.world.session j).pcapDumper = (c.world.session j).pcapDumper by
    obtain rfl := Option.some.inj (hd'.serves.dumper.symm.trans
      (hsame.symm.trans hlive.serves.dumper))
    exact hd'
  by_cases he : ∃ i p answer, e = .captures i p answer
  · obtain ⟨i, p, answer, rfl⟩ := he
    obtain ⟨w', rfl, hdelivers⟩ := h.delivers hsound hstep
    exact unmoved_pcapDumper _ _ (hdelivers.handles.session j)
  · cases h.fate (j := j) hsound hstep fun i p answer heq ↦ he ⟨i, p, answer, heq⟩ with
    | spared hspares _ => exact hspares.session.pcapDumper
    | stopped _ _ hnone => exact absurd hnone hlive.listed
    | changed hserves => exact absurd hd'.serves (hserves d')

/-- A packet is written to the streams of connections on the list. -/
theorem System.Hosts.live_of_written (h : c.Hosts) (hsound : c.Sound) (hstep : c.step e = some c')
    (hwritten : c'.world.written n ≠ c.world.written n) : ∃ j d, c.Live j d ∧ d.id = n := by
  by_cases he : ∃ i p answer, e = .captures i p answer
  · obtain ⟨i, p, answer, rfl⟩ := he
    obtain ⟨w', rfl, hdelivers⟩ := h.delivers hsound hstep
    by_contra hnone
    refine hwritten (System.Hosts.written_of_unlisted hdelivers fun j d hd heq ↦ ?_)
    by_contra hlist
    obtain ⟨d', hd'⟩ := h.live_of_listed hlist
    obtain rfl := Option.some.inj (hd.symm.trans hd'.serves.dumper)
    exact hnone ⟨j, d, hd', heq⟩
  · have hdumps := (hsound.step hstep).1.dumps hsound fun i p answer heq ↦ he ⟨i, p, answer, heq⟩
    exact absurd (congrFun hdumps.written n) hwritten

/-- Whatever is on the list, and whatever has been written to, has been put on the list. -/
theorem enlisted_of_run {es : List Event} (hrun : System.init.run es = some c) :
    (∀ {j d}, c.Live j d → Enlisted es d.id) ∧ ∀ {n}, c.world.written n ≠ [] → Enlisted es n := by
  induction es using List.reverseRecOn generalizing c with
  | nil =>
    cases hrun
    exact ⟨fun hlive ↦ absurd rfl hlive.listed, fun hn ↦ absurd rfl hn⟩
  | append_singleton es e ih =>
    rw [System.run_append] at hrun
    obtain ⟨c₁, hrun₁, hrun⟩ := Option.bind_eq_some_iff.mp hrun
    obtain ⟨c₂, hstep, hc⟩ := Option.bind_eq_some_iff.mp hrun
    cases hc
    obtain ⟨hsound, h⟩ := System.hosts_of_run hrun₁
    obtain ⟨ihlive, ihwritten⟩ := ih hrun₁
    refine ⟨fun {j d} hlive ↦ ?_, fun {n} hn ↦ ?_⟩
    · by_cases hlist : c₁.world.clientconnlist j = none
      · exact ⟨es, e, [], c₁, c, j, d, rfl, hrun₁, hstep,
          ⟨hlist, hlive.listed, hlive.serves.dumper⟩, rfl⟩
      · exact (ihlive (hlive.of_step h hsound hstep hlist)).concat e
    · by_cases hwritten : c.world.written n = c₁.world.written n
      · exact (ihwritten (hwritten ▸ hn)).concat e
      · obtain ⟨j, d, hlive, rfl⟩ := h.live_of_written hsound hstep hwritten
        exact (ihlive hlive).concat e

/-- **Distribution delivers one contiguous block per connection.** In every run, a stream that has
been written to is that of a connection that was put on the list. The stream of a connection that is
put on the list holds, from then on, the packets that the connection receives according to its own
sights, and these are the packets handled since, from the first one on and without a gap. -/
theorem distribution_contiguous {es : List Event} (hrun : System.init.run es = some c) :
    (∀ n, c.world.written n ≠ [] → ∃ es₁ e es₂ c₁ c₂ j d, es = es₁ ++ e :: es₂ ∧
      System.init.run es₁ = some c₁ ∧ c₁.step e = some c₂ ∧ System.Enlists c₁ c₂ j d ∧ d.id = n) ∧
    ∀ es₁ e es₂ c₁ c₂ j, es = es₁ ++ e :: es₂ → System.init.run es₁ = some c₁ →
      c₁.step e = some c₂ → c₁.world.clientconnlist j = none →
      c₂.world.clientconnlist j ≠ none →
      ∃ d packets, (c₂.world.session j).pcapDumper = some d ∧
        packets = received d.fd (decide (c₂.world.handlingState ≠ .running))
          (es₂.filterMap (Event.sight j)) ∧
        c.world.written d.id = taggedChunks (packets.map fun p ↦ (j, p.record)) ∧
        packets <+: handled es₂ := by
  refine ⟨fun n hn ↦ (enlisted_of_run hrun).2 hn, ?_⟩
  rintro es₁ e es₂ c₁ c₂ j rfl hrun₁ hstep hlist hlist'
  obtain ⟨hsound, h⟩ := System.hosts_of_run hrun₁
  have hrest : c₂.run es₂ = some c := by
    rw [System.run_append, hrun₁, Option.bind_some, System.run_cons, hstep,
      Option.bind_some] at hrun
    exact hrun
  obtain ⟨d, hlive, hempty⟩ := h.enlists hsound hstep hlist hlist'
  refine ⟨d, _, hlive.serves.dumper, rfl, ?_, received_initial ..⟩
  rw [hlive.run (h.step hsound hstep) (hsound.step hstep).2 hrest, hempty, List.nil_append]

/-- A client is accepted and put on the list. The first packet is dumped on it, and the descriptor
is found lost at the second one, so that the third one is not dumped on it either. -/
theorem distribution_contiguous_lost_client :
    ∃ es c p, System.init.run es = some c ∧ handled es = [p, p, p] ∧
      c.world.written 0 = taggedChunks [(1, p.record)] ∧
      ∃ es₁ e es₂ c₁ c₂ j d, es = es₁ ++ e :: es₂ ∧ System.init.run es₁ = some c₁ ∧
        c₁.step e = some c₂ ∧ System.Enlists c₁ c₂ j d ∧ d.id = 0 := by
  let silent : Query → ℤ := fun q ↦ if q = .openServerSocket then 3 else 0
  let lost : Query → ℤ := fun q ↦ if q = .pollDeliver 1 then 1 else 0
  let p : Packet := ⟨⟨0, 0, 1, 1⟩, fun _ ↦ 7⟩
  let es : List Event := [.opens .server silent, .visits 0 silent, .runs 1 0, .runs 1 1, .runs 1 0,
    .runs 1 0, .runs 1 4, .runs 1 0, .visits 1 silent, .runs 2 0, .runs 2 0, .runs 2 0, .runs 2 0,
    .runs 2 0, .runs 2 0, .runs 2 0, .captures 2 p silent, .captures 2 p lost, .captures 2 p silent]
  have hrun : ((System.init.run es).map fun c ↦ c.world.written 0)
      = some (taggedChunks [(1, p.record)]) := by decide +kernel
  obtain ⟨c, hrun, hwritten⟩ := Option.map_eq_some_iff.mp hrun
  refine ⟨es, c, p, hrun, rfl, hwritten, (distribution_contiguous hrun).1 0 ?_⟩
  rw [hwritten]
  nofun

end Life

end DistributorMerger
