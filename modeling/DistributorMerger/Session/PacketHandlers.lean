import DistributorMerger.Session.Supervision

/-!
# Packet handlers

`pcap_loop` fills the buffer of its capture handle with a packet and calls a handler for it. A
client session's handler writes the packet through the merger, under the merge lock; a capture
session's handler writes it to every client on the list.

The header that a handler receives is a local of `pcap_loop`, and the merger's modifiable copy of
it a local of the handler. The bytes are those in the buffer of the session's capture handle, which
untunnelling rewrites in place. `pcap_dump` makes two writes, header and bytes.
-/

namespace DistributorMerger

/-- `monitor_increment` on the monitor of a session, which does nothing without a monitor. -/
def monitorIncrement (i : Slot) (packets bytes : ℤ) : SessionProg Unit :=
  modifyMonitor i (·.increment packets bytes)

/-- `pcap_loop` reads the bytes of the next packet into the buffer of session `i`. -/
def fillBuffer (i : Slot) (data : Memory) : SessionProg Unit :=
  Prog.modify fun w ↦ { w with buffer := Function.update w.buffer i data }

/-- A chunk is written to a stream on behalf of session `i`. -/
def World.write (w : World) (dumper : PcapDumper) (i : Slot) (chunk : Chunk) : World :=
  { w with written := Function.update w.written dumper.id (w.written dumper.id ++ [(i, chunk)]) }

/-- `pcap_dump`, on behalf of session `i`, of a header and the bytes that `data` points to. -/
def pcapDump (dumper : Option PcapDumper) (i : Slot) (header : PcapPkthdr) (data : World → Memory) :
    SessionProg Unit := do
  match dumper with
  | none => Prog.stuck
  | some dumper =>
    Prog.modify (·.write dumper i (.header header))
    Prog.modify fun w ↦ w.write dumper i (.bytes ((data w).bytes header.caplen.toNat))

/-! ## Merging -/

/-- `pcapsession_untunnel_packet` on the buffer of session `i`, counted by the merger's monitor. -/
def World.untunnel (w : World) (merger i : Slot) (header : PcapPkthdr) : World :=
  let u := pcapsessionUntunnelPacket (w.session merger).monitor header (w.buffer i)
  { w with buffer := Function.update w.buffer i u.data }.modifySession merger
    ({ · with monitor := u.monitor })

/-- The modifiable copy of the header, untunnelled when the merger says so. -/
def untunnelledHeader (merger i : Slot) (header : PcapPkthdr) : SessionProg PcapPkthdr := do
  if ← readSession merger (·.untunnel) then
    Prog.update (·.untunnel merger i header) fun w ↦
      (pcapsessionUntunnelPacket (w.session merger).monitor header (w.buffer i)).header
  else pure header

/-- `pthread_mutex_lock(&merge_mutex)`. -/
def lockMergeMutex (me : Agent) : SessionProg Unit :=
  Prog.await (fun w ↦ w.mergeMutex.isNone) ({ · with mergeMutex := some me })

/-- `pthread_mutex_unlock(&merge_mutex)`. -/
def unlockMergeMutex : SessionProg Unit := Prog.modify ({ · with mergeMutex := none })

/-- `pcapsession_merger_packet_handler` for a packet whose bytes are in the buffer of session `i`.
-/
def pcapsessionMergerPacketHandler (i : Slot) (header : PcapPkthdr) : SessionProg Unit := do
  match ← readSession i (·.handler) with
  | none => pure ()
  | some merger =>
    lockMergeMutex (.session i)
    let newHeader ← untunnelledHeader merger i header
    lockPcapMutex (.session i) merger
    let dumper ← readSession merger (·.pcapDumper)
    pcapDump dumper i newHeader (·.buffer i)
    unlockPcapMutex merger
    monitorIncrement i 1 header.len.toNat
    monitorIncrement merger 1 header.len.toNat
    unlockMergeMutex

/-- `pcap_loop` on the connection of client session `i`, for the packets that arrive on it. -/
def mergerPcapLoop (i : Slot) : List Packet → SessionProg Unit
  | [] => pure ()
  | p :: packets => do
    fillBuffer i p.data
    pcapsessionMergerPacketHandler i p.header
    mergerPcapLoop i packets

/-! ## Distribution -/

/-- `pcapsession_clientconn_client_handle_packet` for the client in slot `client`, by the thread of
session `i`. -/
def pcapsessionClientconnClientHandlePacket (i client : Slot) (header : PcapPkthdr) :
    SessionProg Unit := do
  if (← readSession client (·.state)) = .running then
    let fd ← readSession client (·.fd)
    if ← iotestsFdOpen (.pollDeliver client) fd then
      lockPcapMutex (.session i) client
      let dumper ← readSession client (·.pcapDumper)
      pcapDump dumper client header (·.buffer i)
      unlockPcapMutex client
      monitorIncrement client 1 header.len.toNat
    else
      let id ← readSession client (·.id)
      Prog.modify (·.unlist id)

/-- The `for` loop of `pcapsession_clientconn_packet_handler`. -/
def distributePacket (i : Slot) (header : PcapPkthdr) : List Slot → SessionProg Unit
  | [] => pure ()
  | j :: slots => do
    match ← Prog.read (·.clientconnlist j) with
    | none => pure ()
    | some client => pcapsessionClientconnClientHandlePacket i client header
    distributePacket i header slots

/-- `pcapsession_clientconn_packet_handler` for a packet whose bytes are in the buffer of capture
session `i`. -/
def pcapsessionClientconnPacketHandler (i : Slot) (header : PcapPkthdr) : SessionProg Unit := do
  monitorIncrement i 1 header.len.toNat
  distributePacket i header (List.finRange pcapSessionMaxSessions)

/-! ## What handlers touch -/

/-- A step changes nothing but monitors, locks, buffers and streams, and takes client connections
off the list. -/
structure Handles (w w' : World) : Prop where
  /-- What is shared. -/
  rest : w' = { w with session := w'.session, clientconnlist := w'.clientconnlist,
                       mergeMutex := w'.mergeMutex, written := w'.written, buffer := w'.buffer }
  /-- What belongs to a session. -/
  session : ∀ j, (w.session j).Unmoved (w'.session j)
  /-- No client connection is put on the list. -/
  unlisted : ∀ j, w'.clientconnlist j = w.clientconnlist j ∨ w'.clientconnlist j = none

instance : Std.Refl Handles := ⟨fun _ ↦ ⟨rfl, fun _ ↦ .refl _, fun _ ↦ .inl rfl⟩⟩

theorem Handles.trans {w w' w'' : World} (h : Handles w w') (h' : Handles w' w'') :
    Handles w w'' := by
  refine ⟨?_, fun j ↦ (h.session j).trans (h'.session j), fun j ↦ ?_⟩
  · rw [h'.rest, h.rest]
  · rcases h'.unlisted j with hj | hj
    · rw [hj]
      exact h.unlisted j
    · exact .inr hj

instance : IsTrans World Handles := ⟨fun _ _ _ ↦ Handles.trans⟩

section Handles

variable (i : Slot)

theorem handles_modifySession (w : World) {f : Session → Session}
    (hf : ∀ s : Session, s.Unmoved (f s)) : Handles w (w.modifySession i f) := by
  refine ⟨rfl, fun j ↦ ?_, fun _ ↦ .inl rfl⟩
  by_cases hj : j = i
  · rw [hj, World.session_modifySession_self]
    exact hf _
  · exact w.unmoved_modifySession_of_ne hj f

theorem handles_unlist (w : World) : Handles w (w.unlist i) := by
  refine ⟨rfl, fun _ ↦ .refl _, fun j ↦ ?_⟩
  by_cases hj : j = i
  · exact .inr (hj ▸ Function.update_self ..)
  · exact .inl (Function.update_of_ne hj _ _)

theorem handles_monitorIncrement (packets bytes : ℤ) :
    (monitorIncrement i packets bytes).Within Handles :=
  .modify fun w ↦ handles_modifySession i w fun _ ↦ rfl

theorem handles_fillBuffer (data : Memory) : (fillBuffer i data).Within Handles :=
  .modify fun _ ↦ ⟨rfl, fun _ ↦ .refl _, fun _ ↦ .inl rfl⟩

theorem handles_lockPcapMutex (me : Agent) : (lockPcapMutex me i).Within Handles :=
  .await fun w _ ↦ handles_modifySession i w fun _ ↦ rfl

theorem handles_unlockPcapMutex : (unlockPcapMutex i).Within Handles :=
  .modify fun w ↦ handles_modifySession i w fun _ ↦ rfl

theorem handles_pcapDump (dumper : Option PcapDumper) (header : PcapPkthdr)
    (data : World → Memory) : (pcapDump dumper i header data).Within Handles := by
  have hwrite : ∀ w dumper chunk, Handles w (w.write dumper i chunk) := fun _ _ _ ↦
    ⟨rfl, fun _ ↦ .refl _, fun _ ↦ .inl rfl⟩
  cases dumper with
  | none => exact .stuck
  | some dumper =>
    exact (Prog.Within.modify fun w ↦ hwrite w _ _).bind fun _ ↦ .modify fun w ↦ hwrite w _ _

theorem handles_pcapsessionMergerPacketHandler (header : PcapPkthdr) :
    (pcapsessionMergerPacketHandler i header).Within Handles := by
  have hmerge : ∀ (w : World) a, Handles w { w with mergeMutex := a } := fun _ _ ↦
    ⟨rfl, fun _ ↦ .refl _, fun _ ↦ .inl rfl⟩
  refine (Prog.Within.read _).bind fun merger ↦ ?_
  cases merger with
  | none => exact .pure ()
  | some merger =>
    refine (Prog.Within.await fun w _ ↦ hmerge w _).bind fun _ ↦ Prog.Within.bind ?_
      fun newHeader ↦ ?_
    · refine (Prog.Within.read _).bind fun untunnel ↦ .ite (.update _ fun w ↦ ?_) (.pure header)
      have hbuffer : ∀ b, Handles w { w with buffer := b } := fun _ ↦
        ⟨rfl, fun _ ↦ .refl _, fun _ ↦ .inl rfl⟩
      rw [World.untunnel]
      exact (hbuffer _).trans (handles_modifySession merger _ fun _ ↦ by rfl)
    · refine (handles_lockPcapMutex merger _).bind fun _ ↦ (Prog.Within.read _).bind fun dumper ↦ ?_
      refine (handles_pcapDump i _ _ _).bind fun _ ↦ (handles_unlockPcapMutex merger).bind
        fun _ ↦ ?_
      refine (handles_monitorIncrement i _ _).bind fun _ ↦ ?_
      exact (handles_monitorIncrement merger _ _).bind fun _ ↦ .modify fun w ↦ hmerge w _

theorem handles_pcapsessionClientconnClientHandlePacket (client : Slot) (header : PcapPkthdr) :
    (pcapsessionClientconnClientHandlePacket i client header).Within Handles := by
  refine (Prog.Within.read _).bind fun state ↦ .ite ?_ (.pure ())
  refine (Prog.Within.read _).bind fun fd ↦ Prog.Within.bind ?_ fun found ↦ .ite ?_ ?_
  · exact (Prog.Within.query _).bind fun _ ↦ .read _
  · refine (handles_lockPcapMutex client _).bind fun _ ↦ (Prog.Within.read _).bind fun dumper ↦ ?_
    refine (handles_pcapDump client _ _ _).bind fun _ ↦ (handles_unlockPcapMutex client).bind
      fun _ ↦ ?_
    exact handles_monitorIncrement client _ _
  · exact (Prog.Within.read _).bind fun id ↦ .modify fun w ↦ handles_unlist id w

theorem handles_distributePacket (header : PcapPkthdr) (slots : List Slot) :
    (distributePacket i header slots).Within Handles := by
  induction slots with
  | nil => exact .pure ()
  | cons j slots ih =>
    refine (Prog.Within.read _).bind fun client ↦ ?_
    cases client with
    | none => exact ih
    | some client =>
      exact (handles_pcapsessionClientconnClientHandlePacket i client header).bind fun _ ↦ ih

theorem handles_pcapsessionClientconnPacketHandler (header : PcapPkthdr) :
    (pcapsessionClientconnPacketHandler i header).Within Handles :=
  (handles_monitorIncrement i _ _).bind fun _ ↦ handles_distributePacket i header _

end Handles

end DistributorMerger
