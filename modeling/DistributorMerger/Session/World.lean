import Mathlib
import DistributorMerger.Concurrency.Prog
import DistributorMerger.Pcap.Untunnel

/-!
# Sessions and the world they live in

A session slot holds everything the program knows about one session. The rest of the world is what
all threads share: the session handling state, the list of client connections, the merge lock, the
kernel's table of descriptors and threads, and the streams that dumpers write.

A pointer to a session is the number of its slot. A pointer to a capture handle or a dumper carries
the descriptor it was opened on; a dumper also carries the identity of its stream, so that two
dumpers opened on the same descriptor number at different times are told apart. A stream remembers
for each chunk on whose behalf it was written.

A statement of the source that calls the kernel and stores the result is one step. The kernel may
refuse any request; when it grants a descriptor it hands out a positive number that is not in use.
The lock around the single assignment in `pcapsession_change_state` is not represented, since the
assignment is one step and readers take no lock.
-/

namespace DistributorMerger

/-! ## Sessions -/

/-- `PCAP_SESSION_MAX_SESSIONS`. -/
abbrev pcapSessionMaxSessions : ℕ := 128

/-- `PCAP_SESSION_SUPERVISION_TRANSITION_INTERVALS`. -/
def pcapSessionSupervisionTransitionIntervals : ℕ := 10

/-- `PCAP_SESSION_ITERATE_INFINITY`. -/
def pcapSessionIterateInfinity : ℤ := -1

/-- The position of a session on the session list. -/
abbrev Slot := Fin pcapSessionMaxSessions

instance : NeZero pcapSessionMaxSessions := ⟨by decide⟩

/-- The states of a session, and of session handling as a whole. -/
inductive SessionState
  /-- `PCAP_SESSION_UNUSED`. -/
  | unused
  /-- `PCAP_SESSION_STOPPED`. -/
  | stopped
  /-- `PCAP_SESSION_START`. -/
  | start
  /-- `PCAP_SESSION_STARTING`. -/
  | starting
  /-- `PCAP_SESSION_RUNNING`. -/
  | running
  /-- `PCAP_SESSION_TERMINATE`. -/
  | terminate
  /-- `PCAP_SESSION_ABORT`. -/
  | abort
  /-- `PCAP_SESSION_TERMINATING`. -/
  | terminating
  /-- `PCAP_SESSION_ABORTING`. -/
  | aborting
  deriving DecidableEq, Repr

/-- The source files that implement a session: each has a runner and a stopper. -/
inductive Module
  /-- A connection to a distribution server. -/
  | client
  /-- A connection accepted from a client. -/
  | clientconn
  /-- The merger, which all client sessions write through. -/
  | merger
  /-- The distribution server's listening socket. -/
  | server
  /-- Capture on an interface. -/
  | livecapture
  /-- Capture from files. -/
  | filecapture
  deriving DecidableEq, Repr

/-- Who may hold a lock. -/
inductive Agent
  /-- The supervision thread. -/
  | supervisor
  /-- The thread of a session. -/
  | session (i : Slot)
  deriving DecidableEq, Repr

/-- An open `pcap_t`. -/
structure PcapHandle where
  /-- The descriptor it reads from. -/
  fd : ℤ
  deriving DecidableEq, Repr

/-- An open `pcap_dumper_t`. -/
structure PcapDumper where
  /-- The stream it writes. -/
  id : ℕ
  /-- The descriptor of the stream. -/
  fd : ℤ
  deriving DecidableEq, Repr

/-- `struct pcapsession`, less its description and address. -/
structure Session where
  /-- The session's own number. -/
  id : Slot
  /-- The state of the session. -/
  state : SessionState
  /-- The thread in which the session is running, zero if there is none. -/
  thread : ℕ
  /-- The descriptor associated with the session. -/
  fd : ℤ
  /-- Whether the descriptor is supervised. -/
  superviseFd : Bool
  /-- The monitor. -/
  monitor : Option Monitor
  /-- The capture handle. -/
  pcapHandle : Option PcapHandle
  /-- The dumper. -/
  pcapDumper : Option PcapDumper
  /-- The lock around writes to the dumper. -/
  pcapMutex : Option Agent
  /-- The runner and the stopper. -/
  module : Option Module
  /-- The merger that a client session hands its packets to. -/
  handler : Option Slot
  /-- Supervision intervals spent in a transition. -/
  intervalCounter : ℕ
  /-- Whether packets dumped on the session are untunnelled. -/
  untunnel : Bool
  /-- Passes left over the capture files. -/
  iterations : ℤ
  /-- Passes begun over the capture files, which the source does not count. -/
  passes : ℕ

/-- A session struct that `memset` has cleared. -/
def Session.zero : Session where
  id := 0
  state := .unused
  thread := 0
  fd := 0
  superviseFd := false
  monitor := none
  pcapHandle := none
  pcapDumper := none
  pcapMutex := none
  module := none
  handler := none
  intervalCounter := 0
  untunnel := false
  iterations := 0
  passes := 0

/-- Nothing but the monitor and the lock around the dumper has changed. -/
def Session.Unmoved (s s' : Session) : Prop :=
  s' = { s with monitor := s'.monitor, pcapMutex := s'.pcapMutex }

theorem Session.Unmoved.refl (s : Session) : s.Unmoved s := rfl

theorem Session.Unmoved.trans {s s' s'' : Session} (h : s.Unmoved s') (h' : s'.Unmoved s'') :
    s.Unmoved s'' :=
  Eq.trans h' (congrArg (fun t : Session ↦
    { t with monitor := s''.monitor, pcapMutex := s''.pcapMutex }) h)

theorem unmoved_pcapHandle (s s' : Session) (h : s.Unmoved s') : s'.pcapHandle = s.pcapHandle := by
  rw [h]

theorem unmoved_pcapDumper (s s' : Session) (h : s.Unmoved s') : s'.pcapDumper = s.pcapDumper := by
  rw [h]

theorem unmoved_fd (s s' : Session) (h : s.Unmoved s') : s'.fd = s.fd := by
  rw [h]

theorem unmoved_state (s s' : Session) (h : s.Unmoved s') : s'.state = s.state := by
  rw [h]

theorem unmoved_module (s s' : Session) (h : s.Unmoved s') : s'.module = s.module := by
  rw [h]

theorem unmoved_iterations (s s' : Session) (h : s.Unmoved s') : s'.iterations = s.iterations := by
  rw [h]

/-! ## The world -/

/-- What a descriptor was opened as. -/
inductive Descriptor
  /-- A connected or connecting socket. -/
  | connection
  /-- A socket that `open_server_socket` has made listen. -/
  | listening
  /-- A dump file or a capture file. -/
  | file
  /-- A capture interface. -/
  | capture
  deriving DecidableEq, Repr

/-- The shared state. -/
@[ext] structure World where
  /-- `session_handling_state`. -/
  handlingState : SessionState
  /-- `session_list`. -/
  session : Slot → Session
  /-- `clientconnlist`. -/
  clientconnlist : Slot → Option Slot
  /-- `clientconnlist_initialized`. -/
  clientconnlistInitialized : Bool
  /-- `merge_mutex`. -/
  mergeMutex : Option Agent
  /-- The descriptors that are open on behalf of sessions. -/
  openFds : Finset ℤ
  /-- What a descriptor was last opened as. -/
  descriptor : ℤ → Descriptor
  /-- The threads created and not yet joined, with the slot and the runner each was created for. -/
  threads : ℕ → Option (Slot × Module)
  /-- The threads whose cancellation has been requested. -/
  cancelled : ℕ → Bool
  /-- The number of the next thread. -/
  nextThread : ℕ
  /-- The chunks written to each stream, each with the session it was written for. -/
  written : ℕ → List (Slot × Chunk)
  /-- The number of the next stream. -/
  nextDumper : ℕ
  /-- The streams whose dumper has been passed to `pcap_dump_close`. -/
  closedDumpers : Finset ℕ
  /-- The bytes that the capture handle of a session last delivered. -/
  buffer : Slot → Memory
  /-- `monitor_last_output_time`, of which each source file has a copy. -/
  monitorLastOutputTime : Option Module → ℤ
  /-- The monitors that have been reported, as they were when they were. -/
  reports : List Monitor

/-- The world when session handling has been initialised and its supervisor runs. -/
def World.init : World where
  handlingState := .running
  session := fun _ ↦ Session.zero
  clientconnlist := fun _ ↦ none
  clientconnlistInitialized := false
  mergeMutex := none
  openFds := ∅
  descriptor := fun _ ↦ .file
  threads := fun _ ↦ none
  cancelled := fun _ ↦ false
  nextThread := 1
  written := fun _ ↦ []
  nextDumper := 0
  closedDumpers := ∅
  buffer := fun _ _ ↦ 0
  monitorLastOutputTime := fun _ ↦ 0
  reports := []

namespace World

variable (w : World)

/-- Assign to a session. -/
def modifySession (i : Slot) (f : Session → Session) : World :=
  { w with session := Function.update w.session i (f (w.session i)) }

/-- `close(fd)`. -/
def close (fd : ℤ) : World := { w with openFds := w.openFds.erase fd }

/-- `close` of some descriptors. -/
def closeAll (fds : Finset ℤ) : World := { w with openFds := w.openFds \ fds }

/-- `pcap_dump_close`. -/
def closeDumper (dumper : PcapDumper) : World :=
  { w with openFds := w.openFds.erase dumper.fd
           closedDumpers := insert dumper.id w.closedDumpers }

/-- `pcap_dump_close` of some dumpers, less the close of their descriptors. -/
def shutAll (ids : Finset ℕ) : World := { w with closedDumpers := w.closedDumpers ∪ ids }

/-- `clientconnlist[i] = NULL`. -/
def unlist (i : Slot) : World :=
  { w with clientconnlist := Function.update w.clientconnlist i none }

/-- The kernel may hand out the descriptor number `fd`. -/
def grants (fd : ℤ) : Bool := 0 < fd ∧ fd ∉ w.openFds

/-- A descriptor is opened under the number `fd`. -/
def openFd (fd : ℤ) (d : Descriptor) : World :=
  { w with openFds := insert fd w.openFds, descriptor := Function.update w.descriptor fd d }

end World

section Projections

variable (w : World) (i j : Slot) (f g : Session → Session) (fd : ℤ) (d : Descriptor)

@[simp] theorem World.session_modifySession_self :
    (w.modifySession i f).session i = f (w.session i) := Function.update_self ..

theorem World.session_modifySession_of_ne {i j : Slot} (h : j ≠ i) (f : Session → Session) :
    (w.modifySession i f).session j = w.session j := Function.update_of_ne h _ _

theorem World.unmoved_modifySession_of_ne {i j : Slot} (h : j ≠ i) (f : Session → Session) :
    (w.session j).Unmoved ((w.modifySession i f).session j) := by
  rw [World.session_modifySession_of_ne w h]
  exact .refl _

@[simp] theorem World.modifySession_modifySession :
    (w.modifySession i f).modifySession i g = w.modifySession i fun s ↦ g (f s) := by
  rw [modifySession, modifySession, modifySession]
  simp only [Function.update_self, Function.update_idem]

@[simp] theorem World.close_session : (w.close fd).session = w.session := rfl

@[simp] theorem World.modifySession_openFds : (w.modifySession i f).openFds = w.openFds := rfl

@[simp] theorem World.modifySession_threads : (w.modifySession i f).threads = w.threads := rfl

@[simp] theorem World.modifySession_handlingState :
    (w.modifySession i f).handlingState = w.handlingState := rfl

@[simp] theorem World.modifySession_clientconnlist :
    (w.modifySession i f).clientconnlist = w.clientconnlist := rfl

@[simp] theorem World.modifySession_written : (w.modifySession i f).written = w.written := rfl

@[simp] theorem World.modifySession_descriptor :
    (w.modifySession i f).descriptor = w.descriptor := rfl

theorem World.modifySession_of_eq {i : Slot} {f : Session → Session}
    (h : f (w.session i) = w.session i) : w.modifySession i f = w := by
  rw [modifySession, h, Function.update_eq_self]

@[simp] theorem World.modifySession_close :
    (w.modifySession i f).close fd = (w.close fd).modifySession i f := rfl

@[simp] theorem World.modifySession_grants : (w.modifySession i f).grants fd = w.grants fd := rfl

@[simp] theorem World.modifySession_openFd :
    (w.modifySession i f).openFd fd d = (w.openFd fd d).modifySession i f := rfl

theorem World.close_eq_closeAll : w.close fd = w.closeAll {fd} := by
  rw [close, closeAll, Finset.sdiff_singleton_eq_erase]

@[simp] theorem World.closeAll_empty : w.closeAll ∅ = w := by
  rw [closeAll, Finset.sdiff_empty]

@[simp] theorem World.closeAll_closeAll (fds fds' : Finset ℤ) :
    (w.closeAll fds).closeAll fds' = w.closeAll (fds ∪ fds') := by
  simp only [closeAll, sdiff_sdiff_left, Finset.sup_eq_union]

@[simp] theorem World.modifySession_closeAll (fds : Finset ℤ) :
    (w.modifySession i f).closeAll fds = (w.closeAll fds).modifySession i f := rfl

@[simp] theorem World.closeAll_session (fds : Finset ℤ) :
    (w.closeAll fds).session = w.session := rfl

theorem World.closeDumper_eq (dumper : PcapDumper) :
    w.closeDumper dumper = (w.closeAll {dumper.fd}).shutAll {dumper.id} := by
  rw [closeDumper, closeAll, shutAll, Finset.sdiff_singleton_eq_erase, Finset.union_comm,
    ← Finset.insert_eq]

@[simp] theorem World.shutAll_empty : w.shutAll ∅ = w := by
  rw [shutAll, Finset.union_empty]

@[simp] theorem World.shutAll_closeAll (ids : Finset ℕ) (fds : Finset ℤ) :
    (w.shutAll ids).closeAll fds = (w.closeAll fds).shutAll ids := rfl

@[simp] theorem World.modifySession_shutAll (ids : Finset ℕ) :
    (w.modifySession i f).shutAll ids = (w.shutAll ids).modifySession i f := rfl

@[simp] theorem World.shutAll_session (ids : Finset ℕ) : (w.shutAll ids).session = w.session := rfl

end Projections

/-! ## Questions and statements -/

/-- What the environment is asked. Questions that a supervisor visit or a packet handler asks are
told apart by the place they are asked at. -/
inductive Query
  /-- The supervisor polls the descriptor of a session. -/
  | pollSupervised (i : Slot)
  /-- A stopper polls the descriptor of the dumper. -/
  | pollDumper (i : Slot)
  /-- A stopper polls the descriptor of the dumper once more before it closes the dumper. -/
  | pollDumperAgain (i : Slot)
  /-- A stopper polls the descriptor of the session before it closes it. -/
  | pollStop (i : Slot)
  /-- The distribution polls the descriptor of a client. -/
  | pollDeliver (i : Slot)
  /-- The result of `pthread_create`. -/
  | pthreadCreate (i : Slot)
  /-- A clock reading. -/
  | time
  /-- The descriptor that `socket` returns. -/
  | socket
  /-- The result of `connect`. -/
  | connect
  /-- The result of `pcap_fopen_offline`. -/
  | pcapFopenOffline
  /-- The result of `pcap_dump_fopen`. -/
  | pcapDumpFopen
  /-- The descriptor that `pcap_dump_open` opens. -/
  | pcapDumpOpen
  /-- The descriptor that `open_server_socket` returns. -/
  | openServerSocket
  /-- The descriptor that `accept` returns. -/
  | accept
  /-- The descriptor that `pcap_open_live` opens. -/
  | pcapOpenLive
  /-- The descriptor that `pcap_open_offline` opens. -/
  | pcapOpenOffline
  /-- Whether `pcap_get_selectable_fd` returns the descriptor of the handle. -/
  | pcapGetSelectableFd
  /-- The result of `opendir`. -/
  | opendir
  /-- The number of capture files that `readdir` comes to. -/
  | readdir
  /-- How often a loop goes round before it blocks for good. -/
  | rounds
  /-- `pcap_loop` comes back. -/
  | pcapLoop
  /-- Whether the configuration of the process is valid. -/
  | configuration
  /-- The result of `pthread_create` for the supervision thread. -/
  | pthreadCreateSupervision
  deriving DecidableEq, Repr

/-- A program of the session threads. -/
abbrev SessionProg := Prog Query World

/-- Assign to a session. -/
def modifySession (i : Slot) (f : Session → Session) : SessionProg Unit :=
  Prog.modify fun w ↦ w.modifySession i f

/-- Read a field of a session. -/
def readSession {β : Type} (i : Slot) (g : Session → β) : SessionProg β :=
  Prog.read fun w ↦ g (w.session i)

/-- `close(fd)`. -/
def close (fd : ℤ) : SessionProg Unit := Prog.modify fun w ↦ w.close fd

/-- `pcapsession_change_state`. -/
def pcapsessionChangeState (i : Slot) (newState : SessionState) : SessionProg Unit :=
  modifySession i fun s ↦ { s with state := newState }

/-- `poll` reports nothing on `fd` when the events on it are `events`: a negative number is not
looked at, and one that is not open is reported as invalid. -/
def World.seemsOpen (w : World) (events fd : ℤ) : Prop := fd < 0 ∨ fd ∈ w.openFds ∧ events = 0

instance (w : World) (events fd : ℤ) : Decidable (w.seemsOpen events fd) := by
  unfold World.seemsOpen
  infer_instance

/-- `iotests_fd_open` at the place `q`: true exactly when `poll` reports nothing. -/
def iotestsFdOpen (q : Query) (fd : ℤ) : SessionProg Bool := do
  let events ← Prog.query q
  Prog.read fun w ↦ decide (w.seemsOpen events fd)

/-! ## Statements on their own -/

section Exec

variable (answer : Query → ℤ) (i : Slot) (w : World)

@[simp] theorem exec_readSession {β : Type} (g : Session → β) :
    (readSession i g).exec answer w = some (g (w.session i), w) := rfl

@[simp] theorem exec_modifySession (f : Session → Session) :
    (modifySession i f).exec answer w = some ((), w.modifySession i f) := rfl

@[simp] theorem exec_pcapsessionChangeState (newState : SessionState) :
    (pcapsessionChangeState i newState).exec answer w
      = some ((), w.modifySession i ({ · with state := newState })) := rfl

@[simp] theorem exec_close (fd : ℤ) : (close fd).exec answer w = some ((), w.close fd) := rfl

@[simp] theorem exec_iotestsFdOpen (q : Query) (fd : ℤ) :
    (iotestsFdOpen q fd).exec answer w = some (decide (w.seemsOpen (answer q) fd), w) := rfl

end Exec

end DistributorMerger
