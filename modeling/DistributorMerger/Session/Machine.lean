import DistributorMerger.Session.SupervisorSteps
import DistributorMerger.Session.System

/-!
# The machine

Session handling with every thread interrupted between any two of its statements: the supervisor in
the middle of a visit, the threads of the sessions in the middle of a runner or of a packet handler.
Only a call of an open function from outside is one step. `pcap_loop` may call the handler of its
session whenever it waits for a packet.

A thread whose cancellation has been requested goes on until it ends. It ends for certain in a call
that waits in the kernel, and it may end earlier, as most calls are cancellation points only when
they come to wait: `pcap_loop` hands on what it has buffered, a write to a stream ends in the
buffer of the stream, and a call that writes to the log may or may not be a cancellation point.
`pthread_join` waits for the end.
-/

namespace DistributorMerger

/-! ## Actions -/

/-- The world, what is left of the visit that the supervisor is making, and what each thread has
still to execute. -/
structure Machine where
  /-- The world. -/
  world : World
  /-- The rest of the visit. -/
  visit : SessionProg Bool
  /-- The programs of the threads. -/
  pool : ℕ → SessionProg Unit

/-- Session handling has been initialised. -/
def Machine.init : Machine := ⟨World.init, .ret false, fun _ ↦ .ret ()⟩

/-- What may happen next. -/
inductive Action
  /-- An open function is called. -/
  | opens (call : OpenCall) (answer : Query → ℤ)
  /-- The supervisor begins to visit a slot. -/
  | visits (i : Slot)
  /-- The supervisor executes a statement of its visit. -/
  | supervises (z : ℤ)
  /-- A thread executes a statement. -/
  | runs (t : ℕ) (z : ℤ)
  /-- `pcap_loop` hands a packet to the handler of its session. -/
  | delivers (t : ℕ) (p : Packet)
  /-- A thread ends because of its cancellation. -/
  | ends (t : ℕ)
  /-- Session handling is closed. -/
  | closes

/-- What `pcap_loop` of a session in slot `i` does with a packet, if the session reads packets. -/
def packetHandler (i : Slot) (p : Packet) : Module → Option (SessionProg Unit)
  | .client => some do
    fillBuffer i p.data
    pcapsessionMergerPacketHandler i p.header
  | .livecapture | .filecapture => some (capturePacket i p)
  | .clientconn | .merger | .server => none

/-- A step writes to a stream. -/
def World.Writes (w w' : World) : Prop :=
  ∃ d ∈ Finset.range w.nextDumper, (w'.written d).length ≠ (w.written d).length

instance (w w' : World) : Decidable (w.Writes w') := by
  unfold World.Writes
  infer_instance

/-- The agent holds a lock. -/
def World.HoldsLock (w : World) (holder : Agent) : Prop :=
  w.mergeMutex = some holder ∨ ∃ j, (w.session j).pcapMutex = some holder

instance (w : World) (holder : Agent) : Decidable (w.HoldsLock holder) := by
  unfold World.HoldsLock
  infer_instance

/-! ## Cancellation -/

/-- A call that no cancelled thread comes back from: `connect`, `accept` or `poll`. -/
def Query.waits : Query → Bool
  | .connect | .accept => true
  | .pollSupervised _ | .pollDumper _ | .pollDumperAgain _ | .pollStop _ | .pollDeliver _ => true
  | _ => false

/-- The program is in a call that no cancelled thread comes back from. -/
def Prog.waits {α : Type} : SessionProg α → Bool
  | .ask q _ => q.waits
  | _ => false

/-- What is left of a program is its result. -/
def Prog.returned {κ σ α : Type} : Prog κ σ α → Bool
  | .ret _ => true
  | _ => false

theorem Prog.eq_ret_of_returned {κ σ α : Type} {p : Prog κ σ α} (h : p.returned = true) :
    ∃ a, p = .ret a := by
  cases p with
  | ret a => exact ⟨a, rfl⟩
  | act f k => cases h
  | ask q k => cases h

theorem Prog.eq_ask_of_waits {α : Type} {p : SessionProg α} (h : p.waits = true) :
    ∃ q k, p = .ask q k := by
  cases p with
  | ret a => cases h
  | act f k => cases h
  | ask q k => exact ⟨q, k, rfl⟩

/-- A cancelled thread may end here: in a call, or in a write to a stream. The calls that write to
the log stand between statements that neither hold nor take a lock, so it may end there too. -/
def mayEndAt (w : World) (me : Agent) : SessionProg Unit → Bool
  | .ret _ => false
  | .ask _ _ => true
  | .act f _ => (f w).any fun w' ↦
      decide (w.Writes w' ∨ ¬ w.HoldsLock me ∧ ¬ w'.HoldsLock me)

/-- The thread has been cancelled, and may end where it is. -/
def Machine.MayEnd (c : Machine) (t : ℕ) : Prop :=
  c.world.cancelled t = true ∧
    (c.world.threads t).any (fun x ↦ mayEndAt c.world (.session x.1) (c.pool t)) = true

instance (c : Machine) (t : ℕ) : Decidable (c.MayEnd t) := by
  unfold Machine.MayEnd
  infer_instance

/-- The thread has been created, and it does not wait in a call where its cancellation ends it. -/
def Machine.Alive (c : Machine) (t : ℕ) : Prop :=
  (c.world.threads t).isSome = true ∧
    ¬ (c.world.cancelled t = true ∧ (c.pool t).waits = true)

instance (c : Machine) (t : ℕ) : Decidable (c.Alive t) := by
  unfold Machine.Alive
  infer_instance

/-- The threads that a step of the supervisor joins have ended. -/
def Machine.Joinable (c : Machine) (w' : World) : Prop :=
  ∀ t ∈ Finset.range c.world.nextThread, (c.world.threads t).isSome = true →
    (w'.threads t).isNone = true → (c.pool t).returned = true

instance (c : Machine) (w' : World) : Decidable (c.Joinable w') := by
  unfold Machine.Joinable
  infer_instance

/-! ## Steps -/

/-- A thread that waits in `pcap_loop` is given the handler to execute before it waits again. -/
def Machine.delivered (c : Machine) (t : ℕ) (p : Packet) : Option (SessionProg Unit) :=
  match c.world.threads t, c.pool t with
  | some (i, m), .ask .pcapLoop k =>
    (packetHandler i p m).map fun handler ↦ handler >>= fun _ ↦ .ask .pcapLoop k
  | _, _ => none

/-- The next configuration, if the action can be taken. -/
def Machine.step (c : Machine) : Action → Option Machine
  | .opens call answer => (call.prog.exec answer c.world).map fun x ↦ { c with world := x.2 }
  | .visits i => if c.visit.returned then some { c with visit := superviseSession i } else none
  | .supervises z => (c.visit.next z c.world).bind fun x ↦
      if c.Joinable x.2 then some ⟨x.2, x.1, spawned c.world x.2 c.pool⟩ else none
  | .runs t z =>
    if c.Alive t then ((c.pool t).next z c.world).map fun x ↦
      { c with world := x.2, pool := Function.update c.pool t x.1 }
    else none
  | .delivers t p =>
    if c.Alive t then (c.delivered t p).map fun x ↦
      { c with pool := Function.update c.pool t x }
    else none
  | .ends t =>
    if c.MayEnd t then some { c with pool := Function.update c.pool t (.ret ()) } else none
  | .closes => some { c with world := { c.world with handlingState := .terminating } }

/-! ## What an action is -/

section Cases

variable {c c' : Machine} {i : Slot} {t : ℕ} {z : ℤ} {p : Packet}

theorem Machine.opens_cases {call : OpenCall} {answer : Query → ℤ}
    (h : c.step (.opens call answer) = some c') :
    ∃ r w', call.prog.exec answer c.world = some (r, w') ∧ c' = { c with world := w' } := by
  obtain ⟨⟨r, w'⟩, hexec, rfl⟩ := Option.map_eq_some_iff.mp h
  exact ⟨r, w', hexec, rfl⟩

theorem Machine.visits_cases (h : c.step (.visits i) = some c') :
    c.visit.returned = true ∧ c' = { c with visit := superviseSession i } := by
  obtain ⟨hreturned, heq⟩ := Option.ite_none_right_eq_some.mp h
  exact ⟨hreturned, (Option.some.inj heq).symm⟩

theorem Machine.supervises_cases (h : c.step (.supervises z) = some c') :
    ∃ p w', c.visit.next z c.world = some (p, w') ∧ c.Joinable w' ∧
      c' = ⟨w', p, spawned c.world w' c.pool⟩ := by
  obtain ⟨⟨p, w'⟩, hnext, hjoins⟩ := Option.bind_eq_some_iff.mp h
  obtain ⟨hjoinable, heq⟩ := Option.ite_none_right_eq_some.mp hjoins
  exact ⟨p, w', hnext, hjoinable, (Option.some.inj heq).symm⟩

theorem Machine.runs_cases (h : c.step (.runs t z) = some c') :
    ∃ i m p w', c.Alive t ∧ c.world.threads t = some (i, m) ∧
      (c.pool t).next z c.world = some (p, w') ∧
      c' = { c with world := w', pool := Function.update c.pool t p } := by
  obtain ⟨halive, hrun⟩ := Option.ite_none_right_eq_some.mp h
  obtain ⟨⟨i, m⟩, ht⟩ := Option.isSome_iff_exists.mp halive.1
  obtain ⟨⟨p, w'⟩, hnext, rfl⟩ := Option.map_eq_some_iff.mp hrun
  exact ⟨i, m, p, w', halive, ht, hnext, rfl⟩

theorem Machine.delivers_cases (h : c.step (.delivers t p) = some c') :
    ∃ x, c.Alive t ∧ c.delivered t p = some x ∧
      c' = { c with pool := Function.update c.pool t x } := by
  obtain ⟨halive, hdelivered⟩ := Option.ite_none_right_eq_some.mp h
  obtain ⟨x, hx, rfl⟩ := Option.map_eq_some_iff.mp hdelivered
  exact ⟨x, halive, hx, rfl⟩

theorem Machine.ends_cases (h : c.step (.ends t) = some c') :
    ∃ i m, c.MayEnd t ∧ c.world.threads t = some (i, m) ∧
      c' = { c with pool := Function.update c.pool t (.ret ()) } := by
  obtain ⟨hends, heq⟩ := Option.ite_none_right_eq_some.mp h
  obtain ⟨⟨i, m⟩, ht, -⟩ := (Option.any_eq_true _ _).mp hends.2
  exact ⟨i, m, hends, ht, (Option.some.inj heq).symm⟩

end Cases

/-- The configuration after some actions. -/
def Machine.run (c : Machine) (as : List Action) : Option Machine := as.foldlM Machine.step c

/-- A visit of `n` statements, each of which is answered with zero. -/
def silentVisit (i : Slot) (n : ℕ) : List Action := .visits i :: List.replicate n (.supervises 0)

/-- A thread executes `n` statements, each of which is answered with zero. -/
def silentRuns (t n : ℕ) : List Action := List.replicate n (.runs t 0)

theorem Machine.run_cons (c : Machine) (a : Action) (as : List Action) :
    c.run (a :: as) = (c.step a).bind fun c' ↦ c'.run as := rfl

theorem Machine.run_append (c : Machine) (as as' : List Action) :
    c.run (as ++ as') = (c.run as).bind fun c' ↦ c'.run as' := foldlM_append_eq_bind c as as'

theorem Machine.run_snoc {c c₁ c₂ : Machine} {as : List Action} {a : Action}
    (h : c.run as = some c₁) (hstep : c₁.step a = some c₂) : c.run (as ++ [a]) = some c₂ := by
  rw [Machine.run_append, h, Option.bind_some, Machine.run_cons, hstep]
  rfl

theorem Machine.all_of_take {c c₁ : Machine} {as as₁ as₂ : List Action} {p : Machine → Prop}
    [DecidablePred p] (h : ∀ n ≤ as.length, (c.run (as.take n)).all (fun c ↦ p c) = true)
    (has : as = as₁ ++ as₂) (hrun : c.run as₁ = some c₁) : p c₁ := foldlM_all_of_take h has hrun

theorem Machine.all_steps_of_take {c c₁ c₂ : Machine} {a : Action} {as as₁ as₂ : List Action}
    {p : Machine → Machine → Prop} [∀ c c', Decidable (p c c')]
    (h : ∀ n < as.length, ((c.run (as.take n)).bind fun c₁ ↦ (c.run (as.take (n + 1))).map fun c₂ ↦
      decide (p c₁ c₂)) = some true) (has : as = as₁ ++ a :: as₂) (hrun : c.run as₁ = some c₁)
    (hstep : c₁.step a = some c₂) : p c₁ c₂ := by
  have htake : as.take as₁.length = as₁ := has ▸ List.take_left
  have htake' : as.take (as₁.length + 1) = as₁ ++ [a] := by
    have hsucc : as₁.length + 1 = (as₁ ++ [a]).length := by
      rw [List.length_append, List.length_singleton]
    rw [has, List.append_cons, hsucc]
    exact List.take_left
  have hlength : as₁.length < as.length := by
    rw [has, List.length_append]
    exact Nat.lt_add_of_pos_right (Nat.succ_pos _)
  have hp := h as₁.length hlength
  rw [htake, htake', hrun, Machine.run_snoc hrun hstep] at hp
  exact of_decide_eq_true (Option.some.inj hp)

theorem Machine.run_induction {I : Machine → Prop} {P : Machine → Action → Prop} {c c' : Machine}
    {as : List Action} (hstep : ∀ c a c', I c → P c a → c.step a = some c' → I c')
    (hP : ∀ as₁ a as₂ c₁, as = as₁ ++ a :: as₂ → c.run as₁ = some c₁ → P c₁ a)
    (hc : I c) (hrun : c.run as = some c') : I c' := foldlM_induction hstep hP hc hrun

/-! ## Deeds -/

/-- What an action does to the world. -/
inductive Deed (w : World) : World → Prop
  /-- An open function. -/
  | opens {w' : World} (h : OpenEffect w w') : Deed w w'
  /-- A statement of a visit. -/
  | supervises {w' : World} (i : Slot) (h : SupervisorStep i w w') : Deed w w'
  /-- A statement of a runner. -/
  | runs {w' : World} (t : ℕ) (i : Slot) (m : Module) (ht : w.threads t = some (i, m))
      (h : RunnerStep i m w w') : Deed w w'
  /-- A statement of a packet handler. -/
  | handles {w' : World} (t : ℕ) (i : Slot) (m : Module) (ht : w.threads t = some (i, m))
      (h : Handles w w') : Deed w w'
  /-- Session handling is closed. -/
  | closes : Deed w { w with handlingState := .terminating }

/-- A statement of the thread of a session. -/
def ThreadStep (i : Slot) (m : Module) (w w' : World) : Prop :=
  RunnerStep i m w w' ∨ Handles w w'

end DistributorMerger
