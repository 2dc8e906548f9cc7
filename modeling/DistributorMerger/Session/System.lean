import DistributorMerger.Session.Visit
import DistributorMerger.Session.PacketHandlers
import DistributorMerger.Concurrency.Runs

/-!
# The system

Session handling as a whole: open functions are called, the supervisor visits slots, the threads of
the sessions execute their runners statement by statement, captured packets are distributed, and
session handling is closed. A visit, a call of an open function and a call of the packet handler are
one step each. An event carries the answers that the environment gives in it, so that a run is
determined by its events.
-/

namespace DistributorMerger

/-! ## Runs -/

/-- The world, and what each thread has still to execute. -/
structure System where
  /-- The world. -/
  world : World
  /-- The programs of the threads. -/
  pool : ℕ → SessionProg Unit

/-- Session handling has been initialised. -/
def System.init : System := ⟨World.init, fun _ ↦ .ret ()⟩

/-- What may happen next. -/
inductive Event
  /-- An open function is called. -/
  | opens (call : OpenCall) (answer : Query → ℤ)
  /-- The supervisor visits a slot. -/
  | visits (i : Slot) (answer : Query → ℤ)
  /-- A thread executes a statement. -/
  | runs (t : ℕ) (z : ℤ)
  /-- A capture session delivers a packet to its handler. -/
  | captures (i : Slot) (p : Packet) (answer : Query → ℤ)
  /-- Session handling is closed. -/
  | closes

/-- `pcap_loop` of capture session `i` reads a packet and calls the handler. -/
def capturePacket (i : Slot) (p : Packet) : SessionProg Unit := do
  fillBuffer i p.data
  pcapsessionClientconnPacketHandler i p.header

/-- A thread that has been created is given the runner it was created for. -/
def spawned (w w' : World) (pool : ℕ → SessionProg Unit) (t : ℕ) : SessionProg Unit :=
  match w.threads t, w'.threads t with
  | none, some (i, m) => runner m i
  | _, _ => pool t

section Spawned

variable {w w' : World} {pool : ℕ → SessionProg Unit} {t : ℕ} {i : Slot} {m : Module}

theorem spawned_of_some {x : Slot × Module} (h : w.threads t = some x) :
    spawned w w' pool t = pool t := by
  rw [spawned, h]

theorem spawned_of_new (h : w.threads t = none) (h' : w'.threads t = some (i, m)) :
    spawned w w' pool t = runner m i := by
  rw [spawned, h, h']

theorem spawned_of_eq (h : w'.threads = w.threads) : spawned w w' pool = pool := by
  funext t
  rw [spawned, h]
  cases w.threads t <;> rfl

theorem World.threads_nextThread
    (h : ∀ {t i m}, w.threads t = some (i, m) → t < w.nextThread) :
    w.threads w.nextThread = none := by
  by_contra hne
  obtain ⟨⟨i, m⟩, hx⟩ := Option.ne_none_iff_exists'.mp hne
  exact lt_irrefl _ (h hx)

end Spawned

/-- The next configuration, if the event can happen. -/
def System.step (c : System) : Event → Option System
  | .opens call answer => (call.prog.exec answer c.world).map fun x ↦ { c with world := x.2 }
  | .visits i answer => ((superviseSession i).exec answer c.world).map fun x ↦
      ⟨x.2, spawned c.world x.2 c.pool⟩
  | .runs t z =>
    if (c.world.threads t).isSome then ((c.pool t).next z c.world).map fun x ↦
      ⟨x.2, Function.update c.pool t x.1⟩
    else none
  | .captures i p answer => ((capturePacket i p).exec answer c.world).map fun x ↦
      { c with world := x.2 }
  | .closes => (pcapsessionHandlingClose.exec (fun _ ↦ 0) c.world).map fun x ↦
      { c with world := x.2 }

theorem System.runs_cases {c c' : System} {t : ℕ} {z : ℤ} (h : c.step (.runs t z) = some c') :
    ∃ i m p w', c.world.threads t = some (i, m) ∧ (c.pool t).next z c.world = some (p, w') ∧
      c' = ⟨w', Function.update c.pool t p⟩ := by
  obtain ⟨hsome, hrun⟩ := Option.ite_none_right_eq_some.mp h
  obtain ⟨⟨i, m⟩, ht⟩ := Option.isSome_iff_exists.mp hsome
  obtain ⟨⟨p, w'⟩, hnext, rfl⟩ := Option.map_eq_some_iff.mp hrun
  exact ⟨i, m, p, w', ht, hnext, rfl⟩

/-- The configuration after some events. -/
def System.run (c : System) (es : List Event) : Option System := es.foldlM System.step c

theorem System.run_cons (c : System) (e : Event) (es : List Event) :
    c.run (e :: es) = (c.step e).bind fun c' ↦ c'.run es := rfl

theorem System.run_append (c : System) (es es' : List Event) :
    c.run (es ++ es') = (c.run es).bind fun c' ↦ c'.run es' := foldlM_append_eq_bind c es es'

theorem System.run_induction {I : System → Prop} {P : System → Event → Prop} {c c' : System}
    {es : List Event} (hstep : ∀ c e c', I c → P c e → c.step e = some c' → I c')
    (hP : ∀ es₁ e es₂ c₁, es = es₁ ++ e :: es₂ → c.run es₁ = some c₁ → P c₁ e)
    (hc : I c) (hrun : c.run es = some c') : I c' := foldlM_induction hstep hP hc hrun

end DistributorMerger
