import DistributorMerger.Session.Draining

/-!
# The sessions of the merger process

`pcapmerger` opens a merger and then one client for each server that it has been configured with,
while the supervisor is already at work on those opened before. Since session handling gives out the
first empty slot, and while it is running neither a merger nor a client ever gives up its slot, the
merger is in the first slot and the client of each server in the slot behind that of the server
before it, whatever becomes of the connections in between.
-/

namespace DistributorMerger

/-- The calls of open functions in a run. -/
def opensOf (es : List Event) : List OpenCall :=
  es.filterMap fun
    | .opens call _ => some call
    | _ => none

/-- The calls that `main` of `pcapmerger` makes when the merger's open function returns `merger`. -/
def pcapmergerCalls (untunnel : Bool) (servers : ℕ) (merger : Option Slot) : List OpenCall :=
  .merger untunnel :: List.replicate servers (.client merger)

/-- The session does the work that `main` of `pcapmerger` has opened its slot for. -/
def Session.Appointed (untunnel : Bool) (j : Slot) (s : Session) : Prop :=
  if j = 0 then s.module = some .merger ∧ s.untunnel = untunnel
  else s.module = some .client ∧ s.handler = some 0

/-- The session keeps what its open function has set it up for. -/
structure Session.SameRole (s s' : Session) : Prop where
  /-- Its module. -/
  module : s'.module = s.module
  /-- The merger that it hands its packets to. -/
  handler : s'.handler = s.handler
  /-- Whether it untunnels. -/
  untunnel : s'.untunnel = s.untunnel

section Roles

variable {s s' : Session} {w w' : World} {i j : Slot} {m : Module} {u : Bool}

theorem Session.SameRole.refl (s : Session) : s.SameRole s := ⟨rfl, rfl, rfl⟩

theorem Session.Unmoved.sameRole (h : s.Unmoved s') : s.SameRole s' := by
  rw [h]
  exact ⟨rfl, rfl, rfl⟩

theorem Session.SameRole.appointed (h : s.SameRole s') (hs : s.Appointed u j) :
    s'.Appointed u j := by
  rw [Session.Appointed, h.module, h.handler, h.untunnel]
  exact hs

theorem Session.Appointed.resumes (hs : s.Appointed u j) (hm : s.module = some m) : m.Resumes := by
  rw [Session.Appointed] at hs
  split at hs
  · exact .inr (.inl (Option.some.inj (hm.symm.trans hs.1)))
  · exact .inl (Option.some.inj (hm.symm.trans hs.1))

theorem Session.Appointed.module_ne (hs : s.Appointed u j) (hm : s.module = some m) :
    m ≠ .server ∧ m ≠ .filecapture := by
  rw [Session.Appointed] at hs
  split at hs
  · obtain rfl := Option.some.inj (hm.symm.trans hs.1)
    decide
  · obtain rfl := Option.some.inj (hm.symm.trans hs.1)
    decide

theorem VisitEffect.sameRole {answer : Query → ℤ} (h : VisitEffect answer i w w') :
    (w.session i).SameRole (w'.session i) := by
  cases h with
  | skipped => exact .refl _
  | tended _ _ htends => exact (htends.session i).sameRole
  | started m =>
    rw [World.session_createThread_self, World.session_startOrdered_self]
    exact ⟨rfl, rfl, rfl⟩
  | startFailed =>
    rw [World.session_startOrdered_self]
    exact ⟨rfl, rfl, rfl⟩
  | waited =>
    rw [World.session_modifySession_self]
    exact ⟨rfl, rfl, rfl⟩
  | timedOut =>
    rw [World.setState, World.session_modifySession_self]
    exact ⟨rfl, rfl, rfl⟩
  | stopped m newState =>
    rw [World.session_stopAs_self, Session.stopAs_eq]
    cases m <;> exact ⟨rfl, rfl, rfl⟩

/-- A runner other than that of a file capture sets its session up for nothing else. -/
theorem RunnerStep.sameRole (h : RunnerStep i m w w') (hm : m ≠ .filecapture)
    (hused : (w.session i).state ≠ .unused) : (w.session i).SameRole (w'.session i) := by
  have hset : ∀ {v : World} {f : Session → Session}, v.session = w.session →
      (∀ s : Session, s.SameRole (f s)) →
        (w.session i).SameRole ((v.modifySession i f).session i) := by
    intro v f hv hf
    rw [World.session_modifySession_self, hv]
    exact hf _
  cases h with
  | pauses => exact .refl _
  | lists => exact .refl _
  | tends h => exact (h.session i).sameRole
  | accepts h => exact (h.unmoved hused).sameRole
  | notes => exact absurd rfl hm
  | opensFile => exact absurd rfl hm
  | socket _ fd => exact hset (v := w.openFd fd .connection) rfl fun _ ↦ ⟨rfl, rfl, rfl⟩
  | dumper =>
    exact hset (v := { w with nextDumper := w.nextDumper + 1 }) rfl fun _ ↦ ⟨rfl, rfl, rfl⟩
  | dumpFile _ fd =>
    exact hset (v := { w.openFd fd .file with nextDumper := w.nextDumper + 1 }) rfl
      fun _ ↦ ⟨rfl, rfl, rfl⟩
  | closesHandle _ handle => exact hset (v := w.close handle.fd) rfl fun _ ↦ ⟨rfl, rfl, rfl⟩
  | _ => exact hset rfl fun _ ↦ ⟨rfl, rfl, rfl⟩

end Roles

/-! ## Opening -/

section Opening

variable {w : World} {k : Slot} {answer : Query → ℤ}

theorem World.firstUnused_eq (hbelow : ∀ j < k, (w.session j).state ≠ .unused)
    (hk : (w.session k).state = .unused) : w.firstUnused = some k := by
  rw [World.firstUnused, List.find?_eq_some_iff_getElem]
  refine ⟨decide_eq_true hk, k, by simp, by simp, fun j hj ↦ ?_⟩
  have hj' : (⟨j, hj.trans k.isLt⟩ : Slot) < k := hj
  simpa using hbelow _ hj'

theorem exec_pcapsessionMergerOpen (untunnel : Bool) (hk : w.firstUnused = some k) :
    (pcapsessionMergerOpen untunnel).exec answer w
      = some (some k, w.place k
        { Session.opened .merger k with untunnel := untunnel, superviseFd := true }) := by
  rw [pcapsessionMergerOpen, openSession, Prog.exec_bind, exec_pcapsessionHandlingGetNew, hk]
  simp [pcapsessionHandlingAdd, World.place, Session.opened, Session.zero]

theorem exec_pcapsessionClientOpen (handler : Option Slot) (hk : w.firstUnused = some k) :
    (pcapsessionClientOpen handler).exec answer w
      = some (some k, w.place k
        { Session.opened .client k with handler := handler, superviseFd := true }) := by
  rw [pcapsessionClientOpen, openSession, Prog.exec_bind, exec_pcapsessionHandlingGetNew, hk]
  simp [pcapsessionHandlingAdd, World.place, Session.opened, Session.zero]

end Opening

/-! ## Runs -/

/-- The first `n` slots are in use for what `main` has opened them for, and the others are empty. -/
structure System.Staffed (u : Bool) (n : ℕ) (c : System) : Prop where
  /-- The system is sound. -/
  sound : c.Sound
  /-- A slot that has been opened stays in use. -/
  used : ∀ j : Slot, j.val < n → (c.world.session j).state ≠ .unused
  /-- Its session does the work that it has been opened for. -/
  appointed : ∀ j : Slot, j.val < n → (c.world.session j).Appointed u j
  /-- The other slots are empty. -/
  unused : ∀ j : Slot, n ≤ j.val → (c.world.session j).state = .unused

section Steps

variable {c c' : System} {e : Event} {w' : World} {i j : Slot} {m : Module} {u : Bool} {n : ℕ}
  {answer : Query → ℤ}

theorem System.staffed_init : System.init.Staffed u 0 :=
  ⟨System.sound_init, fun _ h ↦ absurd h (Nat.not_lt_zero _),
    fun _ h ↦ absurd h (Nat.not_lt_zero _), fun _ _ ↦ rfl⟩

/-- A visit leaves a merger or a client in its slot while session handling is running. -/
theorem VisitEffect.keeps_slot (h : VisitEffect answer j c.world w') (hc : c.Staffed u n)
    (hj : j.val < n) (hrunning : c.world.handlingState = .running) :
    (w'.session j).state ≠ .unused := by
  have hused := hc.used j hj
  have habort : c.world.orderedState answer j ≠ .abort :=
    World.orderedState_ne_abort hrunning (hc.sound.quiet.calm j)
  cases h with
  | skipped => exact hused
  | tended _ _ htends =>
    rw [unmoved_state _ _ (htends.session j)]
    exact hused
  | started m =>
    rw [World.state_createThread, World.session_startOrdered_self]
    exact show SessionState.starting ≠ .unused by decide
  | startFailed =>
    rw [World.session_startOrdered_self]
    exact show SessionState.starting ≠ .unused by decide
  | waited =>
    rw [World.session_modifySession_self]
    exact hused
  | timedOut =>
    rw [World.setState, World.session_modifySession_self]
    exact show SessionState.terminate ≠ .unused by decide
  | stopped m newState horder _ hm =>
    have hnew : newState ≠ .aborting := by
      rcases horder with ⟨-, rfl⟩ | ⟨horder, -⟩
      · decide
      · exact absurd horder habort
    rw [World.session_stopAs_self, ((hc.appointed j hj).resumes hm).persists hnew]
    decide

theorem EventEffect.staffed (h : EventEffect c e w') (hc : c.Staffed u n)
    (hrunning : c.world.handlingState = .running)
    (he : ∀ call answer, e ≠ .opens call answer) :
    (∀ j : Slot, j.val < n → (w'.session j).state ≠ .unused ∧ (w'.session j).Appointed u j) ∧
      ∀ j : Slot, n ≤ j.val → (w'.session j).state = .unused := by
  have hkept : ∀ j : Slot, (c.world.session j).Unmoved (w'.session j) → j.val < n →
      (w'.session j).state ≠ .unused ∧ (w'.session j).Appointed u j := by
    intro j hunmoved hj
    refine ⟨?_, hunmoved.sameRole.appointed (hc.appointed j hj)⟩
    rw [unmoved_state _ _ hunmoved]
    exact hc.used j hj
  have hempty : ∀ j : Slot, (c.world.session j).Unmoved (w'.session j) → n ≤ j.val →
      (w'.session j).state = .unused :=
    fun j hunmoved hj ↦ (unmoved_state _ _ hunmoved).trans (hc.unused j hj)
  cases h with
  | opens => exact absurd rfl (he _ _)
  | @visits i answer _ h =>
    refine ⟨fun j hj ↦ ?_, fun j hj ↦ ?_⟩
    · by_cases hji : j = i
      · subst hji
        exact ⟨h.keeps_slot hc hj hrunning, h.sameRole.appointed (hc.appointed j hj)⟩
      · exact hkept j (h.unmoved hji) hj
    · by_cases hji : j = i
      · subst hji
        rw [h.eq_of_unused (hc.unused j hj)]
        exact hc.unused j hj
      · exact hempty j (h.unmoved hji) hj
  | @runs t z i m _ ht h =>
    have hthread : c.world.HasThread i := ⟨t, m, ht⟩
    have hused : (c.world.session i).state ≠ .unused := fun hunused ↦
      hc.sound.quiet.lifecycle.idle (.inl hunused) hthread
    have hi : i.val < n := by
      by_contra hi
      exact hused (hc.unused i (Nat.not_lt.mp hi))
    -- the threads are those of the merger and of clients
    obtain ⟨hserver, hcapture⟩ := (hc.appointed i hi).module_ne (hc.sound.thread_module ht)
    refine ⟨fun j hj ↦ ?_, fun j hj ↦ ?_⟩
    · by_cases hji : j = i
      · subst hji
        exact ⟨(h.effect.interference hthread).unused hused,
          (h.sameRole hcapture hused).appointed (hc.appointed j hj)⟩
      · exact hkept j (h.unmoved_of_ne hji hserver) hj
    · refine hempty j (h.unmoved_of_ne ?_ hserver) hj
      rintro rfl
      exact absurd hi (Nat.not_lt.mpr hj)
  | captures h => exact ⟨fun j ↦ hkept j (h.session j), fun j ↦ hempty j (h.session j)⟩
  | closes => exact ⟨fun j ↦ hkept j (.refl _), fun j ↦ hempty j (.refl _)⟩

theorem System.Staffed.step (hc : c.Staffed u n) (hrunning : c.world.handlingState = .running)
    (he : ∀ call answer, e ≠ .opens call answer) (hstep : c.step e = some c') :
    c'.Staffed u n := by
  obtain ⟨heffect, hsound⟩ := hc.sound.step hstep
  obtain ⟨hopened, hempty⟩ := heffect.staffed hc hrunning he
  exact ⟨hsound, fun j hj ↦ (hopened j hj).1, fun j hj ↦ (hopened j hj).2, hempty⟩

theorem System.Staffed.opens {call : OpenCall} (hc : c.Staffed u n) (answer : Query → ℤ)
    (hn : n < pcapSessionMaxSessions)
    (hcall : call = if n = 0 then .merger u else .client (some 0)) :
    ∃ w', call.prog.exec answer c.world = some (some ⟨n, hn⟩, w') ∧
      ∀ c', c.step (.opens call answer) = some c' → c'.Staffed u (n + 1) := by
  have hfirst : c.world.firstUnused = some ⟨n, hn⟩ :=
    World.firstUnused_eq (fun j hj ↦ hc.used j hj) (hc.unused _ (le_refl _))
  obtain ⟨s, hexec, hstate, happointed⟩ : ∃ s : Session,
      call.prog.exec answer c.world = some (some ⟨n, hn⟩, c.world.place ⟨n, hn⟩ s) ∧
      s.state = .start ∧ s.Appointed u ⟨n, hn⟩ := by
    by_cases hzero : n = 0
    · rw [hcall, if_pos hzero]
      refine ⟨_, exec_pcapsessionMergerOpen u hfirst, rfl, ?_⟩
      rw [Session.Appointed, if_pos (Fin.ext hzero)]
      exact ⟨rfl, rfl⟩
    · rw [hcall, if_neg hzero]
      refine ⟨_, exec_pcapsessionClientOpen (some 0) hfirst, rfl, ?_⟩
      rw [Session.Appointed, if_neg fun h ↦ hzero (congrArg Fin.val h)]
      exact ⟨rfl, rfl⟩
  refine ⟨_, hexec, fun c' hstep ↦ ?_⟩
  have hsound := (hc.sound.step hstep).2
  rw [System.step, hexec] at hstep
  obtain rfl := Option.some.inj hstep
  have hself : (c.world.place ⟨n, hn⟩ s).session ⟨n, hn⟩ = s :=
    World.session_modifySession_self ..
  have hother : ∀ j : Slot, j.val ≠ n →
      (c.world.place ⟨n, hn⟩ s).session j = c.world.session j := fun j hj ↦
    World.session_modifySession_of_ne _ (fun h ↦ hj (congrArg Fin.val h)) _
  have hcases : ∀ j : Slot, j.val < n + 1 → j.val < n ∨ j = ⟨n, hn⟩ := fun j hj ↦
    (Nat.lt_succ_iff_lt_or_eq.mp hj).imp id Fin.ext
  refine ⟨hsound, fun j hj ↦ ?_, fun j hj ↦ ?_, fun j hj ↦ ?_⟩
  · rcases hcases j hj with hj | rfl
    · exact (hother j hj.ne).symm ▸ hc.used j hj
    · exact hself.symm ▸ (by rw [hstate]; decide)
  · rcases hcases j hj with hj | rfl
    · exact (hother j hj.ne).symm ▸ hc.appointed j hj
    · exact hself.symm ▸ happointed
  · have hne : j.val ≠ n := by omega
    exact (hother j hne).symm ▸ hc.unused j (by omega)

end Steps

/-! ## The process -/

theorem opensOf_append (es es' : List Event) : opensOf (es ++ es') = opensOf es ++ opensOf es' :=
  List.filterMap_append

theorem call_of_append_isPrefix {u : Bool} {servers : ℕ} {merger : Option Slot}
    {calls : List OpenCall} {call : OpenCall}
    (h : calls ++ [call] <+: pcapmergerCalls u servers merger) :
    calls.length ≤ servers ∧
      call = if calls.length = 0 then .merger u else .client merger := by
  have hlength := h.length_le
  rw [List.length_append, List.length_singleton, pcapmergerCalls, List.length_cons,
    List.length_replicate] at hlength
  have hle : calls.length ≤ servers := by omega
  obtain ⟨rest, hrest⟩ := h
  have hget := congrArg (·[calls.length]?) hrest
  simp only [List.append_assoc, List.getElem?_append_right (le_refl _), Nat.sub_self,
    List.singleton_append, List.getElem?_cons_zero, pcapmergerCalls] at hget
  refine ⟨hle, ?_⟩
  cases hcalls : calls.length with
  | zero =>
    rw [hcalls, List.getElem?_cons_zero] at hget
    exact Option.some.inj hget
  | succ k =>
    rw [hcalls, List.getElem?_cons_succ, List.getElem?_replicate, if_pos (by omega)] at hget
    exact Option.some.inj hget

/-- `merger` is what the open function of the merger has returned in a run. -/
def MergerReturned (u : Bool) (merger : Option Slot) (es : List Event) : Prop :=
  ∀ es₁ answer es₂ c₁, es = es₁ ++ .opens (.merger u) answer :: es₂ →
    System.init.run es₁ = some c₁ →
    ∃ w', (pcapsessionMergerOpen u).exec answer c₁.world = some (merger, w')

theorem MergerReturned.left {u : Bool} {merger : Option Slot} {es es' : List Event}
    (h : MergerReturned u merger (es ++ es')) : MergerReturned u merger es := by
  intro es₁ answer es₂ c₁ heq hrun
  refine h es₁ answer (es₂ ++ es') c₁ ?_ hrun
  rw [heq, List.append_assoc]
  rfl

/-- What `main` has opened stands in the first slots, and the merger in the first one of them. -/
theorem System.staffed_of_run {u : Bool} {servers : ℕ} {merger : Option Slot} {es : List Event}
    {c : System} (hservers : servers < pcapSessionMaxSessions)
    (hrun : System.init.run es = some c) (hrunning : c.world.handlingState = .running)
    (hcalls : opensOf es <+: pcapmergerCalls u servers merger)
    (hmerger : MergerReturned u merger es) :
    c.Staffed u (opensOf es).length ∧ (opensOf es ≠ [] → merger = some 0) := by
  induction es using List.reverseRecOn generalizing c with
  | nil =>
    cases hrun
    exact ⟨System.staffed_init, absurd rfl⟩
  | append_singleton es e ih =>
    rw [System.run_append] at hrun
    obtain ⟨c₁, hrun₁, hrun₂⟩ := Option.bind_eq_some_iff.mp hrun
    have hstep : c₁.step e = some c := by
      rw [System.run_cons] at hrun₂
      obtain ⟨c₂, hstep, hrun₂⟩ := Option.bind_eq_some_iff.mp hrun₂
      cases hrun₂
      exact hstep
    have hrunning₁ := (System.sound_of_run hrun₁).running_of_run hrun₂ hrunning
    rw [opensOf_append] at hcalls ⊢
    obtain ⟨hstaffed, hreturned⟩ :=
      ih hrun₁ hrunning₁ ((List.prefix_append _ _).trans hcalls) hmerger.left
    by_cases he : ∃ call answer, e = .opens call answer
    · obtain ⟨call, answer, rfl⟩ := he
      have hsingle : opensOf [Event.opens call answer] = [call] := rfl
      rw [hsingle] at hcalls ⊢
      obtain ⟨hle, hcall⟩ := call_of_append_isPrefix hcalls
      have hreturned' : merger = some 0 := by
        by_cases hnil : opensOf es = []
        · rw [hnil, List.length_nil, if_pos rfl] at hcall
          rw [hnil, List.length_nil] at hstaffed
          obtain ⟨w', hexec⟩ := hmerger es answer [] c₁ (by rw [hcall]) hrun₁
          obtain ⟨w'', hexec', -⟩ := hstaffed.opens answer (by decide) (if_pos rfl).symm
          exact (Prod.mk.inj (Option.some.inj (hexec.symm.trans hexec'))).1
        · exact hreturned hnil
      rw [hreturned'] at hcall
      obtain ⟨w', -, hnext⟩ := hstaffed.opens answer (by omega) hcall
      rw [List.length_append, List.length_singleton]
      exact ⟨hnext c hstep, fun _ ↦ hreturned'⟩
    · have hnone : opensOf [e] = [] := by
        cases e with
        | opens call answer => exact absurd ⟨call, answer, rfl⟩ he
        | _ => rfl
      rw [hnone, List.append_nil]
      exact ⟨hstaffed.step hrunning₁ (fun call answer h ↦ he ⟨call, answer, h⟩) hstep, hreturned⟩

/-- **Every configured server has a client.** In every run of `pcapmerger` while session handling is
running, each open function that `main` calls finds a slot, the first one the merger's and each
other one that of the next server; from then on the slot stays in use, the merger keeps its untunnel
flag and each client hands its packets to that merger, and no other slot is in use. -/
theorem every_server_has_a_client (untunnel : Bool) (servers : ℕ)
    (hservers : servers < pcapSessionMaxSessions) (merger : Option Slot) (es : List Event)
    (c : System) (hrun : System.init.run es = some c)
    (hrunning : c.world.handlingState = .running)
    (hcalls : opensOf es <+: pcapmergerCalls untunnel servers merger)
    (hmerger : MergerReturned untunnel merger es) :
    (∀ j : Slot, j.val < (opensOf es).length →
      (c.world.session j).state ≠ .unused ∧ (c.world.session j).Appointed untunnel j) ∧
    (∀ j : Slot, (opensOf es).length ≤ j.val → (c.world.session j).state = .unused) ∧
    ∀ es₁ call answer es₂ c₁, es = es₁ ++ .opens call answer :: es₂ →
      System.init.run es₁ = some c₁ →
      ∃ i w', call.prog.exec answer c₁.world = some (some i, w') ∧
        i.val = (opensOf es₁).length := by
  obtain ⟨hstaffed, hreturned⟩ := System.staffed_of_run hservers hrun hrunning hcalls hmerger
  refine ⟨fun j hj ↦ ⟨hstaffed.used j hj, hstaffed.appointed j hj⟩, hstaffed.unused, ?_⟩
  rintro es₁ call answer es₂ c₁ rfl hrun₁
  rw [System.run_append, hrun₁, Option.bind_some] at hrun
  have hrunning₁ := (System.sound_of_run hrun₁).running_of_run hrun hrunning
  have hsplit : opensOf (es₁ ++ .opens call answer :: es₂)
      = opensOf es₁ ++ [call] ++ opensOf es₂ := by
    rw [opensOf_append, List.append_assoc]
    rfl
  rw [hsplit] at hcalls hreturned
  have hcalls₁ := (List.prefix_append _ _).trans hcalls
  obtain ⟨hle, hcall⟩ := call_of_append_isPrefix hcalls₁
  rw [hreturned (by simp)] at hcall
  obtain ⟨hstaffed₁, -⟩ := System.staffed_of_run hservers hrun₁ hrunning₁
    ((List.prefix_append _ _).trans hcalls₁) hmerger.left
  obtain ⟨w', hexec, -⟩ := hstaffed₁.opens answer (by omega) hcall
  exact ⟨_, w', hexec, rfl⟩

/-- A merger that is already being started when the clients of two servers are opened. -/
theorem every_server_has_a_client_two :
    ∃ es c, System.init.run es = some c ∧ (c.world.session 0).state = .starting ∧
      ∀ j : Slot, j.val < 3 →
        (c.world.session j).state ≠ .unused ∧ (c.world.session j).Appointed true j := by
  let silent : Query → ℤ := fun _ ↦ 0
  let rest : List Event := [.visits 0 silent, .opens (.client (some 0)) silent, .visits 1 silent,
    .opens (.client (some 0)) silent]
  let es : List Event := .opens (.merger true) silent :: rest
  have hrun : ((System.init.run es).map fun c ↦
      (c.world.handlingState, (c.world.session 0).state)) = some (.running, .starting) := by
    decide +kernel
  obtain ⟨c, hrun, hend⟩ := Option.map_eq_some_iff.mp hrun
  obtain ⟨hrunning, hstate⟩ := Prod.mk.inj hend
  have hmerger : MergerReturned true (some 0) es := by
    intro es₁ answer es₂ c₁ heq hrun₁
    cases es₁ with
    | nil =>
      cases hrun₁
      obtain ⟨w', hexec, -⟩ := System.staffed_init.opens (u := true) answer (by decide)
        (if_pos rfl).symm
      exact ⟨w', hexec⟩
    | cons e es₁ =>
      -- the merger is opened once
      have hrest : opensOf rest = opensOf (es₁ ++ .opens (.merger true) answer :: es₂) :=
        congrArg opensOf (List.cons.inj heq).2
      rw [opensOf_append] at hrest
      have hmem : OpenCall.merger true ∈ opensOf rest := by
        rw [hrest]
        exact List.mem_append_right _ List.mem_cons_self
      have hclients : opensOf rest = [.client (some 0), .client (some 0)] := rfl
      rw [hclients] at hmem
      simp at hmem
  exact ⟨es, c, hrun, hstate, (every_server_has_a_client true 2 (by decide) (some 0) es c hrun
    hrunning (List.prefix_refl _) hmerger).1⟩

end DistributorMerger
