import DistributorMerger.Session.Deeds

/-!
# Listed clients

A client connection puts itself on the list when its dumper has been opened, and its stopper takes
it off the list before it closes the dumper. The thread of the connection has been joined by then,
so that nothing can put it back.

Dumpers are told apart by the streams they write: a stream is opened once, by one session, and while
a session has a thread its stream is not closed.
-/

namespace DistributorMerger

/-- What is true of dumpers and their streams. -/
structure Streams (w : World) : Prop where
  /-- Streams are numbered in order. -/
  dumper_lt : ∀ {i d}, (w.session i).pcapDumper = some d → d.id < w.nextDumper
  /-- A stream that is closed was opened before. -/
  closed_lt : ∀ {n}, n ∈ w.closedDumpers → n < w.nextDumper
  /-- No two sessions write the same stream. -/
  dumper_inj : ∀ {i j d d'}, (w.session i).pcapDumper = some d →
    (w.session j).pcapDumper = some d' → d.id = d'.id → i = j
  /-- A session with a thread has an open dumper, or none. -/
  thread_open : ∀ {i d}, w.HasThread i → (w.session i).pcapDumper = some d →
    d.id ∉ w.closedDumpers

/-- A client connection whose dumper is open. -/
def World.ServesClient (w : World) (i : Slot) : Prop :=
  (w.session i).state ≠ .unused ∧ (w.session i).module = some .clientconn ∧
    ∃ d, (w.session i).pcapDumper = some d ∧ d.id ∉ w.closedDumpers

/-- What is listed is a client connection with an open dumper. -/
def Listing (w : World) : Prop :=
  ∀ i k, w.clientconnlist i = some k → k = i ∧ w.ServesClient i

section Streams

variable {i j : Slot} {w w' : World} {m : Module} {t : ℕ}

/-- No dumper of a slot in use changes, and no stream is opened or closed. -/
structure KeepsDumpers (w w' : World) : Prop where
  /-- The dumpers of sessions. -/
  used : ∀ j, (w.session j).state ≠ .unused →
    (w'.session j).pcapDumper = (w.session j).pcapDumper
  /-- A slot that was not in use may have been cleared. -/
  dumper : ∀ j, (w'.session j).pcapDumper = (w.session j).pcapDumper ∨
    (w'.session j).pcapDumper = none
  /-- The streams opened. -/
  nextDumper : w'.nextDumper = w.nextDumper
  /-- The streams closed. -/
  closedDumpers : w'.closedDumpers = w.closedDumpers

theorem Streams.of_forgets (h : Streams w)
    (hdumper : ∀ j, (w'.session j).pcapDumper = (w.session j).pcapDumper ∨
      (w'.session j).pcapDumper = none)
    (hnext : w'.nextDumper = w.nextDumper) (hclosed : w'.closedDumpers = w.closedDumpers)
    (hthread : ∀ j, w'.HasThread j → w.HasThread j ∨ (w'.session j).pcapDumper = none) :
    Streams w' := by
  have hold : ∀ {j d}, (w'.session j).pcapDumper = some d →
      (w.session j).pcapDumper = some d := by
    intro j d hd
    rcases hdumper j with hsame | hnone
    · exact hsame.symm.trans hd
    · rw [hnone] at hd
      cases hd
  refine ⟨fun hd ↦ ?_, fun hn ↦ ?_, fun hd hd' ↦ h.dumper_inj (hold hd) (hold hd'),
    fun {j d} hj hd ↦ ?_⟩
  · rw [hnext]
    exact h.dumper_lt (hold hd)
  · rw [hnext]
    exact h.closed_lt (hclosed ▸ hn)
  · rw [hclosed]
    rcases hthread j hj with hj | hnone
    · exact h.thread_open hj (hold hd)
    · rw [hnone] at hd
      cases hd

theorem Streams.of_keeps (h : Streams w) (hkeeps : KeepsDumpers w w')
    (hthreads : w'.threads = w.threads) : Streams w' := by
  refine h.of_forgets hkeeps.dumper hkeeps.nextDumper hkeeps.closedDumpers fun j hj ↦ .inl ?_
  rw [World.HasThread, hthreads] at hj
  exact hj

theorem Streams.openDumper (h : Streams w) (i : Slot) (fd : ℤ) :
    Streams (w.openDumper i fd) := by
  have hself : ((w.openDumper i fd).session i).pcapDumper = some ⟨w.nextDumper, fd⟩ := by
    rw [World.openDumper, World.session_modifySession_self]
  have hother : ∀ {j}, j ≠ i → (w.openDumper i fd).session j = w.session j := fun hj ↦
    World.session_modifySession_of_ne _ hj _
  have hcases : ∀ {j d}, ((w.openDumper i fd).session j).pcapDumper = some d →
      j = i ∧ d.id = w.nextDumper ∨ j ≠ i ∧ (w.session j).pcapDumper = some d := by
    intro j d hd
    by_cases hj : j = i
    · rw [hj, hself] at hd
      cases hd
      exact .inl ⟨hj, rfl⟩
    · rw [hother hj] at hd
      exact .inr ⟨hj, hd⟩
  refine ⟨fun hd ↦ ?_, fun hn ↦ Nat.lt_succ_of_lt (h.closed_lt hn), fun hd hd' heq ↦ ?_,
    fun hj hd ↦ ?_⟩
  · change _ < w.nextDumper + 1
    rcases hcases hd with ⟨-, heq⟩ | ⟨-, hd⟩
    · rw [heq]
      exact Nat.lt_succ_self _
    · exact Nat.lt_succ_of_lt (h.dumper_lt hd)
  · rcases hcases hd with ⟨hi, hid⟩ | ⟨-, hold⟩
    · rcases hcases hd' with ⟨hj, -⟩ | ⟨-, hold'⟩
      · exact hi.trans hj.symm
      · exact absurd (heq.symm.trans hid) (h.dumper_lt hold').ne
    · rcases hcases hd' with ⟨-, hid⟩ | ⟨-, hold'⟩
      · exact absurd (heq.trans hid) (h.dumper_lt hold).ne
      · exact h.dumper_inj hold hold' heq
  · rcases hcases hd with ⟨-, heq⟩ | ⟨-, hd⟩
    · exact fun hclosed ↦ absurd (h.closed_lt hclosed) (by rw [heq]; exact lt_irrefl _)
    · exact h.thread_open hj hd

theorem Streams.closeDumper (h : Streams w) {dumper : PcapDumper} (halone : ¬ w.HasThread i)
    (hdumper : (w.session i).pcapDumper = some dumper) : Streams (w.closeDumper dumper) := by
  refine ⟨h.dumper_lt, fun hn ↦ ?_, h.dumper_inj, fun hj hd hclosed ↦ ?_⟩
  · rcases Finset.mem_insert.mp hn with rfl | hn
    · exact h.dumper_lt hdumper
    · exact h.closed_lt hn
  · rcases Finset.mem_insert.mp hclosed with heq | hclosed
    · exact halone (h.dumper_inj hd hdumper heq ▸ hj)
    · exact h.thread_open hj hd hclosed

theorem streams_init : Streams World.init :=
  ⟨nofun, fun hn ↦ absurd hn (Finset.notMem_empty _), nofun, nofun⟩

theorem keepsDumpers_of_eq (h : ∀ j, (w'.session j).pcapDumper = (w.session j).pcapDumper)
    (hnext : w'.nextDumper = w.nextDumper) (hclosed : w'.closedDumpers = w.closedDumpers) :
    KeepsDumpers w w' := ⟨fun j _ ↦ h j, fun j ↦ .inl (h j), hnext, hclosed⟩

theorem keepsDumpers_modifySession {v : World} {f : Session → Session}
    (hsession : v.session = w.session) (hnext : v.nextDumper = w.nextDumper)
    (hclosed : v.closedDumpers = w.closedDumpers) (hf : ∀ s, (f s).pcapDumper = s.pcapDumper) :
    KeepsDumpers w (v.modifySession i f) := by
  refine keepsDumpers_of_eq (fun j ↦ ?_) hnext hclosed
  by_cases hj : j = i
  · rw [hj, World.session_modifySession_self, hf, hsession]
  · rw [World.session_modifySession_of_ne _ hj, hsession]

theorem keepsDumpers_place {v : World} {k : Slot} {s : Session}
    (hsession : v.session = w.session) (hnext : v.nextDumper = w.nextDumper)
    (hclosed : v.closedDumpers = w.closedDumpers) (hk : (w.session k).state = .unused)
    (hs : s.pcapDumper = none) : KeepsDumpers w (v.place k s) := by
  have hother : ∀ {j}, j ≠ k → (v.place k s).session j = w.session j := by
    intro j hj
    rw [World.place, World.session_modifySession_of_ne _ hj, hsession]
  refine ⟨fun j hused ↦ ?_, fun j ↦ ?_, hnext, hclosed⟩
  · have hjk : j ≠ k := fun hjk ↦ hused (hjk ▸ hk)
    rw [hother hjk]
  · by_cases hj : j = k
    · rw [hj, World.place, World.session_modifySession_self]
      exact .inr hs
    · rw [hother hj]
      exact .inl rfl

theorem OpenEffect.keepsDumpers (h : OpenEffect w w') : KeepsDumpers w w' := by
  cases h with
  | full => exact keepsDumpers_of_eq (fun _ ↦ rfl) rfl rfl
  | refused k m hk => exact keepsDumpers_place rfl rfl rfl hk rfl
  | plain k s hk hs =>
    refine keepsDumpers_place rfl rfl rfl hk ?_
    rcases hs with hs | hs | hs <;> rw [hs] <;> rfl
  | server k fd hk hfd =>
    exact keepsDumpers_place (v := w.openFd fd .listening) rfl rfl rfl hk rfl
  | livecapture k fd selectable hk hfd =>
    exact keepsDumpers_place (v := w.openFd fd .capture) rfl rfl rfl hk rfl

theorem AcceptEffect.keepsDumpers (h : AcceptEffect w w') : KeepsDumpers w w' := by
  have hinit : ∀ w : World, w.initClientconnlist.nextDumper = w.nextDumper ∧
      w.initClientconnlist.closedDumpers = w.closedDumpers := by
    intro w
    rw [World.initClientconnlist]
    split <;> exact ⟨rfl, rfl⟩
  cases h with
  | nothing => exact keepsDumpers_of_eq (fun _ ↦ rfl) rfl rfl
  | rejected fd hfd =>
    refine keepsDumpers_of_eq (fun j ↦ ?_) (hinit _).1 (hinit _).2
    rw [World.close_session, (World.initClientconnlist_session _).1]
    rfl
  | accepted k fd hk hfd =>
    exact keepsDumpers_place (World.initClientconnlist_session _).1 (hinit _).1 (hinit _).2 hk rfl

theorem Handles.keepsDumpers (h : Handles w w') : KeepsDumpers w w' := by
  refine keepsDumpers_of_eq (fun j ↦ unmoved_pcapDumper _ _ (h.session j)) ?_ ?_ <;> rw [h.rest]

theorem Tends.keepsDumpers (h : Tends w w') : KeepsDumpers w w' := by
  refine keepsDumpers_of_eq (fun j ↦ unmoved_pcapDumper _ _ (h.session j)) ?_ ?_ <;> rw [h.rest]

/-- A runner opens a dumper where there is none, or leaves the dumpers alone. -/
theorem RunnerStep.dumpers (h : RunnerStep i m w w') :
    (∃ (w₁ : World) (fd : ℤ), w' = w₁.openDumper i fd ∧ w₁.session = w.session ∧
      w₁.threads = w.threads ∧ w₁.nextDumper = w.nextDumper ∧
      w₁.closedDumpers = w.closedDumpers ∧ w₁.clientconnlist = w.clientconnlist ∧
      (w.session i).pcapDumper = none) ∨ KeepsDumpers w w' := by
  cases h with
  | pauses => exact .inr (keepsDumpers_of_eq (fun _ ↦ rfl) rfl rfl)
  | lists => exact .inr (keepsDumpers_of_eq (fun _ ↦ rfl) rfl rfl)
  | dumper _ hhandle hdumper => exact .inl ⟨w, _, rfl, rfl, rfl, rfl, rfl, rfl, hdumper⟩
  | dumpFile _ fd hfd hnone hhandle hdumper =>
    exact .inl ⟨w.openFd fd .file, fd, rfl, rfl, rfl, rfl, rfl, rfl, hdumper⟩
  | tends h => exact .inr h.keepsDumpers
  | accepts h => exact .inr h.keepsDumpers
  | writes _ newState => exact .inr (keepsDumpers_modifySession rfl rfl rfl fun _ ↦ rfl)
  | socket _ fd =>
    exact .inr (keepsDumpers_modifySession (v := w.openFd fd .connection) rfl rfl rfl fun _ ↦ rfl)
  | socketFailed => exact .inr (keepsDumpers_modifySession rfl rfl rfl fun _ ↦ rfl)
  | handle => exact .inr (keepsDumpers_modifySession rfl rfl rfl fun _ ↦ rfl)
  | dumpFileFd => exact .inr (keepsDumpers_modifySession rfl rfl rfl fun _ ↦ rfl)
  | closesHandle _ handle =>
    exact .inr (keepsDumpers_modifySession (v := w.close handle.fd) rfl rfl rfl fun _ ↦ rfl)
  | opensFile _ fd =>
    exact .inr (keepsDumpers_modifySession (v := w.openFd fd .file) rfl rfl rfl fun _ ↦ rfl)
  | notes _ f hf =>
    refine .inr (keepsDumpers_modifySession rfl rfl rfl fun s ↦ ?_)
    rw [hf]

theorem Session.Tidy.dumper_of_startable {s : Session} (hs : s.Tidy) (hm : s.module = some m)
    (h : m.Startable s.fd s.pcapHandle s.pcapDumper) : s.pcapDumper = none := by
  cases m with
  | client => exact h.2.2
  | clientconn => exact h.2
  | merger => exact h.2.2
  | server => exact hs.undumped hm nofun nofun
  | livecapture => exact h
  | filecapture => exact h.2

theorem SupervisorStep.streams (h : SupervisorStep i w w') (hw : Orderly w) (hs : Streams w) :
    Streams w' := by
  have hassign : ∀ {f : Session → Session}, (∀ s, (f s).pcapDumper = s.pcapDumper) →
      Streams (w.modifySession i f) := fun hf ↦
    hs.of_keeps (keepsDumpers_modifySession rfl rfl rfl hf) rfl
  cases h with
  | pauses => exact hs
  | tends h =>
    refine hs.of_keeps h.keepsDumpers ?_
    rw [h.rest]
  | orders newState => exact hassign fun _ ↦ rfl
  | counts n => exact hassign fun _ ↦ rfl
  | starts => exact hassign fun _ ↦ rfl
  | creates m halone hstate hm hstartable =>
    -- a session that is started has no dumper that its thread could hold open
    have hnone := (hw.tidy i).dumper_of_startable hm hstartable
    have hsame : ∀ j, ((w.createThread i m).session j).pcapDumper = (w.session j).pcapDumper := by
      intro j
      by_cases hj : j = i
      · rw [hj, World.session_createThread_self]
      · rw [World.session_createThread_of_ne _ _ hj]
    refine hs.of_forgets (fun j ↦ .inl (hsame j)) rfl rfl fun j hj ↦ ?_
    obtain ⟨t, m', ht⟩ := hj
    rw [World.threads_createThread] at ht
    split at ht
    · cases ht
      exact .inr ((hsame i).trans hnone)
    · exact .inl ⟨t, m', ht⟩
  | cancels => exact hs.of_keeps (keepsDumpers_of_eq (fun _ ↦ rfl) rfl rfl) rfl
  | joins =>
    refine hs.of_forgets (fun _ ↦ .inl rfl) rfl rfl fun j hj ↦ .inl ?_
    obtain ⟨t, m', ht⟩ := hj
    rw [World.threads_joinThread] at ht
    split at ht
    · cases ht
    · exact ⟨t, m', ht⟩
  | forgets => exact hassign fun _ ↦ rfl
  | unlists => exact hs.of_keeps (keepsDumpers_of_eq (fun _ ↦ rfl) rfl rfl) rfl
  | closesDumper dumper halone hdetached hdumper => exact hs.closeDumper halone hdumper
  | clearsDumper =>
    refine hs.of_forgets (fun j ↦ ?_) rfl rfl fun j hj ↦ .inl hj
    by_cases hj : j = i
    · rw [hj, World.session_modifySession_self]
      exact .inr rfl
    · rw [World.session_modifySession_of_ne _ hj]
      exact .inl rfl
  | closesHandle => exact hs.of_keeps (keepsDumpers_of_eq (fun _ ↦ rfl) rfl rfl) rfl
  | clearsHandle => exact hassign fun _ ↦ rfl
  | closesFd => exact hs.of_keeps (keepsDumpers_of_eq (fun _ ↦ rfl) rfl rfl) rfl
  | clearsFd => exact hassign fun _ ↦ rfl
  | decides m => exact hassign fun _ ↦ rfl
  | releases => exact hassign fun _ ↦ rfl

theorem Deed.streams (h : Deed w w') (hw : Orderly w) (hs : Streams w) : Streams w' := by
  cases h with
  | opens h => exact hs.of_keeps h.keepsDumpers h.rest.2.2.2.1
  | supervises i h => exact h.streams hw hs
  | runs t i m ht h =>
    rcases h.dumpers with ⟨w₁, fd, rfl, hsession, hthreads, hnext, hclosed, -, -⟩ | hkeeps
    · have hs₁ : Streams w₁ := by
        refine hs.of_keeps (keepsDumpers_of_eq (fun j ↦ ?_) hnext hclosed) hthreads
        rw [hsession]
      exact hs₁.openDumper i fd
    · exact hs.of_keeps hkeeps h.threads.1
  | handles t i m ht h => exact hs.of_keeps h.keepsDumpers h.keepsLifecycle.threads
  | closes => exact hs.of_keeps (keepsDumpers_of_eq (fun _ ↦ rfl) rfl rfl) rfl

end Streams

/-! ## The list -/

section Listing

variable {i j : Slot} {w w' : World} {m : Module} {t : ℕ}

/-- What is listed was listed before, and is still served. -/
theorem Listing.of_keeps (h : Listing w)
    (hlisted : ∀ j k, w'.clientconnlist j = some k → w.clientconnlist j = some k ∧
      (w.ServesClient j → w'.ServesClient j)) : Listing w' := by
  intro j k hj
  obtain ⟨hold, hserves⟩ := hlisted j k hj
  obtain ⟨hk, hj⟩ := h j k hold
  exact ⟨hk, hserves hj⟩

theorem World.ServesClient.of_keeps (h : w.ServesClient j)
    (hstate : (w'.session j).state ≠ .unused)
    (hmodule : (w'.session j).module = (w.session j).module)
    (hdumper : (w'.session j).pcapDumper = (w.session j).pcapDumper)
    (hclosed : w'.closedDumpers = w.closedDumpers) : w'.ServesClient j := by
  obtain ⟨-, hm, d, hd, hopen⟩ := h
  exact ⟨hstate, hmodule.trans hm, d, hdumper.trans hd, hclosed ▸ hopen⟩

theorem World.ServesClient.of_unmoved (h : w.ServesClient j)
    (hunmoved : (w.session j).Unmoved (w'.session j))
    (hclosed : w'.closedDumpers = w.closedDumpers) : w'.ServesClient j := by
  refine h.of_keeps ?_ (unmoved_module _ _ hunmoved) (unmoved_pcapDumper _ _ hunmoved) hclosed
  rw [unmoved_state _ _ hunmoved]
  exact h.1

theorem SupervisorStep.listing (h : SupervisorStep i w w') (hs : Streams w) (hl : Listing w) :
    Listing w' := by
  have hused : w.clientconnlist i ≠ none → (w.session i).state ≠ .unused := by
    intro hlisted
    obtain ⟨k, hk⟩ := Option.ne_none_iff_exists'.mp hlisted
    exact (hl i k hk).2.1
  -- A session that is detached is not listed.
  have hunlisted : w.Detached i → w.clientconnlist i = none := by
    intro hdetached
    cases hj : w.clientconnlist i with
    | none => rfl
    | some k => rw [← hj, hdetached (hl i k hj).2.2.1]
  -- Steps that leave the list and the streams alone, and the dumper of a listed session.
  have hkeep : w'.clientconnlist = w.clientconnlist → w'.closedDumpers = w.closedDumpers →
      (w.clientconnlist i ≠ none → (w'.session i).state ≠ .unused ∧
        (w'.session i).pcapDumper = (w.session i).pcapDumper) → Listing w' := by
    intro hlist hclosed hi
    refine hl.of_keeps fun j k hj ↦ ?_
    rw [hlist] at hj
    refine ⟨hj, fun hserves ↦ ?_⟩
    by_cases hji : j = i
    · subst hji
      obtain ⟨hstate, hdumper⟩ := hi (by rw [hj]; nofun)
      exact hserves.of_keeps hstate h.module hdumper hclosed
    · exact hserves.of_unmoved (h.unmoved hji) hclosed
  have hassign : ∀ {f : Session → Session}, w' = w.modifySession i f →
      (∀ s, s.state ≠ .unused → (f s).state ≠ .unused) → (∀ s, (f s).pcapDumper = s.pcapDumper) →
      Listing w' := by
    rintro f rfl hstate hdumper
    refine hkeep rfl rfl fun hlisted ↦ ?_
    rw [World.session_modifySession_self]
    exact ⟨hstate _ (hused hlisted), hdumper _⟩
  cases h with
  | pauses => exact hl
  | tends h =>
    refine hkeep ?_ ?_ fun hlisted ↦ ⟨?_, unmoved_pcapDumper _ _ (h.session i)⟩
    · rw [h.rest]
    · rw [h.rest]
    · rw [unmoved_state _ _ (h.session i)]
      exact hused hlisted
  | orders newState _ hnew =>
    refine hassign rfl (fun _ _ ↦ ?_) fun _ ↦ rfl
    rcases hnew with rfl | rfl | ⟨rfl | rfl, -⟩ <;> nofun
  | counts n => exact hassign rfl (fun _ h ↦ h) fun _ ↦ rfl
  | starts => exact hassign rfl (fun _ _ ↦ nofun) fun _ ↦ rfl
  | creates m =>
    refine hkeep rfl rfl fun hlisted ↦ ?_
    rw [World.session_createThread_self]
    exact ⟨hused hlisted, rfl⟩
  | cancels => exact hkeep rfl rfl fun hlisted ↦ ⟨hused hlisted, rfl⟩
  | joins => exact hkeep rfl rfl fun hlisted ↦ ⟨hused hlisted, rfl⟩
  | forgets => exact hassign rfl (fun _ h ↦ h) fun _ ↦ rfl
  | unlists =>
    refine hl.of_keeps fun j k hj ↦ ⟨?_, fun hserves ↦ hserves⟩
    rcases (handles_unlist i w).unlisted j with hsame | hnone
    · exact hsame.symm.trans hj
    · exact absurd (hnone.symm.trans hj) nofun
  | closesDumper dumper halone hdetached hdumper =>
    refine hl.of_keeps fun j k hj ↦ ⟨hj, fun ⟨hstate, hm, d, hd, hopen⟩ ↦ ?_⟩
    refine ⟨hstate, hm, d, hd, fun hclosed ↦ ?_⟩
    -- no other session has the dumper that is closed
    rcases Finset.mem_insert.mp hclosed with heq | hclosed
    · have hji : j = i := hs.dumper_inj hd hdumper heq
      have hj : w.clientconnlist j = some k := hj
      rw [hji, hunlisted hdetached] at hj
      cases hj
    · exact hopen hclosed
  | clearsDumper halone hdetached =>
    exact hkeep rfl rfl fun hlisted ↦ absurd (hunlisted hdetached) hlisted
  | closesHandle => exact hkeep rfl rfl fun hlisted ↦ ⟨hused hlisted, rfl⟩
  | clearsHandle => exact hassign rfl (fun _ h ↦ h) fun _ ↦ rfl
  | closesFd => exact hkeep rfl rfl fun hlisted ↦ ⟨hused hlisted, rfl⟩
  | clearsFd => exact hassign rfl (fun _ h ↦ h) fun _ ↦ rfl
  | decides m _ _ _ hdetached =>
    exact hkeep rfl rfl fun hlisted ↦ absurd (hunlisted hdetached) hlisted
  | releases _ _ hdetached =>
    exact hkeep rfl rfl fun hlisted ↦ absurd (hunlisted hdetached) hlisted

theorem RunnerStep.used (h : RunnerStep i m w w') (hthread : w.HasThread i)
    (hj : (w.session j).state ≠ .unused) : (w'.session j).state ≠ .unused :=
  (h.effect.interference hthread).unused hj

theorem RunnerStep.listing (h : RunnerStep i m w w') (hw : Orderly w) (hs : Streams w)
    (ht : w.threads t = some (i, m)) (hl : Listing w) : Listing w' := by
  have hthread : w.HasThread i := ⟨t, m, ht⟩
  have hmodule : ∀ {j}, (w.session j).state ≠ .unused →
      (w'.session j).module = (w.session j).module := by
    intro j hused
    by_cases hji : j = i
    · exact hji ▸ h.module (hw.used_of_thread ht)
    · exact unmoved_module _ _ (h.unmoved hji hused)
  rcases h.dumpers with ⟨w₁, fd, rfl, hsession, -, -, hclosed, hlist, hnone⟩ | hkeeps
  · -- A session that opens a dumper has none yet, so that it is not listed.
    refine hl.of_keeps fun j k hj ↦ ?_
    have hold : w.clientconnlist j = some k := hlist ▸ hj
    refine ⟨hold, fun hserves ↦ ?_⟩
    have hji : j ≠ i := by
      rintro rfl
      obtain ⟨-, -, d, hd, -⟩ := hserves
      rw [hnone] at hd
      cases hd
    refine hserves.of_unmoved ?_ hclosed
    rw [World.openDumper, World.session_modifySession_of_ne _ hji]
    change (w.session j).Unmoved (w₁.session j)
    rw [hsession]
    exact .refl _
  · have hserves : ∀ {j}, w.ServesClient j → w'.ServesClient j := fun {j} hj ↦
      hj.of_keeps (h.used hthread hj.1) (hmodule hj.1) (hkeeps.used j hj.1) hkeeps.closedDumpers
    by_cases hlists : ∀ j k, w'.clientconnlist j = some k → w.clientconnlist j = some k
    · exact hl.of_keeps fun j k hj ↦ ⟨hlists j k hj, hserves⟩
    · -- The runner of a client connection lists its session.
      cases h with
      | lists _ hdumper =>
        intro j k hj
        by_cases hji : j = i
        · subst hji
          have hk : some j = some k :=
            (Function.update_self j (some j) w.clientconnlist).symm.trans hj
          obtain ⟨d, hd⟩ := Option.isSome_iff_exists.mp hdumper
          exact ⟨(Option.some.inj hk).symm, hw.used_of_thread ht, hw.thread_module ht, d, hd,
            hs.thread_open hthread hd⟩
        · have hold : w.clientconnlist j = some k := (Function.update_of_ne hji _ _).symm.trans hj
          exact hl j k hold
      | tends h =>
        refine absurd (fun j k hj ↦ ?_) hlists
        rw [h.rest] at hj
        exact hj
      | accepts h =>
        refine absurd (fun j k hj ↦ ?_) hlists
        rcases h.rest.2.2 with hsame | hnone
        · exact hsame ▸ hj
        · rw [hnone] at hj
          cases hj
      | _ => exact absurd (fun _ _ hj ↦ hj) hlists

theorem Deed.listing (h : Deed w w') (hw : Orderly w) (hs : Streams w) (hl : Listing w) :
    Listing w' := by
  cases h with
  | opens h =>
    refine hl.of_keeps fun j k hj ↦ ⟨h.rest.2.2.1 ▸ hj, fun hserves ↦ ?_⟩
    exact hserves.of_unmoved (h.unmoved hserves.1) h.keepsDumpers.closedDumpers
  | supervises i h => exact h.listing hs hl
  | runs t i m ht h => exact h.listing hw hs ht hl
  | handles t i m ht h =>
    refine hl.of_keeps fun j k hj ↦ ⟨?_, fun hserves ↦ ?_⟩
    · rcases h.unlisted j with hsame | hnone
      · exact hsame.symm.trans hj
      · rw [hnone] at hj
        cases hj
    · exact hserves.of_unmoved (h.session j) h.keepsDumpers.closedDumpers
  | closes => exact hl

/-- **A listed client has an open dumper**, in every interleaving of open functions, visits, runners
and packet handlers. -/
theorem listed_client_open (as : List Action) (c : Machine)
    (hrun : Machine.init.run as = some c) (i : Slot) :
    (c.world.clientconnlist i ≠ none → (c.world.session i).state ≠ .unused ∧
      (c.world.session i).module = some .clientconn ∧
      ∃ dumper, (c.world.session i).pcapDumper = some dumper ∧
        dumper.id ∉ c.world.closedDumpers) ∧
    ((c.world.session i).state = .unused → c.world.clientconnlist i = none) := by
  have hlisting : Streams c.world ∧ Listing c.world :=
    Machine.invariant_of_run (I := fun w ↦ Streams w ∧ Listing w) (fun w w' hw _ hdeed hI ↦
      ⟨hdeed.streams hw hI.1, hdeed.listing hw hI.1 hI.2⟩) ⟨streams_init, nofun⟩ hrun
  have hlisted : c.world.clientconnlist i ≠ none → c.world.ServesClient i := by
    intro hlisted
    obtain ⟨k, hk⟩ := Option.ne_none_iff_exists'.mp hlisted
    exact (hlisting.2 i k hk).2
  refine ⟨hlisted, fun hunused ↦ ?_⟩
  by_contra hne
  exact (hlisted hne).1 hunused

/-- A connection is accepted by a server, and its session puts itself on the list. -/
theorem listed_client_open_accepted :
    ∃ as c, Machine.init.run as = some c ∧ c.world.clientconnlist 1 = some 1 ∧
      ∃ dumper, (c.world.session 1).pcapDumper = some dumper ∧
        dumper.id ∉ c.world.closedDumpers := by
  let granted : Query → ℤ := fun q ↦ if q = .openServerSocket then 3 else 0
  let as : List Action := [[.opens .server granted], silentVisit 0 11, [.runs 1 0, .runs 1 1,
    .runs 1 0, .runs 1 0, .runs 1 4, .runs 1 0], silentVisit 1 15, silentRuns 2 7].flatten
  have hrun : ((Machine.init.run as).map fun c ↦ c.world.clientconnlist 1) = some (some 1) := by
    decide +kernel
  obtain ⟨c, hrun, hlisted⟩ := Option.map_eq_some_iff.mp hrun
  refine ⟨as, c, hrun, hlisted, ((listed_client_open as c hrun 1).1 ?_).2.2⟩
  rw [hlisted]
  nofun

end Listing

end DistributorMerger
