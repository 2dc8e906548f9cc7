import DistributorMerger.Session.Visiting
import DistributorMerger.Session.Holding

/-!
# Whose descriptor a stopper closes

The stopper of a client or a client connection closes the descriptor through the library, then looks
at the number again and closes it if it seems open. In between, the kernel may have handed out the
number to another session.

A number that is closed but still on record with a session is the only way to this. When the kernel
hands out no such number, a stopper closes what was opened for its own session only.
-/

namespace DistributorMerger

/-! ## What is on record -/

section Record

variable {i j : Slot} {w w' : World} {m : Module} {t : ℕ} {fd : ℤ} {s : Session}

theorem Session.mem_held : fd ∈ s.held ↔ (s.OwnsFd ∧ 0 < s.fd ∧ fd = s.fd) ∨
    (∃ handle, s.pcapHandle = some handle ∧ handle.fd = fd) ∨
    ∃ dumper, s.pcapDumper = some dumper ∧ dumper.fd = fd := by
  have howns : fd ∈ s.ownFds ↔ s.OwnsFd ∧ 0 < s.fd ∧ fd = s.fd := by
    rw [Session.ownFds]
    split
    · rename_i h
      rw [Finset.mem_singleton]
      exact ⟨fun heq ↦ ⟨h.1, h.2, heq⟩, fun h ↦ h.2.2⟩
    · rename_i h
      exact ⟨fun hmem ↦ absurd hmem (Finset.notMem_empty _), fun h' ↦ absurd ⟨h'.1, h'.2.1⟩ h⟩
  rw [Session.held, Finset.mem_union, Finset.mem_union, howns, Session.handleFds,
    Session.dumperFds, Option.mem_toFinset, Option.mem_toFinset, Option.mem_def, Option.mem_def,
    Option.map_eq_some_iff, Option.map_eq_some_iff, or_assoc]

/-- Numbers come on record with session `j` only when they were not open. -/
def World.Records (w w' : World) (j : Slot) : Prop :=
  ∀ fd ∈ (w'.session j).held, fd ∈ (w.session j).held ∨ fd ∉ w.openFds

theorem records_of_held (h : (w'.session j).held ⊆ (w.session j).held) : w.Records w' j :=
  fun _ hfd ↦ .inl (h hfd)

theorem held_of_unmoved (h : (w.session j).Unmoved (w'.session j)) :
    (w'.session j).held = (w.session j).held := by
  refine Session.held_congr ?_ ?_ ?_ ?_ <;> rw [h]

theorem records_of_unmoved (h : (w.session j).Unmoved (w'.session j)) : w.Records w' j :=
  records_of_held (Finset.subset_of_eq (held_of_unmoved h))

/-- A session that is placed in a slot has nothing but new numbers on record. -/
theorem records_place {w₁ : World} {k : Slot} (hw₁ : w₁.session = w.session)
    (hs : ∀ fd ∈ s.held, fd ∉ w.openFds) : w.Records (w₁.place k s) j := by
  by_cases hjk : j = k
  · intro fd hfd
    rw [hjk, World.place, World.session_modifySession_self] at hfd
    exact .inr (hs fd hfd)
  · refine records_of_held (Finset.subset_of_eq ?_)
    rw [World.place, World.session_modifySession_of_ne _ hjk, hw₁]

theorem notMem_of_grants (h : w.grants fd = true) : fd ∉ w.openFds := (of_decide_eq_true h).2

theorem held_opened_plain {s : Session} (hfd : s.fd = 0) (hhandle : s.pcapHandle = none)
    (hdumper : s.pcapDumper = none) : s.held = ∅ := by
  refine Session.held_eq_empty (fun _ ↦ ?_) hhandle hdumper
  rw [hfd]

theorem OpenEffect.placed (h : OpenEffect w w') : w' = w ∨ ∃ w₁ k s, w' = World.place w₁ k s ∧
    w₁.session = w.session ∧ (w.session k).state = .unused ∧ ∀ fd ∈ s.held, fd ∉ w.openFds := by
  have hempty : ∀ {s : Session} {fd : ℤ}, s.held = ∅ → fd ∈ s.held → fd ∉ w.openFds := by
    intro s fd hs hfd
    rw [hs] at hfd
    exact absurd hfd (Finset.notMem_empty _)
  cases h with
  | full => exact .inl rfl
  | refused k m hk =>
    exact .inr ⟨w, k, _, rfl, rfl, hk, fun fd ↦ hempty (held_opened_plain rfl rfl rfl)⟩
  | plain k s hk hs =>
    refine .inr ⟨w, k, s, rfl, rfl, hk, fun fd ↦ hempty ?_⟩
    rcases hs with hs | hs | hs <;> rw [hs] <;> exact held_opened_plain rfl rfl rfl
  | server k fd hk hfd =>
    refine .inr ⟨w.openFd fd .listening, k, _, rfl, rfl, hk, fun fd' hfd' ↦ ?_⟩
    rcases Session.mem_held.mp hfd' with ⟨-, -, rfl⟩ | ⟨_, h, -⟩ | ⟨_, h, -⟩
    · exact notMem_of_grants hfd
    · cases h
    · cases h
  | livecapture k fd selectable hk hfd =>
    refine .inr ⟨w.openFd fd .capture, k, _, rfl, rfl, hk, fun fd' hfd' ↦ ?_⟩
    rcases Session.mem_held.mp hfd' with ⟨h, -, -⟩ | ⟨_, h, rfl⟩ | ⟨_, h, -⟩
    · exact absurd rfl h.1
    · cases h
      exact notMem_of_grants hfd
    · cases h

theorem AcceptEffect.placed (h : AcceptEffect w w') : w'.session = w.session ∨
    ∃ w₁ k s, w' = World.place w₁ k s ∧ w₁.session = w.session ∧
      (w.session k).state = .unused ∧ ∀ fd ∈ s.held, fd ∉ w.openFds := by
  cases h with
  | nothing => exact .inl rfl
  | rejected fd hfd =>
    refine .inl ?_
    rw [World.close_session, (World.initClientconnlist_session _).1]
    rfl
  | accepted k fd hk hfd =>
    refine .inr ⟨(w.openFd fd .connection).initClientconnlist, k, _, rfl, ?_, hk, fun fd' hfd' ↦ ?_⟩
    · rw [(World.initClientconnlist_session _).1]
      rfl
    · rcases Session.mem_held.mp hfd' with ⟨-, -, rfl⟩ | ⟨_, h, -⟩ | ⟨_, h, -⟩
      · exact notMem_of_grants hfd
      · cases h
      · cases h

theorem OpenEffect.records (h : OpenEffect w w') : w.Records w' j := by
  rcases h.placed with rfl | ⟨w₁, k, s, rfl, hw₁, -, hs⟩
  · exact fun _ ↦ .inl
  · exact records_place hw₁ hs

theorem AcceptEffect.records (h : AcceptEffect w w') : w.Records w' j := by
  rcases h.placed with hsame | ⟨w₁, k, s, rfl, hw₁, -, hs⟩
  · refine records_of_held (Finset.subset_of_eq ?_)
    rw [hsame]
  · exact records_place hw₁ hs

/-- Every descriptor has a positive number. -/
def World.Numbered (w : World) : Prop := ∀ fd ∈ w.openFds, 0 < fd

theorem RunnerStep.records (h : RunnerStep i m w w') (hm : (w.session i).module = some m)
    (hw : w.Numbered) : w.Records w' j := by
  by_cases hji : j = i
  · subst hji
    -- The session afterwards, with what it has on record that is new.
    have hassign : ∀ {v : World} {f : Session → Session}, v.session = w.session →
        (∀ fd ∈ (f (w.session j)).held, fd ∈ (w.session j).held ∨ fd ∉ w.openFds) →
        w.Records (v.modifySession j f) j := by
      intro v f hv hf fd hfd
      rw [World.session_modifySession_self, hv] at hfd
      exact hf fd hfd
    have hsame : ∀ {v : World} {f : Session → Session}, v.session = w.session →
        (f (w.session j)).held = (w.session j).held → w.Records (v.modifySession j f) j :=
      fun hv hf ↦ hassign hv fun fd hfd ↦ .inl (hf ▸ hfd)
    cases h with
    | pauses => exact fun _ ↦ .inl
    | lists => exact fun _ ↦ .inl
    | tends h => exact records_of_unmoved (h.session j)
    | accepts h => exact h.records
    | writes _ newState => exact hsame rfl (Session.held_congr rfl rfl rfl rfl)
    | socket _ fd hfd =>
      refine hassign (v := w.openFd fd .connection) rfl fun fd' hfd' ↦ ?_
      rcases Session.mem_held.mp hfd' with ⟨-, -, rfl⟩ | h | h
      · exact .inr (notMem_of_grants hfd)
      · exact .inl (Session.mem_held.mpr (.inr (.inl h)))
      · exact .inl (Session.mem_held.mpr (.inr (.inr h)))
    | socketFailed =>
      refine hassign rfl fun fd' hfd' ↦ .inl ?_
      rcases Session.mem_held.mp hfd' with ⟨-, hpos, -⟩ | h | h
      · exact absurd hpos (not_lt_of_gt (Int.negSucc_lt_zero 0))
      · exact Session.mem_held.mpr (.inr (.inl h))
      · exact Session.mem_held.mpr (.inr (.inr h))
    | handle _ hfd =>
      refine hassign rfl fun fd' hfd' ↦ .inl ?_
      rcases Session.mem_held.mp hfd' with ⟨howns, hpos, rfl⟩ | ⟨_, hhandle, rfl⟩ | h
      · exact Session.mem_held.mpr (.inl ⟨howns, hpos, rfl⟩)
      · cases hhandle
        refine Session.mem_held.mpr (.inl ⟨?_, hfd, rfl⟩)
        simp [Session.OwnsFd, hm]
      · exact Session.mem_held.mpr (.inr (.inr h))
    | dumper =>
      refine hassign (v := { w with nextDumper := w.nextDumper + 1 }) rfl fun fd' hfd' ↦ ?_
      rcases Session.mem_held.mp hfd' with ⟨howns, hpos, rfl⟩ | h | ⟨_, hdumper, rfl⟩
      · exact .inl (Session.mem_held.mpr (.inl ⟨howns, hpos, rfl⟩))
      · exact .inl (Session.mem_held.mpr (.inr (.inl h)))
      · cases hdumper
        by_cases hopen : (w.session j).fd ∈ w.openFds
        · refine .inl (Session.mem_held.mpr (.inl ⟨?_, hw _ hopen, rfl⟩))
          simp [Session.OwnsFd, hm]
        · exact .inr hopen
    | dumpFile _ fd hfd =>
      refine hassign (v := { w.openFd fd .file with nextDumper := w.nextDumper + 1 }) rfl
        fun fd' hfd' ↦ ?_
      rcases Session.mem_held.mp hfd' with ⟨howns, hpos, rfl⟩ | h | ⟨_, hdumper, rfl⟩
      · exact .inl (Session.mem_held.mpr (.inl ⟨howns, hpos, rfl⟩))
      · exact .inl (Session.mem_held.mpr (.inr (.inl h)))
      · cases hdumper
        exact .inr (notMem_of_grants hfd)
    | dumpFileFd _ dumper _ _ hdumper =>
      refine hassign rfl fun fd' hfd' ↦ .inl ?_
      rcases Session.mem_held.mp hfd' with ⟨-, -, rfl⟩ | h | h
      · exact Session.mem_held.mpr (.inr (.inr ⟨dumper, hdumper, rfl⟩))
      · exact Session.mem_held.mpr (.inr (.inl h))
      · exact Session.mem_held.mpr (.inr (.inr h))
    | closesHandle _ handle =>
      refine hassign (v := w.close handle.fd) rfl fun fd' hfd' ↦ .inl ?_
      rcases Session.mem_held.mp hfd' with h | ⟨_, h, -⟩ | h
      · exact Session.mem_held.mpr (.inl h)
      · cases h
      · exact Session.mem_held.mpr (.inr (.inr h))
    | opensFile _ fd hfd =>
      refine hassign (v := w.openFd fd .file) rfl fun fd' hfd' ↦ ?_
      rcases Session.mem_held.mp hfd' with h | ⟨_, hhandle, rfl⟩ | h
      · exact .inl (Session.mem_held.mpr (.inl h))
      · cases hhandle
        exact .inr (notMem_of_grants hfd)
      · exact .inl (Session.mem_held.mpr (.inr (.inr h)))
    | notes _ f hf =>
      refine hassign rfl fun fd' hfd' ↦ .inl ?_
      rw [hf] at hfd'
      rcases Session.mem_held.mp hfd' with ⟨howns, -, -⟩ | h | h
      · exact absurd hm howns.2
      · exact Session.mem_held.mpr (.inr (.inl h))
      · exact Session.mem_held.mpr (.inr (.inr h))
  · rcases h.unmoved_or_accepts hji with hunmoved | haccepts
    · exact records_of_unmoved hunmoved
    · exact haccepts.records

theorem SupervisorStep.held (h : SupervisorStep i w w') :
    (w'.session j).held ⊆ (w.session j).held := by
  by_cases hji : j = i
  · subst hji
    have hsame : ∀ {f : Session → Session}, (f (w.session j)).held = (w.session j).held →
        ((w.modifySession j f).session j).held ⊆ (w.session j).held := by
      intro f hf
      rw [World.session_modifySession_self, hf]
    cases h with
    | tends h =>
      intro fd hfd
      rw [h.session j] at hfd
      rwa [Session.held_congr] at hfd <;> rfl
    | creates m =>
      rw [World.session_createThread_self]
      exact Finset.subset_of_eq (Session.held_congr rfl rfl rfl rfl)
    | orders newState => exact hsame (Session.held_congr rfl rfl rfl rfl)
    | counts n => exact hsame (Session.held_congr rfl rfl rfl rfl)
    | starts => exact hsame (Session.held_congr rfl rfl rfl rfl)
    | forgets => exact hsame (Session.held_congr rfl rfl rfl rfl)
    | decides m => exact hsame (Session.held_congr rfl rfl rfl rfl)
    | releases => exact hsame (Session.held_congr rfl rfl rfl rfl)
    | clearsDumper =>
      intro fd hfd
      rw [World.session_modifySession_self] at hfd
      rcases Session.mem_held.mp hfd with h | h | ⟨_, h, -⟩
      · exact Session.mem_held.mpr (.inl h)
      · exact Session.mem_held.mpr (.inr (.inl h))
      · cases h
    | clearsHandle =>
      intro fd hfd
      rw [World.session_modifySession_self] at hfd
      rcases Session.mem_held.mp hfd with h | ⟨_, h, -⟩ | h
      · exact Session.mem_held.mpr (.inl h)
      · cases h
      · exact Session.mem_held.mpr (.inr (.inr h))
    | clearsFd =>
      intro fd hfd
      rw [World.session_modifySession_self] at hfd
      rcases Session.mem_held.mp hfd with ⟨-, h, -⟩ | h | h
      · exact absurd h (lt_irrefl 0)
      · exact Session.mem_held.mpr (.inr (.inl h))
      · exact Session.mem_held.mpr (.inr (.inr h))
    | _ => exact Finset.Subset.refl _
  · intro fd hfd
    rw [h.unmoved hji] at hfd
    rwa [Session.held_congr] at hfd <;> rfl

/-- **Deeds put numbers on record** only when these were not open. -/
theorem Deed.records (h : Deed w w') (hw : Orderly w) (hnumbered : w.Numbered) :
    w.Records w' j := by
  cases h with
  | opens h => exact h.records
  | supervises i h => exact records_of_held h.held
  | runs t i m ht h => exact h.records (hw.thread_module ht) hnumbered
  | handles t i m ht h => exact records_of_unmoved (h.session j)
  | closes => exact fun _ ↦ .inl

end Record

/-! ## What is opened and closed -/

section Closing

variable {i j : Slot} {w w' : World} {m : Module} {t : ℕ} {fd : ℤ}

theorem openFds_openFd {fd' : ℤ} (hgrants : w.grants fd' = true)
    (hfd : fd ∈ insert fd' w.openFds) : fd ∈ w.openFds ∨ w.grants fd = true := by
  rcases Finset.mem_insert.mp hfd with rfl | hfd
  · exact .inr hgrants
  · exact .inl hfd

theorem OpenEffect.openFds (h : OpenEffect w w') (hfd : fd ∈ w'.openFds) :
    fd ∈ w.openFds ∨ w.grants fd = true := by
  cases h with
  | server k fd' hk hgrants => exact openFds_openFd hgrants hfd
  | livecapture k fd' selectable hk hgrants => exact openFds_openFd hgrants hfd
  | _ => exact .inl hfd

theorem AcceptEffect.openFds (h : AcceptEffect w w') (hfd : fd ∈ w'.openFds) :
    fd ∈ w.openFds ∨ w.grants fd = true := by
  have hinit : ∀ w : World, w.initClientconnlist.openFds = w.openFds := by
    intro w
    rw [World.initClientconnlist]
    split <;> rfl
  cases h with
  | nothing => exact .inl hfd
  | rejected fd' hgrants =>
    have hfd := Finset.mem_of_mem_erase hfd
    rw [hinit] at hfd
    exact openFds_openFd hgrants hfd
  | accepted k fd' hk hgrants =>
    rw [World.place, World.modifySession_openFds, hinit] at hfd
    exact openFds_openFd hgrants hfd

theorem RunnerStep.openFds (h : RunnerStep i m w w') (hfd : fd ∈ w'.openFds) :
    fd ∈ w.openFds ∨ w.grants fd = true := by
  cases h with
  | tends h =>
    rw [h.rest] at hfd
    exact .inl hfd
  | accepts h => exact h.openFds hfd
  | socket _ fd' hgrants => exact openFds_openFd hgrants hfd
  | dumpFile _ fd' hgrants => exact openFds_openFd hgrants hfd
  | opensFile _ fd' hgrants => exact openFds_openFd hgrants hfd
  | closesHandle _ handle => exact .inl (Finset.mem_of_mem_erase hfd)
  | _ => exact .inl hfd

theorem SupervisorStep.openFds (h : SupervisorStep i w w') (hfd : fd ∈ w'.openFds) :
    fd ∈ w.openFds := by
  cases h with
  | tends h =>
    rw [h.rest] at hfd
    exact hfd
  | closesDumper dumper => exact Finset.mem_of_mem_erase hfd
  | closesHandle handle => exact Finset.mem_of_mem_erase hfd
  | closesFd m => exact Finset.mem_of_mem_erase hfd
  | _ => exact hfd

theorem Deed.openFds (h : Deed w w') (hfd : fd ∈ w'.openFds) :
    fd ∈ w.openFds ∨ w.grants fd = true := by
  cases h with
  | opens h => exact h.openFds hfd
  | supervises i h => exact .inl (h.openFds hfd)
  | runs t i m ht h => exact h.openFds hfd
  | handles t i m ht h =>
    rw [h.rest] at hfd
    exact .inl hfd
  | closes => exact .inl hfd

theorem Deed.numbered (h : Deed w w') (hw : w.Numbered) : w'.Numbered := by
  intro fd hfd
  rcases h.openFds hfd with hold | hgrants
  · exact hw fd hold
  · exact (of_decide_eq_true hgrants).1

/-- **A stopper closes what is on record** with the session that is visited. -/
theorem SupervisorStep.closes (h : SupervisorStep i w w') (hfd : fd ∈ w.openFds)
    (hclosed : fd ∉ w'.openFds) : fd ∈ (w.session i).held := by
  have herase : ∀ {fd'}, fd ∉ w.openFds.erase fd' → fd' = fd := by
    intro fd' hnot
    by_contra hne
    exact hnot (Finset.mem_erase.mpr ⟨Ne.symm hne, hfd⟩)
  cases h with
  | tends h =>
    rw [h.rest] at hclosed
    exact absurd hfd hclosed
  | closesDumper dumper _ _ hdumper =>
    exact Session.mem_held.mpr (.inr (.inr ⟨dumper, hdumper, herase hclosed⟩))
  | closesHandle handle _ hhandle =>
    exact Session.mem_held.mpr (.inr (.inl ⟨handle, hhandle, herase hclosed⟩))
  | closesFd m _ hm howns hpos =>
    refine Session.mem_held.mpr (.inl ⟨?_, hpos, (herase hclosed).symm⟩)
    rw [Session.OwnsFd, hm]
    exact ⟨fun h ↦ howns.1 (Option.some.inj h), fun h ↦ howns.2 (Option.some.inj h)⟩
  | _ => exact absurd hfd hclosed

theorem SupervisorStep.unused (h : SupervisorStep i w w')
    (hunused : (w.session j).state = .unused) : (w'.session j).state = .unused := by
  by_cases hji : j = i
  · subst hji
    have hsame : ∀ {f : Session → Session}, (∀ s, (f s).state = s.state) →
        ((w.modifySession j f).session j).state = .unused := by
      intro f hf
      rw [World.session_modifySession_self, hf]
      exact hunused
    cases h with
    | tends h => exact (unmoved_state _ _ (h.session j)).trans hunused
    | orders newState hused => exact absurd hunused hused
    | starts _ hstate => exact absurd (hunused.symm.trans hstate) nofun
    | decides m _ hused => exact absurd hunused hused
    | releases => rw [World.setState, World.session_modifySession_self]
    | creates m => exact (w.state_createThread j j m).trans hunused
    | counts n => exact hsame fun _ ↦ rfl
    | forgets => exact hsame fun _ ↦ rfl
    | clearsDumper => exact hsame fun _ ↦ rfl
    | clearsHandle => exact hsame fun _ ↦ rfl
    | clearsFd => exact hsame fun _ ↦ rfl
    | _ => exact hunused
  · exact (unmoved_state _ _ (h.unmoved hji)).trans hunused

theorem Deed.records_opened (h : Deed w w') (hw : Orderly w)
    (hunused : (w.session j).state = .unused)
    (hused : (w'.session j).state ≠ .unused) (hfd : fd ∈ (w'.session j).held) : fd ∉ w.openFds := by
  have hplaced : ∀ {w₁ : World} {k : Slot} {s : Session}, w₁.session = w.session →
      (∀ fd ∈ s.held, fd ∉ w.openFds) → ((w₁.place k s).session j).state ≠ .unused →
      fd ∈ ((w₁.place k s).session j).held → fd ∉ w.openFds := by
    intro w₁ k s hw₁ hs hused hfd
    by_cases hjk : j = k
    · rw [hjk, World.place, World.session_modifySession_self] at hfd
      exact hs fd hfd
    · rw [World.place, World.session_modifySession_of_ne _ hjk, hw₁] at hused
      exact absurd hunused hused
  have hunmoved : (w.session j).Unmoved (w'.session j) → fd ∉ w.openFds := by
    intro hunmoved
    rw [unmoved_state _ _ hunmoved] at hused
    exact absurd hunused hused
  cases h with
  | opens h =>
    rcases h.placed with rfl | ⟨w₁, k, s, rfl, hw₁, -, hs⟩
    · exact absurd hunused hused
    · exact hplaced hw₁ hs hused hfd
  | supervises i h => exact absurd (h.unused hunused) hused
  | runs t i m ht h =>
    by_cases hji : j = i
    · exact absurd (hji ▸ hunused) (hw.used_of_thread ht)
    · rcases h.unmoved_or_accepts hji with h | h
      · exact hunmoved h
      · rcases h.placed with hsame | ⟨w₁, k, s, rfl, hw₁, -, hs⟩
        · rw [hsame] at hused
          exact absurd hunused hused
        · exact hplaced hw₁ hs hused hfd
  | handles t i m ht h => exact hunmoved (h.session j)
  | closes => exact absurd hunused hused

end Closing

/-! ## Created descriptors -/

/-- A descriptor is created for the session in slot `j`: it is opened, and comes on record with it.
-/
structure World.CreatesFor (w w' : World) (fd : ℤ) (j : Slot) : Prop where
  /-- The number was not in use. -/
  closed : fd ∉ w.openFds
  /-- The descriptor is open. -/
  opened : fd ∈ w'.openFds
  /-- The number was not on record. -/
  fresh : fd ∉ (w.session j).held
  /-- It is on record. -/
  recorded : fd ∈ (w'.session j).held

/-- The kernel hands out no number in this step that a session still has on record. -/
def World.GrantsUnrecorded (w w' : World) : Prop :=
  ∀ fd, fd ∉ w.openFds → fd ∈ w'.openFds → ∀ k, fd ∉ (w.session k).held

/-- A new session takes slot `j`. -/
def World.Takes (w w' : World) (j : Slot) : Prop :=
  (w.session j).state = .unused ∧ (w'.session j).state ≠ .unused

section Created

variable {c c' : Machine} {i j k : Slot} {w w' : World} {fd : ℤ} {a : Action} {as : List Action}

/-- Nobody but session `j` has the number on record. -/
def World.OnlyFor (w : World) (fd : ℤ) (j : Slot) : Prop := ∀ k ≠ j, fd ∉ (w.session k).held

theorem held_place_of_ne {w₁ : World} {s : Session} (hw₁ : w₁.session = w.session) (hk : k ≠ j) :
    ((w₁.place j s).session k).held = (w.session k).held := by
  rw [World.place, World.session_modifySession_of_ne _ hk, hw₁]

theorem AcceptEffect.sole (h : AcceptEffect w w') :
    ∃ l, ∀ k ≠ l, (w'.session k).held = (w.session k).held := by
  rcases h.placed with hsame | ⟨w₁, l, s, rfl, hw₁, -, -⟩
  · exact ⟨0, fun k _ ↦ by rw [hsame]⟩
  · exact ⟨l, fun k hk ↦ held_place_of_ne hw₁ hk⟩

/-- A deed puts numbers on record with one session only. -/
theorem Deed.sole (h : Deed w w') : ∃ l, ∀ k ≠ l, (w'.session k).held ⊆ (w.session k).held := by
  cases h with
  | opens h =>
    rcases h.placed with rfl | ⟨w₁, l, s, rfl, hw₁, -, -⟩
    · exact ⟨0, fun _ _ ↦ Finset.Subset.refl _⟩
    · exact ⟨l, fun k hk ↦ Finset.subset_of_eq (held_place_of_ne hw₁ hk)⟩
  | supervises i h => exact ⟨i, fun _ _ ↦ h.held⟩
  | runs t i m ht h =>
    by_cases haccepts : AcceptEffect w w'
    · obtain ⟨l, hl⟩ := haccepts.sole
      exact ⟨l, fun k hk ↦ Finset.subset_of_eq (hl k hk)⟩
    · refine ⟨i, fun k hk ↦ Finset.subset_of_eq (held_of_unmoved ?_)⟩
      exact (h.unmoved_or_accepts hk).resolve_right haccepts
  | handles t i m ht h =>
    exact ⟨i, fun k _ ↦ Finset.subset_of_eq (held_of_unmoved (h.session k))⟩
  | closes => exact ⟨0, fun _ _ ↦ Finset.Subset.refl _⟩

theorem World.CreatesFor.onlyFor (h : w.CreatesFor w' fd j) (hdeed : Deed w w')
    (hgrants : w.GrantsUnrecorded w') : w'.OnlyFor fd j := by
  obtain ⟨l, hl⟩ := hdeed.sole
  have hjl : j = l := by
    by_contra hne
    exact h.fresh (hl j hne h.recorded)
  intro k hk hfd
  exact hgrants fd h.closed h.opened k (hl k (hjl ▸ hk) hfd)

theorem Machine.Sound.held (h : c.Sound) (hnumbered : c.world.Numbered) (hstep : c.step a = some c')
    (hopen : fd ∈ c.world.openFds) (hfd : fd ∉ (c.world.session k).held) :
    fd ∉ (c'.world.session k).held := by
  rcases (h.step hstep).1 with hdeed | hsame
  · intro hfd'
    rcases hdeed.records h.orderly hnumbered fd hfd' with hheld | hclosed
    · exact hfd hheld
    · exact hclosed hopen
  · rw [hsame]
    exact hfd

theorem Machine.numbered_of_run (hrun : Machine.init.run as = some c) : c.world.Numbered :=
  Machine.invariant_of_run (fun _ _ _ _ hdeed ↦ hdeed.numbered)
    (fun _ hfd ↦ absurd hfd (Finset.notMem_empty _)) hrun

/-- While a descriptor is open, its number does not come on record with a session that does not have
it on record. -/
theorem Machine.held_of_run {as' : List Action} (hrun : Machine.init.run as = some c)
    (hrun' : c.run as' = some c')
    (hopen : ∀ as₁ as₂ c₁, as' = as₁ ++ as₂ → c.run as₁ = some c₁ → fd ∈ c₁.world.openFds)
    (hfd : fd ∉ (c.world.session k).held) : fd ∉ (c'.world.session k).held := by
  let I (c : Machine) : Prop := c.Sound ∧ c.world.Numbered ∧ fd ∉ (c.world.session k).held
  have hI : I c' := by
    refine Machine.run_induction (P := fun c _ ↦ fd ∈ c.world.openFds) (fun c a c' hc hP hstep ↦ ?_)
      (fun as₁ a as₂ c₁ has hrun₁ ↦ hopen as₁ (a :: as₂) c₁ has hrun₁)
      ⟨Machine.sound_of_run hrun, Machine.numbered_of_run hrun, hfd⟩ hrun'
    obtain ⟨hsound, hnumbered, hfd⟩ := hc
    obtain ⟨hdeed, hsound'⟩ := hsound.step hstep
    refine ⟨hsound', ?_, hsound.held hnumbered hstep hP hfd⟩
    rcases hdeed with hdeed | hsame
    · exact hdeed.numbered hnumbered
    · exact hsame ▸ hnumbered
  exact hI.2.2

/-- **A stopper closes only what was created for its own session**: a descriptor whose number no
session had on record when the kernel handed it out is closed by the stopper of the session it was
created for, and of no session that has taken the slot since. -/
theorem stopper_closes_own_descriptor (as₁ as₂ : List Action) (a : Action) (c₁ c₂ c c' : Machine)
    (fd : ℤ) (i j : Slot) (z : ℤ) (hrun₁ : Machine.init.run as₁ = some c₁)
    (hstep : c₁.step a = some c₂) (hcreates : c₁.world.CreatesFor c₂.world fd j)
    (hgrants : c₁.world.GrantsUnrecorded c₂.world) (hrun₂ : c₂.run as₂ = some c)
    (hopen : ∀ as₃ as₄ c₃, as₂ = as₃ ++ as₄ → c₂.run as₃ = some c₃ → fd ∈ c₃.world.openFds)
    (hvisited : visited (as₁ ++ a :: as₂) = some i) (hclose : c.step (.supervises z) = some c')
    (hclosed : fd ∉ c'.world.openFds) :
    i = j ∧ ∀ as₃ b as₄ c₃ c₄, as₂ = as₃ ++ b :: as₄ → c₂.run as₃ = some c₃ →
      c₃.step b = some c₄ → ¬ c₃.world.Takes c₄.world j := by
  have hsound₁ := Machine.sound_of_run hrun₁
  have hrun : Machine.init.run (as₁ ++ [a]) = some c₂ := Machine.run_snoc hrun₁ hstep
  have hrun' : Machine.init.run (as₁ ++ a :: as₂) = some c := by
    rw [List.append_cons, Machine.run_append, hrun, Option.bind_some, hrun₂]
  have hsound := Machine.sound_of_run hrun'
  have hdeed : Deed c₁.world c₂.world := by
    refine (hsound₁.step hstep).1.resolve_right fun hsame ↦ hcreates.closed ?_
    rw [← hsame]
    exact hcreates.opened
  -- What is closed is on record with the session that is visited.
  have hfd : fd ∈ (c.world.session i).held := by
    refine ((Machine.visits_of_run hrun' hvisited).supervises hsound hclose).1.closes ?_ hclosed
    exact hopen as₂ [] c (List.append_nil _).symm hrun₂
  constructor
  · by_contra hne
    exact Machine.held_of_run hrun hrun₂ hopen (hcreates.onlyFor hdeed hgrants i hne) hfd
  · rintro as₃ b as₄ c₃ c₄ rfl hrun₃ hstep₃ ⟨hunused, hused⟩
    have hrun₃' : Machine.init.run (as₁ ++ [a] ++ as₃) = some c₃ := by
      rw [Machine.run_append, hrun, Option.bind_some, hrun₃]
    have hopen₃ : fd ∈ c₃.world.openFds := hopen as₃ (b :: as₄) c₃ rfl hrun₃
    have hrun₄ : c₄.run as₄ = some c := by
      rw [Machine.run_append, hrun₃, Option.bind_some, Machine.run_cons, hstep₃] at hrun₂
      exact hrun₂
    have hopen₄ : ∀ as₅ as₆ c₅, as₄ = as₅ ++ as₆ → c₄.run as₅ = some c₅ →
        fd ∈ c₅.world.openFds := by
      rintro as₅ as₆ c₅ rfl hrun₅
      refine hopen (as₃ ++ b :: as₅) as₆ c₅ (by simp) ?_
      rw [Machine.run_append, hrun₃, Option.bind_some, Machine.run_cons, hstep₃]
      exact hrun₅
    -- no session has it on record once the slot has been taken again
    have hnone : ∀ k, fd ∉ (c₄.world.session k).held := by
      intro k
      have hsound₃ := Machine.sound_of_run hrun₃'
      by_cases hkj : k = j
      · have hdeed₃ : Deed c₃.world c₄.world := by
          refine (hsound₃.step hstep₃).1.resolve_right fun hsame ↦ hused ?_
          rw [hsame]
          exact hunused
        rw [hkj]
        intro hfd₄
        exact hdeed₃.records_opened hsound₃.orderly hunused hused hfd₄ hopen₃
      · refine hsound₃.held (Machine.numbered_of_run hrun₃') hstep₃ hopen₃ ?_
        refine Machine.held_of_run hrun hrun₃ (fun as₅ as₆ c₅ has ↦ ?_)
          (hcreates.onlyFor hdeed hgrants k hkj)
        exact hopen as₅ (as₆ ++ b :: as₄) c₅ (by rw [has, List.append_assoc])
    exact Machine.held_of_run (Machine.run_snoc hrun₃' hstep₃) hrun₄ hopen₄ (hnone i) hfd

/-- A client that cannot connect: its stopper closes the socket that its runner has opened. -/
theorem stopper_closes_own_descriptor_client :
    ∃ as₁ as₂ c₁ c₂ c c', Machine.init.run as₁ = some c₁ ∧ c₁.step (.runs 1 0) = some c₂ ∧
      c₁.world.CreatesFor c₂.world 5 0 ∧ c₂.run as₂ = some c ∧
      c.step (.supervises 0) = some c' ∧ 5 ∉ c'.world.openFds ∧
      visited (as₁ ++ .runs 1 0 :: as₂) = some 0 ∧
      ∀ as₃ b as₄ c₃ c₄, as₂ = as₃ ++ b :: as₄ → c₂.run as₃ = some c₃ →
        c₃.step b = some c₄ → ¬ c₃.world.Takes c₄.world 0 := by
  let as₁ : List Action :=
    [[.opens (.client none) (fun _ ↦ 0)], silentVisit 0 12, [.runs 1 0, .runs 1 5]].flatten
  let as₂ : List Action := [.runs 1 0, .runs 1 (-1), .runs 1 0] ++ silentVisit 0 19
  have hruns : ((Machine.init.run as₁).bind fun c₁ ↦ (c₁.step (.runs 1 0)).bind fun c₂ ↦
      (c₂.run as₂).bind fun c ↦ (c.step (.supervises 0)).map fun c' ↦
        (decide (5 ∉ c₁.world.openFds ∧ 5 ∈ c₂.world.openFds ∧ 5 ∈ (c₂.world.session 0).held ∧
          5 ∉ c'.world.openFds), decide (∀ k, (c₁.world.session k).held = ∅)))
      = some (true, true) := by
    decide +kernel
  have hstates : ∀ n ≤ as₂.length, (((Machine.init.run as₁).bind fun c₁ ↦
      c₁.step (.runs 1 0)).bind fun c₂ ↦ c₂.run (as₂.take n)).all
        (fun c ↦ 5 ∈ c.world.openFds) = true := by
    decide +kernel
  obtain ⟨c₁, hrun₁, hruns⟩ := Option.bind_eq_some_iff.mp hruns
  obtain ⟨c₂, hstep, hruns⟩ := Option.bind_eq_some_iff.mp hruns
  obtain ⟨c, hrun₂, hruns⟩ := Option.bind_eq_some_iff.mp hruns
  obtain ⟨c', hclose, hresult⟩ := Option.map_eq_some_iff.mp hruns
  rw [Prod.mk.injEq, decide_eq_true_iff, decide_eq_true_iff] at hresult
  obtain ⟨⟨hclosed, hopened, hrecorded, hclosed'⟩, hempty⟩ := hresult
  have hnone : ∀ fd k, fd ∉ (c₁.world.session k).held := by
    intro fd k
    rw [hempty k]
    exact Finset.notMem_empty _
  have hcreates : c₁.world.CreatesFor c₂.world 5 0 := ⟨hclosed, hopened, hnone 5 0, hrecorded⟩
  have hopen : ∀ as₃ as₄ c₃, as₂ = as₃ ++ as₄ → c₂.run as₃ = some c₃ → 5 ∈ c₃.world.openFds := by
    intro as₃ as₄ c₃ has hrun₃
    refine Machine.all_of_take (p := fun c ↦ 5 ∈ c.world.openFds) (fun n hn ↦ ?_) has hrun₃
    have hstate := hstates n hn
    rwa [hrun₁, Option.bind_some, hstep, Option.bind_some] at hstate
  have hvisited : visited (as₁ ++ .runs 1 0 :: as₂) = some 0 := by decide +kernel
  refine ⟨as₁, as₂, c₁, c₂, c, c', hrun₁, hstep, hcreates, hrun₂, hclose, hclosed', hvisited, ?_⟩
  exact (stopper_closes_own_descriptor as₁ as₂ (.runs 1 0) c₁ c₂ c c' 5 0 0 0 hrun₁ hstep hcreates
    (fun fd _ _ ↦ hnone fd) hrun₂ hopen hvisited hclose hclosed').2

/-- A client's stopper has closed descriptor 5 through the library when another client is given 5;
the stopper then closes the number once more. -/
theorem stopper_closes_foreign_descriptor :
    ∃ as₁ as₂ c₁ c₂ c c', Machine.init.run as₁ = some c₁ ∧ c₁.step (.runs 2 0) = some c₂ ∧
      c₁.world.CreatesFor c₂.world 5 1 ∧ c₂.run as₂ = some c ∧
      (∀ as₃ as₄ c₃, as₂ = as₃ ++ as₄ → c₂.run as₃ = some c₃ → 5 ∈ c₃.world.openFds) ∧
      visited (as₁ ++ .runs 2 0 :: as₂) = some 0 ∧
      c.step (.supervises 0) = some c' ∧ 5 ∉ c'.world.openFds := by
  let as₁ : List Action :=
    [[.opens (.client none) (fun _ ↦ 0), .opens (.client none) fun _ ↦ 0], silentVisit 0 12,
      [.runs 1 0, .runs 1 5], silentRuns 1 10, silentVisit 1 12, silentVisit 0 18,
      [.runs 2 0, .runs 2 5]].flatten
  let as₂ : List Action := List.replicate 3 (.supervises 0)
  have hruns : ((Machine.init.run as₁).bind fun c₁ ↦ (c₁.step (.runs 2 0)).bind fun c₂ ↦
      (c₂.run as₂).bind fun c ↦ (c.step (.supervises 0)).map fun c' ↦
        decide (5 ∉ c₁.world.openFds ∧ 5 ∈ c₂.world.openFds ∧ 5 ∉ (c₁.world.session 1).held ∧
          5 ∈ (c₂.world.session 1).held ∧ 5 ∉ c'.world.openFds))
      = some true := by
    decide +kernel
  have hstates : ∀ n ≤ as₂.length, (((Machine.init.run as₁).bind fun c₁ ↦
      c₁.step (.runs 2 0)).bind fun c₂ ↦ c₂.run (as₂.take n)).all
        (fun c ↦ 5 ∈ c.world.openFds) = true := by
    decide +kernel
  obtain ⟨c₁, hrun₁, hruns⟩ := Option.bind_eq_some_iff.mp hruns
  obtain ⟨c₂, hstep, hruns⟩ := Option.bind_eq_some_iff.mp hruns
  obtain ⟨c, hrun₂, hruns⟩ := Option.bind_eq_some_iff.mp hruns
  obtain ⟨c', hclose, hresult⟩ := Option.map_eq_some_iff.mp hruns
  obtain ⟨hclosed, hopened, hfresh, hrecorded, hclosed'⟩ := of_decide_eq_true hresult
  refine ⟨as₁, as₂, c₁, c₂, c, c', hrun₁, hstep, ⟨hclosed, hopened, hfresh, hrecorded⟩, hrun₂, ?_,
    by decide +kernel, hclose, hclosed'⟩
  intro as₃ as₄ c₃ has hrun₃
  refine Machine.all_of_take (p := fun c ↦ 5 ∈ c.world.openFds) (fun n hn ↦ ?_) has hrun₃
  have hstate := hstates n hn
  rwa [hrun₁, Option.bind_some, hstep, Option.bind_some] at hstate

end Created

end DistributorMerger
