import Mathlib
import DistributorMerger.Filter.Gtpimsieua

/-!
# Reading the output of `gtpimsieua`

The program prints the time stamp of a packet, an end user address and sometimes an IMSI, with
commas between them and a newline behind them. A script that works on the output splits it at the
newlines and the commas and reads numbers. Here it is shown that nothing the program can be fed
confuses such a script: whatever the packets are, and at any point of the run, what is read is what
was printed.

The argument is that the fields have no separator in them. Time stamps and addresses are numbers; an
IMSI comes from a row of `imsi_array`, and no character but digits and terminators is ever written
there. A text that is too long for a row runs into the next one and may be printed together with
what it finds there, but that is digits as well.
-/

namespace DistributorMerger

/-! ## Reading fields -/

/-- A decimal number. -/
def readNumber (field : List Char) : ℕ := Nat.ofDigitChars 10 field 0

/-- A dotted list of decimal numbers. -/
def readDotted (field : List Char) : List ℕ := (field.splitOn '.').map readNumber

/-- The lines of a text, each of which ends with a newline. -/
def readLines (text : List Char) : List (List Char) := (text.splitOn '\n').dropLast

theorem readNumber_toString (n : ℕ) : readNumber (toString n).toList = n := by
  rw [toList_toString]
  exact Nat.ofDigitChars_ten_toDigits

theorem readLines_append {line : List Char} (hline : '\n' ∉ line) (text : List Char) :
    readLines (line ++ '\n' :: text) = line :: readLines text := by
  rw [readLines, List.splitOn_append_cons_self_of_not_mem hline,
    List.dropLast_cons_of_ne_nil (List.splitOn_ne_nil _ _)]
  rfl

theorem notMem_toString {c : Char} (hc : c.isDigit = false) (n : ℕ) : c ∉ (toString n).toList := by
  rw [toList_toString]
  intro hmem
  rw [Nat.isDigit_of_mem_toDigits (by norm_num) (by norm_num) hmem] at hc
  cases hc

theorem toList_dotted (octet : ℕ → UInt8) :
    (dotted octet).toList = (toString (octet 0).toNat).toList ++ '.' ::
      ((toString (octet 1).toNat).toList ++ '.' :: ((toString (octet 2).toNat).toList ++ '.' ::
        (toString (octet 3).toNat).toList)) := by
  rw [dotted]
  simp only [String.toList_append, List.append_assoc]
  rfl

theorem notMem_dotted {c : Char} (hc : c.isDigit = false) (hdot : c ≠ '.') (octet : ℕ → UInt8) :
    c ∉ (dotted octet).toList := by
  rw [toList_dotted]
  simp only [List.mem_append, List.mem_cons, notMem_toString hc, hdot, or_self, not_false_eq_true]

theorem readDotted_dotted (octet : ℕ → UInt8) :
    readDotted (dotted octet).toList = (List.range 4).map fun i ↦ (octet i).toNat := by
  have hdot : ∀ n : ℕ, '.' ∉ (toString n).toList := notMem_toString (by decide)
  rw [readDotted, toList_dotted, List.splitOn_append_cons_self_of_not_mem (hdot _),
    List.splitOn_append_cons_self_of_not_mem (hdot _),
    List.splitOn_append_cons_self_of_not_mem (hdot _), List.splitOn_eq_singleton (hdot _)]
  simp only [List.map_cons, List.map_nil, readNumber_toString]
  rfl

namespace Gtpimsieua

/-! ## Reading lines -/

/-- What is read from a line. -/
structure Reading where
  /-- The seconds of the time stamp. -/
  tvSec : ℕ
  /-- The microseconds of the time stamp. -/
  tvUsec : ℕ
  /-- The octets of the address. -/
  address : List ℕ
  /-- The IMSI, if there is one. -/
  imsi : Option String
  deriving DecidableEq, Repr

/-- Read a line of three or four fields. -/
def readLine (line : List Char) : Option Reading :=
  match line.splitOn ',' with
  | [tvSec, tvUsec, address] =>
    some ⟨readNumber tvSec, readNumber tvUsec, readDotted address, none⟩
  | [tvSec, tvUsec, address, imsi] =>
    some ⟨readNumber tvSec, readNumber tvUsec, readDotted address, some (String.ofList imsi)⟩
  | _ => none

/-- What the program has printed. -/
def outputText (history : List Event) : List Char :=
  history.flatMap fun
    | .stored _ _ _ => []
    | .printed _ line => line.text.toList

/-- The lines that the program has printed. -/
def printedLines (history : List Event) : List Line :=
  history.filterMap fun
    | .stored _ _ _ => none
    | .printed _ line => some line

/-- The line says what was read. -/
structure Line.Says (l : Line) (r : Reading) : Prop where
  /-- The seconds. -/
  tvSec : l.tvSec = r.tvSec
  /-- The microseconds. -/
  tvUsec : l.tvUsec = r.tvUsec
  /-- The address. -/
  address : ∃ octet : ℕ → UInt8, l.address = dotted octet ∧
    r.address = (List.range 4).map fun i ↦ (octet i).toNat
  /-- The IMSI. -/
  imsi : l.imsi = r.imsi

/-- The line has no separator in its fields. -/
structure Line.Plain (l : Line) : Prop where
  /-- The time stamp is not in front of the epoch. -/
  tvSec_nonneg : 0 ≤ l.tvSec
  /-- The microseconds are not negative. -/
  tvUsec_nonneg : 0 ≤ l.tvUsec
  /-- The address is a dotted one. -/
  address_dotted : ∃ octet : ℕ → UInt8, l.address = dotted octet
  /-- The IMSI is made of digits. -/
  imsi_digits : ∀ s ∈ l.imsi, ∀ c ∈ s.toList, c.isDigit = true

theorem toString_toNat {n : ℤ} (h : 0 ≤ n) : toString n = toString n.toNat := by
  rw [Int.toString_eq_repr, Int.repr_eq_if, if_pos h]
  rfl

/-- The line in front of its newline. -/
def Line.body (l : Line) : List Char :=
  (toString l.tvSec).toList ++ ',' :: ((toString l.tvUsec).toList ++ ',' ::
    (l.address.toList ++ l.imsi.elim [] fun s ↦ ',' :: s.toList))

theorem Line.toList_text (l : Line) : l.text.toList = l.body ++ ['\n'] := by
  have himsi : (l.imsi.elim "" fun s ↦ "," ++ s).toList
      = l.imsi.elim [] fun s ↦ ',' :: s.toList := by
    cases l.imsi with
    | none => rfl
    | some s =>
      dsimp only [Option.elim_some]
      rw [String.toList_append]
      rfl
  rw [Line.text, Line.body]
  simp only [String.toList_append, himsi, List.append_assoc, List.cons_append]
  rfl

namespace Line.Plain

variable {l : Line}

theorem newline_notMem (h : l.Plain) : '\n' ∉ l.body := by
  obtain ⟨octet, hoctet⟩ := h.address_dotted
  have himsi : '\n' ∉ l.imsi.elim [] fun s ↦ ',' :: s.toList := by
    cases hl : l.imsi with
    | none => simp
    | some s =>
      intro hmem
      rcases List.mem_cons.mp hmem with heq | hmem
      · exact absurd heq (by decide)
      · exact absurd (h.imsi_digits s hl '\n' hmem) (by decide)
  rw [Line.body, toString_toNat h.tvSec_nonneg, toString_toNat h.tvUsec_nonneg, hoctet]
  simp only [List.mem_append, List.mem_cons, notMem_toString (c := '\n') (by decide),
    notMem_dotted (c := '\n') (by decide) (by decide), himsi, or_false, false_or, not_or]
  decide

/-- A line without separators in its fields is read as it was printed. -/
theorem readLine_body (h : l.Plain) : ∃ r, readLine l.body = some r ∧ l.Says r := by
  obtain ⟨octet, hoctet⟩ := h.address_dotted
  have hnumber : ∀ n : ℕ, ',' ∉ (toString n).toList := notMem_toString (by decide)
  have hdotted : ',' ∉ (dotted octet).toList := notMem_dotted (by decide) (by decide) octet
  have htvSec : l.tvSec = (l.tvSec.toNat : ℤ) := (Int.toNat_of_nonneg h.tvSec_nonneg).symm
  have htvUsec : l.tvUsec = (l.tvUsec.toNat : ℤ) := (Int.toNat_of_nonneg h.tvUsec_nonneg).symm
  refine ⟨⟨l.tvSec.toNat, l.tvUsec.toNat, (List.range 4).map fun i ↦ (octet i).toNat, l.imsi⟩, ?_,
    htvSec, htvUsec, ⟨octet, hoctet, rfl⟩, rfl⟩
  rw [readLine, Line.body, toString_toNat h.tvSec_nonneg, toString_toNat h.tvUsec_nonneg, hoctet,
    List.splitOn_append_cons_self_of_not_mem (hnumber _),
    List.splitOn_append_cons_self_of_not_mem (hnumber _)]
  cases hl : l.imsi with
  | none =>
    dsimp only [Option.elim_none]
    rw [List.append_nil, List.splitOn_eq_singleton hdotted]
    simp only [readNumber_toString, readDotted_dotted]
  | some s =>
    have hs : ',' ∉ s.toList := fun hmem ↦
      absurd (h.imsi_digits s hl ',' hmem) (by decide)
    dsimp only [Option.elim_some]
    rw [List.splitOn_append_cons_self_of_not_mem hdotted, List.splitOn_eq_singleton hs]
    simp only [readNumber_toString, readDotted_dotted, String.ofList_toList]

end Line.Plain

theorem readLines_outputText {history : List Event}
    (h : ∀ l ∈ printedLines history, l.Plain) :
    List.Forall₂ (fun line l ↦ ∃ r, readLine line = some r ∧ Line.Says l r)
      (readLines (outputText history)) (printedLines history) := by
  induction history with
  | nil => exact .nil
  | cons e history ih =>
    cases e with
    | stored packet teid imsi => exact ih h
    | printed packet l =>
      have hl : l.Plain := h l List.mem_cons_self
      have htext : outputText (.printed packet l :: history)
          = l.body ++ '\n' :: outputText history := by
        rw [outputText, List.flatMap_cons]
        dsimp only
        rw [Line.toList_text, List.append_assoc]
        rfl
      rw [htext, readLines_append hl.newline_notMem]
      exact .cons hl.readLine_body (ih fun l' hl' ↦ h l' (List.mem_cons_of_mem _ hl'))

/-! ## What a run prints -/

/-- The characters of `imsi_array` and of the handler's buffer are digits, and the lines printed
have no separator in their fields. -/
structure State.Plain (s : State) : Prop where
  /-- The handler's buffer. -/
  imsistr_digits : ∀ c ∈ s.imsistr.toList, c.isDigit = true
  /-- The array, terminators apart. -/
  array_digits : ∀ k, s.table.imsiArray k ≠ '\x00' → (s.table.imsiArray k).isDigit = true
  /-- The lines. -/
  lines_plain : ∀ l ∈ printedLines s.history, l.Plain

theorem isDigit_of_mem_imsi {t : Table}
    (h : ∀ k, t.imsiArray k ≠ '\x00' → (t.imsiArray k).isDigit = true) (i : ℕ) :
    ∀ c ∈ (t.imsi i).toList, c.isDigit = true := by
  intro c hc
  rw [Table.imsi, String.toList_ofList] at hc
  have hne : c ≠ '\x00' := by simpa using List.mem_takeWhile_imp hc
  obtain ⟨k, -, rfl⟩ := List.mem_map.mp ((List.takeWhile_sublist _).subset hc)
  exact h k hne

section Visit

variable {m : Message} {s : State}

theorem State.Plain.storeBinding (h : s.Plain) (teid : UInt32) :
    (storeBinding m teid s).Plain := by
  unfold Gtpimsieua.storeBinding
  cases firstIndex (s.table.reusable m.now) imsiMapSize 0 with
  | none => exact h
  | some i =>
    refine ⟨h.imsistr_digits, fun k hk ↦ ?_, ?_⟩
    · dsimp only [Table.bind, strcpy] at hk ⊢
      split at hk
      · rw [if_pos ‹_›]
        by_cases hlt : k - i * rowLength < s.imsistr.toList.length
        · rw [List.getD_eq_getElem _ _ hlt]
          exact h.imsistr_digits _ (List.getElem_mem hlt)
        · rw [List.getD_eq_default _ _ (by omega)] at hk
          exact absurd rfl hk
      · rw [if_neg ‹_›]
        exact h.array_digits k hk
    · have hlines : printedLines (s.history ++ [.stored m.index teid s.imsistr])
          = printedLines s.history := by
        rw [printedLines, List.filterMap_append, printedLines]
        exact List.append_nil _
      dsimp only
      rw [hlines]
      exact h.lines_plain

theorem State.Plain.print (h : s.Plain) {l : Line} (hl : l.Plain) {t : Table}
    (ht : t.imsiArray = s.table.imsiArray) (index : ℕ) :
    State.Plain { s with table := t, history := s.history ++ [.printed index l] } := by
  refine ⟨h.imsistr_digits, ?_, ?_⟩
  · dsimp only
    rw [ht]
    exact h.array_digits
  · have hlines :
        printedLines (s.history ++ [.printed index l]) = printedLines s.history ++ [l] := by
      rw [printedLines, List.filterMap_append, printedLines]
      rfl
    intro l' hl'
    dsimp only at hl'
    rw [hlines] at hl'
    rcases List.mem_append.mp hl' with hl' | hl'
    · exact h.lines_plain l' hl'
    · rw [List.mem_singleton.mp hl']
      exact hl

theorem State.Plain.printAddress (h : s.Plain) (hsec : 0 ≤ m.packet.header.tvSec)
    (husec : 0 ≤ m.packet.header.tvUsec) (pos : ℕ) : (printAddress m pos s).Plain := by
  have hline : ∀ imsi : Option String, (∀ s ∈ imsi, ∀ c ∈ s.toList, c.isDigit = true) →
      (m.line pos imsi).Plain := fun imsi himsi ↦ ⟨hsec, husec, ⟨_, rfl⟩, himsi⟩
  have hbare : (m.line pos none).Plain := hline none (by simp)
  unfold Gtpimsieua.printAddress
  split
  · cases firstIndex (s.table.bound (headerTeid m.packet.data m.gtp)) imsiMapSize 0 with
    | none => exact h.print hbare rfl m.index
    | some i =>
      refine h.print (t := s.table.free i) (hline _ ?_) rfl m.index
      intro text htext
      rw [← Option.some.inj htext]
      exact isDigit_of_mem_imsi h.array_digits i
  · exact h.print hbare rfl m.index

theorem State.Plain.visit (h : s.Plain) (hsec : 0 ≤ m.packet.header.tvSec)
    (husec : 0 ≤ m.packet.header.tvUsec) (v : ElementVisit) : (visit m v s).Plain := by
  unfold Gtpimsieua.visit
  have hif : ∀ {c : Prop} [Decidable c] {s₁ s₂ : State}, s₁.Plain → s₂.Plain →
      (if c then s₁ else s₂).Plain := by
    intro c _ s₁ s₂ h₁ h₂
    split
    · exact h₁
    · exact h₂
  have himsi := hif (c := v.ie = gtpv1IeImsi)
    (⟨isDigit_of_mem_imsi2str, h.array_digits, h.lines_plain⟩ : State.Plain
      { s with imsistr := imsi2str m.packet.data (m.gtp + v.offset) }) h
  have hstored := hif (c := v.ie = gtpv1IeTeiControlPlane ∧ m.isRequest)
    (himsi.storeBinding (m := m) (teid2uint m.packet.data (m.gtp + v.offset))) himsi
  exact hif (hstored.printAddress hsec husec _) hstored

end Visit

/-- The packets of the run were not captured in front of the epoch. -/
structure Run.Plain (r : Run) : Prop where
  /-- The state. -/
  state : r.state.Plain
  /-- The packets to come. -/
  todo : ∀ p ∈ r.todo, 0 ≤ p.1.header.tvSec ∧ 0 ≤ p.1.header.tvUsec
  /-- The message in hand. -/
  current : ∀ m ∈ r.current, 0 ≤ m.1.packet.header.tvSec ∧ 0 ≤ m.1.packet.header.tvUsec

theorem Run.Plain.step {r : Run} (h : r.Plain) : r.step.Plain := by
  obtain ⟨todo, index, current, s⟩ := r
  obtain ⟨hstate, htodo, hcurrent⟩ := h
  unfold Run.step
  cases current with
  | some mo =>
    obtain ⟨m, offset⟩ := mo
    obtain ⟨hsec, husec⟩ := hcurrent (m, offset) rfl
    dsimp only
    split
    · exact ⟨hstate, htodo, nofun⟩
    · exact ⟨hstate.visit hsec husec _, htodo, nofun⟩
    · refine ⟨hstate.visit hsec husec _, htodo, fun m' hm' ↦ ?_⟩
      rw [← Option.some.inj hm']
      exact ⟨hsec, husec⟩
  | none =>
    cases todo with
    | nil => exact ⟨hstate, htodo, hcurrent⟩
    | cons p todo =>
      obtain ⟨p, now⟩ := p
      have hrest := fun p' hp' ↦ htodo p' (List.mem_cons_of_mem _ hp')
      dsimp only
      split
      · exact ⟨hstate, hrest, nofun⟩
      · split
        · refine ⟨⟨by simp, hstate.array_digits, hstate.lines_plain⟩, hrest, fun m' hm' ↦ ?_⟩
          rw [← Option.some.inj hm']
          exact htodo (p, now) List.mem_cons_self
        · exact ⟨hstate, hrest, nofun⟩

/-- **The output can be read back.** Whatever packets are captured, at any point of the run, the
text printed so far falls into lines of three or four fields, one line for each that was printed,
and the numbers read from a line are the time stamp, the octets of the address and the IMSI that it
was printed from. -/
theorem gtpimsieua_output_readable (packets : List (Packet × ℤ))
    (hstamps : ∀ p ∈ packets, 0 ≤ p.1.header.tvSec ∧ 0 ≤ p.1.header.tvUsec) (n : ℕ) :
    let history := (Run.step^[n] (Run.start packets)).state.history
    List.Forall₂ (fun line l ↦ ∃ r, readLine line = some r ∧ Line.Says l r)
      (readLines (outputText history)) (printedLines history) := by
  have hstart : (Run.start packets).Plain :=
    ⟨⟨by simp [Run.start, State.init], fun k hk ↦ absurd rfl hk, by simp [Run.start, State.init,
      printedLines]⟩, hstamps, nofun⟩
  have hplain : ∀ n, (Run.step^[n] (Run.start packets)).Plain := by
    intro n
    induction n with
    | zero => exact hstart
    | succ n ih =>
      rw [Function.iterate_succ_apply']
      exact ih.step
  exact readLines_outputText (hplain n).state.lines_plain

/-- A response whose identifier nobody has announced. -/
theorem gtpimsieua_output_readable_response :
    let history := (Run.step^[2] (Run.start [(createPdpContextResponse 5, 0)])).state.history
    List.Forall₂ (fun line l ↦ ∃ r, readLine line = some r ∧ Line.Says l r)
      (readLines (outputText history)) (printedLines history) :=
  gtpimsieua_output_readable [(createPdpContextResponse 5, 0)] (by decide) 2

end Gtpimsieua

end DistributorMerger
