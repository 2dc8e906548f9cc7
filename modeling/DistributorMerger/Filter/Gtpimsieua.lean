import Mathlib
import DistributorMerger.Filter.Decodegtp

/-!
# The `gtpimsieua` filter

`gtpimsieua` prints the end user addresses of Create PDP Context messages and correlates them with
IMSIs. A request binds the tunnel endpoint identifier it announces for the control plane to the
IMSI it carries; the response that is sent back to that identifier prints the IMSI and frees the
binding. Bindings sit in a table scanned by first fit, in which identifier zero marks a free slot
and a binding older than `IMSI_TIMEOUT` may be overwritten.

The table is `int`, the identifiers are `unsigned int`, and the two conversions are written out.
The rows of `imsi_array` lie one behind another in memory, so a text that is too long for its row
runs into the next one; the array is kept flat. The handler's own buffer is a local of sixteen
characters too, and what a longer text does to the stack is not followed.

What the program does to the outside is kept as a *history* of stores and printed lines, in order.

Two views of the program are used. `decodeGtpPacket` is the packet handler, a function with fuel
for its loop. `Run` advances one loop iteration at a time, so that what is printed while a message
is being walked is seen even when the walk never ends.
-/

namespace DistributorMerger

namespace Gtpimsieua

/-! ## The table -/

/-- `IMSI_MAP_SIZE`. -/
def imsiMapSize : ℕ := 10000000

/-- `IMSI_TIMEOUT`, in seconds. -/
def imsiTimeout : ℤ := 300

/-- The length of a row of `imsi_array`, its terminator included. -/
def rowLength : ℕ := gtpv1ImsiLength * 2

/-- The three global arrays. -/
structure Table where
  /-- `imsi_map`: the bound identifier, zero for a free slot. -/
  imsiMap : ℕ → Int32
  /-- `imsi_time`: the time at which the binding was stored. -/
  imsiTime : ℕ → ℤ
  /-- `imsi_array`, row behind row; the text of a row stays when its slot is freed. -/
  imsiArray : ℕ → Char

/-- The table as `main` leaves it before the first packet. -/
def Table.init : Table := ⟨fun _ ↦ 0, fun _ ↦ 0, fun _ ↦ '\x00'⟩

/-- `strcpy` of a text to the offset `base` of a character array. -/
def strcpy (a : ℕ → Char) (base : ℕ) (s : String) : ℕ → Char := fun j ↦
  if base ≤ j ∧ j ≤ base + s.toList.length then s.toList.getD (j - base) '\x00' else a j

/-- What `%s` prints for row `i`: the characters in front of the first terminator. -/
def Table.imsi (t : Table) (i : ℕ) : String :=
  String.ofList (((List.range' (i * rowLength) (imsiMapSize * rowLength - i * rowLength)).map
    t.imsiArray).takeWhile fun c ↦ c ≠ '\x00')

/-- A `for` loop over `n` slots from `i` on that breaks at the first slot satisfying `p`. -/
def firstIndex (p : ℕ → Bool) : ℕ → ℕ → Option ℕ
  | 0, _ => none
  | n + 1, i => if p i then some i else firstIndex p n (i + 1)

/-- The slot a request may take: free, or bound for longer than the timeout. -/
def Table.reusable (t : Table) (now : ℤ) (i : ℕ) : Bool :=
  t.imsiMap i = 0 || t.imsiTime i + imsiTimeout < now

/-- The slot a response for `teid` matches; the signed entry is converted for the comparison. -/
def Table.bound (t : Table) (teid : UInt32) (i : ℕ) : Bool := (t.imsiMap i).toUInt32 = teid

/-- The three assignments that bind `teid` to an IMSI in slot `i`. -/
def Table.bind (t : Table) (i : ℕ) (teid : UInt32) (now : ℤ) (imsi : String) : Table where
  imsiMap := Function.update t.imsiMap i teid.toInt32
  imsiTime := Function.update t.imsiTime i now
  imsiArray := strcpy t.imsiArray (i * rowLength) imsi

/-- `imsi_map[i] = 0`. -/
def Table.free (t : Table) (i : ℕ) : Table :=
  { t with imsiMap := Function.update t.imsiMap i 0 }

/-! ## The loop body -/

/-- A line of output. -/
structure Line where
  /-- The seconds of the packet's time stamp. -/
  tvSec : ℤ
  /-- The microseconds of the packet's time stamp. -/
  tvUsec : ℤ
  /-- The end user address. -/
  address : String
  /-- The header TEID, when the line is printed for a Create PDP Context Response. -/
  response : Option UInt32
  /-- The IMSI printed behind the address, if any. -/
  imsi : Option String

/-- The text of a line. -/
def Line.text (l : Line) : String :=
  toString l.tvSec ++ "," ++ toString l.tvUsec ++ "," ++ l.address
    ++ (l.imsi.elim "" fun s ↦ "," ++ s) ++ "\n"

/-- What the program does while it handles the packet with the given number. -/
inductive Event
  /-- A binding is stored. -/
  | stored (packet : ℕ) (teid : UInt32) (imsi : String)
  /-- A line is printed. -/
  | printed (packet : ℕ) (line : Line)

/-- The state of the program while it handles a packet. -/
structure State where
  /-- `imsistr`, a local of the packet handler. -/
  imsistr : String
  /-- The global arrays. -/
  table : Table
  /-- The stores and printed lines so far. -/
  history : List Event

/-- The state before the first packet. -/
def State.init : State := ⟨"", Table.init, []⟩

/-- A message while it is handled: the number and content of its packet, where its GTP header
stands, and the clock reading taken for it. -/
structure Message where
  /-- The number of the packet in the input. -/
  index : ℕ
  /-- The packet. -/
  packet : Packet
  /-- The offset of the GTP header. -/
  gtp : ℕ
  /-- `time_now`. -/
  now : ℤ

/-- `message_type == GTPV1_MT_CREATE_PDP_CONTEXT_REQUEST`. -/
def Message.isRequest (m : Message) : Prop :=
  messageType m.packet.data m.gtp = gtpv1MtCreatePdpContextRequest

/-- `message_type == GTPV1_MT_CREATE_PDP_CONTEXT_RESPONSE`. -/
def Message.isResponse (m : Message) : Prop :=
  messageType m.packet.data m.gtp = gtpv1MtCreatePdpContextResponse

instance (m : Message) : Decidable m.isRequest := by
  unfold Message.isRequest
  infer_instance

instance (m : Message) : Decidable m.isResponse := by
  unfold Message.isResponse
  infer_instance

/-- The action on a control plane identifier of a request. -/
def storeBinding (m : Message) (teid : UInt32) (s : State) : State :=
  -- all slots are taken and none has timed out: the binding is lost
  match firstIndex (s.table.reusable m.now) imsiMapSize 0 with
  | none => s
  | some i =>
    { s with
      -- the text is that of the last IMSI in front of the identifier, empty if there was none
      table := s.table.bind i teid m.now s.imsistr
      history := s.history ++ [.stored m.index teid s.imsistr] }

/-- The line for the end user address at `pos`, with the IMSI found for it. -/
def Message.line (m : Message) (pos : ℕ) (imsi : Option String) : Line where
  tvSec := m.packet.header.tvSec
  tvUsec := m.packet.header.tvUsec
  address := dotted (euaIpv4Address m.packet.data pos)
  response := if m.isResponse then some (headerTeid m.packet.data m.gtp) else none
  imsi := imsi

/-- The action on an end user address. -/
def printAddress (m : Message) (pos : ℕ) (s : State) : State :=
  if m.isResponse then
    match firstIndex (s.table.bound (headerTeid m.packet.data m.gtp)) imsiMapSize 0 with
    -- no binding: the address is printed on its own
    | none => { s with history := s.history ++ [.printed m.index (m.line pos none)] }
    | some i =>
      { s with
        table := s.table.free i
        history := s.history ++ [.printed m.index (m.line pos (some (s.table.imsi i)))] }
  else { s with history := s.history ++ [.printed m.index (m.line pos none)] }

/-- The action of the loop body on one element. -/
def visit (m : Message) (v : ElementVisit) (s : State) : State :=
  let pos := m.gtp + v.offset
  let s := if v.ie = gtpv1IeImsi then { s with imsistr := imsi2str m.packet.data pos } else s
  let s := if v.ie = gtpv1IeTeiControlPlane ∧ m.isRequest
    then storeBinding m (teid2uint m.packet.data pos) s else s
  if v.ie = gtpv1IeEndUserAddress ∧ gtpv1EuaLength m.packet.data pos > gtpv1EuaNoAddressLength
    then printAddress m pos s else s

/-- The messages that the handler goes on with. -/
def isCreatePdpContext (data : Memory) (gtp : ℕ) : Prop :=
  messageType data gtp = gtpv1MtCreatePdpContextRequest ∨
    messageType data gtp = gtpv1MtCreatePdpContextResponse

instance (data : Memory) (gtp : ℕ) : Decidable (isCreatePdpContext data gtp) := by
  unfold isCreatePdpContext
  infer_instance

/-- `decode_gtp_packet` of `gtpimsieua`, or `none` when the element loop does not end within the
fuel. -/
def decodeGtpPacket (fuel index : ℕ) (p : Packet) (now : ℤ) (s : State) : Option State :=
  match gtpv1GetHeader p.header.caplen p.data with
  | none => some s
  | some gtp =>
    -- `imsistr` is a local that starts as the empty string
    if isCreatePdpContext p.data gtp then
      walk (visit ⟨index, p, gtp, now⟩) p.header.caplen.toNat p.data gtp fuel
        (firstElementOffset p.data gtp) { s with imsistr := "" }
    else some s

/-- On a well-formed Create PDP Context message the handler acts on the elements one after
another. -/
theorem decodeGtpPacket_of_wellFormed {p : Packet} {gtp : ℕ} {es : List Element}
    (h : WellFormedMessage p.header.caplen p.data gtp es) (hne : es ≠ [])
    (hcreate : isCreatePdpContext p.data gtp) {fuel : ℕ} (hfuel : es.length ≤ fuel)
    (index : ℕ) (now : ℤ) (s : State) :
    decodeGtpPacket fuel index p now s
      = some ((visitsFrom (firstElementOffset p.data gtp) es).foldl
          (fun s v ↦ visit ⟨index, p, gtp, now⟩ v s) { s with imsistr := "" }) := by
  rw [decodeGtpPacket, h.found]
  simp only [hcreate, if_true]
  exact walk_of_wellFormed _ h hne hfuel _

/-! ## The program one iteration at a time -/

/-- The program between two loop iterations. -/
structure Run where
  /-- The packets to come, each with the clock reading that will be taken for it. -/
  todo : List (Packet × ℤ)
  /-- The number of the next packet. -/
  index : ℕ
  /-- The message in hand and the offset its walk has come to. -/
  current : Option (Message × ℕ)
  /-- The handler's local, the global arrays and the history. -/
  state : State

/-- The program before its first packet. -/
def Run.start (packets : List (Packet × ℤ)) : Run := ⟨packets, 0, none, State.init⟩

/-- One iteration of the loop for the message in hand, or else the start of the next packet. -/
def Run.step (r : Run) : Run :=
  match r.current with
  | some (m, offset) =>
    match walkIteration m.packet.header.caplen.toNat m.packet.data m.gtp offset with
    | .leave => { r with current := none }
    | .last v => { r with current := none, state := visit m v r.state }
    | .next v => { r with current := some (m, v.behind), state := visit m v r.state }
  | none =>
    match r.todo with
    | [] => r
    | (p, now) :: todo =>
      match gtpv1GetHeader p.header.caplen p.data with
      | none => { r with todo := todo, index := r.index + 1 }
      | some gtp =>
        if isCreatePdpContext p.data gtp then
          { todo := todo
            index := r.index + 1
            current := some (⟨r.index, p, gtp, now⟩, firstElementOffset p.data gtp)
            state := { r.state with imsistr := "" } }
        else { r with todo := todo, index := r.index + 1 }

private theorem exists_iterate_of_walk {m : Message} {r : Run} :
    ∀ (fuel offset : ℕ) (s s' : State),
      walk (visit m) m.packet.header.caplen.toNat m.packet.data m.gtp fuel offset s = some s' →
      ∃ n, Run.step^[n] { r with current := some (m, offset), state := s }
        = { r with current := none, state := s' } := by
  intro fuel
  induction fuel with
  | zero =>
    intro offset s s' h
    cases h
  | succ fuel ih =>
    intro offset s s' h
    rw [walk] at h
    cases hiter : walkIteration m.packet.header.caplen.toNat m.packet.data m.gtp offset with
    | leave =>
      simp only [hiter, Option.some.injEq] at h
      refine ⟨1, ?_⟩
      rw [Function.iterate_one, Run.step, ← h]
      simp only [hiter]
    | last v =>
      simp only [hiter, Option.some.injEq] at h
      refine ⟨1, ?_⟩
      rw [Function.iterate_one, Run.step, ← h]
      simp only [hiter]
    | next v =>
      simp only [hiter] at h
      obtain ⟨n, hn⟩ := ih _ _ _ h
      refine ⟨n + 1, ?_⟩
      rw [Function.iterate_succ_apply, Run.step]
      simp only [hiter]
      exact hn

/-- The two views agree: a packet that the handler comes to an end with is handled in a finite
number of steps, with the same effect. -/
theorem exists_iterate_of_decodeGtpPacket {fuel index : ℕ} {p : Packet} {now : ℤ} {s s' : State}
    {todo : List (Packet × ℤ)} (h : decodeGtpPacket fuel index p now s = some s') :
    ∃ n, Run.step^[n] ⟨(p, now) :: todo, index, none, s⟩ = ⟨todo, index + 1, none, s'⟩ := by
  unfold decodeGtpPacket at h
  cases hfound : gtpv1GetHeader p.header.caplen p.data with
  | none =>
    simp only [hfound, Option.some.injEq] at h
    refine ⟨1, ?_⟩
    rw [Function.iterate_one, Run.step, ← h]
    simp only [hfound]
  | some gtp =>
    simp only [hfound] at h
    by_cases hcreate : isCreatePdpContext p.data gtp
    · rw [if_pos hcreate] at h
      obtain ⟨n, hn⟩ := exists_iterate_of_walk (m := ⟨index, p, gtp, now⟩)
        (r := ⟨todo, index + 1, none, s⟩) _ _ _ _ h
      refine ⟨n + 1, ?_⟩
      rw [Function.iterate_succ_apply, Run.step]
      simp only [hfound, hcreate, if_true]
      exact hn
    · rw [if_neg hcreate, Option.some.injEq] at h
      refine ⟨1, ?_⟩
      rw [Function.iterate_one, Run.step, ← h]
      simp only [hfound, hcreate, if_false]

end Gtpimsieua

/-! ## Both walks are exact -/

/-- **Both decoders visit exactly the elements of a well-formed message.** The loop of `decodegtp`
prints what its body prints for the elements, at their offsets and with their body lengths, one
after another, and then the handler ends; on Create PDP Context messages the loop of `gtpimsieua`
acts on the same elements in the same way. -/
theorem decoders_visit_exactly {p : Packet} {gtp : ℕ} {es : List Element}
    (h : WellFormedMessage p.header.caplen p.data gtp es) (hne : es ≠ [])
    (htype : messageType p.data gtp ≠ gtpv1MtGPdu) :
    (∀ ctime : ℤ → String, ∀ fuel ≥ es.length,
      Decodegtp.decodeGtpPacket ctime fuel p
        = some (((visitsFrom (firstElementOffset p.data gtp) es).foldl
            (fun c v ↦ Decodegtp.visit p.data gtp v c)
            { out := Decodegtp.timeText ctime p.header ++ Decodegtp.headerText p.data gtp
                ++ ",," }).out ++ "\n")) ∧
    (Gtpimsieua.isCreatePdpContext p.data gtp →
      ∀ fuel ≥ es.length, ∀ (index : ℕ) (now : ℤ) (s : Gtpimsieua.State),
        Gtpimsieua.decodeGtpPacket fuel index p now s
          = some ((visitsFrom (firstElementOffset p.data gtp) es).foldl
              (fun s v ↦ Gtpimsieua.visit ⟨index, p, gtp, now⟩ v s) { s with imsistr := "" })) ∧
    (∀ (σ : Type) (act : ElementVisit → σ → σ), ∀ fuel ≥ es.length, ∀ s : σ,
      walk act p.header.caplen.toNat p.data gtp fuel (firstElementOffset p.data gtp) s
        = some ((visitsFrom (firstElementOffset p.data gtp) es).foldl
            (fun s v ↦ act v s) s)) := by
  refine ⟨fun ctime fuel hfuel ↦ ?_, fun hcreate fuel hfuel index now s ↦ ?_,
    fun σ act fuel hfuel s ↦ walk_of_wellFormed act h hne hfuel s⟩
  · rw [Decodegtp.decodeGtpPacket, h.found]
    simp only [htype, if_false, walk_of_wellFormed _ h hne hfuel, Option.map_some]
  · exact Gtpimsieua.decodeGtpPacket_of_wellFormed h hne hcreate hfuel index now s

/-- A Create PDP Context Request with an IMSI and a control plane identifier. -/
def createPdpContextRequest (imsi : Imsi) (teid : UInt32) : Packet :=
  gtpcFrame gtpv1MtCreatePdpContextRequest [] [imsiElement imsi, teidElement teid]

/-- A Create PDP Context Response to identifier `teid` with an end user address. -/
def createPdpContextResponse (teid : UInt32) : Packet :=
  gtpcFrame gtpv1MtCreatePdpContextResponse (teidOctets teid) [euaElement 10 0 0 1]

/-- The two elements of such a request are visited at the offsets 8 and 17. -/
theorem decoders_visit_exactly_request :
    walk (fun v visits ↦ visits ++ [v])
        (createPdpContextRequest (fun _ ↦ 1) 5).header.caplen.toNat
        (createPdpContextRequest (fun _ ↦ 1) 5).data 42 2 8 []
      = some [⟨gtpv1IeImsi, 8, 8⟩, ⟨gtpv1IeTeiControlPlane, 17, 4⟩] :=
  (decoders_visit_exactly (wellFormed_gtpcFrame gtpv1MtCreatePdpContextRequest []
      [imsiElement fun _ ↦ 1, teidElement 5] (by decide)) (List.cons_ne_nil _ _)
    (by decide)).2.2 (List ElementVisit) (fun v visits ↦ visits ++ [v]) 2 (le_refl _) []

end DistributorMerger
