import DistributorMerger.Pcap.Packet

/-!
# Rewriting time stamps

`usectstamp` copies a capture file and replaces the time stamps: the first packet keeps its own, and
each later one gets the time stamp before it plus one microsecond. The clock is kept in two globals.
That their seconds are zero also means that no packet has been seen, so a clock that reads zero
seconds is set anew from the next packet.

`time_t` has 64 bits and a capture file gives the seconds in 32, so the clock does not overflow.
-/

namespace DistributorMerger

namespace Usectstamp

/-- The globals `tv_sec` and `tv_usec`. -/
structure Clock where
  /-- `tv_sec`. -/
  tvSec : ℤ := 0
  /-- `tv_usec`. -/
  tvUsec : ℤ := 0
  deriving DecidableEq, Repr

/-- The time stamp of a packet header. -/
def stamp (h : PcapPkthdr) : Clock := ⟨h.tvSec, h.tvUsec⟩

/-- The next microsecond. -/
def Clock.tick (c : Clock) : Clock :=
  -- one past the last microsecond of a second
  if c.tvUsec + 1 ≥ 1000000 then ⟨c.tvSec + 1, 0⟩ else ⟨c.tvSec, c.tvUsec + 1⟩

/-- The first half of the packet handler: set the clock or let it tick. -/
def Clock.next (c : Clock) (h : PcapPkthdr) : Clock := if c.tvSec = 0 then stamp h else c.tick

/-- The packet handler of `usectstamp`, on the clock and the records dumped so far. -/
def packetHandler (s : Clock × List Record) (p : Packet) : Clock × List Record :=
  let c := s.1.next p.header
  (c, s.2 ++ [dumpRecord { p.header with tvSec := c.tvSec, tvUsec := c.tvUsec } p.data])

/-- A run of `usectstamp`: the records of the file it writes. -/
def usectstamp (packets : List Packet) : List Record := (packets.foldl packetHandler ({}, [])).2

/-! ## The time that a clock shows -/

/-- The microseconds field is in range. -/
def Clock.InRange (c : Clock) : Prop := 0 ≤ c.tvUsec ∧ c.tvUsec < 1000000

/-- The time that a clock shows, in microseconds. -/
def Clock.time (c : Clock) : ℤ := c.tvSec * 1000000 + c.tvUsec

/-- The clock that shows a time. -/
def Clock.ofTime (t : ℤ) : Clock := ⟨t / 1000000, t % 1000000⟩

theorem Clock.ofTime_inRange (t : ℤ) : (Clock.ofTime t).InRange := by
  simp only [InRange, ofTime]
  omega

theorem Clock.time_ofTime (t : ℤ) : (Clock.ofTime t).time = t := by
  simp only [time, ofTime]
  omega

theorem Clock.ofTime_time {c : Clock} (h : c.InRange) : Clock.ofTime c.time = c := by
  obtain ⟨sec, usec⟩ := c
  simp only [InRange] at h
  simp only [ofTime, time, Clock.mk.injEq]
  omega

theorem Clock.tick_ofTime (t : ℤ) : (Clock.ofTime t).tick = Clock.ofTime (t + 1) := by
  by_cases hcarry : (ofTime t).tvUsec + 1 ≥ 1000000
  · rw [tick, if_pos hcarry]
    simp only [ofTime, Clock.mk.injEq] at hcarry ⊢
    omega
  · rw [tick, if_neg hcarry]
    simp only [ofTime, Clock.mk.injEq] at hcarry ⊢
    omega

/-! ## The readings of a run -/

/-- The readings of the clock that the packets are stamped with. -/
def readings : Clock → List Packet → List Clock
  | _, [] => []
  | c, p :: packets => c.next p.header :: readings (c.next p.header) packets

/-- The record of a packet under a reading of the clock. -/
def restamp (c : Clock) (p : Packet) : Record :=
  dumpRecord { p.header with tvSec := c.tvSec, tvUsec := c.tvUsec } p.data

theorem length_readings (c : Clock) (packets : List Packet) :
    (readings c packets).length = packets.length := by
  induction packets generalizing c with
  | nil => rfl
  | cons p packets ih => rw [readings, List.length_cons, List.length_cons, ih]

/-- A run stamps each packet with the reading that was taken for it. -/
theorem usectstamp_eq (packets : List Packet) :
    usectstamp packets = List.zipWith restamp (readings {} packets) packets := by
  have hrun : ∀ (c : Clock) (out : List Record),
      (packets.foldl packetHandler (c, out)).2
        = out ++ List.zipWith restamp (readings c packets) packets := by
    induction packets with
    | nil =>
      intro c out
      exact (List.append_nil out).symm
    | cons p packets ih =>
      intro c out
      rw [List.foldl_cons, packetHandler, ih, List.append_assoc]
      rfl
  exact hrun {} []

theorem getElem?_usectstamp {packets : List Packet} {k : ℕ} {r : Record}
    (h : (usectstamp packets)[k]? = some r) :
    ∃ c p, (readings {} packets)[k]? = some c ∧ packets[k]? = some p ∧ r = restamp c p := by
  rw [usectstamp_eq, List.getElem?_zipWith_eq_some] at h
  obtain ⟨c, p, hc, hp, rfl⟩ := h
  exact ⟨c, p, hc, hp, rfl⟩

/-- A clock that shows `t` shows the next microsecond afterwards, unless it is set anew to another
time. It is set anew when it shows zero seconds. -/
theorem Clock.time_next_ofTime_iff (t : ℤ) (header : PcapPkthdr) :
    ((Clock.ofTime t).next header).time = t + 1 ↔
      ((Clock.ofTime t).tvSec = 0 → (stamp header).time = t + 1) := by
  rw [next]
  split
  · rename_i hzero
    exact ⟨fun h _ ↦ h, fun h ↦ h hzero⟩
  · rename_i hzero
    rw [tick_ofTime, time_ofTime]
    exact iff_of_true rfl fun h ↦ absurd h hzero

theorem Clock.next_ofTime_inRange (t : ℤ) {header : PcapPkthdr} (h : (stamp header).InRange) :
    ((Clock.ofTime t).next header).InRange := by
  rw [next, tick_ofTime]
  split
  · exact h
  · exact ofTime_inRange _

theorem forall_getElem?_cons {α : Type} {P : ℕ → α → Prop} {a : α} {l : List α} :
    (∀ k x, (a :: l)[k]? = some x → P k x) ↔
      P 0 a ∧ ∀ k x, l[k]? = some x → P (k + 1) x := by
  constructor
  · exact fun h ↦ ⟨h 0 a rfl, fun k x hx ↦ h (k + 1) x hx⟩
  · rintro ⟨hhead, htail⟩ k x hx
    cases k with
    | zero =>
      cases hx
      exact hhead
    | succ k => exact htail k x hx

/-- While the clock is never set anew, the readings count microseconds. The induction is on the
packets; in front of each the clock shows a time `t`, and it is set anew when that time has zero
seconds. -/
theorem readings_eq_iff {packets : List Packet} (hrange : ∀ p ∈ packets, (stamp p.header).InRange)
    (t : ℤ) :
    (∀ (k : ℕ) (c : Clock), (readings (Clock.ofTime t) packets)[k]? = some c →
        c.time = t + (k + 1)) ↔
      ∀ (k : ℕ) p, packets[k]? = some p → (Clock.ofTime (t + k)).tvSec = 0 →
        (stamp p.header).time = t + (k + 1) := by
  induction packets generalizing t with
  | nil => simp [readings]
  | cons p packets ih =>
    have hrest := ih (fun q hq ↦ hrange q (List.mem_cons_of_mem p hq)) (t + 1)
    have hcast : ∀ k : ℕ, ((k + 1 : ℕ) : ℤ) = 1 + k := by
      intro k
      omega
    rw [readings, forall_getElem?_cons, forall_getElem?_cons]
    simp only [hcast, Nat.cast_zero, add_zero, zero_add]
    rw [← Clock.time_next_ofTime_iff]
    refine and_congr_right fun hnext ↦ ?_
    rw [← Clock.ofTime_time (Clock.next_ofTime_inRange t (hrange p List.mem_cons_self)), hnext]
    simpa only [add_assoc] using hrest

/-! ## A strict microsecond clock -/

/-- The file that is written holds the packets in order, with their lengths and bytes, and the
`k`-th of them has the time stamp of the first plus `k` microseconds, with the microseconds field in
range; so the time stamps strictly increase. -/
structure StrictClock (first : Packet) (rest : List Packet) : Prop where
  /-- There is one record for each packet. -/
  count : (usectstamp (first :: rest)).length = (first :: rest).length
  /-- Lengths and bytes are those of the packet. -/
  kept : ∀ (k : ℕ) (r : Record), (usectstamp (first :: rest))[k]? = some r →
    ∃ p, (first :: rest)[k]? = some p ∧ r.header.caplen = p.header.caplen ∧
      r.header.len = p.header.len ∧ r.bytes = p.record.bytes
  /-- The time stamps count microseconds. -/
  time : ∀ (k : ℕ) (r : Record), (usectstamp (first :: rest))[k]? = some r →
    (stamp r.header).time = (stamp first.header).time + k ∧ (stamp r.header).InRange
  /-- The time stamps strictly increase. -/
  increasing : (usectstamp (first :: rest)).Pairwise fun r r' ↦
    (stamp r.header).time < (stamp r'.header).time

/-- Wherever the clock would read zero seconds, the next packet carries the very time stamp that it
is to get. -/
def ZeroSecondsAgree (first : Packet) (rest : List Packet) : Prop :=
  ∀ (k : ℕ) p, rest[k]? = some p →
    (Clock.ofTime ((stamp first.header).time + k)).tvSec = 0 →
      (stamp p.header).time = (stamp first.header).time + (k + 1)

section Run

variable {first : Packet} {rest : List Packet}

theorem readings_first (hfirst : (stamp first.header).InRange) :
    readings {} (first :: rest)
      = stamp first.header :: readings (Clock.ofTime (stamp first.header).time) rest := by
  rw [readings, Clock.next, if_pos rfl, Clock.ofTime_time hfirst]

theorem inRange_of_mem_readings {packets : List Packet} {c c' : Clock} (hc : c.InRange)
    (hrange : ∀ p ∈ packets, (stamp p.header).InRange) (h : c' ∈ readings c packets) :
    c'.InRange := by
  induction packets generalizing c with
  | nil => exact absurd h List.not_mem_nil
  | cons p packets ih =>
    have hnext : (c.next p.header).InRange := by
      rw [Clock.next]
      split
      · exact hrange p List.mem_cons_self
      · rw [← Clock.ofTime_time hc, Clock.tick_ofTime]
        exact Clock.ofTime_inRange _
    rcases List.mem_cons.mp h with rfl | h
    · exact hnext
    · exact ih hnext (fun q hq ↦ hrange q (List.mem_cons_of_mem p hq)) h

/-- The readings count from the time stamp of the first packet exactly when no packet sets the clock
to another time. -/
theorem time_readings_iff (hrange : ∀ p ∈ first :: rest, (stamp p.header).InRange) :
    (∀ (k : ℕ) (c : Clock), (readings {} (first :: rest))[k]? = some c →
        c.time = (stamp first.header).time + k) ↔ ZeroSecondsAgree first rest := by
  have hfirst := hrange first List.mem_cons_self
  rw [ZeroSecondsAgree, ← readings_eq_iff fun p hp ↦ hrange p (List.mem_cons_of_mem first hp),
    readings_first hfirst]
  constructor
  · intro h k c hc
    rw [h (k + 1) c hc]
    omega
  · intro h k c hc
    cases k with
    | zero =>
      rw [List.getElem?_cons_zero, Option.some.injEq] at hc
      rw [hc]
      simp
    | succ k =>
      rw [h k c hc]
      omega

theorem exists_getElem?_usectstamp {packets : List Packet} {k : ℕ} {c : Clock}
    (h : (readings {} packets)[k]? = some c) :
    ∃ r, (usectstamp packets)[k]? = some r ∧ stamp r.header = c := by
  have hk : k < packets.length := by
    rw [← length_readings {} packets]
    exact (List.getElem?_eq_some_iff.mp h).1
  refine ⟨restamp c packets[k], ?_, rfl⟩
  rw [usectstamp_eq, List.getElem?_zipWith_eq_some]
  exact ⟨c, packets[k], h, List.getElem?_eq_getElem hk, rfl⟩

end Run

/-- **When the time stamps are a strict microsecond clock.** For packets whose microseconds are in
range, they are one exactly when every packet that comes while the clock reads zero seconds carries
the time stamp that it is to get. -/
theorem strictClock_iff (first : Packet) (rest : List Packet)
    (hrange : ∀ p ∈ first :: rest, (stamp p.header).InRange) :
    StrictClock first rest ↔ ZeroSecondsAgree first rest := by
  rw [← time_readings_iff hrange]
  constructor
  · intro h k c hc
    obtain ⟨r, hr, rfl⟩ := exists_getElem?_usectstamp hc
    exact (h.time k r hr).1
  · intro h
    have hcount : (usectstamp (first :: rest)).length = (first :: rest).length := by
      rw [usectstamp_eq, List.length_zipWith, length_readings, Nat.min_self]
    have htime : ∀ (k : ℕ) (r : Record), (usectstamp (first :: rest))[k]? = some r →
        (stamp r.header).time = (stamp first.header).time + k := by
      intro k r hr
      obtain ⟨c, p, hc, -, rfl⟩ := getElem?_usectstamp hr
      exact h k c hc
    refine ⟨hcount, ?_, ?_, ?_⟩
    · intro k r hr
      obtain ⟨c, p, -, hp, rfl⟩ := getElem?_usectstamp hr
      exact ⟨p, hp, rfl, rfl, rfl⟩
    · intro k r hr
      refine ⟨htime k r hr, ?_⟩
      obtain ⟨c, p, hc, -, rfl⟩ := getElem?_usectstamp hr
      exact inRange_of_mem_readings (c := {}) ⟨le_refl 0, by decide⟩ hrange
        (List.mem_of_getElem? hc)
    · rw [List.pairwise_iff_getElem]
      intro i j hi hj hij
      rw [htime i _ (List.getElem?_eq_getElem hi), htime j _ (List.getElem?_eq_getElem hj)]
      omega

/-- A packet with the given time stamp and no bytes. -/
def stamped (sec usec : ℤ) : Packet := ⟨⟨sec, usec, 0, 0⟩, fun _ ↦ 0⟩

/-- A carry into the next second, far from the epoch. -/
theorem strictClock_carry : StrictClock (stamped 5 999999) [stamped 5 999999, stamped 9 0] := by
  refine (strictClock_iff (stamped 5 999999) [stamped 5 999999, stamped 9 0] ?_).mpr ?_
  · intro p hp
    simp only [List.mem_cons, List.not_mem_nil, or_false] at hp
    rcases hp with rfl | rfl | rfl <;> exact ⟨by decide, by decide⟩
  · intro k p _ hzero
    simp only [stamped, stamp, Clock.time, Clock.ofTime] at hzero
    omega

/-- A stream that begins in the first second of the epoch keeps the gap between its packets. -/
theorem not_strictClock_epoch :
    (∀ p ∈ [stamped 0 7, stamped 0 9], (stamp p.header).InRange) ∧
      ¬ StrictClock (stamped 0 7) [stamped 0 9] := by
  refine ⟨?_, fun h ↦ ?_⟩
  · intro p hp
    simp only [List.mem_cons, List.not_mem_nil, or_false] at hp
    rcases hp with rfl | rfl <;> exact ⟨by decide, by decide⟩
  · exact absurd (h.time 1 (restamp ⟨0, 9⟩ (stamped 0 9)) rfl).1 (by decide)

end Usectstamp

end DistributorMerger
