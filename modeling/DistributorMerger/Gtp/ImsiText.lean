import DistributorMerger.Gtp.Fields

/-!
# The text of a decoded IMSI

`imsi2str` prints the eight octets of an IMSI element one after another. A high nibble of ten or
more is taken for a filler and skipped. A low nibble is printed as a decimal number whatever it is,
so a filler there adds the two characters `15`, and an octet adds one to three characters.

Two things are read off the characters that each octet adds: which packed IMSIs come out as they
went in, and which element bodies give a text that fits the buffers of the decoders.
-/

namespace DistributorMerger

/-! ## What an octet adds -/

/-- The characters that one iteration of `imsi2str` adds. -/
def octetDigits (octet : UInt8) : List Char :=
  Nat.toDigits 10 (octet.toNat % 16)
    ++ if octet.toNat / 16 < 10 then Nat.toDigits 10 (octet.toNat / 16) else []

/-- The low nibble is not a decimal digit. -/
def lowFiller (octet : UInt8) : Bool := 10 ≤ octet.toNat % 16

/-- The high nibble is not a decimal digit. -/
def highFiller (octet : UInt8) : Bool := 10 ≤ octet.toNat / 16

/-- The octets of the IMSI element at `pos` behind its type. -/
def imsiBody (data : Memory) (pos : ℕ) : List UInt8 :=
  (List.range gtpv1ImsiLength).map fun i ↦ data (pos + 1 + i)

theorem toList_imsi2strOctet (s : String) (octet : UInt8) :
    (imsi2strOctet s octet).toList = s.toList ++ octetDigits octet := by
  rw [imsi2strOctet, octetDigits]
  split
  · rw [String.toList_append, String.toList_append, toList_toString, toList_toString,
      List.append_assoc]
  · rw [String.toList_append, toList_toString, List.append_nil]

theorem toList_foldl_imsi2strOctet (l : List UInt8) (s : String) :
    (l.foldl imsi2strOctet s).toList = s.toList ++ l.flatMap octetDigits := by
  induction l generalizing s with
  | nil => rw [List.foldl_nil, List.flatMap_nil, List.append_nil]
  | cons octet l ih =>
    rw [List.foldl_cons, ih, toList_imsi2strOctet, List.flatMap_cons, List.append_assoc]

theorem toList_imsi2str (data : Memory) (pos : ℕ) :
    (imsi2str data pos).toList = (imsiBody data pos).flatMap octetDigits := by
  have hfold : imsi2str data pos = (imsiBody data pos).foldl imsi2strOctet "" := by
    rw [imsi2str, imsiBody, List.foldl_map]
  rw [hfold, toList_foldl_imsi2strOctet]
  rfl

/-! ## The length of the text -/

private theorem length_toDigits_nibble {n : ℕ} (h : n < 16) :
    (Nat.toDigits 10 n).length = 1 + if 10 ≤ n then 1 else 0 := by
  revert n
  decide

/-- An octet adds two characters, one more for a filler in the low nibble and one less for a filler
in the high nibble. -/
theorem length_octetDigits (octet : UInt8) :
    (octetDigits octet).length + (if highFiller octet then 1 else 0)
      = 2 + if lowFiller octet then 1 else 0 := by
  have hlow : octet.toNat % 16 < 16 := by omega
  have hhigh : octet.toNat / 16 < 16 := by
    have := octet.toNat_lt
    omega
  rw [octetDigits, List.length_append, length_toDigits_nibble hlow, highFiller, lowFiller]
  simp only [decide_eq_true_eq]
  by_cases hdigit : octet.toNat / 16 < 10
  · have hnot : ¬ 10 ≤ octet.toNat / 16 := by omega
    rw [if_pos hdigit, length_toDigits_nibble hhigh, if_neg hnot]
    omega
  · have hfiller : 10 ≤ octet.toNat / 16 := by omega
    rw [if_neg hdigit, if_pos hfiller, List.length_nil]
    omega

theorem length_flatMap_octetDigits (l : List UInt8) :
    (l.flatMap octetDigits).length + l.countP highFiller = 2 * l.length + l.countP lowFiller := by
  induction l with
  | nil => rfl
  | cons octet l ih =>
    have hoctet := length_octetDigits octet
    rw [List.flatMap_cons, List.length_append, List.countP_cons, List.countP_cons,
      List.length_cons]
    omega

/-- **When a decoded IMSI fits its buffer.** The text of an IMSI element and its terminator take at
most `GTPV1_IMSI_LENGTH * 2` bytes exactly when fewer low nibbles than high nibbles of its octets
are fillers. -/
theorem imsi2str_fits_iff (data : Memory) (pos : ℕ) :
    (imsi2str data pos).toList.length + 1 ≤ gtpv1ImsiLength * 2 ↔
      (imsiBody data pos).countP lowFiller < (imsiBody data pos).countP highFiller := by
  have hlength := length_flatMap_octetDigits (imsiBody data pos)
  have hbody : (imsiBody data pos).length = gtpv1ImsiLength := by
    rw [imsiBody, List.length_map, List.length_range]
  rw [toList_imsi2str]
  omega

/-- Eight octets that hold sixteen digits leave no room for the terminator. -/
theorem not_imsi2str_fits_sixteen_digits :
    ¬ (imsi2str (Memory.ofList (2 :: List.replicate 8 0x11)) 0).toList.length + 1
      ≤ gtpv1ImsiLength * 2 := by
  rw [toList_imsi2str]
  decide

/-! ## Packed digits -/

/-- The octets into which digits are packed, the first of a pair in the low nibble. Unused nibbles
are `0xF`. -/
def packDigits : ℕ → List (Fin 10) → List UInt8
  | 0, _ => []
  | n + 1, [] => UInt8.ofNat (15 + 16 * 15) :: packDigits n []
  | n + 1, [d] => UInt8.ofNat (d + 16 * 15) :: packDigits n []
  | n + 1, d :: e :: ds => UInt8.ofNat (d + 16 * e) :: packDigits n ds

/-- An IMSI of six to fifteen decimal digits. -/
structure DecimalImsi where
  /-- The digits. -/
  digits : List (Fin 10)
  /-- There are at least six digits. -/
  six_le : 6 ≤ digits.length
  /-- There are at most fifteen digits. -/
  le_fifteen : digits.length ≤ 15

namespace DecimalImsi

/-- The digits as text. -/
def text (imsi : DecimalImsi) : String :=
  String.ofList (imsi.digits.map fun d : Fin 10 ↦ Nat.digitChar d)

/-- The body of the information element. -/
def body (imsi : DecimalImsi) : List UInt8 := packDigits gtpv1ImsiLength imsi.digits

end DecimalImsi

private theorem octetDigits_ofNat {low high : ℕ} (hlow : low < 16) (hhigh : high < 16) :
    octetDigits (UInt8.ofNat (low + 16 * high))
      = Nat.toDigits 10 low ++ if high < 10 then Nat.toDigits 10 high else [] := by
  rw [octetDigits, UInt8.toNat_ofNat', show (low + 16 * high) % 2 ^ 8 % 16 = low from by omega,
    show (low + 16 * high) % 2 ^ 8 / 16 = high from by omega]

private theorem octetDigits_pair (d e : Fin 10) :
    octetDigits (UInt8.ofNat (d + 16 * e)) = [Nat.digitChar d, Nat.digitChar e] := by
  rw [octetDigits_ofNat (by omega) (by omega), if_pos e.isLt, Nat.toDigits_of_lt_base d.isLt,
    Nat.toDigits_of_lt_base e.isLt]
  rfl

private theorem octetDigits_single (d : Fin 10) :
    octetDigits (UInt8.ofNat (d + 16 * 15)) = [Nat.digitChar d] := by
  rw [octetDigits_ofNat (by omega) (by omega), if_neg (by omega), Nat.toDigits_of_lt_base d.isLt]
  rfl

theorem length_packDigits (n : ℕ) (ds : List (Fin 10)) : (packDigits n ds).length = n := by
  fun_induction packDigits n ds with
  | case1 => rfl
  | case2 n ih => rw [List.length_cons, ih]
  | case3 n d ih => rw [List.length_cons, ih]
  | case4 n d e ds ih => rw [List.length_cons, ih]

/-- Packed digits print as two characters an octet, and as one less in all when the last digit
stands alone. -/
theorem length_flatMap_packDigits (n : ℕ) (ds : List (Fin 10)) (h : ds.length ≤ 2 * n) :
    ((packDigits n ds).flatMap octetDigits).length + ds.length % 2 = 2 * n := by
  fun_induction packDigits n ds with
  | case1 ds =>
    rw [List.flatMap_nil, List.length_nil]
    omega
  | case2 n ih =>
    have hrest := ih (Nat.zero_le _)
    -- An octet of two fillers prints two characters.
    have hpair : (octetDigits (UInt8.ofNat (15 + 16 * 15))).length = 2 := by decide
    rw [List.flatMap_cons, List.length_append, hpair]
    simp only [List.length_nil] at hrest ⊢
    omega
  | case3 n d ih =>
    have hrest := ih (Nat.zero_le _)
    rw [List.flatMap_cons, List.length_append, octetDigits_single]
    simp only [List.length_nil, List.length_singleton] at hrest ⊢
    omega
  | case4 n d e ds ih =>
    have hrest := ih (by simp only [List.length_cons] at h; omega)
    rw [List.flatMap_cons, List.length_append, octetDigits_pair]
    simp only [List.length_cons, List.length_nil] at hrest ⊢
    omega

theorem flatMap_packDigits (n : ℕ) (ds : List (Fin 10)) (h : ds.length + 1 = 2 * n) :
    (packDigits n ds).flatMap octetDigits = ds.map fun d : Fin 10 ↦ Nat.digitChar d := by
  fun_induction packDigits n ds with
  | case1 ds => omega
  | case2 n ih =>
    rw [List.length_nil] at h
    omega
  | case3 n d ih =>
    obtain rfl : n = 0 := by
      rw [List.length_singleton] at h
      omega
    rw [List.flatMap_cons, octetDigits_single]
    rfl
  | case4 n d e ds ih =>
    rw [List.flatMap_cons, octetDigits_pair,
      ih (by simp only [List.length_cons] at h; omega)]
    rfl

/-- **When decoding undoes packing.** The text of an element that holds an IMSI of six to fifteen
digits is the IMSI exactly when there are fifteen digits; with fewer, the last octet has a filler in
its low nibble. -/
theorem imsi2str_eq_text_iff (imsi : DecimalImsi) {data : Memory} {pos : ℕ}
    (h : data.Holds (pos + 1) imsi.body) :
    imsi2str data pos = imsi.text ↔ imsi.digits.length = 15 := by
  have hsix := imsi.six_le
  have hfifteen := imsi.le_fifteen
  have hlist : (imsi2str data pos).toList
      = (packDigits gtpv1ImsiLength imsi.digits).flatMap octetDigits := by
    rw [imsi2str_of_holds (length_packDigits _ _) h, toList_foldl_imsi2strOctet]
    rfl
  rw [← String.toList_inj, hlist, DecimalImsi.text, String.toList_ofList]
  constructor
  · intro htext
    have hlength := length_flatMap_packDigits gtpv1ImsiLength imsi.digits
      (by rw [gtpv1ImsiLength]; omega)
    rw [htext, List.length_map, gtpv1ImsiLength] at hlength
    omega
  · intro hlength
    exact flatMap_packDigits gtpv1ImsiLength imsi.digits (by rw [gtpv1ImsiLength, hlength])

/-- The first fifteen digits of a sequence that counts up. -/
theorem imsi2str_eq_text_fifteen :
    imsi2str (Memory.ofList (2 :: packDigits 8 ((List.range 15).map (Fin.ofNat 10)))) 0
      = (⟨(List.range 15).map (Fin.ofNat 10), by decide, by decide⟩ : DecimalImsi).text :=
  (imsi2str_eq_text_iff ⟨(List.range 15).map (Fin.ofNat 10), by decide, by decide⟩
    (Memory.holds_ofList_append [2] _)).mpr rfl

/-- The six digits `123456` come out with five times `15` behind them. -/
theorem imsi2str_ne_text_six :
    (Memory.ofList (2 :: packDigits 8 [1, 2, 3, 4, 5, 6])).Holds (0 + 1)
        (⟨[1, 2, 3, 4, 5, 6], by decide, by decide⟩ : DecimalImsi).body ∧
      imsi2str (Memory.ofList (2 :: packDigits 8 [1, 2, 3, 4, 5, 6])) 0 = "1234561515151515" ∧
      imsi2str (Memory.ofList (2 :: packDigits 8 [1, 2, 3, 4, 5, 6])) 0
        ≠ (⟨[1, 2, 3, 4, 5, 6], by decide, by decide⟩ : DecimalImsi).text := by
  refine ⟨Memory.holds_ofList_append [2] _, ?_, ?_⟩
  · decide
  · decide

end DistributorMerger
