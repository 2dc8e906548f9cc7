import DistributorMerger.Gtp.Walk

/-!
# The fields of single information elements

The decoders cast a pointer to an element to a struct for its type and read the fields without a
test of their own. An element is represented by the offset `pos` of its type octet in the frame.

An IMSI is packed two digits an octet, the first digit of a pair in the low nibble. A high nibble
of ten or more is a filler and is skipped; the low nibble is always printed as a number.
-/

namespace DistributorMerger

/-! ## Text -/

/-- A number as `%x` prints it. -/
def hexString (n : ℕ) : String := String.ofList (Nat.toDigits 16 n)

/-- A number as `%0wu` prints it. -/
def zeroPadded (w n : ℕ) : String :=
  String.ofList (List.replicate (w - (Nat.toDigits 10 n).length) '0' ++ Nat.toDigits 10 n)

/-- Four octets in dotted notation. -/
def dotted (octet : ℕ → UInt8) : String :=
  toString (octet 0).toNat ++ "." ++ toString (octet 1).toNat ++ "." ++
    toString (octet 2).toNat ++ "." ++ toString (octet 3).toNat

/-! ## IMSI -/

/-- `GTPV1_IMSI_LENGTH`. -/
def gtpv1ImsiLength : ℕ := 8

/-- One iteration of `imsi2str`: the low nibble, then the high nibble unless it is a filler. -/
def imsi2strOctet (string : String) (octet : UInt8) : String :=
  -- the low nibble is printed whatever it is, with two digits from 10 on
  let string := string ++ toString (octet.toNat % 16)
  if octet.toNat / 16 < 10 then string ++ toString (octet.toNat / 16) else string

/-- `imsi2str` on the element at `pos`. -/
def imsi2str (data : Memory) (pos : ℕ) : String :=
  (List.range gtpv1ImsiLength).foldl (fun s i ↦ imsi2strOctet s (data (pos + 1 + i))) ""

/-! ## Tunnel endpoint identifiers -/

/-- `teid2uint` on the element at `pos`. -/
def teid2uint (data : Memory) (pos : ℕ) : UInt32 := data.be32 (pos + 1)

/-! ## End user addresses -/

/-- `GTPV1_EUA_NO_ADDRESS_LENGTH`. -/
def gtpv1EuaNoAddressLength : ℕ := 2

/-- `GTPV1_EUA_LENGTH` of the element at `pos`. -/
def gtpv1EuaLength (data : Memory) (pos : ℕ) : ℕ := data.be16 (pos + 1)

/-- `address.ipv4.address` of the element at `pos`: the four octets behind the PDP type number. -/
def euaIpv4Address (data : Memory) (pos : ℕ) : ℕ → UInt8 := fun i ↦ data (pos + 5 + i)

/-! ## Packed IMSIs -/

/-- An IMSI of fifteen decimal digits. -/
abbrev Imsi := Fin 15 → Fin 10

namespace Imsi

/-- The digits of the IMSI as text. -/
def text (imsi : Imsi) : String :=
  (List.ofFn imsi).foldl (fun s (d : Fin 10) ↦ s ++ toString (d : ℕ)) ""

/-- The body of the IMSI's information element; the last high nibble is the filler. -/
def octets (imsi : Imsi) : List UInt8 :=
  [UInt8.ofNat (imsi 0 + 16 * imsi 1), UInt8.ofNat (imsi 2 + 16 * imsi 3),
    UInt8.ofNat (imsi 4 + 16 * imsi 5), UInt8.ofNat (imsi 6 + 16 * imsi 7),
    UInt8.ofNat (imsi 8 + 16 * imsi 9), UInt8.ofNat (imsi 10 + 16 * imsi 11),
    UInt8.ofNat (imsi 12 + 16 * imsi 13), UInt8.ofNat (imsi 14 + 16 * 15)]

end Imsi

private theorem imsi2strOctet_pair (s : String) (d e : Fin 10) :
    imsi2strOctet s (UInt8.ofNat (d + 16 * e)) = s ++ toString (d : ℕ) ++ toString (e : ℕ) := by
  have hd := d.isLt
  have he := e.isLt
  rw [imsi2strOctet, UInt8.toNat_ofNat',
    show ((d : ℕ) + 16 * e) % 2 ^ 8 % 16 = d from by omega,
    show ((d : ℕ) + 16 * e) % 2 ^ 8 / 16 = e from by omega, if_pos he]

private theorem imsi2strOctet_filler (s : String) (d : Fin 10) :
    imsi2strOctet s (UInt8.ofNat (d + 16 * 15)) = s ++ toString (d : ℕ) := by
  have hd := d.isLt
  rw [imsi2strOctet, UInt8.toNat_ofNat', show ((d : ℕ) + 16 * 15) % 2 ^ 8 % 16 = d from by omega,
    show ((d : ℕ) + 16 * 15) % 2 ^ 8 / 16 = 15 from by omega, if_neg (by norm_num)]

/-- `imsi2str` reads the octets of the element's body one after another. -/
theorem imsi2str_of_holds {data : Memory} {pos : ℕ} {l : List UInt8}
    (hlen : l.length = gtpv1ImsiLength) (h : data.Holds (pos + 1) l) :
    imsi2str data pos = l.foldl imsi2strOctet "" := by
  have hmap : (List.range gtpv1ImsiLength).map (fun i ↦ data (pos + 1 + i)) = l := by
    refine List.ext_getElem? fun k ↦ ?_
    by_cases hk : k < l.length
    · rw [h k hk, List.getElem?_map, List.getElem?_range (hlen ▸ hk), Option.map_some]
    · rw [List.getElem?_eq_none (by simpa [← hlen] using hk), List.getElem?_eq_none (by omega)]
  rw [imsi2str, ← hmap, List.foldl_map]

/-- Decoding undoes packing for an IMSI of fifteen digits. -/
theorem imsi2str_of_octets {data : Memory} {pos : ℕ} {imsi : Imsi}
    (h : data.Holds (pos + 1) imsi.octets) : imsi2str data pos = imsi.text := by
  rw [imsi2str_of_holds rfl h]
  simp only [Imsi.octets, Imsi.text, List.foldl_cons, List.foldl_nil, imsi2strOctet_pair,
    imsi2strOctet_filler, List.ofFn_succ, List.ofFn_zero]
  rfl

/-! ## Texts of IMSIs -/

theorem toList_toString (n : ℕ) : (toString n).toList = Nat.toDigits 10 n :=
  Nat.toList_repr

private theorem isDigit_imsi2strOctet {s : String} {octet : UInt8}
    (hs : ∀ c ∈ s.toList, c.isDigit) : ∀ c ∈ (imsi2strOctet s octet).toList, c.isDigit := by
  have hnum : ∀ n : ℕ, ∀ c ∈ (toString n).toList, c.isDigit := by
    intro n c hc
    rw [toList_toString] at hc
    exact Nat.isDigit_of_mem_toDigits (by norm_num) (by norm_num) hc
  intro c hc
  unfold imsi2strOctet at hc
  dsimp only at hc
  split at hc
  · simp only [String.toList_append, List.mem_append] at hc
    rcases hc with (hc | hc) | hc
    · exact hs c hc
    · exact hnum _ c hc
    · exact hnum _ c hc
  · simp only [String.toList_append, List.mem_append] at hc
    rcases hc with hc | hc
    · exact hs c hc
    · exact hnum _ c hc

theorem isDigit_of_mem_imsi2str {data : Memory} {pos : ℕ} :
    ∀ c ∈ (imsi2str data pos).toList, c.isDigit := by
  have hfold : ∀ (l : List ℕ) (s : String), (∀ c ∈ s.toList, c.isDigit) →
      ∀ c ∈ (l.foldl (fun s i ↦ imsi2strOctet s (data (pos + 1 + i))) s).toList, c.isDigit := by
    intro l
    induction l with
    | nil => exact fun s hs ↦ hs
    | cons i l ih => exact fun s hs ↦ ih _ (isDigit_imsi2strOctet hs)
  exact hfold _ _ (by simp)

theorem Imsi.length_text (imsi : Imsi) : imsi.text.toList.length = 15 := by
  have hfold : ∀ (l : List (Fin 10)) (s : String),
      (l.foldl (fun s (d : Fin 10) ↦ s ++ toString (d : ℕ)) s).toList.length
        = s.toList.length + l.length := by
    intro l
    induction l with
    | nil => exact fun s ↦ rfl
    | cons d l ih =>
      intro s
      rw [List.foldl_cons, ih, String.toList_append, List.length_append, toList_toString,
        Nat.toDigits_of_lt_base d.isLt, List.length_singleton, List.length_cons]
      omega
  rw [Imsi.text, hfold, List.length_ofFn]
  rfl

/-! ## Packed identifiers -/

/-- The four octets of an identifier in network order. -/
def teidOctets (t : UInt32) : List UInt8 :=
  [UInt8.ofNat (t.toNat / 2 ^ 24), UInt8.ofNat (t.toNat / 2 ^ 16 % 256),
    UInt8.ofNat (t.toNat / 2 ^ 8 % 256), UInt8.ofNat (t.toNat % 256)]

theorem be32_of_teidOctets {data : Memory} {base : ℕ} {t : UInt32}
    (h : data.Holds base (teidOctets t)) : data.be32 base = t := by
  have ht := t.toNat_lt
  simp only [teidOctets, Memory.holds_cons, Nat.add_assoc, Nat.reduceAdd] at h
  obtain ⟨h₀, h₁, h₂, h₃, -⟩ := h
  rw [Memory.be32, h₀, h₁, h₂, h₃]
  simp only [UInt8.toNat_ofNat']
  rw [show t.toNat / 2 ^ 24 % 2 ^ 8 * 2 ^ 24 + t.toNat / 2 ^ 16 % 256 % 2 ^ 8 * 2 ^ 16
      + t.toNat / 2 ^ 8 % 256 % 2 ^ 8 * 2 ^ 8 + t.toNat % 256 % 2 ^ 8 = t.toNat from by omega,
    UInt32.ofNat_toNat]

theorem length_teidOctets_lt (t : UInt32) : (teidOctets t).length < 2 ^ 16 := by
  rw [show (teidOctets t).length = 4 from rfl]
  norm_num

/-! ## Single elements -/

/-- The element that carries an IMSI. -/
def imsiElement (imsi : Imsi) : Element where
  entry := ⟨gtpv1IeImsi, 1, gtpv1ImsiLength⟩
  body := imsi.octets
  listed := by decide
  length_of_tv := fun _ ↦ rfl
  length_lt := by
    rw [show imsi.octets.length = 8 from rfl]
    norm_num

@[simp] theorem imsiElement_id (imsi : Imsi) : (imsiElement imsi).entry.id = gtpv1IeImsi := rfl

/-- The element that announces an identifier for the control plane. -/
def teidElement (teid : UInt32) : Element where
  entry := ⟨gtpv1IeTeiControlPlane, 1, 4⟩
  body := teidOctets teid
  listed := by decide
  length_of_tv := fun _ ↦ rfl
  length_lt := length_teidOctets_lt teid

@[simp] theorem teidElement_id (teid : UInt32) :
    (teidElement teid).entry.id = gtpv1IeTeiControlPlane := rfl

theorem endUserAddress_mem_listedElements :
    (⟨gtpv1IeEndUserAddress, 3, 0⟩ : InformationElement) ∈ listedElements := by decide

/-- The element that carries an IPv4 end user address: organisation, number and address. -/
def euaElement (a b c d : UInt8) : Element where
  entry := ⟨gtpv1IeEndUserAddress, 3, 0⟩
  body := [0xf1, 0x21, a, b, c, d]
  listed := endUserAddress_mem_listedElements
  length_of_tv := fun h ↦ absurd h (by decide)
  length_lt := by
    rw [show [0xf1, 0x21, a, b, c, d].length = 6 from rfl]
    norm_num

end DistributorMerger
