import KosKernel.Asn1Elements
import Mathlib.Data.Nat.Digits.Lemmas

/-! The DER form of an element, and when the parser reads exactly that form. -/
namespace KosKernel.X509
open ByteMemory

/-- The shortest form of a length: one octet below 128, otherwise the number of octets with the
top bit set, and the octets from the most significant one. -/
def lengthOctets (length : ℕ) : List ℕ :=
  if length < 128 then [length]
  else (128 + (Nat.digits 256 length).length) :: (Nat.digits 256 length).reverse

/-- The buffer begins with the encoding of the element, which lies inside it. -/
structure Encodes (m : Memory) (buffer bufferSize : ℕ) (elem : Asn1Element) : Prop where
  header : (bytesAt m buffer elem.headerLength).map BitVec.toNat =
    elem.tag.toNat :: lengthOctets elem.length
  constructed : elem.constructed = decide (elem.tag &&& 0x20 ≠ 0)
  data : elem.data = buffer + elem.headerLength
  inside : elem.headerLength + elem.length ≤ bufferSize

/-- The announced end of the element passes 2^32 and comes back inside the buffer. -/
def lengthWraps (m : Memory) (buffer bufferSize : ℕ) : Bool :=
  2 ≤ bufferSize && (asn1Length m buffer bufferSize).any fun header =>
    2 ^ 32 ≤ header.1 + header.2 && (header.1 + header.2) % 2 ^ 32 ≤ bufferSize

lemma foldl_octets (bytes : List Byte) :
    bytes.foldl (fun n b => n * 256 + b.toNat) 0 =
      Nat.ofDigits 256 (bytes.map BitVec.toNat).reverse := by
  rw [Nat.ofDigits_eq_foldr, List.foldr_reverse, List.foldl_map]
  simp only [Nat.cast_id, Nat.add_comm, Nat.mul_comm]

lemma digits_eq_octets_iff {length : ℕ} {bytes : List Byte} :
    bytes.map BitVec.toNat = (Nat.digits 256 length).reverse ↔
      bytes.foldl (fun n b => n * 256 + b.toNat) 0 = length ∧ bytes.head? ≠ some 0 := by
  rw [foldl_octets]
  constructor
  · intro h
    rw [h, List.reverse_reverse, Nat.ofDigits_digits]
    refine ⟨rfl, fun hzero => ?_⟩
    have hlast : (Nat.digits 256 length).getLast? = some 0 := by
      rw [← List.head?_reverse, ← h, List.head?_map, hzero]
      rfl
    obtain rfl | hne := eq_or_ne length 0
    · simp at hlast
    · rw [List.getLast?_eq_getLast_of_ne_nil (Nat.digits_ne_nil_iff_ne_zero.mpr hne)] at hlast
      exact Nat.getLast_digit_ne_zero 256 hne (Option.some.inj hlast)
  · rintro ⟨rfl, hhead⟩
    rw [Nat.digits_ofDigits 256 (by decide), List.reverse_reverse]
    · intro n hn
      obtain ⟨b, -, rfl⟩ := List.mem_map.mp (List.mem_reverse.mp hn)
      exact b.isLt
    · cases bytes with
      | nil => simp
      | cons b bytes =>
        intro _
        simpa [← BitVec.toNat_inj] using hhead

lemma asn1Length_eq_some_iff {m : Memory} {buffer bufferSize offset length : ℕ}
    (hsize : 2 ≤ bufferSize) : asn1Length m buffer bufferSize = some (offset, length) ↔
      offset ≤ bufferSize ∧ length < 2 ^ 32 ∧
        (bytesAt m buffer offset).map BitVec.toNat = (m buffer).toNat :: lengthOctets length := by
  have hbyte := (m (buffer + 1)).isLt
  constructor
  · intro h
    simp only [asn1Length] at h
    split_ifs at h with hshort hcount hfits hzero hlong
    · cases h
      simp only [lengthOctets, if_pos hshort]
      exact ⟨hsize, by omega, rfl⟩
    · obtain ⟨rfl, hlength⟩ := Prod.mk.inj (Option.some.inj h)
      obtain ⟨n, hn⟩ : ∃ n, (m (buffer + 1)).toNat % 128 = n + 1 :=
        Nat.exists_eq_succ_of_ne_zero (by omega)
      have hdigits := digits_eq_octets_iff.mpr
        ⟨hlength, by rw [hn, bytesAt_succ]; simpa using hzero⟩
      have hdigitCount := congrArg List.length hdigits
      simp only [List.length_map, length_bytesAt, List.length_reverse] at hdigitCount
      have hbound := (Nat.digits_length_le_iff (b := 256) (k := 4) (by decide) length).mp
        (by omega)
      refine ⟨by omega, hbound, ?_⟩
      rw [lengthOctets, if_neg (by omega), Nat.add_comm 2, bytesAt_succ, bytesAt_succ,
        List.map_cons, List.map_cons, hdigits, ← hdigitCount]
      congr 2
      omega
  · rintro ⟨hoffset, hbound, h⟩
    obtain ⟨k, rfl⟩ : ∃ k, offset = k + 1 := ⟨_, by simpa using congrArg List.length h⟩
    rw [bytesAt_succ, List.map_cons, List.cons.injEq, lengthOctets] at h
    have h := h.2
    split_ifs at h with hshort
    · obtain rfl : k = 1 := by simpa using congrArg List.length h
      simp only [bytesAt_succ, List.map_cons, List.cons.injEq] at h
      simp only [asn1Length, h.1, if_pos hshort]
    · obtain ⟨n, rfl⟩ : ∃ n, k = n + 1 := ⟨_, by simpa using congrArg List.length h⟩
      rw [bytesAt_succ, List.map_cons, List.cons.injEq] at h
      have hcount : n = (Nat.digits 256 length).length := by
        simpa using congrArg List.length h.2
      have hfour := (Nat.digits_length_le_iff (b := 256) (k := 4) (by decide) length).mpr hbound
      have hpos := List.length_pos_iff.mpr
        (Nat.digits_ne_nil_iff_ne_zero (b := 256) (n := length).mpr (by omega))
      obtain ⟨hvalue, hhead⟩ := digits_eq_octets_iff.mp h.2
      have hmod : (m (buffer + 1)).toNat % 128 = n := by omega
      have hzero : m (buffer + 2) ≠ 0 := by
        obtain ⟨j, rfl⟩ : ∃ j, n = j + 1 := Nat.exists_eq_succ_of_ne_zero (by omega)
        rw [bytesAt_succ] at hhead
        simpa using hhead
      simp only [asn1Length, hmod, if_neg hzero]
      rw [if_neg (by omega), if_neg (by omega), if_neg (by omega), hvalue, if_neg hshort,
        Nat.add_comm n 1, Nat.add_right_comm]

/-- The element whose header stands at the buffer, wherever its content ends. -/
def Announced (m : Memory) (buffer bufferSize : ℕ) (elem : Asn1Element) : Prop :=
  2 ≤ bufferSize ∧ asn1Length m buffer bufferSize = some (elem.headerLength, elem.length) ∧
    elem.tag = m buffer ∧ elem.constructed = decide (elem.tag &&& 0x20 ≠ 0) ∧
    elem.data = buffer + elem.headerLength

section
variable {m : Memory} {buffer bufferSize : ℕ} {elem : Asn1Element}

lemma asn1ParseElement_eq_some_iff (hbuffer : buffer ≠ 0) :
    asn1ParseElement m buffer bufferSize = some elem ↔ Announced m buffer bufferSize elem ∧
      (elem.headerLength + elem.length) % 2 ^ 32 ≤ bufferSize := by
  obtain ⟨tag, constructed, data, length, headerLength⟩ := elem
  simp only [asn1ParseElement, Announced]
  split_ifs with hsize
  · simp only [false_iff]
    omega
  · cases asn1Length m buffer bufferSize with
    | none => simp
    | some header =>
      simp only [Option.some.injEq]
      split_ifs with hpast
      · simp only [false_iff]
        rintro ⟨⟨-, h, -⟩, hle⟩
        subst h
        exact absurd hle (by simpa using hpast)
      · simp only [Option.some.injEq, Asn1Element.mk.injEq]
        constructor
        · rintro ⟨rfl, rfl, rfl, rfl, rfl⟩
          exact ⟨⟨by omega, rfl, rfl, rfl, rfl⟩, by omega⟩
        · rintro ⟨⟨-, rfl, rfl, hconstructed, rfl⟩, -⟩
          exact ⟨rfl, hconstructed.symm, rfl, rfl, rfl⟩

lemma encodes_iff (hsize : bufferSize < 2 ^ 32) : Encodes m buffer bufferSize elem ↔
    Announced m buffer bufferSize elem ∧ elem.headerLength + elem.length ≤ bufferSize := by
  constructor
  · rintro ⟨hheader, hconstructed, hdata, hinside⟩
    have hlength := congrArg List.length hheader
    have hne : lengthOctets elem.length ≠ [] := by
      unfold lengthOctets
      split_ifs <;> simp
    have hpos := List.length_pos_iff.mpr hne
    simp only [List.length_map, length_bytesAt, List.length_cons] at hlength
    have htag : elem.tag = m buffer := by
      rw [hlength, bytesAt_succ, List.map_cons, List.cons.injEq] at hheader
      exact (BitVec.eq_of_toNat_eq hheader.1).symm
    rw [htag] at hheader
    exact ⟨⟨by omega, (asn1Length_eq_some_iff (by omega)).mpr ⟨by omega, by omega, hheader⟩,
      htag, hconstructed, hdata⟩, hinside⟩
  · rintro ⟨⟨htwo, hlength, htag, hconstructed, hdata⟩, hinside⟩
    refine ⟨?_, hconstructed, hdata, hinside⟩
    rw [htag, ((asn1Length_eq_some_iff htwo).mp hlength).2.2]

end

theorem asn1ParseElement_der_iff (m : Memory) {buffer bufferSize : ℕ} (hbuffer : buffer ≠ 0)
    (hsize : bufferSize < 2 ^ 32) :
    (∀ elem, asn1ParseElement m buffer bufferSize = some elem ↔
      Encodes m buffer bufferSize elem) ↔ lengthWraps m buffer bufferSize = false := by
  simp only [asn1ParseElement_eq_some_iff hbuffer, encodes_iff hsize]
  constructor
  · intro h
    by_contra hwraps
    simp only [lengthWraps, Bool.not_eq_false, Bool.and_eq_true, decide_eq_true_eq,
      Option.any_eq_true] at hwraps
    obtain ⟨htwo, ⟨offset, length⟩, hlength, hpast, hle⟩ := hwraps
    have hinside := ((h ⟨m buffer, m buffer &&& 0x20 ≠ 0, buffer + offset, length, offset⟩).mp
      ⟨⟨htwo, hlength, rfl, by simp, rfl⟩, hle⟩).2
    dsimp only at hpast hinside
    omega
  · intro hwraps elem
    refine and_congr_right fun hannounced => ?_
    have hnot : ¬ (2 ^ 32 ≤ elem.headerLength + elem.length ∧
        (elem.headerLength + elem.length) % 2 ^ 32 ≤ bufferSize) := by
      simpa [lengthWraps, hannounced.1, hannounced.2.1] using hwraps
    omega

/-- A one-byte octet string. -/
theorem asn1ParseElement_der_sample :
    Encodes (loaded 1 [0x04, 0x01, 0x2A]) 1 3 ⟨0x04, false, 3, 1, 2⟩ :=
  ((asn1ParseElement_der_iff _ (by decide) (by decide)).mpr (by decide) _).mp (by decide +kernel)

/-- Six bytes announce a content of 2^32 - 4 bytes, whose end comes back to offset 2. -/
theorem wrapped_length_accepted :
    ∃ elem, asn1ParseElement (loaded 1 [0x04, 0x84, 0xFF, 0xFF, 0xFF, 0xFC]) 1 6 = some elem ∧
      6 < elem.headerLength + elem.length :=
  ⟨⟨0x04, false, 7, 2 ^ 32 - 4, 6⟩, by decide +kernel⟩

end KosKernel.X509
