import KosKernel.Ipv4State
import Mathlib.Tactic.IntervalCases

/-! What `net_ipv4_receive` reads in the packets that `net_ipv4_send_from` emits. -/
namespace KosKernel.Ipv4
open BigEndian OnesComplement Nat List

section
variable (key : DatagramKey) (flags : BitVec 16) (size : ℕ)

lemma header_length (checksum : BitVec 16) : (header key flags size checksum).length = 20 :=
  rfl

lemma wordSum_header (checksum : BitVec 16) :
    wordSum (header key flags size checksum) =
      wordSum (header key flags size 0) + checksum.toNat := by
  have hsplit (c : BitVec 16) : header key flags size c =
      ([0x45, 0] ++ u16Bytes (BitVec.ofNat 16 (headerSize + size)) ++
        u16Bytes key.identification ++ u16Bytes flags ++ [defaultTtl, key.protocol]) ++
        (u16Bytes c ++ (u32Bytes key.source ++ u32Bytes key.destination)) := by
    simp [header]
  have heven (c : BitVec 16) : (u16Bytes c).length % 2 = 0 := by simp [u16Bytes]
  rw [hsplit checksum, hsplit 0, wordSum_append _ (u16Bytes checksum ++ _) (by simp [u16Bytes]),
    wordSum_append _ (u16Bytes 0 ++ _) (by simp [u16Bytes]), wordSum_append _ _ (heven checksum),
    wordSum_append _ _ (heven 0), wordSum_u16Bytes, wordSum_u16Bytes]
  simp only [BitVec.ofNat_eq_ofNat, BitVec.toNat_ofNat, zero_mod]
  omega

lemma checksum_header :
    ipv4Checksum (header key flags size (ipv4Checksum (header key flags size 0))) =
      0 := by
  have hle := wordSum_le (header key flags size 0)
  rw [header_length] at hle
  have hpos : 0 < wordSum (header key flags size 0) := by
    simp [header, wordSum]
  rw [ipv4Checksum, wordSum_header]
  exact checksum_add_checksum hpos (by omega)

end

section
variable {interface : Interface} {key : DatagramKey} {flags : BitVec 16} {chunk : List Byte}
  {packet : List Byte}

/-- A packet as it comes off the wire, without what the frame was padded with. -/
def unpadded (packet : List Byte) : List Byte := packet.take (readU16 packet 2).toNat

lemma emitFragment_length : (emitFragment key flags chunk).length = 20 + chunk.length := by
  rw [emitFragment, length_append, header_length]

variable (key flags chunk) in
lemma emitFragment_fields (rest : List Byte) :
    (emitFragment key flags chunk ++ rest).getD 0 0 = 0x45 ∧
      readU16 (emitFragment key flags chunk ++ rest) 2 =
        BitVec.ofNat 16 (headerSize + chunk.length) ∧
      readU16 (emitFragment key flags chunk ++ rest) 4 = key.identification ∧
      readU16 (emitFragment key flags chunk ++ rest) 6 = flags ∧
      (emitFragment key flags chunk ++ rest).getD 9 0 = key.protocol ∧
      readU32 (emitFragment key flags chunk ++ rest) 12 = key.source ∧
      readU32 (emitFragment key flags chunk ++ rest) 16 = key.destination := by
  simp [emitFragment, header, readU16, readU32, u16Bytes, u32Bytes]

lemma emitFragment_of_unpadded (h : unpadded packet = emitFragment key flags chunk) :
    ∃ rest, packet = emitFragment key flags chunk ++ rest :=
  ⟨packet.drop (readU16 packet 2).toNat, by rw [← h, unpadded, take_append_drop]⟩

lemma classify_emitFragment (haccepts : accepts interface key.destination key.protocol = true)
    (hchunk : chunk.length ≤ maxFragmentPayload)
    (hfrag : ¬((flags &&& 0x2000 != 0) = false ∧
      ((flags &&& 0x1fff) * 8).toNat = 0))
    (h : unpadded packet = emitFragment key flags chunk) :
    classify interface packet =
      .fragment ⟨key, ((flags &&& 0x1fff) * 8).toNat, flags &&& 0x2000 != 0, chunk⟩ := by
  obtain ⟨rest, rfl⟩ := emitFragment_of_unpadded h
  obtain ⟨hversion, htotal, hid, hflags, hprotocol, hsrc, hdest⟩ :=
    emitFragment_fields key flags chunk rest
  have hsize : (readU16 (emitFragment key flags chunk ++ rest) 2).toNat =
      20 + chunk.length := by
    simp only [maxFragmentPayload] at hchunk
    rw [htotal, BitVec.toNat_ofNat, headerSize]
    omega
  have hhead : (emitFragment key flags chunk ++ rest).take 20 =
      header key flags chunk.length
        (ipv4Checksum (header key flags chunk.length 0)) := by
    rw [emitFragment, append_assoc]
    exact take_left' rfl
  have hnibble : (((emitFragment key flags chunk ++ rest).getD 0 0) &&& 0x0f).toNat * 4 =
      20 := by
    rw [hversion]
    rfl
  have hlen : (emitFragment key flags chunk ++ rest).length =
      20 + chunk.length + rest.length := by
    rw [length_append, emitFragment_length]
  have hvalid : headerValid (emitFragment key flags chunk ++ rest) = true := by
    simp only [headerValid, hnibble, hsize, hhead, checksum_header, headerSize]
    have hle : 20 ≤ 20 + chunk.length + rest.length := by omega
    rw [hversion, hlen]
    simp [hle]
  have hpayload : ((emitFragment key flags chunk ++ rest).take (20 + chunk.length)).drop 20 =
      chunk := by
    rw [take_left' emitFragment_length, emitFragment]
    exact drop_left' rfl
  simp only [classify, hvalid, hnibble, hsize, hid, hflags, hprotocol, hsrc, hdest,
    haccepts, hpayload]
  rw [if_neg (by simp), if_neg (by simp), if_neg hfrag]

end

variable (key : DatagramKey) (payload : List Byte)

def pieceCount : ℕ := (payload.length + (maxFragmentPayload - 1)) / maxFragmentPayload

def pieceChunk (k : ℕ) : List Byte :=
  (payload.drop (maxFragmentPayload * k)).take maxFragmentPayload

def pieceFlags (k : ℕ) : BitVec 16 :=
  (if payload.length ≤ maxFragmentPayload * k + (pieceChunk payload k).length then 0 else 0x2000) |||
    (BitVec.ofNat 16 (maxFragmentPayload * k / 8) &&& 0x1fff)

def piece (k : ℕ) : List Byte := emitFragment key (pieceFlags payload k) (pieceChunk payload k)

def pieceFragment (k : ℕ) : Fragment :=
  ⟨key, maxFragmentPayload * k, decide (k + 1 < pieceCount payload), pieceChunk payload k⟩

variable {payload} {k : ℕ}

lemma lt_pieceCount : k < pieceCount payload ↔ maxFragmentPayload * k < payload.length := by
  rw [pieceCount, lt_div_iff_mul_lt (by decide), maxFragmentPayload]
  omega

lemma pieceChunk_length :
    (pieceChunk payload k).length =
      min maxFragmentPayload (payload.length - maxFragmentPayload * k) := by
  rw [pieceChunk, length_take, length_drop]

lemma pieceChunk_end (hk : maxFragmentPayload * k < payload.length) :
    maxFragmentPayload * k + (pieceChunk payload k).length =
      min (maxFragmentPayload * (k + 1)) payload.length := by
  rw [pieceChunk_length, mul_succ]
  omega

lemma sendFragments_piece (transmits : List Byte → Bool) (fuel : ℕ)
    (hk : maxFragmentPayload * k < payload.length) :
    sendFragments transmits key payload (fuel + 1) (maxFragmentPayload * k) =
      if transmits (piece key payload k) = false then (false, [])
      else
        let next := sendFragments transmits key payload fuel
          (min (maxFragmentPayload * (k + 1)) payload.length)
        (next.1, piece key payload k :: next.2) := by
  rw [sendFragments, if_neg (by omega), ← pieceChunk_end hk]
  simp only [ge_iff_le, decide_eq_true_eq]
  rfl

lemma sendFragments_packets {transmits : List Byte → Bool} {packets : List (List Byte)} {fuel : ℕ}
    (hk : k ≤ pieceCount payload) (hfuel : payload.length ≤ fuel + maxFragmentPayload * k)
    (h : sendFragments transmits key payload fuel (min (maxFragmentPayload * k) payload.length) =
      (true, packets)) :
    packets = (List.range' k (pieceCount payload - k)).map (piece key payload) := by
  induction fuel generalizing k packets with
  | zero =>
    have hend : ¬k < pieceCount payload := by
      rw [lt_pieceCount]
      omega
    rw [show pieceCount payload - k = 0 by omega]
    exact (congrArg Prod.snd h).symm
  | succ fuel ih =>
    by_cases hlast : k < pieceCount payload
    · have hlt := lt_pieceCount.mp hlast
      rw [min_eq_left hlt.le, sendFragments_piece key transmits fuel hlt] at h
      split at h
      · cases h
      obtain ⟨hsent, rfl⟩ := Prod.mk.inj h
      have hfuel' : payload.length ≤ fuel + maxFragmentPayload * (k + 1) := by
        rw [maxFragmentPayload] at *
        omega
      rw [show pieceCount payload - k = pieceCount payload - (k + 1) + 1 by omega,
        range'_succ, map_cons, ← ih hlast hfuel' (Prod.ext hsent rfl)]
    · rw [show pieceCount payload - k = 0 by omega]
      rw [lt_pieceCount] at hlast
      rw [sendFragments, if_pos (by omega)] at h
      exact (congrArg Prod.snd h).symm

lemma flags_mask (c x : BitVec 16) (hc : c &&& 0x1fff = 0) :
    (c ||| (x &&& 0x1fff)) &&& 0x1fff = x &&& 0x1fff ∧
      (c ||| (x &&& 0x1fff)) &&& 0x2000 = c &&& 0x2000 := by
  rw [BitVec.and_or_distrib_right, BitVec.and_or_distrib_right, hc, BitVec.and_assoc,
    BitVec.and_assoc]
  exact ⟨by simp, by simp⟩

lemma toNat_fragmentOffset (hk : maxFragmentPayload * k < 65536) :
    (((BitVec.ofNat 16 (maxFragmentPayload * k / 8)) &&& 0x1fff) * 8).toNat =
      maxFragmentPayload * k := by
  rw [BitVec.toNat_mul, BitVec.toNat_and, BitVec.toNat_ofNat,
    show (0x1fff : BitVec 16).toNat = 2 ^ 13 - 1 from rfl, and_two_pow_sub_one_eq_mod,
    show (8 : BitVec 16).toNat = 8 from rfl]
  rw [maxFragmentPayload] at *
  omega

lemma classify_piece {interface : Interface} {packet : List Byte}
    (haccepts : accepts interface key.destination key.protocol = true)
    (hlow : maxFragmentPayload < payload.length) (hhigh : payload.length < 65536)
    (hk : k < pieceCount payload) (h : unpadded packet = piece key payload k) :
    classify interface packet = .fragment (pieceFragment key payload k) := by
  have hlt := lt_pieceCount.mp hk
  have hchunk : (pieceChunk payload k).length ≤ maxFragmentPayload := by
    rw [pieceChunk_length]
    exact min_le_left _ _
  have hclear : (if payload.length ≤ maxFragmentPayload * k + (pieceChunk payload k).length then
      (0 : BitVec 16) else 0x2000) &&& 0x1fff = 0 := by
    split <;> rfl
  obtain ⟨hoff, hmore⟩ := flags_mask _ (BitVec.ofNat 16 (maxFragmentPayload * k / 8)) hclear
  have hoffset' : ((pieceFlags payload k &&& 0x1fff) * 8).toNat = maxFragmentPayload * k := by
    rw [pieceFlags, hoff, toNat_fragmentOffset (by omega)]
  have hmore' : (pieceFlags payload k &&& 0x2000 != 0) = decide (k + 1 < pieceCount payload) := by
    rw [pieceFlags, hmore, pieceChunk_end hlt]
    have hlast := @lt_pieceCount payload (k + 1)
    by_cases hend : payload.length ≤ maxFragmentPayload * (k + 1)
    · rw [if_pos (by omega), decide_eq_false (by omega)]
      rfl
    · rw [if_neg (by omega), decide_eq_true (by omega)]
      rfl
  have hfrag : ¬((pieceFlags payload k &&& 0x2000 != 0) = false ∧
      ((pieceFlags payload k &&& 0x1fff) * 8).toNat = 0) := by
    rw [hoffset', hmore', decide_eq_false_iff_not, lt_pieceCount]
    rw [maxFragmentPayload] at *
    omega
  rw [classify_emitFragment haccepts hchunk hfrag h, hoffset', hmore', pieceFragment]

end KosKernel.Ipv4
