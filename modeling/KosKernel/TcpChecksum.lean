import KosKernel.TcpState

/-! Which segments pass the checksum test of `net_tcp_receive`. -/
namespace KosKernel.Tcp
open BigEndian OnesComplement

variable (source destination : BitVec 32) {segment : List Byte}

def pseudoHeader (size : ℕ) : List ℕ :=
  [source.toNat / 65536, source.toNat % 65536, destination.toNat / 65536,
    destination.toNat % 65536, 6, size]

/-- The one's complement sum over pseudo-header and segment is all ones. -/
def ChecksumValid (segment : List Byte) : Prop :=
  foldCarries 2 ((pseudoHeader source destination segment.length).sum + wordSum segment) = 0xffff
  deriving Decidable

lemma toNat_joinU16 (a b : Byte) : (joinU16 a b).toNat = a.toNat * 256 + b.toNat := by
  have ha := a.isLt
  rw [joinU16, BitVec.toNat_or, BitVec.toNat_shiftLeft, BitVec.toNat_setWidth, BitVec.toNat_setWidth,
    Nat.mod_eq_of_lt (by omega), Nat.mod_eq_of_lt (by omega), Nat.shiftLeft_eq,
    Nat.mod_eq_of_lt (by omega), Nat.mul_comm, ← Nat.two_pow_add_eq_or_of_lt b.isLt]

/-- Clearing a field takes it out of the sum. -/
lemma wordSum_clear (k : ℕ) (xs : List Byte) : wordSum xs =
    wordSum ((xs.set (2 * k) 0).set (2 * k + 1) 0) + (readU16 xs (2 * k)).toNat := by
  rw [readU16, toNat_joinU16]
  induction k generalizing xs with
  | zero => rcases xs with _ | ⟨a, _ | ⟨b, rest⟩⟩ <;> simp [wordSum, Nat.add_comm]
  | succ k ih =>
    rcases xs with _ | ⟨a, _ | ⟨b, rest⟩⟩
    · simp
    · simp [Nat.mul_add]
    · have hrest := ih rest
      simp only [Nat.mul_add, wordSum, List.set_cons_succ, List.getD_cons_succ] at hrest ⊢
      omega

lemma total_bounds (h : segment.length ≤ 1480) :
    0 < (pseudoHeader source destination segment.length).sum + wordSum segment ∧
      (pseudoHeader source destination segment.length).sum + wordSum segment < 2 ^ 32 := by
  have := wordSum_le segment
  have := source.isLt
  have := destination.isLt
  simp only [pseudoHeader, List.sum_cons, List.sum_nil]
  omega

/-- The computed checksum completes the sum and is never zero. -/
lemma tcpChecksum_spec (h : segment.length ≤ 1480) :
    0 < (tcpChecksum source destination segment).toNat ∧
      ((pseudoHeader source destination segment.length).sum + wordSum segment +
        (tcpChecksum source destination segment).toNat) % 65535 = 0 := by
  obtain ⟨hpos, hlt⟩ := total_bounds source destination h
  have hchecksum : tcpChecksum source destination segment =
      let result := checksum ((pseudoHeader source destination segment.length).sum + wordSum segment)
      if result = 0 then 0xffff else result := by
    simp [tcpChecksum, pseudoHeader, Nat.mod_eq_of_lt (show segment.length < 65536 by omega),
      ← Nat.add_assoc]
  rw [hchecksum]
  generalize (pseudoHeader source destination segment.length).sum + wordSum segment = sum at *
  have hresult := toNat_checksum hlt
  have hmod := foldCarries_mod 2 sum
  have hfold := foldCarries_lt hlt
  have hfoldPos := foldCarries_pos 2 hpos
  dsimp only
  split_ifs with hzero
  · rw [hzero] at hresult
    change 0 = _ at hresult
    change 0 < 65535 ∧ (sum + 65535) % 65535 = 0
    omega
  · have hne : (checksum sum).toNat ≠ 0 := fun heq => hzero (BitVec.eq_of_toNat_eq heq)
    omega

/-- The test passes the segments with a valid checksum whose checksum field is not zero. -/
theorem checksum_test_exact_iff (packet : List Byte) (hsize : packet.length ≤ 1480) :
    (tcpChecksum source destination ((packet.set 16 0).set 17 0) = readU16 packet 16 ↔
      ChecksumValid source destination packet) ↔
        ¬(readU16 packet 16 = 0 ∧ ChecksumValid source destination packet) := by
  have hlen : ((packet.set 16 0).set 17 0).length = packet.length := by simp
  obtain ⟨hpos, hsum⟩ := tcpChecksum_spec source destination (hlen.trans_le hsize)
  obtain ⟨htotal, hlt⟩ := total_bounds source destination hsize
  have hclear : wordSum packet = wordSum ((packet.set 16 0).set 17 0) + (readU16 packet 16).toNat :=
    wordSum_clear 8 packet
  have hfold := foldCarries_lt hlt
  have hmod := foldCarries_mod 2
    ((pseudoHeader source destination packet.length).sum + wordSum packet)
  have hfoldPos := foldCarries_pos 2 htotal
  have hfield : readU16 packet 16 = 0 ↔ (readU16 packet 16).toNat = 0 :=
    (BitVec.toNat_inj (y := 0)).symm
  have hle := (readU16 packet 16).isLt
  have hle' := (tcpChecksum source destination ((packet.set 16 0).set 17 0)).isLt
  rw [ChecksumValid, hfield, ← BitVec.toNat_inj]
  rw [hlen] at hsum
  omega

def zeroField : List Byte := List.replicate 12 0 ++ 0x50 :: List.replicate 7 0

/-- A bare header from 10.0.0.2 to 10.0.0.1 with its checksum. -/
def filledField : List Byte := (zeroField.set 16 0x9b).set 17 0xe2

theorem checksum_test_exact_sample :
    readU16 filledField 16 = 0x9be2 ∧
      (tcpChecksum 0x0a000002 0x0a000001 ((filledField.set 16 0).set 17 0) =
        readU16 filledField 16 ↔ ChecksumValid 0x0a000002 0x0a000001 filledField) ∧
      ChecksumValid 0x0a000002 0x0a000001 filledField :=
  ⟨by decide, (checksum_test_exact_iff 0x0a000002 0x0a000001 filledField (by decide)).mpr
    (by decide), by decide⟩

/-- The sum is all ones with a checksum field of zero, but the segment is dropped. -/
theorem zero_field_dropped :
    ChecksumValid 0xafe5 0 zeroField ∧ parseSegment 0xafe5 0 zeroField = none := by
  decide

end KosKernel.Tcp
