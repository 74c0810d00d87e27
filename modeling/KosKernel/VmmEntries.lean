import KosKernel.VmmState

/-! Page-table entries: what the bits of the entries written by the manager say. -/
namespace KosKernel.Vmm
open BitWords BitVec

section
variable (x y : BitVec 64) {m b : BitVec 64}

lemma has_or (b : BitVec 64) : has (x ||| y) b = (has x b || has y b) := by
  rw [Bool.eq_iff_iff]
  simp only [has, and_or_distrib_right, bne_iff_ne, ne_eq, or_eq_zero_iff, Bool.or_eq_true]
  tauto

@[simp] lemma has_zero (b : BitVec 64) : has 0#64 b = false := by simp [has]

lemma has_and_of_disjoint (h : m &&& b = 0#64) : has (x &&& m) b = false := by
  simp [has, BitVec.and_assoc, h]

lemma has_and_of_subset (h : m &&& b = b) : has (x &&& m) b = has x b := by
  simp [has, BitVec.and_assoc, h]

lemma has_bit {k : ℕ} (hk : k < 64) : has x (1#64 <<< k) = x.getLsbD k := by
  rw [Bool.eq_iff_iff, ← and_one_shiftLeft_ne_zero x hk]
  simp [has]

lemma hasAll_pair {j k : ℕ} (hj : j < 64) (hk : k < 64) :
    hasAll x (1#64 <<< j ||| 1#64 <<< k) = (has x (1#64 <<< j) && has x (1#64 <<< k)) := by
  rw [has_bit x hj, has_bit x hk, Bool.eq_iff_iff]
  simp only [hasAll, beq_iff_eq, Bool.and_eq_true]
  constructor
  · intro h
    have hbit : ∀ i, (x &&& (1#64 <<< j ||| 1#64 <<< k)).getLsbD i =
        (1#64 <<< j ||| 1#64 <<< k).getLsbD i := fun i => by rw [h]
    have h1 := hbit j
    have h2 := hbit k
    simp only [getLsbD_and, getLsbD_or, getLsbD_one_shiftLeft hj, getLsbD_one_shiftLeft hk] at h1 h2
    exact ⟨by simpa using h1, by simpa using h2⟩
  · intro ⟨h1, h2⟩
    apply eq_of_getLsbD_eq
    intro i hi
    simp only [getLsbD_and, getLsbD_or, getLsbD_one_shiftLeft hi]
    by_cases hij : i = j
    · simp [hij, h1]
    · by_cases hik : i = k
      · simp [hik, h2]
      · simp [hij, hik]

lemma or_bit_of_has {k : ℕ} (hk : k < 64) (h : has x (1#64 <<< k) = true) :
    x ||| 1#64 <<< k = x := by
  rw [has_bit x hk] at h
  apply eq_of_getLsbD_eq
  intro i hi
  rw [getLsbD_or, getLsbD_one_shiftLeft hi]
  by_cases hik : i = k
  · simp [hik, h]
  · simp [hik]

end

variable {b : BitVec 64}

section
variable {a : ℕ}

lemma and_addressMask (halign : a % pageSize = 0) (hlt : a < 2 ^ 52) :
    BitVec.ofNat 64 a &&& pageAddressMask = BitVec.ofNat 64 a := by
  obtain ⟨k, rfl⟩ : ∃ k, a = k <<< 12 :=
    ⟨a / 2 ^ 12, by rw [Nat.shiftLeft_eq]; unfold pageSize at halign; omega⟩
  have hk : k < 2 ^ 40 := by
    rw [Nat.shiftLeft_eq] at hlt
    omega
  have hmask : pageAddressMask = BitVec.ofNat 64 ((2 ^ 40 - 1) <<< 12) := by decide
  rw [hmask, ← BitVec.ofNat_and, ← Nat.shiftLeft_and_distrib, Nat.and_two_pow_sub_one_eq_mod,
    Nat.mod_eq_of_lt hk]

lemma toNat_ofNat_address (hlt : a < 2 ^ 52) : (BitVec.ofNat 64 a).toNat = a := by
  rw [BitVec.toNat_ofNat]
  exact Nat.mod_eq_of_lt (by omega)

lemma entryAddress_or (halign : a % pageSize = 0) (hlt : a < 2 ^ 52) {c : BitVec 64}
    (hc : c &&& pageAddressMask = 0#64) : entryAddress (BitVec.ofNat 64 a ||| c) = a := by
  rw [entryAddress, BitVec.and_or_distrib_right, hc, and_addressMask halign hlt, BitVec.or_zero,
    toNat_ofNat_address hlt]

lemma has_address_or (halign : a % pageSize = 0) (hlt : a < 2 ^ 52) {c : BitVec 64}
    (hb : pageAddressMask &&& b = 0#64) : has (BitVec.ofNat 64 a ||| c) b = has c b := by
  rw [has_or, ← and_addressMask halign hlt, has_and_of_disjoint _ hb, Bool.false_or]

lemma entryAddress_aligned (e : BitVec 64) : entryAddress e % pageSize = 0 := by
  have hmask : pageAddressMask.toNat % 2 ^ 12 = 0 := by decide
  rw [entryAddress, toNat_and, show pageSize = 2 ^ 12 from rfl, Nat.and_mod_two_pow, hmask,
    Nat.and_zero]

lemma or_offset {r : ℕ} (ha : a % pageSize = 0) (hr : r < pageSize) : a ||| r = a + r := by
  obtain ⟨k, rfl⟩ : ∃ k, a = 2 ^ 12 * k := ⟨a / 2 ^ 12, by unfold pageSize at ha; omega⟩
  exact (Nat.two_pow_add_eq_or_of_lt hr k).symm

end

/-- Where an entry of a table leads: present entries that are not large pages. -/
def pageNext (entry : BitVec 64) : Option ℕ :=
  if has entry pagePresent && !has entry pageHuge then some (entryAddress entry) else none

@[simp] lemma pageNext_zero : pageNext 0#64 = none := by decide

/-- An entry for a table of the user half: it lets everything through that the leaf allows. -/
structure UserTable (entry : BitVec 64) : Prop where
  present : has entry pagePresent = true
  writable : has entry vmmPageWritable = true
  user : has entry vmmPageUser = true
  owned : has entry pageKosOwnedTable = true
  small : has entry pageHuge = false
  executable : has entry vmmPageNoExecute = false

/-- An entry for a page mapped by the manager. -/
structure UserLeaf (entry : BitVec 64) : Prop where
  present : has entry pagePresent = true
  owned : has entry pageKosOwnedMapping = true
  small : has entry pageHuge = false

variable {e : BitVec 64}

lemma pageNext_of_small (hp : has e pagePresent = true) (hs : has e pageHuge = false) :
    pageNext e = some (entryAddress e) := by
  simp [pageNext, hp, hs]

lemma pageNext_of_absent (hp : has e pagePresent = false) : pageNext e = none := by
  simp [pageNext, hp]

lemma ne_zero_of_has (h : has e b = true) : e ≠ 0#64 := by
  intro hz
  simp [hz] at h

lemma UserTable.ne_zero (h : UserTable e) : e ≠ 0#64 := ne_zero_of_has h.present

lemma UserLeaf.ne_zero (h : UserLeaf e) : e ≠ 0#64 := ne_zero_of_has h.present

lemma UserTable.next (h : UserTable e) : pageNext e = some (entryAddress e) :=
  pageNext_of_small h.present h.small

lemma UserLeaf.next (h : UserLeaf e) : pageNext e = some (entryAddress e) :=
  pageNext_of_small h.present h.small

lemma hasAll_ownedTable (e : BitVec 64) :
    hasAll e (pagePresent ||| pageKosOwnedTable) = (has e pagePresent && has e pageKosOwnedTable) :=
  hasAll_pair e (by norm_num) (by norm_num)

lemma hasAll_ownedMapping (e : BitVec 64) :
    hasAll e (pagePresent ||| pageKosOwnedMapping) =
      (has e pagePresent && has e pageKosOwnedMapping) :=
  hasAll_pair e (by norm_num) (by norm_num)

lemma tableEntry_eq (frame : ℕ) (isUser : Bool) :
    tableEntry frame isUser = BitVec.ofNat 64 frame |||
      (pagePresent ||| vmmPageWritable ||| pageKosOwnedTable |||
        (if isUser then vmmPageUser else 0#64)) := by
  cases isUser <;> simp [tableEntry, BitVec.or_assoc]

section
variable {frame : ℕ} (halign : frame % pageSize = 0) (hlt : frame < 2 ^ 52)
include halign hlt

lemma entryAddress_tableEntry (isUser : Bool) : entryAddress (tableEntry frame isUser) = frame := by
  rw [tableEntry_eq]
  apply entryAddress_or halign hlt
  cases isUser <;> decide

lemma tableEntry_next (isUser : Bool) : pageNext (tableEntry frame isUser) = some frame := by
  rw [pageNext_of_small, entryAddress_tableEntry halign hlt]
  · rw [tableEntry_eq, has_address_or halign hlt (by decide)]
    cases isUser <;> decide
  · rw [tableEntry_eq, has_address_or halign hlt (by decide)]
    cases isUser <;> decide

lemma tableEntry_user : UserTable (tableEntry frame true) := by
  rw [tableEntry_eq]
  constructor
  all_goals
    rw [has_address_or halign hlt (by decide)]
    decide

variable {flags : BitVec 64} (hflags : has flags (~~~permissionBits) = false)
include hflags

omit halign hlt in
lemma flags_eq : flags = flags &&& permissionBits := by
  have hzero : flags &&& ~~~permissionBits = 0#64 := by simpa [has] using hflags
  calc flags = flags &&& (permissionBits ||| ~~~permissionBits) := by
        rw [show permissionBits ||| ~~~permissionBits = allOnes 64 by decide, and_allOnes]
    _ = flags &&& permissionBits := by rw [and_or_distrib_left, hzero, or_zero]

lemma has_leafEntry (hb : pageAddressMask &&& b = 0#64) : has (leafEntry frame flags) b =
      (has (pagePresent ||| pageKosOwnedMapping) b || has (flags &&& permissionBits) b) := by
  rw [leafEntry, ← flags_eq hflags, and_addressMask halign hlt, BitVec.or_assoc, BitVec.or_assoc,
    has_address_or halign hlt hb, ← BitVec.or_assoc, has_or]

lemma leafEntry_leaf : UserLeaf (leafEntry frame flags) := by
  have hhuge : has (flags &&& permissionBits) pageHuge = false :=
    has_and_of_disjoint flags (by decide)
  constructor
  · rw [has_leafEntry halign hlt hflags (by decide)]
    exact Bool.or_eq_true_iff.mpr (.inl (by decide))
  · rw [has_leafEntry halign hlt hflags (by decide)]
    exact Bool.or_eq_true_iff.mpr (.inl (by decide))
  · rw [has_leafEntry halign hlt hflags (by decide), hhuge]
    decide

lemma entryAddress_leafEntry : entryAddress (leafEntry frame flags) = frame := by
  have hc : (pagePresent ||| (pageKosOwnedMapping ||| flags)) &&& pageAddressMask = 0#64 := by
    rw [flags_eq hflags, BitVec.and_or_distrib_right, BitVec.and_or_distrib_right,
      BitVec.and_assoc flags, show permissionBits &&& pageAddressMask = 0#64 by decide,
      BitVec.and_zero]
    decide
  rw [leafEntry, and_addressMask halign hlt, BitVec.or_assoc, BitVec.or_assoc]
  exact entryAddress_or halign hlt hc

lemma has_leafEntry_permission (hb : permissionBits &&& b = b)
    (hdisj : (pagePresent ||| pageKosOwnedMapping) &&& b = 0#64)
    (hmask : pageAddressMask &&& b = 0#64) : has (leafEntry frame flags) b = has flags b := by
  rw [has_leafEntry halign hlt hflags hmask, has_and_of_subset flags hb]
  simp [has, hdisj]

end

variable {parent : BitVec 64} (e : BitVec 64)

/-- The tables of the user half do not restrict what a leaf allows. -/
lemma combineEffectiveFlags_userTable (h : UserTable parent) :
    combineEffectiveFlags parent e = e := by
  simp [combineEffectiveFlags, h.writable, h.user, h.executable]

lemma has_publicPageFlags (hb : ~~~(pageKosOwnedTable ||| pageKosOwnedMapping) &&& b = b) :
    has (publicPageFlags e) b = has e b :=
  has_and_of_subset e hb

end KosKernel.Vmm
