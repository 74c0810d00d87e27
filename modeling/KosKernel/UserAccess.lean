import Mathlib

/-! The user memory helpers of `kernel/uaccess.c`. Each returns, with its result, the accesses
that it makes to user memory. -/
namespace KosKernel.Syscall
open BitVec

def userSpaceMax : BitVec 64 := 0x00007FFFFFFFFFFF#64

def errno (code : ℕ) : BitVec 64 := -BitVec.ofNat 64 code

def EFAULT : ℕ := 14

abbrev UserMemory := BitVec 64 → BitVec 8

/-- A run of user bytes, and where in which kernel buffer they go to or come from. -/
structure Access where
  address : BitVec 64
  length : ℕ
  offset : ℕ
  buffer : ℕ
  deriving DecidableEq

def accessOk (addr size : BitVec 64) : Bool :=
  if size = 0#64 then true
  else if addr = 0#64 then false
  else if addr + size < addr then false
  else if addr + size - 1#64 > userSpaceMax then false
  else true

def readBytes (memory : UserMemory) (addr : BitVec 64) (length : ℕ) : List (BitVec 8) :=
  (List.range length).map fun i => memory (addr + BitVec.ofNat 64 i)

def writeBytes (memory : UserMemory) (addr : BitVec 64) (bytes : List (BitVec 8)) : UserMemory :=
  fun a => bytes.getD (a - addr).toNat (memory a)

/-- The kernel buffer is given by its size, a null pointer by `none`; the result is `none` for
-EFAULT. -/
def copyFromUser (memory : UserMemory) (dst : Option ℕ) (src size : BitVec 64) :
    Option (List (BitVec 8)) × List Access :=
  if size = 0#64 then (some [], [])
  else
    match dst with
    | none => (none, [])
    | some buffer =>
      if accessOk src size = false then (none, [])
      else (some (readBytes memory src size.toNat), [⟨src, size.toNat, 0, buffer⟩])

def copyToUser (memory : UserMemory) (dst : BitVec 64) (src : Option ℕ)
    (bytes : List (BitVec 8)) (size : BitVec 64) : Option UserMemory × List Access :=
  if size = 0#64 then (some memory, [])
  else
    match src with
    | none => (none, [])
    | some buffer =>
      if accessOk dst size = false then (none, [])
      else (some (writeBytes memory dst (bytes.take size.toNat)), [⟨dst, size.toNat, 0, buffer⟩])

/-- The loop of `strncpy_from_user`, from the character at `i` on. -/
def strncpyLoop (memory : UserMemory) (buffer : ℕ) (src : BitVec 64) :
    (left i : ℕ) → BitVec 64 × List (BitVec 8) × List Access
  | 0, i => (BitVec.ofNat 64 i, [], [])
  | left + 1, i =>
    let curr := src + BitVec.ofNat 64 i
    if curr > userSpaceMax then (errno EFAULT, [], [])
    else if memory curr = 0#8 then
      (BitVec.ofNat 64 (i + 1), [memory curr], [⟨curr, 1, i, buffer⟩])
    else
      match strncpyLoop memory buffer src left (i + 1) with
      | (result, bytes, accesses) =>
        (result, memory curr :: bytes, ⟨curr, 1, i, buffer⟩ :: accesses)

def strncpyFromUser (memory : UserMemory) (dst : Option ℕ) (src : BitVec 64) (count : ℕ) :
    BitVec 64 × List (BitVec 8) × List Access :=
  if count = 0 then (0#64, [], [])
  else
    match dst with
    | none => (errno EFAULT, [], [])
    | some buffer =>
      if accessOk src 1#64 = false then (errno EFAULT, [], [])
      else strncpyLoop memory buffer src count 0

def maxUserString : ℕ := 4096

/-- The loop of `strlen_user`; each character is read into a register. -/
def strlenLoop (memory : UserMemory) (src : BitVec 64) : (left len : ℕ) → BitVec 64 × List Access
  | 0, _ => (errno EFAULT, [])
  | left + 1, len =>
    let curr := src + BitVec.ofNat 64 len
    if curr > userSpaceMax then (errno EFAULT, [])
    else if memory curr = 0#8 then (BitVec.ofNat 64 len, [⟨curr, 1, 0, 1⟩])
    else
      match strlenLoop memory src left (len + 1) with
      | (result, accesses) => (result, ⟨curr, 1, 0, 1⟩ :: accesses)

def strlenUser (memory : UserMemory) (src : BitVec 64) : BitVec 64 × List Access :=
  if accessOk src 1#64 = false then (errno EFAULT, [])
  else strlenLoop memory src maxUserString 0

/-- All bytes lie in user space, and the access ends before the address wraps around. -/
structure Access.Confined (a : Access) : Prop where
  low : 1 ≤ a.address.toNat
  high : a.address.toNat + a.length ≤ userSpaceMax.toNat + 1

def Access.Fits (a : Access) : Prop := a.offset + a.length ≤ a.buffer

/-- Confined in any case, and within the kernel buffer if what is given holds. -/
def Access.Sound (given : Prop) (a : Access) : Prop := a.Confined ∧ (given → a.Fits)

variable {given : Prop}

variable {size src : BitVec 64} {buffer : ℕ} {memory : UserMemory}

lemma accessOk_spec {addr : BitVec 64} (h : accessOk addr size = true) (hsize : size ≠ 0#64) :
    1 ≤ addr.toNat ∧ addr.toNat + size.toNat ≤ userSpaceMax.toNat + 1 := by
  unfold accessOk at h
  rw [if_neg hsize] at h
  split_ifs at h with hnull hwrap hmax
  have hnull : addr.toNat ≠ 0 := fun h0 => hnull (eq_of_toNat_eq h0)
  have hsize : size.toNat ≠ 0 := fun h0 => hsize (eq_of_toNat_eq h0)
  have hmaxval : userSpaceMax.toNat = 0x00007FFFFFFFFFFF := rfl
  rw [lt_def, toNat_add] at hwrap
  rw [gt_iff_lt, lt_def, toNat_sub, toNat_add, toNat_ofNat] at hmax
  have := addr.isLt
  have := size.isLt
  omega

lemma checked_sound {addr : BitVec 64} (hok : accessOk addr size = true) (hsize : size ≠ 0#64)
    (hfits : given → size.toNat ≤ buffer) : Access.Sound given ⟨addr, size.toNat, 0, buffer⟩ := by
  obtain ⟨hlow, hhigh⟩ := accessOk_spec hok hsize
  refine ⟨⟨hlow, hhigh⟩, ?_⟩
  intro hgiven
  rw [Access.Fits, Nat.zero_add]
  exact hfits hgiven

lemma copyFromUser_confined (hfits : given → size.toNat ≤ buffer) :
    ∀ a ∈ (copyFromUser memory (some buffer) src size).2, a.Sound given := by
  intro a ha
  unfold copyFromUser at ha
  split_ifs at ha with hzero hok
  · cases ha
  · cases ha
  · cases List.mem_singleton.mp ha
    exact checked_sound (Bool.of_not_eq_false hok) hzero hfits

lemma copyToUser_confined {bytes : List (BitVec 8)} {dst : BitVec 64}
    (hfits : given → size.toNat ≤ buffer) :
    ∀ a ∈ (copyToUser memory dst (some buffer) bytes size).2, a.Sound given := by
  intro a ha
  unfold copyToUser at ha
  split_ifs at ha with hzero hok
  · cases ha
  · cases ha
  · cases List.mem_singleton.mp ha
    exact checked_sound (Bool.of_not_eq_false hok) hzero hfits

lemma character_confined {i : ℕ} (hlow : 1 ≤ src.toNat)
    (hhigh : src.toNat + i ≤ userSpaceMax.toNat + 1)
    (hcurr : ¬src + BitVec.ofNat 64 i > userSpaceMax) :
    1 ≤ (src + BitVec.ofNat 64 i).toNat ∧
      (src + BitVec.ofNat 64 i).toNat + 1 ≤ userSpaceMax.toNat + 1 ∧
      src.toNat + (i + 1) ≤ userSpaceMax.toNat + 1 := by
  have hmaxval : userSpaceMax.toNat = 0x00007FFFFFFFFFFF := rfl
  rw [gt_iff_lt, lt_def, toNat_add, toNat_ofNat] at hcurr
  rw [toNat_add, toNat_ofNat]
  omega

lemma strncpyLoop_confined {left i : ℕ} (hlow : 1 ≤ src.toNat)
    (hhigh : src.toNat + i ≤ userSpaceMax.toNat + 1) (hfits : i + left ≤ buffer) :
    ∀ a ∈ (strncpyLoop memory buffer src left i).2.2, a.Sound given := by
  induction left generalizing i with
  | zero =>
    intro a ha
    cases ha
  | succ left ih =>
    intro a ha
    simp only [strncpyLoop] at ha
    split_ifs at ha with hcurr hend
    · cases ha
    all_goals obtain ⟨hchar, hlast, hnext⟩ := character_confined hlow hhigh hcurr
    · cases List.mem_singleton.mp ha
      exact ⟨⟨hchar, hlast⟩, fun _ => by simp only [Access.Fits]; omega⟩
    obtain rfl | hrest := List.mem_cons.mp ha
    · exact ⟨⟨hchar, hlast⟩, fun _ => by simp only [Access.Fits]; omega⟩
    · exact ih hnext (by omega) a hrest

lemma strncpyFromUser_confined {count : ℕ} (hfits : count ≤ buffer) :
    ∀ a ∈ (strncpyFromUser memory (some buffer) src count).2.2, a.Sound given := by
  intro a ha
  unfold strncpyFromUser at ha
  split_ifs at ha with hzero hok
  · cases ha
  · cases ha
  rw [Bool.not_eq_false] at hok
  obtain ⟨hlow, hhigh⟩ := accessOk_spec hok (by decide)
  refine strncpyLoop_confined hlow ?_ (by omega) a ha
  rw [toNat_ofNat] at hhigh
  omega

lemma strlenLoop_confined {left len : ℕ} (hlow : 1 ≤ src.toNat)
    (hhigh : src.toNat + len ≤ userSpaceMax.toNat + 1) :
    ∀ a ∈ (strlenLoop memory src left len).2, a.Confined := by
  induction left generalizing len with
  | zero =>
    intro a ha
    cases ha
  | succ left ih =>
    intro a ha
    simp only [strlenLoop] at ha
    split_ifs at ha with hcurr hend
    · cases ha
    all_goals obtain ⟨hchar, hlast, hnext⟩ := character_confined hlow hhigh hcurr
    · cases List.mem_singleton.mp ha
      exact ⟨hchar, hlast⟩
    obtain rfl | hrest := List.mem_cons.mp ha
    · exact ⟨hchar, hlast⟩
    · exact ih hnext a hrest

lemma strlenUser_confined (memory : UserMemory) (src : BitVec 64) :
    ∀ a ∈ (strlenUser memory src).2, a.Confined := by
  intro a ha
  unfold strlenUser at ha
  split_ifs at ha with hok
  · cases ha
  rw [Bool.not_eq_false] at hok
  obtain ⟨hlow, hhigh⟩ := accessOk_spec hok (by decide)
  refine strlenLoop_confined hlow ?_ a ha
  rw [toNat_ofNat] at hhigh
  omega

end KosKernel.Syscall
