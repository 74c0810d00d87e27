import KosKernel.KpkgState

/-! Which reads of a package stay inside it. `kpkg_open` and the reader compare 64-bit sums with
the size of the package, and nothing compares the payload with it. -/
namespace KosKernel.Kpkg
open LittleEndian AccessLog Attempt

/-- Every byte of the range lies in a package of the given size. -/
def Access.Inside (total : ℕ) (a : Access) : Prop := a.size = 0 ∨ a.offset + a.size ≤ total

instance (total : ℕ) (a : Access) : Decidable (a.Inside total) :=
  inferInstanceAs (Decidable (_ ∨ _))

/-- Manifest, index and payloads lie inside the package, as sums of natural numbers. -/
structure Contained (pkg : Package) : Prop where
  manifest : Access.Inside pkg.reader.getSize
    ⟨manifestOffsetOf pkg.headerBytes, manifestSizeOf pkg.headerBytes⟩
  index : Access.Inside pkg.reader.getSize
    ⟨indexOffsetOf pkg.headerBytes, pkg.fileCount * fileEntrySize⟩
  payload : ∀ f ∈ pkg.files, Access.Inside pkg.reader.getSize
    ⟨payloadOffsetOf pkg.headerBytes + f.payloadOffset, f.size⟩

/-- The reads of every later call stay inside the package. -/
structure ReadsInside (pkg : Package) : Prop where
  integrity : ∀ sha256 granted,
    (kpkgVerifyIntegrity sha256 granted pkg).All (Access.Inside pkg.reader.getSize)
  signature : ∀ sha256 granted key,
    (kpkgVerifySignature sha256 granted pkg key).All (Access.Inside pkg.reader.getSize)
  extract : ∀ sha256 granted index,
    (kpkgExtractFile sha256 granted pkg index).All (Access.Inside pkg.reader.getSize)

/-- The block is in the package and passes the checks of `kpkg_verify_signature`. -/
def HasSignature (pkg : Package) (block : SignatureBlock) : Prop :=
  (∃ bytes, pkg.reader.read (sigOffsetOf pkg.headerBytes) signatureBlockSize = some bytes ∧
    SignatureBlock.decode bytes = block) ∧
  block.sigType = sigTypeOf pkg.headerBytes ∧
  signatureBlockSize + block.keyLen + block.sigLen ≤ sigSizeOf pkg.headerBytes

/-- What the code leaves open: none of its 64-bit sums wraps, and the payloads end within the
package. -/
structure SumsFit (pkg : Package) : Prop where
  manifest : 0 < manifestSizeOf pkg.headerBytes →
    manifestOffsetOf pkg.headerBytes + manifestSizeOf pkg.headerBytes < 2 ^ 64
  index : 0 < pkg.fileCount →
    indexOffsetOf pkg.headerBytes + pkg.fileCount * fileEntrySize < 2 ^ 64
  payload : ∀ f ∈ pkg.files, 0 < f.size →
    payloadOffsetOf pkg.headerBytes + f.payloadOffset + f.size ≤ pkg.reader.getSize
  signatureBlock : sigTypeOf pkg.headerBytes ≠ sigNone →
    signatureBlockSize ≤ sigSizeOf pkg.headerBytes →
    sigOffsetOf pkg.headerBytes + signatureBlockSize < 2 ^ 64
  signature : sigTypeOf pkg.headerBytes ≠ sigNone → ∀ block, HasSignature pkg block →
    (sigOffsetOf pkg.headerBytes + signatureBlockSize + block.keyLen) % 2 ^ 64 + block.sigLen <
      2 ^ 64

variable {P : Access → Prop}

section
variable {offset size : ℕ} {reader : Reader}

lemma all_fetch (h : (reader.read offset size).isSome → P ⟨offset, size⟩) :
    (reader.fetch offset size).All P := by
  unfold Reader.fetch
  cases hread : reader.read offset size with
  | none =>
    intro a ha
    cases ha
  | some bytes =>
    intro a ha
    cases List.mem_singleton.mp ha
    exact h (by rw [hread]; rfl)

lemma of_all_fetch {bytes : List Byte} (h : (reader.fetch offset size).All P)
    (hread : reader.read offset size = some bytes) : P ⟨offset, size⟩ := by
  unfold Reader.fetch at h
  rw [hread] at h
  exact h _ (List.mem_singleton.mpr rfl)

lemma result_fetch : (reader.fetch offset size).result = reader.read offset size := by
  unfold Reader.fetch
  cases reader.read offset size <;> rfl

variable {m : ByteMemory.Memory} {data total : ℕ} {htotal : total < 2 ^ 64}

lemma memoryReader_isSome :
    ((memoryReader m data total htotal).read offset size).isSome ↔
      (offset + size) % 2 ^ 64 ≤ total := by
  unfold memoryReader
  dsimp only
  split
  · simp
    omega
  · simp
    omega

lemma inside_of_sum_lt (h : (offset + size) % 2 ^ 64 ≤ total) (hsum : offset + size < 2 ^ 64) :
    Access.Inside total ⟨offset, size⟩ := by
  rw [Nat.mod_eq_of_lt hsum] at h
  exact .inr h

lemma sum_lt_of_inside (htotal : total < 2 ^ 64) (hsize : 0 < size)
    (h : Access.Inside total ⟨offset, size⟩) : offset + size < 2 ^ 64 := by
  rcases h with h | h
  · exact absurd h hsize.ne'
  · exact lt_of_le_of_lt h htotal

end

variable {reader : Reader} {granted : Bool}

section
structure Opened (reader : Reader) (pkg : Package) : Prop where
  reader_eq : pkg.reader = reader
  size : headerSize ≤ reader.getSize
  header : headerIsValid pkg.headerBytes
  manifest : 0 < manifestSizeOf pkg.headerBytes →
    (manifestOffsetOf pkg.headerBytes + manifestSizeOf pkg.headerBytes) % 2 ^ 64 ≤ reader.getSize
  index : 0 < pkg.fileCount →
    (indexOffsetOf pkg.headerBytes + pkg.fileCount * fileEntrySize) % 2 ^ 64 ≤ reader.getSize
  files : ∀ f ∈ pkg.files, fileIsValid pkg.headerBytes f
  appId : 0 < manifestSizeOf pkg.headerBytes → kpkgValidateAppId pkg.appId
  noManifest : manifestSizeOf pkg.headerBytes = 0 →
    pkg.manifestBytes = List.replicate manifestStructSize 0

lemma readManifest_result {header manifest : List Byte}
    (h : (readManifest reader header).result = some manifest) :
    (0 < manifestSizeOf header →
      (manifestOffsetOf header + manifestSizeOf header) % 2 ^ 64 ≤ reader.getSize) ∧
    (0 < manifestSizeOf header → kpkgValidateAppId (cString (manifest.take maxAppIdLen))) ∧
    (manifestSizeOf header = 0 → manifest = List.replicate manifestStructSize 0) := by
  unfold readManifest at h
  split at h
  · rename_i hpos
    obtain ⟨_, hsum, h⟩ := result_bind_eq_some.mp h
    obtain ⟨bytes, -, h⟩ := result_bind_eq_some.mp h
    obtain ⟨_, happ, h⟩ := result_bind_eq_some.mp h
    cases h
    rw [result_require] at hsum happ
    exact ⟨fun _ => of_decide_eq_true hsum, fun _ => happ, fun hzero => absurd hzero hpos.ne'⟩
  · rename_i hzero
    cases h
    exact ⟨fun hpos => absurd hpos hzero, fun hpos => absurd hpos hzero, fun _ => rfl⟩

lemma readIndex_result {header index manifest : List Byte}
    (h : (readIndex reader granted header).result = some index) :
    (0 < fileCountOf header →
      (indexOffsetOf header + fileCountOf header * fileEntrySize) % 2 ^ 64 ≤ reader.getSize) ∧
    ∀ f ∈ Package.files ⟨reader, header, manifest, index⟩, fileIsValid header f := by
  unfold readIndex at h
  split at h
  · obtain ⟨_, hsum, h⟩ := result_bind_eq_some.mp h
    obtain ⟨_, -, h⟩ := result_bind_eq_some.mp h
    obtain ⟨bytes, -, h⟩ := result_bind_eq_some.mp h
    obtain ⟨_, hvalid, h⟩ := result_bind_eq_some.mp h
    cases h
    rw [result_require] at hsum hvalid
    have hfiles := (Bool.and_eq_true_iff.mp hvalid).1
    exact ⟨fun _ => of_decide_eq_true hsum, List.all_eq_true.mp hfiles⟩
  · rename_i hzero
    refine ⟨fun hpos => absurd hpos hzero, fun f hf => ?_⟩
    have hcount : fileCountOf header = 0 := by omega
    rw [Package.files, Package.fileCount, hcount] at hf
    cases hf

theorem opened_of_result {pkg : Package}
    (h : (kpkgOpen reader granted).result = some pkg) : Opened reader pkg := by
  unfold kpkgOpen at h
  obtain ⟨_, hsize, h⟩ := result_bind_eq_some.mp h
  obtain ⟨header, -, h⟩ := result_bind_eq_some.mp h
  obtain ⟨_, hhead, h⟩ := result_bind_eq_some.mp h
  obtain ⟨manifest, hmanifest, h⟩ := result_bind_eq_some.mp h
  obtain ⟨index, hindex, h⟩ := result_bind_eq_some.mp h
  cases h
  rw [result_require] at hsize hhead
  obtain ⟨hsum, happ, hnone⟩ := readManifest_result hmanifest
  obtain ⟨hend, hfiles⟩ := readIndex_result hindex
  exact ⟨rfl, of_decide_eq_true hsize, hhead, hsum, hend, hfiles, happ, hnone⟩

end

section
variable {pkg : Package}

lemma readPayload_inside (fuel : ℕ) {offset remaining : ℕ}
    (h : offset + remaining ≤ reader.getSize) :
    (readPayload reader fuel offset remaining).All (Access.Inside reader.getSize) := by
  induction fuel generalizing offset remaining with
  | zero => exact all_pure _
  | succ fuel ih =>
    rw [readPayload]
    split
    · exact all_pure _
    have hchunk : offset + min remaining chunkSize ≤ reader.getSize := by omega
    have hlt := reader.size_lt
    have hnext : (offset + min remaining chunkSize) % 2 ^ 64 +
        (remaining - min remaining chunkSize) ≤ reader.getSize := by
      rw [Nat.mod_eq_of_lt (by omega)]
      omega
    refine all_bind_iff.mpr ⟨all_fetch fun _ => .inr hchunk, fun _ _ => ?_⟩
    exact all_bind_iff.mpr ⟨ih hnext, fun _ _ => all_pure _⟩

lemma payloadStart_add_le {f : FileEntry} (hsize : 0 < f.size)
    (h : payloadOffsetOf pkg.headerBytes + f.payloadOffset + f.size ≤ pkg.reader.getSize) :
    pkg.payloadStart f + f.size ≤ pkg.reader.getSize := by
  have hlt := pkg.reader.size_lt
  rw [Package.payloadStart, Nat.mod_eq_of_lt (by omega)]
  exact h

lemma verifyFile_inside (sha256 : List Byte → List Byte) {f : FileEntry} (h : 0 < f.size →
      payloadOffsetOf pkg.headerBytes + f.payloadOffset + f.size ≤ pkg.reader.getSize) :
    (verifyFile sha256 pkg f).All (Access.Inside pkg.reader.getSize) := by
  refine all_bind_iff.mpr ⟨?_, fun _ _ => all_require _⟩
  rcases Nat.eq_zero_or_pos f.size with hzero | hpos
  · rw [hzero]
    exact all_pure _
  · exact readPayload_inside _ (payloadStart_add_le hpos (h hpos))

lemma verifyIntegrity_inside (hfits : SumsFit pkg) (sha256 : List Byte → List Byte)
    (granted : Bool) :
    (kpkgVerifyIntegrity sha256 granted pkg).All (Access.Inside pkg.reader.getSize) := by
  have hfiles : ∀ fs : List FileEntry, (∀ f ∈ fs, f ∈ pkg.files) →
      (verifyFiles sha256 pkg fs).All (Access.Inside pkg.reader.getSize) := by
    intro fs
    induction fs with
    | nil => exact fun _ => all_pure _
    | cons f fs ih =>
      intro hmem
      rw [List.forall_mem_cons] at hmem
      exact all_bind_iff.mpr
        ⟨verifyFile_inside sha256 (hfits.payload f hmem.1), fun _ _ => ih hmem.2⟩
  exact all_require_bind.mpr fun _ => hfiles _ fun _ hf => hf

lemma entry_mem_files {index : ℕ} (h : index < pkg.fileCount) : pkg.entry index ∈ pkg.files :=
  List.mem_map_of_mem (List.mem_range.mpr h)

lemma extractFile_inside (hfits : SumsFit pkg) (sha256 : List Byte → List Byte) (granted : Bool)
    (index : ℕ) :
    (kpkgExtractFile sha256 granted pkg index).All (Access.Inside pkg.reader.getSize) := by
  refine all_require_bind.mpr fun hindex => all_require_bind.mpr fun _ => ?_
  have hmem := entry_mem_files (of_decide_eq_true hindex)
  refine all_bind_iff.mpr ⟨all_fetch fun _ => ?_, fun _ _ => ?_⟩
  · rcases Nat.eq_zero_or_pos (pkg.entry index).size with hzero | hpos
    · exact .inl hzero
    · exact .inr (payloadStart_add_le hpos (hfits.payload _ hmem hpos))
  · exact all_require_bind.mpr fun _ => all_pure _

end

section
variable {m : ByteMemory.Memory} {data total : ℕ} {htotal : total < 2 ^ 64} {pkg : Package}

lemma all_readSignature_iff : (readSignature granted pkg).All P ↔
      (sigTypeOf pkg.headerBytes ≠ sigNone → signatureBlockSize ≤ sigSizeOf pkg.headerBytes →
        (pkg.reader.fetch (sigOffsetOf pkg.headerBytes) signatureBlockSize).All P ∧
        ∀ block, HasSignature pkg block → granted = true → block.sigLen ≠ 0 →
          (pkg.reader.fetch ((sigOffsetOf pkg.headerBytes + signatureBlockSize + block.keyLen) %
            2 ^ 64) block.sigLen).All P) := by
  have hpositive : signatureBlockSize ≤ sigSizeOf pkg.headerBytes →
      sigSizeOf pkg.headerBytes ≠ 0 := by
    intro h
    have : 0 < signatureBlockSize := by decide
    omega
  constructor
  · intro h htype hsize
    have hreads := all_require_bind.mp
      (all_require_bind.mp h (by simp [htype, hpositive hsize])) (decide_eq_true hsize)
    obtain ⟨hblock, hrest⟩ := all_bind_iff.mp hreads
    refine ⟨hblock, ?_⟩
    rintro block ⟨⟨bytes, hread, rfl⟩, htypes, hsizes⟩ hgrant hlen
    have hsig := all_require_bind.mp (all_require_bind.mp
      (hrest bytes (result_fetch.trans hread)) (by simp [htypes, hsizes])) (by simp [hgrant, hlen])
    exact (all_bind_iff.mp hsig).1
  · intro h
    refine all_require_bind.mpr fun htype => all_require_bind.mpr fun hsize => ?_
    simp only [ne_eq, decide_not, Bool.and_eq_true, Bool.not_eq_true', decide_eq_false_iff_not,
      decide_eq_true_eq] at htype hsize
    obtain ⟨hblock, hrest⟩ := h htype.1 hsize
    refine all_bind_iff.mpr ⟨hblock, fun bytes hread => ?_⟩
    refine all_require_bind.mpr fun hchecks => all_require_bind.mpr fun hmemory => ?_
    simp only [ne_eq, decide_not, Bool.and_eq_true, Bool.not_eq_true', decide_eq_false_iff_not,
      decide_eq_true_eq] at hchecks hmemory
    refine all_bind_iff.mpr ⟨?_, fun _ _ => all_pure _⟩
    exact hrest _ ⟨⟨bytes, result_fetch.symm.trans hread, rfl⟩, hchecks⟩ hmemory.1 hmemory.2

lemma verifySignature_inside (hreader : pkg.reader = memoryReader m data total htotal)
    (hfits : SumsFit pkg) (sha256 : List Byte → List Byte) (granted : Bool)
    (key : Option (List Byte)) :
    (kpkgVerifySignature sha256 granted pkg key).All (Access.Inside pkg.reader.getSize) := by
  refine all_require_bind.mpr fun _ => all_bind_iff.mpr
    ⟨all_readSignature_iff.mpr fun htype hsize => ⟨?_, fun block hblock _ _ => ?_⟩,
      fun _ _ => all_require _⟩
  all_goals
    rw [hreader]
    refine all_fetch fun hread => inside_of_sum_lt (memoryReader_isSome.mp hread) ?_
  · exact hfits.signatureBlock htype hsize
  · exact hfits.signature htype block hblock

/-- A key that lets `kpkg_verify_signature` come to its reads. -/
lemma readSignature_of_inside (h : ReadsInside pkg) :
    (readSignature true pkg).All (Access.Inside pkg.reader.getSize) := by
  have hkey := h.signature id true (some [0])
  exact (all_bind_iff.mp (all_require_bind.mp hkey rfl)).1

section
variable (hopened : Opened (memoryReader m data total htotal) pkg) (h : ReadsInside pkg)
  (htype : sigTypeOf pkg.headerBytes ≠ sigNone)
include hopened h htype

lemma signatureBlock_of_inside (hsize : signatureBlockSize ≤ sigSizeOf pkg.headerBytes) :
    sigOffsetOf pkg.headerBytes + signatureBlockSize < 2 ^ 64 := by
  have hread := (all_readSignature_iff.mp (readSignature_of_inside h) htype hsize).1
  by_contra hwrap
  have hoff : sigOffsetOf pkg.headerBytes < 256 ^ 8 := field_lt _ _ _
  have htotal' : headerSize ≤ total := hopened.size
  have hsmall : (sigOffsetOf pkg.headerBytes + signatureBlockSize) % 2 ^ 64 ≤ total := by
    simp only [signatureBlockSize, headerSize] at *
    omega
  rw [hopened.reader_eq] at hread
  obtain ⟨bytes, hbytes⟩ := Option.isSome_iff_exists.mp (memoryReader_isSome.mpr hsmall)
  exact hwrap (sum_lt_of_inside htotal (by decide) (of_all_fetch hread hbytes))

lemma signature_of_inside {block : SignatureBlock} (hblock : HasSignature pkg block) :
    (sigOffsetOf pkg.headerBytes + signatureBlockSize + block.keyLen) % 2 ^ 64 + block.sigLen <
      2 ^ 64 := by
  have hsigSize : sigSizeOf pkg.headerBytes < 256 ^ 4 := field_lt _ _ _
  obtain ⟨⟨bytes, hread, -⟩, -, hsize⟩ := id hblock
  have hlarge : signatureBlockSize ≤ sigSizeOf pkg.headerBytes := by omega
  have hfirst := signatureBlock_of_inside hopened h htype hlarge
  rcases Nat.eq_zero_or_pos block.sigLen with hzero | hpos
  · rw [hzero]
    exact Nat.mod_lt _ (by decide)
  have hreads := (all_readSignature_iff.mp (readSignature_of_inside h) htype hlarge).2 block hblock
    rfl hpos.ne'
  rw [hopened.reader_eq] at hreads hread
  have hstart := memoryReader_isSome.mp (Option.isSome_iff_exists.mpr ⟨bytes, hread⟩)
  rw [Nat.mod_eq_of_lt hfirst] at hstart
  by_contra hwrap
  -- the block ends in the package, so a sum that wraps behind it is small
  have hsmall : ((sigOffsetOf pkg.headerBytes + signatureBlockSize + block.keyLen) % 2 ^ 64 +
      block.sigLen) % 2 ^ 64 ≤ total := by
    omega
  obtain ⟨sig, hsig⟩ := Option.isSome_iff_exists.mp (memoryReader_isSome.mpr hsmall)
  exact hwrap (sum_lt_of_inside htotal hpos (of_all_fetch hreads hsig))

end
end

/-- An open package and all later reads of it lie inside exactly when no sum wraps and the
payloads end within the package. -/
theorem open_package_inside_iff {m : ByteMemory.Memory} {data total : ℕ} {htotal : total < 2 ^ 64}
    {granted : Bool} {pkg : Package}
    (hopen : (kpkgOpen (memoryReader m data total htotal) granted).result = some pkg) :
    (Contained pkg ∧ ReadsInside pkg) ↔ SumsFit pkg := by
  have hopened := opened_of_result hopen
  constructor
  · rintro ⟨hcontained, hreads⟩
    refine ⟨fun hpos => ?_, fun hpos => ?_, fun f hf hpos => ?_, fun htype hlarge => ?_,
      fun htype block hblock => signature_of_inside hopened hreads htype hblock⟩
    · exact sum_lt_of_inside pkg.reader.size_lt hpos hcontained.manifest
    · exact sum_lt_of_inside pkg.reader.size_lt
        (Nat.mul_pos hpos (by decide)) hcontained.index
    · rcases hcontained.payload f hf with hzero | hinside
      · exact absurd hzero hpos.ne'
      · exact hinside
    · exact signatureBlock_of_inside hopened hreads htype hlarge
  · intro hfits
    refine ⟨⟨?_, ?_, fun f hf => ?_⟩, verifyIntegrity_inside hfits,
      verifySignature_inside hopened.reader_eq hfits, extractFile_inside hfits⟩
    · rcases Nat.eq_zero_or_pos (manifestSizeOf pkg.headerBytes) with hzero | hpos
      · exact .inl hzero
      · exact inside_of_sum_lt (hopened.reader_eq ▸ hopened.manifest hpos) (hfits.manifest hpos)
    · rcases Nat.eq_zero_or_pos pkg.fileCount with hzero | hpos
      · exact .inl (by rw [hzero]; rfl)
      · exact inside_of_sum_lt (hopened.reader_eq ▸ hopened.index hpos) (hfits.index hpos)
    · rcases Nat.eq_zero_or_pos f.size with hzero | hpos
      · exact .inl hzero
      · exact .inr (hfits.payload f hf hpos)

def sampleHeader (manifestOffset manifestSize fileCount indexOffset payloadOffset payloadSize : ℕ) :
    List Byte :=
  leBytes 4 kpkgMagic ++ leBytes 4 kpkgVersion1 ++ leBytes 4 headerSize ++ leBytes 4 sigNone ++
    leBytes 8 manifestOffset ++ leBytes 4 manifestSize ++ leBytes 4 fileCount ++
    leBytes 8 indexOffset ++ leBytes 8 (fileCount * fileEntrySize) ++ leBytes 8 payloadOffset ++
    leBytes 8 payloadSize ++ leBytes 16 0

def sampleEntry (size payloadOffset : ℕ) : List Byte :=
  0x66 :: List.replicate 255 0 ++ leBytes 8 size ++ leBytes 8 payloadOffset ++ leBytes 4 0 ++
    List.replicate 32 0

def sampleMemory (bytes : List Byte) : ByteMemory.Memory :=
  fun address => if address = 999 then 0x61 else bytes.getD (address - 1000) 0

def openSample (bytes : List Byte) (h : bytes.length < 2 ^ 64) : Option Package :=
  (kpkgOpen (memoryReader (sampleMemory bytes) 1000 bytes.length h) true).result

def soundPackage : List Byte := sampleHeader 80 2 1 82 390 1 ++ [0x61, 0] ++ sampleEntry 1 0 ++ [7]

def strayManifest : List Byte := sampleHeader (2 ^ 64 - 1) 2 0 0 0 0

def strayPayload : List Byte := sampleHeader 0 0 1 80 1000000 1 ++ sampleEntry 1 0

lemma soundPackage_fits : soundPackage.length < 2 ^ 64 := by decide +kernel

lemma strayManifest_fits : strayManifest.length < 2 ^ 64 := by decide +kernel

lemma strayPayload_fits : strayPayload.length < 2 ^ 64 := by decide +kernel

theorem open_package_inside_iff_sound :
    ∃ pkg, openSample soundPackage soundPackage_fits = some pkg ∧
      ((Contained pkg ∧ ReadsInside pkg) ↔ SumsFit pkg) ∧ SumsFit pkg := by
  have hchecks : (openSample soundPackage soundPackage_fits).map (fun pkg =>
      decide (manifestOffsetOf pkg.headerBytes + manifestSizeOf pkg.headerBytes < 2 ^ 64 ∧
        indexOffsetOf pkg.headerBytes + pkg.fileCount * fileEntrySize < 2 ^ 64 ∧
        (∀ f ∈ pkg.files,
          payloadOffsetOf pkg.headerBytes + f.payloadOffset + f.size ≤ soundPackage.length) ∧
        sigTypeOf pkg.headerBytes = sigNone)) = some true := by
    decide +kernel
  obtain ⟨pkg, hpkg, hfits⟩ := Option.map_eq_some_iff.mp hchecks
  obtain ⟨hmanifest, hindex, hpayload, hsig⟩ := of_decide_eq_true hfits
  have hreader := (opened_of_result hpkg).reader_eq
  refine ⟨pkg, hpkg, open_package_inside_iff hpkg, fun _ => hmanifest, fun _ => hindex,
    fun f hf _ => ?_, fun htype => absurd hsig htype, fun htype => absurd hsig htype⟩
  rw [hreader]
  exact hpayload f hf

theorem stray_packages_opened :
    (∃ pkg, openSample strayManifest strayManifest_fits = some pkg ∧ ¬ Contained pkg) ∧
      ∃ pkg, openSample strayPayload strayPayload_fits = some pkg ∧ ¬ Contained pkg := by
  constructor
  · have hmanifest : (openSample strayManifest strayManifest_fits).map (fun pkg => decide (Access.Inside 80
        ⟨manifestOffsetOf pkg.headerBytes, manifestSizeOf pkg.headerBytes⟩)) = some false := by
      decide +kernel
    obtain ⟨pkg, hpkg, houtside⟩ := Option.map_eq_some_iff.mp hmanifest
    have hreader := (opened_of_result hpkg).reader_eq
    refine ⟨pkg, hpkg, fun hcontained => of_decide_eq_false houtside ?_⟩
    have hinside := hcontained.manifest
    rw [hreader] at hinside
    exact hinside
  · have hpayload : (openSample strayPayload strayPayload_fits).map (fun pkg =>
        decide (∀ f ∈ pkg.files, Access.Inside strayPayload.length
          ⟨payloadOffsetOf pkg.headerBytes + f.payloadOffset, f.size⟩)) = some false := by
      decide +kernel
    obtain ⟨pkg, hpkg, houtside⟩ := Option.map_eq_some_iff.mp hpayload
    have hreader := (opened_of_result hpkg).reader_eq
    refine ⟨pkg, hpkg, fun hcontained => of_decide_eq_false houtside ?_⟩
    have hinside := hcontained.payload
    rw [hreader] at hinside
    exact hinside

end KosKernel.Kpkg
