import KosKernel.Calendar
import KosKernel.X509State

/-! The validity times of a certificate: what is encoded in it and what the parser makes of
it. -/
namespace KosKernel.X509
open ByteMemory Calendar Finset Nat List

def clockBytes (t : Time) : List Byte :=
  twoDigits t.month ++ twoDigits t.day ++ twoDigits t.hour ++ twoDigits t.minute

def zulu : Byte := 0x5A

def TimeEnding (t : Time) (rest : List Byte) : Prop :=
  rest = twoDigits t.second ++ [zulu] ∨ t.second = 0 ∧ rest = [zulu]

/-- The time written as `YYMMDDHHMM[SS]Z` or `YYYYMMDDHHMM[SS]Z`. -/
def EncodesTime (tag : Byte) (bytes : List Byte) (t : Time) : Prop :=
  t.Valid ∧ ∃ rest, TimeEnding t rest ∧
    ((tag = tagUtcTime ∧ 1950 ≤ t.year ∧ t.year ≤ 2049 ∧
        bytes = twoDigits (t.year % 100) ++ (clockBytes t ++ rest)) ∨
      (tag = tagGeneralizedTime ∧ t.year ≤ 9999 ∧
        bytes = twoDigits (t.year / 100) ++ (twoDigits (t.year % 100) ++ (clockBytes t ++ rest))))

lemma isLeapYear_eq (year : ℕ) : isLeapYear year = decide (Leap year) := by
  simp only [isLeapYear, Leap, dvd_iff_mod_eq_zero, ne_eq]

lemma daysBeforeYear_eq (year : ℕ) :
    daysBeforeYear year = ∑ y ∈ Finset.Ico 1970 year, yearLength y := by
  rw [daysBeforeYear, sum_Ico_eq_sum_range]
  simp only [isLeapYear_eq, decide_eq_true_eq]
  rfl

/-- The table of days, with the leap day from March on, counts the months before one. -/
lemma daysBeforeMonth_eq (year : ℕ) {month : ℕ} (hlow : 1 ≤ month) (hhigh : month ≤ 12) :
    daysBeforeMonth.getD (month - 1) 0 + (if 2 < month ∧ isLeapYear year then 1 else 0) =
      monthDays year month := by
  rw [isLeapYear_eq]
  by_cases hleap : Leap year
  · simp only [hleap, decide_true, and_true]
    interval_cases month <;> simp [daysBeforeMonth, monthDays, monthLength, hleap,
      sum_Ico_succ_top]
  simp only [hleap, decide_false, Bool.false_eq_true, and_false, if_false, add_zero]
  interval_cases month <;> simp [daysBeforeMonth, monthDays, monthLength, hleap,
    sum_Ico_succ_top]

variable {t : Time}

/-- On valid times the calendar arithmetic is exact from 1970 on and gives zero before. -/
lemma calendarToEpochSeconds_eq (h : t.Valid) :
    calendarToEpochSeconds t.year t.month t.day t.hour t.minute t.second = t.seconds.toNat := by
  have hmonth := h.month
  have hday := h.day
  have hlength := monthLength_le t.year t.month
  unfold calendarToEpochSeconds
  by_cases hyear : t.year < 1970
  · have hneg := seconds_neg h hyear
    rw [if_pos (.inl hyear)]
    omega
  rw [if_neg (by omega)]
  have hmonths := daysBeforeMonth_eq t.year hmonth.1 hmonth.2
  have hyears : (daysBeforeYear t.year : ℤ) = yearDays t.year := by
    rw [yearDays_of_le (by omega), daysBeforeYear_eq, cast_sum]
  unfold Time.seconds
  dsimp only
  omega

section
variable {m : Memory} {p n k : ℕ} {rest : List Byte}

lemma toNat_digitByte {d : ℕ} (h : d < 10) : (digitByte d).toNat = 48 + d := by
  rw [digitByte, BitVec.toNat_ofNat, mod_eq_of_lt (by omega)]

lemma bytesAt_twoDigits (h : bytesAt m p n = twoDigits k ++ rest) :
    m p = digitByte (k / 10) ∧ m (p + 1) = digitByte (k % 10) ∧
      bytesAt m (p + 2) (n - 2) = rest := by
  have hlen := congrArg length h
  simp only [length_bytesAt, twoDigits, cons_append, nil_append, length_cons] at hlen
  obtain ⟨n, rfl⟩ : ∃ n', n = n' + 2 := ⟨n - 2, by omega⟩
  rw [bytesAt_succ, bytesAt_succ, twoDigits, cons_append, cons_append, nil_append,
    cons.injEq, cons.injEq] at h
  exact h

lemma parse2digits_eq (hk : k < 100) (htens : m p = digitByte (k / 10))
    (hones : m (p + 1) = digitByte (k % 10)) : parse2digits m p = k := by
  rw [parse2digits, htens, hones, toNat_digitByte (by omega), toNat_digitByte (by omega)]
  omega

lemma parse2digits_read (h : bytesAt m p n = twoDigits k ++ rest) (hk : k < 100) :
    parse2digits m p = k ∧ bytesAt m (p + 2) (n - 2) = rest := by
  obtain ⟨htens, hones, hrest⟩ := bytesAt_twoDigits h
  exact ⟨parse2digits_eq hk htens hones, hrest⟩

lemma clock_read (ht : t.Valid) (h : bytesAt m p n = clockBytes t ++ rest) :
    parse2digits m p = t.month ∧ parse2digits m (p + 2) = t.day ∧
      parse2digits m (p + 4) = t.hour ∧ parse2digits m (p + 6) = t.minute ∧
      bytesAt m (p + 8) (n - 8) = rest := by
  have hmonth := ht.month
  have hday := ht.day
  have hlength := monthLength_le t.year t.month
  have hhour := ht.hour
  have hminute := ht.minute
  simp only [clockBytes, append_assoc] at h
  obtain ⟨hmonth', h⟩ := parse2digits_read h (by omega)
  obtain ⟨hday', h⟩ := parse2digits_read h (by omega)
  obtain ⟨hhour', h⟩ := parse2digits_read h (by omega)
  obtain ⟨hminute', h⟩ := parse2digits_read h (by omega)
  exact ⟨hmonth', hday', hhour', hminute', h⟩

lemma seconds_read (ht : t.Valid) (h : TimeEnding t (bytesAt m p n)) :
    1 ≤ n ∧ secondsAt m p (3 ≤ n) = t.second := by
  have hs := ht.second
  rcases h with h | ⟨hzero, h⟩
  · obtain rfl : n = 3 := by simpa [twoDigits] using congrArg length h
    obtain ⟨htens, hones, -⟩ := bytesAt_twoDigits h
    have hdigit := toNat_digitByte (show t.second / 10 < 10 by omega)
    refine ⟨by norm_num, ?_⟩
    rw [secondsAt, htens, if_pos ⟨by decide, by omega, by omega⟩]
    exact parse2digits_eq (by omega) htens hones
  · obtain rfl : n = 1 := by simpa using congrArg length h
    exact ⟨le_rfl, by simp [secondsAt, hzero]⟩

end

variable {m : Memory} {offset fuel : ℕ} {cert cert' : Certificate}

lemma asn1ParseTime_eq {data length : ℕ} {tag : Byte} (hdata : data ≠ 0)
    (h : EncodesTime tag (bytesAt m data length) t) :
    asn1ParseTime m data length tag = some t.seconds.toNat := by
  obtain ⟨hvalid, rest, hrest, ⟨rfl, hlow, hhigh, hbytes⟩ | ⟨rfl, hhigh, hbytes⟩⟩ := h
  · obtain ⟨hyear, hbytes⟩ := parse2digits_read hbytes (by omega)
    obtain ⟨hmonth, hday, hhour, hminute, rfl⟩ := clock_read hvalid hbytes
    obtain ⟨hlen, hsecond⟩ := seconds_read hvalid hrest
    have hpres : decide (13 ≤ length) = decide (3 ≤ length - 2 - 8) :=
      decide_eq_decide.mpr (by omega)
    rw [asn1ParseTime, if_neg hdata, if_pos rfl, if_neg (by omega)]
    simp only [hyear, hmonth, hday, hhour, hminute, hpres, hsecond]
    rw [← calendarToEpochSeconds_eq hvalid]
    congr 2
    split <;> omega
  · obtain ⟨hcentury, hbytes⟩ := parse2digits_read hbytes (by omega)
    obtain ⟨hyear, hbytes⟩ := parse2digits_read hbytes (by omega)
    obtain ⟨hmonth, hday, hhour, hminute, rfl⟩ := clock_read hvalid hbytes
    obtain ⟨hlen, hsecond⟩ := seconds_read hvalid hrest
    have hpres : decide (15 ≤ length) = decide (3 ≤ length - 2 - 2 - 8) :=
      decide_eq_decide.mpr (by omega)
    rw [asn1ParseTime, if_neg hdata, if_neg (by decide), if_pos rfl, if_neg (by omega)]
    simp only [hcentury, hyear, hmonth, hday, hhour, hminute, hpres, hsecond]
    rw [← calendarToEpochSeconds_eq hvalid]
    congr 2
    omega

def skipElements (m : Memory) (container : Asn1Element) : ℕ → ℕ → Option ℕ
  | 0, offset => some offset
  | n + 1, offset =>
    match elementAt m container offset with
    | none => none
    | some elem => skipElements m container n (offset + elem.extent)

variable {container elem : Asn1Element}

lemma skipElements_succ {n : ℕ} (h : elementAt m container offset = some elem) :
    skipElements m container (n + 1) offset = skipElements m container n (offset + elem.extent) := by
  rw [skipElements, h]

/-- The validity of a certificate: it stands behind the serial number, the algorithm and the
issuer, with the version in front of them when there is one. -/
def validityOf (m : Memory) (der derLen : ℕ) : Option Asn1Element :=
  match asn1GetSequence m der derLen with
  | none => none
  | some root =>
    match asn1GetSequence m root.data root.length with
    | none => none
    | some tbs =>
      match elementAt m tbs 0 with
      | none => none
      | some first =>
        match skipElements m tbs (if first.tag = tagContext0 then 4 else 3) 0 with
        | none => none
        | some offset => elementAt m tbs offset

def notBeforeOf (m : Memory) (der derLen : ℕ) : Option Asn1Element :=
  (validityOf m der derLen).bind fun validity => elementAt m validity 0

def notAfterOf (m : Memory) (der derLen : ℕ) : Option Asn1Element :=
  (validityOf m der derLen).bind fun validity => (elementAt m validity 0).bind fun first =>
    if first.extent < validity.length then elementAt m validity first.extent else none

def SameDates (c c' : Certificate) : Prop :=
  c'.rawDer = c.rawDer ∧ c'.rawLen = c.rawLen ∧ c'.notBefore = c.notBefore ∧
    c'.notAfter = c.notAfter

lemma SameDates.refl (c : Certificate) : SameDates c c := ⟨rfl, rfl, rfl, rfl⟩

lemma SameDates.trans {a b c : Certificate} (hab : SameDates a b) (hbc : SameDates b c) :
    SameDates a c :=
  ⟨hbc.1.trans hab.1, hbc.2.1.trans hab.2.1, hbc.2.2.1.trans hab.2.2.1, hbc.2.2.2.trans hab.2.2.2⟩

lemma elementLoop_invariant {σ : Type} {body : Asn1Element → σ → Except Failure (σ × Bool)}
    (inv : σ → Prop) (hbody : ∀ elem s s' stop, inv s → body elem s = .ok (s', stop) → inv s')
    {s s' : σ} (hs : inv s) (h : elementLoop m container body fuel offset s = .ok s') : inv s' := by
  induction fuel generalizing offset s with
  | zero => cases h
  | succ fuel ih =>
    rw [elementLoop] at h
    split at h
    · split at h
      · cases h
        exact hs
      rw [bind_eq_ok] at h
      obtain ⟨⟨next, stop⟩, hnext, h⟩ := h
      have hinv := hbody _ _ _ _ hs hnext
      cases stop with
      | false => exact ih hinv h
      | true =>
        cases h
        exact hinv
    · cases h
      exact hs

lemma parseRsaKey_dates (m : Memory) (keyBytes keyLen : ℕ) (cert : Certificate) :
    SameDates cert (parseRsaKey m keyBytes keyLen cert) := by
  unfold parseRsaKey
  split
  · exact SameDates.refl _
  · dsimp only
    split <;> split <;> exact ⟨rfl, rfl, rfl, rfl⟩

lemma parsePublicKey_dates (m : Memory) (spki : Asn1Element) (cert : Certificate) :
    SameDates cert (parsePublicKey m spki cert) := by
  unfold parsePublicKey
  dsimp only
  split
  · exact ⟨rfl, rfl, rfl, rfl⟩
  split
  · refine SameDates.trans ?_ (parseRsaKey_dates _ _ _ _)
    exact ⟨rfl, rfl, rfl, rfl⟩
  · unfold parseEcKey
    split <;> exact ⟨rfl, rfl, rfl, rfl⟩
  · exact ⟨rfl, rfl, rfl, rfl⟩

lemma parseSanExtension_dates {ext : Asn1Element}
    (h : parseSanExtension fuel m ext cert = .ok cert') : SameDates cert cert' := by
  unfold parseSanExtension at h
  split at h
  · cases h
    exact SameDates.refl _
  refine elementLoop_invariant (SameDates cert) ?_ (SameDates.refl _) h
  intro elem s s' stop hs hbody
  split at hbody
  · cases hbody
    exact hs
  · split at hbody <;> cases hbody <;> exact hs

lemma parseBasicConstraints_dates (m : Memory) (ext : Asn1Element) (cert : Certificate) :
    SameDates cert (parseBasicConstraints m ext cert) := by
  unfold parseBasicConstraints
  split
  · exact SameDates.refl _
  · split <;> exact ⟨rfl, rfl, rfl, rfl⟩

lemma parseExtension_dates {item oid : Asn1Element}
    (h : parseExtension fuel m item oid cert = .ok cert') : SameDates cert cert' := by
  refine elementLoop_invariant (SameDates cert) ?_ (SameDates.refl _) h
  intro sub s s' stop hs hbody
  split at hbody
  · cases hbody
    exact hs
  split at hbody
  · rw [bind_eq_ok] at hbody
    obtain ⟨next, hnext, hbody⟩ := hbody
    cases hbody
    exact hs.trans (parseSanExtension_dates hnext)
  split at hbody
  · cases hbody
    exact hs.trans (parseBasicConstraints_dates _ _ _)
  · cases hbody
    exact hs

lemma parseExtensions_dates {exts : Asn1Element} (h : parseExtensions fuel m exts cert = .ok cert')
    : SameDates cert cert' := by
  unfold parseExtensions at h
  split at h
  · cases h
    exact SameDates.refl _
  refine elementLoop_invariant (SameDates cert) ?_ (SameDates.refl _) h
  intro item s s' stop hs hbody
  split at hbody
  · cases hbody
    exact hs
  split at hbody
  · cases hbody
    exact hs
  rw [bind_eq_ok] at hbody
  obtain ⟨next, hnext, hbody⟩ := hbody
  cases hbody
  exact hs.trans (parseExtension_dates hnext)

lemma parseSignature_dates (m : Memory) (root tbs : Asn1Element) (cert : Certificate) :
    SameDates cert (parseSignature m root tbs cert) := by
  unfold parseSignature
  dsimp only
  split <;> exact ⟨rfl, rfl, rfl, rfl⟩

variable {tbs : Asn1Element}

lemma tbsField_eq_ok {tag : Byte}
    (h : tbsField cert m tbs offset tag = .ok elem) : elementAt m tbs offset = some elem := by
  rw [tbsField, orRefuse_eq_ok, Option.filter_eq_some_iff] at h
  exact h.1

lemma parseVersion_eq_ok {version : ℕ} (h : parseVersion cert m tbs = .ok (version, offset)) :
    ∃ first, elementAt m tbs 0 = some first ∧
      ∀ n, skipElements m tbs (if first.tag = tagContext0 then n + 1 else n) 0 =
        skipElements m tbs n offset := by
  unfold parseVersion at h
  rw [bind_eq_ok] at h
  obtain ⟨first, hfirst, h⟩ := h
  rw [orRefuse_eq_ok] at hfirst
  refine ⟨first, hfirst, fun n => ?_⟩
  split at h
  · rename_i htag
    cases h
    rw [if_pos htag, skipElements_succ hfirst, zero_add]
  rename_i htag
  cases h
  rw [if_neg htag]

lemma x509ParseCertificate_dates {der derLen : ℕ} {held : Certificate}
    (h : x509ParseCertificate fuel m der derLen held = .ok cert) :
    ∃ validity, validityOf m cert.rawDer cert.rawLen = some validity ∧
      SameDates (parseValidity m validity { rawDer := der, rawLen := derLen }) cert := by
  unfold x509ParseCertificate at h
  split at h
  · cases h
  simp only [bind_eq_ok, orRefuse_eq_ok] at h
  obtain ⟨root, hroot, tbs, htbs, ⟨version, serialOffset⟩, hversion, serial, hserial, algorithm,
    halgorithm, issuer, hissuer, issuerNames, -, validity, hvalidity, subject, -, subjectNames,
    -, spki, -, cert', hloop, hcert⟩ := h
  have hdates : SameDates (parseValidity m validity { rawDer := der, rawLen := derLen }) cert := by
    cases hcert
    refine SameDates.trans ?_ (parseSignature_dates m root tbs cert')
    refine elementLoop_invariant (SameDates _) ?_ ?_ hloop
    · intro elem s s' stop hs hbody
      split at hbody
      · rw [bind_eq_ok] at hbody
        obtain ⟨next, hnext, hbody⟩ := hbody
        cases hbody
        exact hs.trans (parseExtensions_dates hnext)
      · cases hbody
        exact hs
    · refine SameDates.trans ?_ (parsePublicKey_dates m spki _)
      exact ⟨rfl, rfl, rfl, rfl⟩
  refine ⟨validity, ?_, hdates⟩
  obtain ⟨first, hfirst, hskip⟩ := parseVersion_eq_ok hversion
  rw [hdates.1, hdates.2.1]
  change validityOf m der derLen = some validity
  simp only [validityOf, hroot, htbs, hfirst, hskip 3, skipElements_succ (tbsField_eq_ok hserial),
    skipElements_succ (tbsField_eq_ok halgorithm), skipElements_succ (tbsField_eq_ok hissuer)]
  rw [skipElements]
  exact tbsField_eq_ok hvalidity

end KosKernel.X509
