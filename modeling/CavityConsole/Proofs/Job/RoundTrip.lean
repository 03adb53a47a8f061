import CavityConsole.Notification.Decoding
import CavityConsole.Proofs.Console.Outgoing
import CavityConsole.Proofs.Decimal.Reread
import CavityConsole.Proofs.Json.DecimalText

/-!
# The job that is sent is the job that is read

A limit is written with the fewest digits that tell 32-bit values apart. It is read as a 64-bit
value, in two roundings, and that value is the limit again when it is rounded to 32 bits
(`fragment_finiteLimit`). Everything else in a job is read as it is written.

**The law** (`Command.start_job_read_back`): the line that starts a job with finite limits is a
document whose job is that job.
-/

namespace CavityConsole.Job

open Binary Decimal Json

/-! ## Limits -/

/-- The shortest decimal of a positive limit has few digits and an exponent within range. -/
theorem shortest_limit {code : Nat} (hcode : 0 < code) (hfinite : code < Format.single.infinity) :
    Represents Format.single code (shortest Format.single code) ∧
      0 < (shortest Format.single code).digits ∧
      (shortest Format.single code).digits ≤ 10 ^ 9 ∧
      -53 ≤ (shortest Format.single code).exponent ∧
      (shortest Format.single code).exponent < 40 := by
  have hunits := Format.single.units_pos hcode
  obtain ⟨hrepresents, hdigits, hlow⟩ :=
    shortest_spec hcode (by decide : 2 ^ (Format.single.precision + 1) ≤ 10 ^ 8) (by decide)
  obtain ⟨hpos, hplace⟩ := shortest_bounds hunits
    (units_lt_of_isFinite (x := ⟨false, code, lt_trans hfinite Format.single.infinity_lt_codes⟩)
      (decide_eq_true hfinite))
  refine ⟨hrepresents, hpos, hdigits, ?_, ?_⟩
  · have hleast : (10 : ℚ) ^ (-45 : Int) <
        10 ^ ((shortest Format.single code).exponent + 8 + 1) := by
      refine lt_of_le_of_lt ?_ hlow
      have hone : (1 : ℚ) ≤ Format.single.units code := by exact_mod_cast hunits
      calc (10 : ℚ) ^ (-45 : Int) ≤ 1 / 2 ^ 149 := by norm_num
        _ ≤ Format.single.units code / 2 ^ 149 := by gcongr
    have hexponent := (zpow_lt_zpow_iff_right₀ (by norm_num)).mp hleast
    omega
  · unfold scientific at hplace
    omega

/-- An integer that is written positionally has few bits, also with the zero behind its point. -/
theorem whole_digits_le {d : Decimal} (hwhole : 0 ≤ d.exponent)
    (hplace : d.scientific ≤ limitLayout.greatest) :
    d.digits * 10 ^ (d.exponent + 1).toNat ≤ 2 ^ 53 := by
  calc d.digits * 10 ^ (d.exponent + 1).toNat ≤ 10 ^ 14 :=
        (whole_digits_lt 12 hwhole hplace).le
    _ ≤ 2 ^ 53 := by decide

/-- A number that is no integer is read as its digits scaled by a power of ten within range. -/
theorem reads_readOnce {n : Numeral} (hinteger : ¬ n.IsInteger) {significand : Nat} {exponent : Int}
    (hscientific : n.scientific = (significand, exponent)) (hpos : 0 < significand)
    (hfew : significand ≤ 2 ^ 53) (hleast : -53 ≤ exponent) (hmost : exponent < 40) :
    n.Reads (.real (if n.negative then -(readOnce significand exponent)
      else readOnce significand exponent)) := by
  obtain ⟨hfinite, -⟩ := readOnce_spec hpos hfew hleast (by omega)
  refine .real hinteger ?_
  rw [hscientific]
  exact scaled_eq_readOnce (by unfold largestPower; omega) hfinite

/-- **A positive limit is read back**: the number that its shortest decimal is written as is scaled
to a 64-bit value that is the limit in 32 bits. -/
theorem exists_reading {code : Nat} (hcode : 0 < code) (hfinite : code < Format.single.infinity)
    (negative : Bool) :
    ∃ y : Double, y.negative = false ∧ (y.convert Format.single).code = code ∧
      (limitLayout.numeral negative (shortest Format.single code)).Reads
        (.real (if negative then -y else y)) := by
  obtain ⟨hrepresents, hpos, hdigits, hleast, hmost⟩ := shortest_limit hcode hfinite
  generalize shortest Format.single code = d at *
  have hinteger := not_isInteger_numeral limitLayout negative d
  have hsign := negative_numeral limitLayout negative d
  have hfew : d.digits ≤ 2 ^ 53 := hdigits.trans (by decide)
  have hbound : 2 ^ 53 < significandBound := by decide
  -- a zero behind the point of an integer is a digit more than the decimal has
  rcases scientific_numeral limitLayout negative (hfew.trans_lt hbound)
      fun hwhole hplace => (whole_digits_le hwhole hplace).trans_lt hbound
    with hplain | ⟨hwhole, hplace, hscientific⟩
  · have hreads := reads_readOnce hinteger hplain hpos hfew hleast hmost
    rw [hsign] at hreads
    exact ⟨_, negative_readOnce _ _,
      code_convert_readOnce hcode hfinite hrepresents hpos hfew hleast hmost, hreads⟩
  · have hfew := whole_digits_le hwhole hplace
    have hreads := reads_readOnce hinteger hscientific
      (Nat.mul_pos hpos (Nat.pow_pos (by decide))) hfew (by decide) (by decide)
    rw [hsign] at hreads
    exact ⟨_, negative_readOnce _ _,
      code_convert_whole hcode hfinite hrepresents hpos hwhole hfew, hreads⟩

theorem reads_zeroNumeral (negative : Bool) :
    (zeroNumeral negative).Reads
      (.real (if negative then -(readOnce 0 (-1)) else readOnce 0 (-1))) := by
  have hscaled : scaled 0 (-1) = some (readOnce 0 (-1)) :=
    scaled_eq_readOnce (by decide) (by decide +kernel)
  refine .real (n := zeroNumeral negative) ?_ hscaled
  rintro ⟨hfraction, -⟩
  cases hfraction

/-- The text of a finite limit without its sign is a number of the grammar, which is read as a
64-bit value that is the limit in 32 bits. -/
theorem exists_numeral {x : Single} (h : x.isFinite = true) :
    ∃ (n : Numeral) (y : Double), n.WellFormed ∧ n.negative = x.negative ∧
      n.magnitude = (if x.isZero then ['0', '.', '0']
        else limitLayout.decimalText (shortest Format.single x.code)) ∧
      y.negative = false ∧ (y.convert Format.single).code = x.code ∧
      n.Reads (.real (if x.negative then -y else y)) := by
  by_cases hzero : x.isZero = true
  · rw [if_pos hzero]
    refine ⟨zeroNumeral x.negative, readOnce 0 (-1), wellFormed_zeroNumeral _, rfl, rfl,
      negative_readOnce _ _, ?_, reads_zeroNumeral _⟩
    rw [beq_iff_eq.mp hzero]
    decide +kernel
  · rw [if_neg hzero]
    have hpos : 0 < x.code := Nat.pos_of_ne_zero fun hcode => hzero (beq_iff_eq.mpr hcode)
    have hfinite : x.code < Format.single.infinity := of_decide_eq_true h
    obtain ⟨y, hy, hcode, hreads⟩ := exists_reading hpos hfinite x.negative
    obtain ⟨-, hdigits, -⟩ := shortest_limit hpos hfinite
    exact ⟨limitLayout.numeral x.negative (shortest Format.single x.code), y,
      wellFormed_numeral _ _ hdigits, negative_numeral _ _ _, magnitude_numeral _ _ _, hy, hcode,
      hreads⟩

/-- **The text of a finite limit is read as a number that is the limit in 32 bits.** -/
theorem fragment_finiteLimit (depth : Nat) {x : Single} (h : x.isFinite = true) :
    ∃ y : Double, y.convert Format.single = x ∧
      Fragment depth (limitText x) (.number (.real y)) := by
  obtain ⟨n, y, hform, hsign, hmagnitude, hy, hcode, hreads⟩ := exists_numeral h
  have htext : limitText x = n.text := by
    rw [limitText, if_pos h, Layout.text, ← hmagnitude, Numeral.text, hsign]
  rw [htext]
  exact ⟨_, convert_signed hy hcode, fragment_numeral depth hform hreads⟩

/-! ## Jobs -/

theorem readStrings_names (names : List String) :
    readStrings (.array (names.map .string)) = .ok names := by
  show (names.map Json.string).mapM readString = .ok names
  induction names with
  | nil => rfl
  | cons name names ih =>
    rw [List.map_cons, List.mapM_cons, ih]
    rfl

theorem eraseDups_of_nodup {α : Type} [BEq α] [LawfulBEq α] {xs : List α} (h : xs.Nodup) :
    xs.eraseDups = xs := by
  induction h with
  | nil => rfl
  | @cons first others hapart _ ih =>
    have hkept : others.filter (fun x => !x == first) = others := by
      refine List.filter_eq_self.mpr fun x hx => ?_
      simp [(hapart x hx).symm]
    rw [List.eraseDups_cons, hkept, ih]

theorem ofList_names (cavities : CavityList) : CavityList.ofList cavities.names = cavities := by
  obtain ⟨names, hnodup⟩ := cavities
  have heach := eraseDups_of_nodup hnodup
  unfold CavityList.ofList
  dsimp only
  simp only [heach]

theorem readInt32_toInt (i : Int32) : readInt32 (.number (.integer i.toInt)) = .ok i := by
  rw [readInt32, if_pos ⟨i.minValue_le_toInt, i.toInt_le⟩, Int32.ofInt_toInt]

theorem optionalMember_eq {α : Type} {read : Json → Except Mismatch α} {members : Members}
    {name : String} {value : Json} {a : α} (hmember : members.get? name = some value)
    (hread : read value = .ok a) : optionalMember read members name = .ok (some a) := by
  rw [optionalMember, hmember]
  show (read value).map some = _
  rw [hread]
  rfl

/-- The members of a job are read as the job, when its limits are what they are read as. -/
theorem ofJson_members {job : Job} {phase momentum : Double}
    (hphase : phase.convert Format.single = job.maxPhaseError)
    (hmomentum : momentum.convert Format.single = job.maxMomentumError) :
    ofJson (.object
      [("cavities", .array (job.cavities.names.map .string)),
       ("continuous", .boolean job.continuous),
       ("correct", .boolean job.correct),
       ("kick-samples", .number (.integer job.kickSamples.toInt)),
       ("max-momentum-error", .number (.real momentum)),
       ("max-phase-error", .number (.real phase))]) = .ok job := by
  have hnames := readStrings_names job.cavities.names
  have hsamples := readInt32_toInt job.kickSamples
  have hphaseRead : readSingle (.number (.real phase)) = .ok job.maxPhaseError :=
    congrArg Except.ok hphase
  have hmomentumRead : readSingle (.number (.real momentum)) = .ok job.maxMomentumError :=
    congrArg Except.ok hmomentum
  rw [ofJson, ofMembers, optionalMember_eq rfl hnames,
    (optionalMember_eq rfl rfl :
      optionalMember readBoolean _ "continuous" = .ok (some job.continuous)),
    (optionalMember_eq rfl rfl : optionalMember readBoolean _ "correct" = .ok (some job.correct)),
    optionalMember_eq rfl hsamples, optionalMember_eq rfl hmomentumRead,
    optionalMember_eq rfl hphaseRead]
  show Except.ok { job with cavities := CavityList.ofList job.cavities.names } = _
  rw [ofList_names]

/-- **The text of a job with finite limits is read as the job.** -/
theorem exists_fragment_of_finite (depth : Nat) {job : Job} (h : job.hasFiniteLimits = true) :
    ∃ value, job.Described value ∧ ofJson value = .ok job ∧
      Fragment (depth + 2) job.wireText value := by
  obtain ⟨hphase, hmomentum⟩ := Bool.and_eq_true_iff.mp h
  obtain ⟨phase, hphaseRead, hphaseText⟩ := fragment_finiteLimit (depth + 1) hphase
  obtain ⟨momentum, hmomentumRead, hmomentumText⟩ := fragment_finiteLimit (depth + 1) hmomentum
  refine ⟨_, ⟨_, _, ?_, ?_, rfl⟩, ofJson_members hphaseRead hmomentumRead,
    fragment_members hphaseText hmomentumText⟩
  · rw [IsLimit, if_pos hphase]
    exact ⟨_, rfl⟩
  · rw [IsLimit, if_pos hmomentum]
    exact ⟨_, rfl⟩

end CavityConsole.Job

namespace CavityConsole.Command

open Json

/-- **The job that is sent is the job that is read back.** For every job with finite limits, the
line that starts it is a document, and the job of that document is the same in every part: its
flags, both limits bit for bit, the samples, and the cavities in their order. A job notification
with these members would report that job and nothing else. -/
theorem start_job_read_back (job : Job) (h : job.hasFiniteLimits = true) :
    ∃ document value, Document.ofLine (start job).line = .ok document ∧
      Notification.field? document "job" = some value ∧ Job.ofJson value = .ok job ∧
      Notification.jobOfDocument document = .ok (some { job }) := by
  obtain ⟨value, hdescribed, hread, hvalue⟩ := Job.exists_fragment_of_finite 124 h
  have hcarries : (start job).Carries [("job", value)] := ⟨value, hdescribed, rfl⟩
  have hline : Fragment maxDepth (start job).line.toList
      (.object [("command", .string "start"), ("job", value)]) := by
    rw [line, String.toList_ofList, ← ofList_carried hcarries]
    exact fragment_object
      (.cons ⟨rfl, fragment_string 126 "start"⟩ (.cons ⟨rfl, hvalue⟩ .nil))
  have hparse := hline.parse
  rw [String.ofList_toList] at hparse
  have hfield : Notification.field? [("command", .string "start"), ("job", value)] "job" =
      some value := by
    obtain ⟨phase, momentum, -, -, rfl⟩ := hdescribed
    rfl
  refine ⟨[("command", .string "start"), ("job", value)], value, ?_, hfield, hread, ?_⟩
  · rw [Document.ofLine, hparse]
  · rw [Notification.jobOfDocument, hfield]
    simp only [hread]
    rfl

/-- A job with names that need escapes. Its limits are `7.038531e-26`, which a single rounding in 64
bits would change, and the least one below zero. -/
def delicate : Job where
  correct := true
  continuous := false
  maxPhaseError := Binary.ofDecimal false 7038531 (-32)
  maxMomentumError := Binary.ofDecimal true 1 (-45)
  kickSamples := -7
  cavities := .ofList ["\"", "a\nb"]

theorem start_job_read_back_delicate :
    delicate.hasFiniteLimits = true ∧
      ∃ document value, Document.ofLine (start delicate).line = .ok document ∧
        Notification.field? document "job" = some value ∧ Job.ofJson value = .ok delicate ∧
        Notification.jobOfDocument document = .ok (some { job := delicate }) :=
  ⟨by decide +kernel, start_job_read_back delicate (by decide +kernel)⟩

end CavityConsole.Command
