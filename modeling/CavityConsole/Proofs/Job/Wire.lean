import CavityConsole.Job.Wire
import CavityConsole.Proofs.Json.Fragment

/-!
# Jobs on the wire are read back

The text of a job is an object with the six members of the job. Everything but the limits is read
back as it was; a limit is read as a number exactly when it is finite (`IsLimit`). A finite limit is
below `10 ^ 39`, so no power of ten in its text is too large for a 64-bit value.

**The law** (`fragment_wireText`): the text of a job is read as a value that describes the job.

**What it does not establish.** The number that a finite limit is read as; reading takes two
roundings, and a document has more bits than a limit.
-/

namespace CavityConsole.Job

open Json

/-- What a limit is in a document: a number when it is finite, and nothing otherwise. -/
def IsLimit (x : Single) (value : Json) : Prop :=
  if x.isFinite then ∃ n, value = .number n else value = .null

/-- What a job is in a document: an object of the six members and no others. -/
def Described (job : Job) (value : Json) : Prop :=
  ∃ phase momentum, IsLimit job.maxPhaseError phase ∧ IsLimit job.maxMomentumError momentum ∧
    value = .object
      [("cavities", .array (job.cavities.names.map .string)),
       ("continuous", .boolean job.continuous),
       ("correct", .boolean job.correct),
       ("kick-samples", .number (.integer job.kickSamples.toInt)),
       ("max-momentum-error", momentum),
       ("max-phase-error", phase)]

/-! ## Limits -/

/-- Powers of ten up to `10 ^ 40` are far from the largest 64-bit value. -/
theorem scaled_isSome {significand : Nat} {exponent : Int} (h : significand < significandBound)
    (hexponent : exponent ≤ 40) : (Decimal.scaled significand exponent).isSome = true := by
  have hvalue : (Binary.ofNat significand : Double).units <
      2 ^ (Binary.Format.double.scale + (64 + 1)) :=
    Binary.units_ofRatio_lt (lt_of_lt_of_le h (by decide)) (by decide)
  have hpower : (Decimal.power exponent.toNat).units <
      2 ^ (Binary.Format.double.scale + (133 + 1)) := by
    refine Binary.units_ofRatio_lt ?_ (by decide)
    rw [Nat.one_mul]
    calc Nat.pow 10 exponent.toNat ≤ 10 ^ 40 := Nat.pow_le_pow_right (by decide) (by omega)
      _ < 2 ^ 133 := by decide
  unfold Decimal.scaled
  dsimp only
  split
  · rfl
  · have hlargest : exponent.toNat ≤ Decimal.largestPower := by
      unfold Decimal.largestPower
      omega
    rw [if_pos hlargest, if_pos (Binary.isFinite_mul hvalue hpower (by decide))]
    rfl

theorem units_lt_of_isFinite {x : Single} (h : x.isFinite = true) :
    x.units < 10 ^ 39 * 2 ^ Binary.Format.single.scale := by
  have hcode : x.code < 255 * Binary.Format.single.binade := of_decide_eq_true h
  have hexponent : x.code / Binary.Format.single.binade < 255 :=
    (Nat.div_lt_iff_lt_mul Binary.Format.single.binade_pos).mpr hcode
  calc x.units
      < 2 ^ (Binary.Format.single.precision + (x.code / Binary.Format.single.binade - 1)) :=
        Binary.Format.single.units_lt x.code
    _ ≤ 2 ^ (Binary.Format.single.scale + 128) := by
        refine Nat.pow_le_pow_right (by decide) ?_
        show 24 + _ ≤ 149 + 128
        omega
    _ = 2 ^ 128 * 2 ^ Binary.Format.single.scale := by rw [Nat.add_comm, Nat.pow_add]
    _ ≤ 10 ^ 39 * 2 ^ Binary.Format.single.scale := Nat.mul_le_mul_right _ (by decide)

/-- The magnitude of a finite limit in its layout. -/
theorem unsigned_limit {x : Single} (h : x.isFinite = true) :
    Unsigned 40 (if x.isZero then ['0', '.', '0']
      else limitLayout.decimalText (Decimal.shortest Binary.Format.single x.code)) := by
  split
  next hzero =>
    exact (unsigned_point wholeDigits_zero (List.cons_ne_nil '0' [])
      (List.forall_mem_singleton.mpr rfl)).mono (by decide)
  next hzero =>
    have hcode : 0 < x.code := by
      simp only [Binary.isZero, beq_iff_eq] at hzero
      omega
    obtain ⟨hdigits, hplace⟩ := Decimal.shortest_bounds
      (Binary.Format.single.units_pos hcode) (units_lt_of_isFinite h)
    exact unsigned_decimalText limitLayout hdigits (by decide) (by omega)

/-- The text of a limit is read as a number when the limit is finite, and as nothing otherwise. -/
theorem fragment_limitText (depth : Nat) (x : Single) :
    ∃ value, IsLimit x value ∧ Fragment depth (limitText x) value := by
  unfold IsLimit limitText
  by_cases h : x.isFinite
  · simp only [if_pos h]
    obtain ⟨n, hn⟩ := fragment_real depth (unsigned_limit h) (fun _ _ => scaled_isSome) x.negative
    exact ⟨_, ⟨_, rfl⟩, hn⟩
  · simp only [if_neg h]
    exact ⟨_, rfl, fragment_null depth⟩

/-! ## The six members -/

/-- The members come in the order of their names, whatever the order in which they are written. -/
theorem ofList_members (correct continuous phase momentum samples cavities : Json) :
    Members.ofList
        [("correct", correct), ("continuous", continuous), ("max-phase-error", phase),
         ("max-momentum-error", momentum), ("kick-samples", samples), ("cavities", cavities)] =
      [("cavities", cavities), ("continuous", continuous), ("correct", correct),
       ("kick-samples", samples), ("max-momentum-error", momentum),
       ("max-phase-error", phase)] := by
  simp only [Members.ofList, Members.insert, List.foldl_cons, List.foldl_nil, String.reduceLT,
    String.reduceEq, reduceIte]

/-- The text of a job is read as its members, whatever its limits are read as. -/
theorem fragment_members {depth : Nat} {job : Job} {phase momentum : Json}
    (hphase : Fragment (depth + 1) (limitText job.maxPhaseError) phase)
    (hmomentum : Fragment (depth + 1) (limitText job.maxMomentumError) momentum) :
    Fragment (depth + 2) job.wireText (.object
      [("cavities", .array (job.cavities.names.map .string)),
       ("continuous", .boolean job.continuous),
       ("correct", .boolean job.correct),
       ("kick-samples", .number (.integer job.kickSamples.toInt)),
       ("max-momentum-error", momentum),
       ("max-phase-error", phase)]) := by
  have hsamples : Fragment (depth + 1) (Decimal.integerText job.kickSamples.toInt)
      (.number (.integer job.kickSamples.toInt)) := by
    have hlow := job.kickSamples.le_toInt
    have hhigh := job.kickSamples.toInt_lt
    exact fragment_integer (depth + 1) (by simp [UInt64.size]; omega) (by simp [UInt64.size]; omega)
  have hnames := fragment_items (fragment_string depth) job.cavities.names
  rw [← ofList_members]
  exact fragment_object <|
    .cons ⟨rfl, fragment_boolean (depth + 1) job.correct⟩ <|
    .cons ⟨rfl, fragment_boolean (depth + 1) job.continuous⟩ <|
    .cons ⟨rfl, hphase⟩ <|
    .cons ⟨rfl, hmomentum⟩ <|
    .cons ⟨rfl, hsamples⟩ <|
    .cons ⟨rfl, hnames⟩ .nil

/-- **The text of a job is read as a value that describes it.** -/
theorem fragment_wireText (depth : Nat) (job : Job) :
    ∃ value, job.Described value ∧ Fragment (depth + 2) job.wireText value := by
  obtain ⟨phase, hphase, hphaseText⟩ := fragment_limitText (depth + 1) job.maxPhaseError
  obtain ⟨momentum, hmomentum, hmomentumText⟩ :=
    fragment_limitText (depth + 1) job.maxMomentumError
  exact ⟨_, ⟨phase, momentum, hphase, hmomentum, rfl⟩, fragment_members hphaseText hmomentumText⟩

end CavityConsole.Job
