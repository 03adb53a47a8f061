import CavityConsole.Proofs.Binary.Rounds
import CavityConsole.Proofs.Job.RoundTrip

/-!
# A job as a value of a document is read back

As a value of a document a job holds its limits as 64-bit values. These have all the bits of a
32-bit value, so nothing is rounded on the way there, and on the way back a value is rounded to
itself (`convert_convert`).

**The law** (`ofJson_toJson`): a job with finite limits is a value with numbers for its limits, and
the job of that value is the job itself, bit for bit.
-/

namespace CavityConsole

namespace Binary

variable {f : Format}

/-- A magnitude is rounded to itself. -/
theorem Format.rounds_value (f : Format) {code : Nat} (h : code < f.infinity) :
    f.Rounds (f.value code) code := by
  have hbelow : f.value code < f.halfway (f.infinity - 1) :=
    (f.value_strictMono.monotone (Nat.le_sub_one_of_lt h)).trans_lt (f.value_lt_halfway _)
  refine .finite h hbelow (fun other _ => ?_) fun other _ hother hsame => ?_
  · rw [sub_self, abs_zero]
    exact abs_nonneg _
  · rw [sub_self, abs_zero, eq_comm, abs_eq_zero, sub_eq_zero] at hsame
    exact absurd (f.value_strictMono.injective hsame).symm hother

/-- A 32-bit value has few enough bits for 64 bits, at a place that 64 bits have. -/
theorem representable_amount (x : Single) : Format.double.Representable x.amount := by
  obtain ⟨n, hn, hunits⟩ := Format.single.exists_steps x.code
  have hamount : x.amount = n * (2 ^ (x.code / Format.single.binade - 1) / 2 ^ 149) := by
    rw [amount, Format.value, hunits, Format.step]
    push_cast
    rw [mul_div_assoc]
    rfl
  rw [hamount]
  exact Format.double.representable_scaled (hn.le.trans (by decide)) _ (by decide)

variable {x : Single}

/-- A finite 32-bit value is finite in 64 bits. -/
theorem isFinite_convert_double (h : x.isFinite = true) :
    (x.convert Format.double).isFinite = true := by
  rw [convert, if_pos h]
  refine isFinite_ofRatio (k := 130) ?_ (by decide)
  calc x.units < 10 ^ 39 * 2 ^ Format.single.scale := Job.units_lt_of_isFinite h
    _ ≤ 2 ^ 130 * 2 ^ Format.single.scale := Nat.mul_le_mul_right _ (by decide)
    _ = Nat.pow 2 Format.single.scale * 2 ^ 130 := Nat.mul_comm _ _

/-- Nothing is rounded on the way to 64 bits. -/
theorem amount_convert_double (h : x.isFinite = true) :
    (x.convert Format.double).amount = x.amount := by
  have hfinite := isFinite_convert_double h
  rw [convert, if_pos h] at hfinite ⊢
  have hratio := ratio_convert x
  rw [← hratio]
  refine amount_ofRatio_of_representable (Nat.two_pow_pos _) hfinite ?_
  rw [hratio]
  exact representable_amount x

/-- **A finite value comes back from 64 bits**, bit for bit. -/
theorem convert_convert (h : x.isFinite = true) :
    (x.convert Format.double).convert Format.single = x := by
  obtain ⟨hrounds, hsign⟩ := rounds_convert (g := Format.single) (isFinite_convert_double h)
  rw [amount_convert_double h] at hrounds
  have hcode : x.code < Format.single.infinity := of_decide_eq_true h
  exact eq_of_parts (hrounds.unique (Format.single.rounds_value hcode))
    (hsign.trans (negative_convert _ x))

end Binary

namespace Job

open Json Binary

/-- The value of a job: its limits are numbers when they are finite. -/
theorem toJson_eq {job : Job} (h : job.hasFiniteLimits = true) :
    job.toJson = .object
      [("cavities", .array (job.cavities.names.map .string)),
       ("continuous", .boolean job.continuous),
       ("correct", .boolean job.correct),
       ("kick-samples", .number (.integer job.kickSamples.toInt)),
       ("max-momentum-error", .number (.real (job.maxMomentumError.convert Format.double))),
       ("max-phase-error", .number (.real (job.maxPhaseError.convert Format.double)))] := by
  obtain ⟨hphase, hmomentum⟩ := Bool.and_eq_true_iff.mp h
  rw [toJson, limitToJson, limitToJson, if_pos hphase, if_pos hmomentum, ofList_members]

/-- **A job with finite limits is the job of its value.** -/
theorem ofJson_toJson {job : Job} (h : job.hasFiniteLimits = true) :
    ofJson job.toJson = .ok job := by
  obtain ⟨hphase, hmomentum⟩ := Bool.and_eq_true_iff.mp h
  rw [toJson_eq h]
  exact ofJson_members (convert_convert hphase) (convert_convert hmomentum)

end Job

end CavityConsole
