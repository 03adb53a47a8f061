import CavityConsole.Proofs.Json.Members
import CavityConsole.Proofs.Outcome
import CavityConsole.Settings.Layer

/-!
# Which values settings take

A setting takes the values of its type (`Setting.Takes`): a text, a whole number up to a bound, or
the name of a form of the log, for which a table may stand that has this name for its one key. What
a setting is then is shown as a document would have it (`Settings.shown`); settings that are shown
alike are the same (`Settings.eq_of_shown`).

**The law** (`Layer.settings_eq_ok_iff`): a layer gives settings exactly when every value that is
seen under the name of a setting is one that this setting takes. Each setting is then what it took,
or its default where nothing is seen, and has no say in another one.

One setting is set by itself (`Settings.takes_of_put`, `Settings.shown_of_put`). The law follows by
induction on the settings, each of which comes up once.
-/

namespace CavityConsole

/-! ## Types -/

/-- A setting, as a document would have it. -/
def Settings.shown (settings : Settings) : Setting → Json
  | .serverHost => .string settings.serverHost
  | .serverPort => .number (.integer settings.serverPort.toNat)
  | .connectTimeoutSecs => .number (.integer settings.connectTimeoutSecs.toNat)
  | .responseTimeoutSecs => .number (.integer settings.responseTimeoutSecs.toNat)
  | .maxFrameLength => .number (.integer settings.maxFrameLength.toNat)
  | .logFilter => .string settings.logFilter
  | .logFormat => .string settings.logFormat.name

namespace Setting

/-- Whether a setting is any text. -/
def isText : Setting → Bool
  | .serverHost | .logFilter => true
  | _ => false

/-- The largest number that a setting may be, if it is a number. -/
def bound? : Setting → Option Nat
  | .serverPort => some Settings.portBound
  | .connectTimeoutSecs | .responseTimeoutSecs | .maxFrameLength => some Settings.countBound
  | _ => none

/-- A value that a setting takes, and what the setting is then shown as. -/
inductive Takes : Setting → Json → Json → Prop where
  | text {setting : Setting} (isText : setting.isText = true) (s : String) :
    Takes setting (.string s) (.string s)
  | number {setting : Setting} {bound n : Nat} (isNumber : setting.bound? = some bound)
    (fits : n ≤ bound) : Takes setting (.number (.integer n)) (.number (.integer n))
  | form (form : LogFormat) : Takes .logFormat (.string form.name) (.string form.name)
  | table (form : LogFormat) : Takes .logFormat (.object [(form.name, .null)]) (.string form.name)

/-- The default of a setting. -/
def byDefault (setting : Setting) : Json := ({} : Settings).shown setting

/-- What a setting is shown as when it takes what is seen, or stays when nothing is seen. -/
def Holds (setting : Setting) (before : Json) : (seen : Option Json) → Json → Prop
  | none, value => value = before
  | some given, value => setting.Takes given value

theorem name_injective {a b : Setting} (h : a.name = b.name) : a = b := by
  cases a <;> cases b <;> first | rfl | exact absurd h (by decide)

theorem mem_all (setting : Setting) : setting ∈ all := by
  cases setting <;> decide

end Setting

namespace Settings

open Json

theorem lookup_choice_eq_some_iff {name : String} {form : LogFormat} :
    LogFormat.choice.lookup name = some form ↔ name = form.name := by
  have hlookup : LogFormat.choice.lookup name =
      if name = "compact" then some .compact else if name = "json" then some .json else none := by
    simp only [LogFormat.choice, List.map_cons, List.map_nil, List.lookup_cons, LogFormat.name,
      List.lookup_nil]
    split <;> split <;> simp_all
  rw [hlookup]
  constructor
  · intro h
    split at h
    next heq =>
      cases h
      exact heq
    next =>
      split at h
      next heq =>
        cases h
        exact heq
      next => cases h
  · rintro rfl
    cases form <;> rfl

theorem form_injective {a b : LogFormat} (h : a.name = b.name) : a = b := by
  cases a <;> cases b <;> first | rfl | exact absurd h (by decide)

/-- **Settings that are shown alike are the same.** -/
theorem eq_of_shown {a b : Settings} (h : ∀ setting, a.shown setting = b.shown setting) :
    a = b := by
  have hhost := h .serverHost
  have hport := h .serverPort
  have hconnect := h .connectTimeoutSecs
  have hresponse := h .responseTimeoutSecs
  have hframe := h .maxFrameLength
  have hfilter := h .logFilter
  have hform := h .logFormat
  simp only [shown, Json.string.injEq, Json.number.injEq, Number.integer.injEq, Int.natCast_inj,
    UInt16.toNat_inj, UInt64.toNat_inj] at hhost hport hconnect hresponse hframe hfilter hform
  cases a
  cases b
  simp only at hhost hport hconnect hresponse hframe hfilter hform
  rw [hhost, hport, hconnect, hresponse, hframe, hfilter, form_injective hform]

/-! ## One value -/

theorem requireText_found {given : Json} {expected s : String} :
    given.found.requireText expected = .ok s ↔ given = .string s := by
  cases given with
  | number n => cases n <;> simp [found, Found.requireText]
  | _ => simp [found, Found.requireText]

theorem requireNull_found {given : Json} : given.found.requireNull = .ok () ↔ given = .null := by
  cases given with
  | number n => cases n <;> simp [found, Found.requireNull]
  | _ => simp [found, Found.requireNull]

theorem requireNatural_found {given : Json} {bound n : Nat} {expected : String} :
    given.found.requireNatural bound expected = .ok n ↔
      given = .number (.integer n) ∧ n ≤ bound := by
  cases given with
  | number number =>
    cases number with
    | integer i =>
      simp only [found, Found.requireNatural, Json.number.injEq, Number.integer.injEq]
      split
      next hrange =>
        rw [Except.ok.injEq]
        omega
      next hrange =>
        refine ⟨nofun, ?_⟩
        rintro ⟨rfl, hfits⟩
        omega
    | real x => simp [found, Found.requireNatural]
  | _ => simp [found, Found.requireNatural]

theorem chosen_eq_ok_iff {name : String} {form : LogFormat} :
    chosen LogFormat.choice name = .ok form ↔ name = form.name := by
  rw [← lookup_choice_eq_some_iff, chosen]
  split
  next heq => rw [heq, Except.ok.injEq, Option.some.injEq]
  next heq => simp [heq]

end Settings

namespace Setting

open Settings

/-- A table with one key stands for the key, and anything else for itself. -/
def standsFor : Json → Json
  | .object [(key, _)] => .string key
  | other => other

theorem Takes.eq_standsFor {setting : Setting} {given value : Json}
    (h : setting.Takes given value) : value = standsFor given := by
  cases h <;> rfl

theorem Holds.unique {setting : Setting} {before value value' : Json} {seen : Option Json}
    (h : setting.Holds before seen value) (h' : setting.Holds before seen value') :
    value = value' := by
  cases seen with
  | none => exact Eq.trans h (Eq.symm h')
  | some given => exact h.eq_standsFor.trans h'.eq_standsFor.symm

end Setting

namespace Settings

open Json

variable {settings changed : Settings} {setting : Setting} {given : Json}

theorem putForm_eq_ok_iff {members : Members} :
    settings.putForm members = .ok changed ↔
      ∃ form, members = [(form.name, .null)] ∧ { settings with logFormat := form } = changed := by
  constructor
  · intro h
    rw [putForm.eq_def] at h
    split at h
    next name value =>
      obtain ⟨form, hform, h⟩ := bind_eq_ok_iff.mp h
      obtain ⟨_, hnull, h⟩ := bind_eq_ok_iff.mp h
      rw [chosen_eq_ok_iff] at hform
      rw [requireNull_found] at hnull
      exact ⟨form, by rw [hform, hnull], Except.ok.inj h⟩
    next => cases h
  · rintro ⟨form, rfl, rfl⟩
    simp only [putForm, chosen_eq_ok_iff.mpr (Eq.refl form.name), requireNull_found.mpr rfl]
    rfl

theorem toNat_port {n : Nat} (h : n ≤ portBound) : (UInt16.ofNat n).toNat = n :=
  UInt16.toNat_ofNat_of_lt (Nat.lt_of_le_pred (by decide) h)

theorem toNat_count {n : Nat} (h : n ≤ countBound) : (UInt64.ofNat n).toNat = n :=
  UInt64.toNat_ofNat_of_lt (Nat.lt_of_le_pred (by decide) h)

theorem putFound_logFormat :
    settings.putFound .logFormat given.found = .ok changed ↔
      ∃ form, given = .string form.name ∧ { settings with logFormat := form } = changed := by
  constructor
  · intro h
    obtain ⟨name, hname, h⟩ := bind_eq_ok_iff.mp h
    obtain ⟨form, hform, h⟩ := bind_eq_ok_iff.mp h
    rw [requireText_found] at hname
    rw [chosen_eq_ok_iff] at hform
    exact ⟨form, by rw [hname, hform], Except.ok.inj h⟩
  · rintro ⟨form, rfl, rfl⟩
    cases form <;> rfl

/-- A setting takes what it is set to. -/
theorem takes_of_put (h : settings.put setting given = .ok changed) :
    setting.Takes given (changed.shown setting) := by
  rw [put.eq_def] at h
  split at h
  next members =>
    obtain ⟨form, rfl, rfl⟩ := putForm_eq_ok_iff.mp h
    exact .table form
  next =>
    cases setting with
    | serverHost | logFilter =>
      obtain ⟨s, hs, rfl⟩ := map_eq_ok_iff.mp h
      obtain rfl := requireText_found.mp hs
      exact .text rfl s
    | serverPort =>
      obtain ⟨n, hn, rfl⟩ := map_eq_ok_iff.mp h
      obtain ⟨rfl, hfits⟩ := requireNatural_found.mp hn
      rw [shown, toNat_port hfits]
      exact .number rfl hfits
    | connectTimeoutSecs | responseTimeoutSecs | maxFrameLength =>
      obtain ⟨n, hn, rfl⟩ := map_eq_ok_iff.mp h
      obtain ⟨rfl, hfits⟩ := requireNatural_found.mp hn
      rw [shown, toNat_count hfits]
      exact .number rfl hfits
    | logFormat =>
      obtain ⟨form, rfl, rfl⟩ := putFound_logFormat.mp h
      exact .form form

/-- **The other settings stay.** -/
theorem shown_of_put (h : settings.put setting given = .ok changed) {other : Setting}
    (hother : other ≠ setting) : changed.shown other = settings.shown other := by
  rw [put.eq_def] at h
  split at h
  next =>
    obtain ⟨form, rfl, rfl⟩ := putForm_eq_ok_iff.mp h
    cases other <;> first | rfl | exact absurd rfl hother
  next =>
    cases setting with
    | logFormat =>
      obtain ⟨form, -, rfl⟩ := putFound_logFormat.mp h
      cases other <;> first | rfl | exact absurd rfl hother
    | _ =>
      obtain ⟨_, -, rfl⟩ := map_eq_ok_iff.mp h
      cases other <;> first | rfl | exact absurd rfl hother

/-- A setting can be set to what it takes. -/
theorem exists_put {value : Json} (h : setting.Takes given value) :
    ∃ changed, settings.put setting given = .ok changed := by
  cases h with
  | text isText s => cases setting <;> first | exact ⟨_, rfl⟩ | cases isText
  | number isNumber fits =>
    cases setting with
    | serverPort | connectTimeoutSecs | responseTimeoutSecs | maxFrameLength =>
      cases isNumber
      exact ⟨_, map_eq_ok_iff.mpr ⟨_, requireNatural_found.mpr ⟨rfl, fits⟩, rfl⟩⟩
    | _ => cases isNumber
  | form form => exact ⟨_, putFound_logFormat.mpr ⟨form, rfl, rfl⟩⟩
  | table form => exact ⟨_, putForm_eq_ok_iff.mpr ⟨form, rfl, rfl⟩⟩

end Settings

/-! ## One layer -/

namespace Layer

open Settings

variable {layer : Layer} {before after : Settings} {setting : Setting}

theorem apply_of_ok (h : layer.apply before setting = .ok after) :
    setting.Holds (before.shown setting) (layer.values.get? setting.name) (after.shown setting) ∧
      ∀ other, other ≠ setting → after.shown other = before.shown other := by
  rw [apply] at h
  cases hseen : layer.values.get? setting.name with
  | none =>
    rw [hseen] at h
    cases h
    exact ⟨rfl, fun _ _ => rfl⟩
  | some given =>
    rw [hseen] at h
    exact ⟨takes_of_put h, fun _ => shown_of_put h⟩

theorem exists_apply {value : Json}
    (h : setting.Holds (before.shown setting) (layer.values.get? setting.name) value) :
    ∃ after, layer.apply before setting = .ok after ∧ after.shown setting = value := by
  have hafter : ∃ after, layer.apply before setting = .ok after := by
    rw [apply]
    cases hseen : layer.values.get? setting.name with
    | none => exact ⟨before, rfl⟩
    | some given =>
      rw [hseen] at h
      exact exists_put h
  obtain ⟨after, hafter⟩ := hafter
  exact ⟨after, hafter, (apply_of_ok hafter).1.unique h⟩

/-- **One setting after the other**: each comes to what is seen for it. The induction is on the
settings that are still to come, none of which was set before. -/
theorem foldlM_apply_eq_ok_iff {todo : List Setting} (hnodup : todo.Nodup) :
    todo.foldlM layer.apply before = .ok after ↔
      (∀ setting ∈ todo, setting.Holds (before.shown setting) (layer.values.get? setting.name)
        (after.shown setting)) ∧
      ∀ setting ∉ todo, after.shown setting = before.shown setting := by
  induction todo generalizing before with
  | nil =>
    refine ⟨fun h => ?_, fun ⟨_, h⟩ => ?_⟩
    · cases h
      exact ⟨nofun, fun _ _ => rfl⟩
    · rw [eq_of_shown fun setting => h setting List.not_mem_nil]
      rfl
  | cons first todo ih =>
    obtain ⟨hfirst, hnodup⟩ := List.nodup_cons.mp hnodup
    rw [List.foldlM_cons, bind_eq_ok_iff]
    constructor
    · rintro ⟨middle, hmiddle, h⟩
      obtain ⟨htakes, hothers⟩ := apply_of_ok hmiddle
      obtain ⟨hholds, hstays⟩ := (ih hnodup).mp h
      refine ⟨List.forall_mem_cons.mpr ⟨?_, fun setting hsetting => ?_⟩, fun setting hsetting => ?_⟩
      · rw [hstays first hfirst]
        exact htakes
      · rw [← hothers setting (ne_of_mem_of_not_mem hsetting hfirst)]
        exact hholds setting hsetting
      · rw [List.mem_cons, not_or] at hsetting
        rw [hstays setting hsetting.2, hothers setting hsetting.1]
    · rintro ⟨hholds, hstays⟩
      -- the settings after the first step are not given, but what the first setting took is unique
      obtain ⟨hheld, hholds⟩ := List.forall_mem_cons.mp hholds
      obtain ⟨middle, hmiddle, hvalue⟩ := exists_apply hheld
      have hothers := (apply_of_ok hmiddle).2
      refine ⟨middle, hmiddle, (ih hnodup).mpr
        ⟨fun setting hsetting => ?_, fun setting hsetting => ?_⟩⟩
      · rw [hothers setting (ne_of_mem_of_not_mem hsetting hfirst)]
        exact hholds setting hsetting
      · by_cases heq : setting = first
        · rw [heq, hvalue]
        · rw [hothers setting heq]
          exact hstays setting (by simp [heq, hsetting])

theorem exists_foldlM_apply {todo : List Setting} (hnodup : todo.Nodup)
    (h : ∀ setting ∈ todo, ∃ value,
      setting.Holds (before.shown setting) (layer.values.get? setting.name) value) :
    ∃ after, todo.foldlM layer.apply before = .ok after := by
  induction todo generalizing before with
  | nil => exact ⟨before, rfl⟩
  | cons first todo ih =>
    obtain ⟨hfirst, hnodup⟩ := List.nodup_cons.mp hnodup
    obtain ⟨⟨value, hvalue⟩, h⟩ := List.forall_mem_cons.mp h
    obtain ⟨middle, hmiddle, -⟩ := exists_apply hvalue
    have hothers := (apply_of_ok hmiddle).2
    have hmore : ∀ setting ∈ todo, ∃ value,
        setting.Holds (middle.shown setting) (layer.values.get? setting.name) value := by
      intro setting hsetting
      rw [hothers setting (ne_of_mem_of_not_mem hsetting hfirst)]
      exact h setting hsetting
    obtain ⟨after, hafter⟩ := ih hnodup hmore
    refine ⟨after, ?_⟩
    rw [List.foldlM_cons, hmiddle]
    exact hafter

/-- **The settings of a layer**: each is what is seen under its name, or its default. -/
theorem settings_eq_ok_iff {settings : Settings} :
    layer.settings = .ok settings ↔
      ∀ setting : Setting,
        setting.Holds setting.byDefault (layer.values.get? setting.name)
          (settings.shown setting) := by
  rw [Layer.settings, foldlM_apply_eq_ok_iff (by decide)]
  exact ⟨fun h setting => h.1 setting setting.mem_all,
    fun h => ⟨fun setting _ => h setting, fun setting hsetting => absurd setting.mem_all hsetting⟩⟩

/-- **A layer gives settings when each of them takes what is seen under its name.** -/
theorem exists_settings_iff :
    (∃ settings, layer.settings = .ok settings) ↔
      ∀ setting : Setting, ∃ value,
        setting.Holds setting.byDefault (layer.values.get? setting.name) value :=
  ⟨fun ⟨_, h⟩ setting => ⟨_, settings_eq_ok_iff.mp h setting⟩,
    fun h => exists_foldlM_apply (by decide) fun setting _ => h setting⟩

/-- **Nothing else in a layer has a say**, not even in what is reported. -/
theorem settings_congr {other : Layer}
    (h : ∀ setting : Setting, layer.values.get? setting.name = other.values.get? setting.name) :
    layer.settings = other.settings := by
  have happly : layer.apply = other.apply := by
    funext settings setting
    rw [apply, apply, h setting]
  rw [Layer.settings, Layer.settings, happly]

end Layer

end CavityConsole
