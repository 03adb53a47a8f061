import CavityConsole.Proofs.Json.Overlay
import CavityConsole.Proofs.Outcome
import CavityConsole.Proofs.Settings.Flags
import CavityConsole.Proofs.Settings.Variables
import CavityConsole.Settings.Loading

/-!
# Settings in layers

What a setting gets (`Setting.Gets`) depends on what flags, variables and the file give for it and
on nothing else: the highest of them that gives something hides the others. There is one exception.
A variable and the file may both give a table for the form of the log, and then both tables are seen
as one (`LogFormat.OneForm`).

**The law** (`Sources.load_by_layers`): settings are loaded exactly when no flag stands twice and
each setting gets a value of its type, and they are these values. A value that is hidden is never
looked at: any other value in its place changes nothing, not even what is reported.

All layers are first laid over one another (`Sources.Gives.exists_merged`), and what is seen through
them is checked afterwards; `Setting.gets_iff_holds` compares this with what each layer says alone.
-/

namespace CavityConsole

/-! ## Two tables -/

namespace LogFormat

open Json

variable {above below : Members}

/-- Two tables, one over the other, that together have the name of a form for their one key, and
`null` is what is seen there. -/
inductive OneForm (form : LogFormat) : (above below : Members) → Prop where
  /-- The lower table alone. -/
  | below : OneForm form [] [(form.name, .null)]
  /-- The upper table alone. -/
  | above : OneForm form [(form.name, .null)] []
  /-- Both name the form; the value of the upper one is seen. -/
  | both (hidden : Json) : OneForm form [(form.name, .null)] [(form.name, hidden)]

/-- **Two tables together are one form only so.** No key of either table is lost. -/
theorem membersOver_eq_form_iff (h : above.Ascending) {form : LogFormat} :
    membersOver above below = [(form.name, .null)] ↔ OneForm form above below := by
  constructor
  · intro hform
    have hkeys : ∀ member ∈ above, member.1 = form.name := by
      intro member hmember
      obtain ⟨value, hvalue⟩ :=
        Option.ne_none_iff_exists'.mp (Members.get?_ne_none_of_mem hmember)
      have hseen := get?_membersOver h below member.1
      rw [hform, hvalue, Members.get?_cons] at hseen
      -- a key of the upper table is still there when the lower one is below it
      split at hseen
      next heq => exact heq
      next => cases hbelow : below.get? member.1 <;> rw [hbelow] at hseen <;> cases hseen
    match above with
    | [] =>
      obtain rfl : below = _ := hform
      exact .below
    | (k, v) :: (l, w) :: rest =>
      have hlt : k < l := (List.pairwise_cons.mp h).1 (l, w) List.mem_cons_self
      have hk : k = form.name := hkeys (k, v) List.mem_cons_self
      have hl : l = form.name := hkeys (l, w) (List.mem_cons_of_mem _ List.mem_cons_self)
      rw [hk, hl] at hlt
      exact absurd hlt (String.lt_irrefl _)
    | [(k, v)] =>
      obtain rfl : k = form.name := hkeys (k, v) List.mem_cons_self
      rw [membersOver, membersOver] at hform
      obtain ⟨-, hseen, rfl | ⟨hidden, rfl⟩⟩ := Members.insert_eq_singleton hform
      · obtain rfl : v = .null := hseen
        exact .above
      · rw [Members.get?_cons, if_pos rfl] at hseen
        obtain rfl := eq_null_of_laidOver hseen
        exact .both hidden
  · intro hform
    cases hform <;> cases form <;> rfl

end LogFormat

/-! ## One setting -/

namespace Setting

/-- What a setting gets from flags, variables and a file: what the highest of them gives that gives
something, and its default when none does. Only two tables are seen together. -/
inductive Gets (given : List (ConfigFlag × String)) (environment : List (String × String))
    (file : Members) : Setting → Json → Prop where
  /-- A flag hides everything else. -/
  | flag {setting : Setting} {text : String} {value : Json}
    (set : given.lookup (.setting setting) = some text) (typed : setting.Typed text value) :
    Gets given environment file setting value
  /-- A variable hides the file. -/
  | environment {setting : Setting} {seen value : Json}
    (noFlag : given.lookup (.setting setting) = none)
    (set : Variables.last? environment setting.name = some seen)
    (apart : ∀ above below, seen = .object above → file.get? setting.name ≠ some (.object below))
    (takes : setting.Takes seen value) : Gets given environment file setting value
  /-- A table of a variable and a table of the file. -/
  | tables {form : LogFormat} {above below : Members}
    (noFlag : given.lookup (.setting .logFormat) = none)
    (set : Variables.last? environment Setting.logFormat.name = some (.object above))
    (filed : file.get? Setting.logFormat.name = some (.object below))
    (oneForm : form.OneForm above below) :
    Gets given environment file .logFormat (.string form.name)
  /-- The file gives it. -/
  | file {setting : Setting} {seen value : Json}
    (noFlag : given.lookup (.setting setting) = none)
    (notSet : Variables.last? environment setting.name = none)
    (filed : file.get? setting.name = some seen) (takes : setting.Takes seen value) :
    Gets given environment file setting value
  /-- Nothing gives it. -/
  | default {setting : Setting} (noFlag : given.lookup (.setting setting) = none)
    (notSet : Variables.last? environment setting.name = none)
    (notFiled : file.get? setting.name = none) :
    Gets given environment file setting setting.byDefault

/-- What is seen of a setting through all layers. -/
def seen? (given : List (ConfigFlag × String)) (environment : List (String × String))
    (file : Members) (setting : Setting) : Option Json :=
  Json.over? ((given.lookup (.setting setting)).bind (Flags.value? setting))
    (Json.over? (Variables.last? environment setting.name) (file.get? setting.name))

theorem Typed.takes {setting : Setting} {text : String} {value : Json}
    (h : setting.Typed text value) : setting.Takes value value := by
  cases h with
  | text isText => exact .text isText text
  | number isNumber _ fits => exact .number isNumber fits
  | form form => exact .form form

theorem Typed.ne_object {setting : Setting} {text : String} {value : Json}
    (h : setting.Typed text value) (members : Members) : value ≠ .object members := by
  cases h <;> exact nofun

theorem takes_object_iff {setting : Setting} {members : Members} {value : Json} :
    setting.Takes (.object members) value ↔
      ∃ form : LogFormat, setting = .logFormat ∧ members = [(form.name, .null)] ∧
        value = .string form.name := by
  constructor
  · intro h
    cases h with
    | table form => exact ⟨form, rfl, rfl, rfl⟩
  · rintro ⟨form, rfl, rfl, rfl⟩
    exact .table form

variable {given : List (ConfigFlag × String)} {environment : List (String × String)}
  {file : Members} {setting : Setting} {value : Json}

theorem seen?_of_flag {text : String} {typed : Json}
    (hset : given.lookup (.setting setting) = some text) (htyped : setting.Typed text typed) :
    setting.seen? given environment file = some typed := by
  rw [seen?, hset, Option.bind_some, Flags.value?_eq_some_iff.mpr htyped]
  exact Json.over?_of_apart fun above _ habove => absurd habove (htyped.ne_object above)

theorem seen?_of_noFlag (hnone : given.lookup (.setting setting) = none) :
    setting.seen? given environment file =
      Json.over? (Variables.last? environment setting.name) (file.get? setting.name) := by
  rw [seen?, hnone]
  rfl

theorem gets_iff_of_flag {text : String} {typed : Json}
    (hset : given.lookup (.setting setting) = some text) (htyped : setting.Typed text typed) :
    setting.Gets given environment file value ↔
      setting.Holds setting.byDefault (setting.seen? given environment file) value := by
  rw [seen?_of_flag hset htyped]
  constructor
  · intro h
    cases h with
    | flag hset' htyped' =>
      rw [hset] at hset'
      cases hset'
      have hvalue := Flags.value?_eq_some_iff.mpr htyped'
      rw [Flags.value?_eq_some_iff.mpr htyped] at hvalue
      cases hvalue
      exact htyped.takes
    | environment hnone | tables hnone | file hnone | default hnone =>
      rw [hset] at hnone
      cases hnone
  · intro h
    obtain rfl : value = typed := h.eq_standsFor.trans htyped.takes.eq_standsFor.symm
    exact .flag hset htyped

theorem gets_iff_of_noFlag (hnone : given.lookup (.setting setting) = none) :
    setting.Gets given environment file value ↔
      setting.Holds setting.byDefault (setting.seen? given environment file) value := by
  rw [seen?_of_noFlag hnone]
  constructor
  · intro h
    cases h with
    | flag hset =>
      rw [hnone] at hset
      cases hset
    | environment _ set apart takes =>
      rw [set, Json.over?_of_apart apart]
      exact takes
    | tables _ set filed oneForm =>
      rw [set, filed]
      refine takes_object_iff.mpr ⟨_, rfl, ?_, rfl⟩
      exact (LogFormat.membersOver_eq_form_iff (Variables.ascending_of_last? set)).mpr oneForm
    | file _ notSet filed takes =>
      rw [notSet, filed]
      exact takes
    | default _ notSet notFiled =>
      rw [notSet, notFiled]
      rfl
  · intro h
    cases hset : Variables.last? environment setting.name with
    | none =>
      rw [hset] at h
      cases hfiled : file.get? setting.name with
      | none =>
        rw [hfiled] at h
        obtain rfl : value = _ := h
        exact .default hnone hset hfiled
      | some seen =>
        rw [hfiled] at h
        exact .file hnone hset hfiled h
    | some upper =>
      rw [hset] at h
      -- only two tables are seen together; otherwise the variable hides the file
      by_cases htables : ∃ above below, upper = .object above ∧
          file.get? setting.name = some (.object below)
      · obtain ⟨above, below, rfl, hfiled⟩ := htables
        rw [hfiled] at h
        obtain ⟨form, rfl, hform, rfl⟩ := takes_object_iff.mp h
        have habove := Variables.ascending_of_last? hset
        exact .tables hnone hset hfiled ((LogFormat.membersOver_eq_form_iff habove).mp hform)
      · have apart : ∀ above below, upper = .object above →
            file.get? setting.name ≠ some (.object below) := fun above below habove hfiled =>
          htables ⟨above, below, habove, hfiled⟩
        rw [Json.over?_of_apart apart] at h
        exact .environment hnone hset apart h

/-- **What a setting gets is what it takes of all that is seen.** -/
theorem gets_iff_holds (hvalid : Flags.Valid given) :
    setting.Gets given environment file value ↔
      setting.Holds setting.byDefault (setting.seen? given environment file) value := by
  cases hset : given.lookup (.setting setting) with
  | none => exact gets_iff_of_noFlag hset
  | some text =>
    obtain ⟨typed, htyped⟩ := (Flags.valid_iff.mp hvalid).2 setting text hset
    exact gets_iff_of_flag hset htyped

/-- What a setting gets shows that its flag is accepted. -/
theorem Gets.typed (h : setting.Gets given environment file value) {text : String}
    (hset : given.lookup (.setting setting) = some text) : ∃ value, setting.Typed text value := by
  cases h with
  | flag hset' htyped =>
    rw [hset] at hset'
    cases hset'
    exact ⟨value, htyped⟩
  | environment hnone | tables hnone | file hnone | default hnone =>
    rw [hset] at hnone
    cases hnone

/-- **A setting gets one value at most.** -/
theorem Gets.unique {value' : Json} (h : setting.Gets given environment file value)
    (h' : setting.Gets given environment file value') : value = value' := by
  cases hset : given.lookup (.setting setting) with
  | none => exact ((gets_iff_of_noFlag hset).mp h).unique ((gets_iff_of_noFlag hset).mp h')
  | some text =>
    obtain ⟨typed, htyped⟩ := h.typed hset
    exact ((gets_iff_of_flag hset htyped).mp h).unique ((gets_iff_of_flag hset htyped).mp h')

/-- Flags are valid when none stands twice and every setting gets a value. -/
theorem valid_of_gets (once : (given.map Prod.fst).Nodup)
    (h : ∀ setting : Setting, ∃ value, setting.Gets given environment file value) :
    Flags.Valid given :=
  Flags.valid_iff.mpr ⟨once, fun setting _ hset => (h setting).elim fun _ hgets =>
    hgets.typed hset⟩

/-- A value of a higher layer hides what lower layers give for a setting, before and after they
changed. A flag hides variables and the file. A variable hides the file, except that of two tables
both are seen. -/
inductive Hides (given : List (ConfigFlag × String))
    (environment environment' : List (String × String)) (file file' : Members) (setting : Setting) :
    Prop where
  | flag (set : (given.lookup (.setting setting)).isSome)
  | environment {upper : Json} (set : Variables.last? environment setting.name = some upper)
    (same : Variables.last? environment' setting.name = some upper)
    (apart : ∀ above below, upper = .object above →
      file.get? setting.name ≠ some (.object below) ∧
        file'.get? setting.name ≠ some (.object below))

theorem Hides.seen?_eq {environment' : List (String × String)} {file' : Members}
    (hides : setting.Hides given environment environment' file file')
    (hvalid : Flags.Valid given) :
    setting.seen? given environment' file' = setting.seen? given environment file := by
  cases hides with
  | flag set =>
    obtain ⟨text, hset⟩ := Option.isSome_iff_exists.mp set
    obtain ⟨typed, htyped⟩ := (Flags.valid_iff.mp hvalid).2 setting text hset
    rw [seen?_of_flag hset htyped, seen?_of_flag hset htyped]
  | environment set same apart =>
    rw [seen?, seen?, set, same,
      Json.over?_of_apart fun above below habove => (apart above below habove).1,
      Json.over?_of_apart fun above below habove => (apart above below habove).2]

end Setting

/-! ## All settings -/

namespace Sources

/-- What sources give: flags as they are spelled, variables that can be read, and a file that is
named, is there, is well formed and does not build on another one. -/
structure Gives (sources : Sources) (given : List (ConfigFlag × String)) (file : Members) :
    Prop where
  /-- The arguments are these flags. They may be ill-typed or stand twice. -/
  spelled : Flags.Spells sources.arguments given
  /-- The variables are anything that can be read. -/
  readable : Variables.Readable sources.environment
  /-- The path is that of a flag, and that of a variable if there is no such flag. -/
  filed : ∃ path content,
    (given.lookup .configPath).or (Variables.filePath? sources.environment) = some path ∧
      sources.files path = .text content ∧ Toml.members? content = some file ∧
      file.contains baseKey = false

variable {sources other : Sources} {given : List (ConfigFlag × String)} {file file' : Members}

theorem Gives.load_of_not_valid (h : sources.Gives given file) (hvalid : ¬ Flags.Valid given) :
    sources.load = .error .invalidFlags := by
  obtain ⟨held, hheld, -⟩ := Variables.exists_layer h.readable
  have hread : Flags.read sources.arguments = none :=
    Option.eq_none_iff_forall_ne_some.mpr fun flags hflags =>
      hvalid ((Flags.read_of_spells h.spelled).mp hflags).1
  rw [load, layers, hheld, hread]
  rfl

theorem Gives.fileLayer_eq (h : sources.Gives given file) :
    sources.fileLayer ⟨given⟩ = .ok (some ⟨file⟩) := by
  obtain ⟨path, content, hpath, hcontent, hmembers, hbase⟩ := h.filed
  have hlayer : Layer.ofFile path content = .ok ⟨file⟩ := by
    rw [Layer.ofFile, hmembers]
    simp only [hbase]
    rfl
  have hnamed : ∃ isRequired, sources.filePath? ⟨given⟩ = some (path, isRequired) := by
    rw [filePath?, Flags.filePath?]
    cases hflag : given.lookup .configPath with
    | some name =>
      rw [hflag] at hpath
      cases hpath
      exact ⟨true, rfl⟩
    | none =>
      rw [hflag, Option.none_or] at hpath
      rw [hpath]
      exact ⟨false, rfl⟩
  obtain ⟨isRequired, hnamed⟩ := hnamed
  rw [fileLayer, hnamed]
  simp only [hcontent, hlayer]
  rfl

/-- With valid flags the settings are those of all layers as one. -/
theorem Gives.exists_merged (h : sources.Gives given file) (hvalid : Flags.Valid given) :
    ∃ merged : Layer, sources.load = merged.settings.mapError .mismatch ∧
      ∀ setting : Setting,
        merged.values.get? setting.name = setting.seen? given sources.environment file := by
  obtain ⟨held, hheld, hascending, hlast⟩ := Variables.exists_layer h.readable
  have hread := (Flags.read_of_spells h.spelled).mpr ⟨hvalid, rfl⟩
  have hlayers : sources.layers =
      .ok { file := some ⟨file⟩, environment := ⟨held⟩, flags := Flags.layer ⟨given⟩ } := by
    rw [layers, hheld, hread]
    show (sources.fileLayer ⟨given⟩ >>= _) = _
    rw [h.fileLayer_eq]
    rfl
  refine ⟨(Flags.layer ⟨given⟩).laidOver (Layer.laidOver ⟨held⟩ ⟨file⟩), ?_, fun setting => ?_⟩
  · rw [load, hlayers]
    rfl
  · rw [Layer.laidOver, Layer.laidOver, Json.get?_membersOver (Flags.layer_ascending _),
      Json.get?_membersOver hascending, Flags.layer_get? hvalid.once, hlast]
    rfl

/-- **Settings are loaded when each of them gets a value**, and are these values. -/
theorem Gives.load_eq_ok_iff (h : sources.Gives given file) {settings : Settings} :
    sources.load = .ok settings ↔
      (given.map Prod.fst).Nodup ∧
        ∀ setting : Setting,
          setting.Gets given sources.environment file (settings.shown setting) := by
  constructor
  · intro hload
    by_cases hvalid : Flags.Valid given
    · obtain ⟨merged, hmerged, hseen⟩ := h.exists_merged hvalid
      rw [hmerged, mapError_eq_ok_iff, Layer.settings_eq_ok_iff] at hload
      refine ⟨hvalid.once, fun setting => ?_⟩
      rw [Setting.gets_iff_holds hvalid, ← hseen]
      exact hload setting
    · rw [h.load_of_not_valid hvalid] at hload
      cases hload
  · rintro ⟨once, hgets⟩
    have hvalid := Setting.valid_of_gets once fun setting => ⟨_, hgets setting⟩
    obtain ⟨merged, hmerged, hseen⟩ := h.exists_merged hvalid
    rw [hmerged, mapError_eq_ok_iff, Layer.settings_eq_ok_iff]
    intro setting
    rw [hseen, ← Setting.gets_iff_holds hvalid]
    exact hgets setting

theorem Gives.exists_load_iff (h : sources.Gives given file) :
    (∃ settings, sources.load = .ok settings) ↔
      (given.map Prod.fst).Nodup ∧
        ∀ setting : Setting, ∃ value, setting.Gets given sources.environment file value := by
  constructor
  · rintro ⟨settings, hload⟩
    obtain ⟨once, hgets⟩ := h.load_eq_ok_iff.mp hload
    exact ⟨once, fun setting => ⟨_, hgets setting⟩⟩
  · rintro ⟨once, hgets⟩
    have hvalid := Setting.valid_of_gets once hgets
    obtain ⟨merged, hmerged, hseen⟩ := h.exists_merged hvalid
    simp only [hmerged, mapError_eq_ok_iff]
    refine Layer.exists_settings_iff.mpr fun setting => ?_
    obtain ⟨value, hvalue⟩ := hgets setting
    refine ⟨value, ?_⟩
    rw [hseen, ← Setting.gets_iff_holds hvalid]
    exact hvalue

/-- **What is hidden has no say**, not even in what is reported. -/
theorem Gives.load_congr (h : sources.Gives given file) (hother : other.Gives given file')
    {setting : Setting}
    (hrest : ∀ field : Setting, field ≠ setting →
      Variables.last? other.environment field.name =
          Variables.last? sources.environment field.name ∧
        file'.get? field.name = file.get? field.name)
    (hides : setting.Hides given sources.environment other.environment file file') :
    other.load = sources.load := by
  -- whether the flags are valid is the same on both sides, as both spell the same flags
  by_cases hvalid : Flags.Valid given
  · obtain ⟨merged, hmerged, hseen⟩ := h.exists_merged hvalid
    obtain ⟨merged', hmerged', hseen'⟩ := hother.exists_merged hvalid
    rw [hmerged, hmerged']
    refine congrArg _ (Layer.settings_congr fun field => ?_)
    rw [hseen, hseen']
    by_cases hfield : field = setting
    · rw [hfield]
      exact hides.seen?_eq hvalid
    · rw [Setting.seen?, Setting.seen?, (hrest field hfield).1, (hrest field hfield).2]
  · rw [h.load_of_not_valid hvalid, hother.load_of_not_valid hvalid]

/-- **Settings are loaded field by field.** Settings are loaded exactly when no flag is given twice
and each setting gets a value, and then each is the value that it gets: that of its flag, else that
of the last variable for it, else that of the file, else its default. A variable and a file that
both give a table are seen together. Where one layer hides what lower layers give for a setting,
these may give anything else for it, of its type or not, and the outcome is the same. -/
theorem load_by_layers (h : sources.Gives given file) :
    (∀ settings, sources.load = .ok settings ↔
      (given.map Prod.fst).Nodup ∧
        ∀ setting : Setting,
          setting.Gets given sources.environment file (settings.shown setting)) ∧
    ((∃ settings, sources.load = .ok settings) ↔
      (given.map Prod.fst).Nodup ∧
        ∀ setting : Setting, ∃ value, setting.Gets given sources.environment file value) ∧
    ∀ (other : Sources) (file' : Members) (setting : Setting), other.Gives given file' →
      (∀ field : Setting, field ≠ setting →
        Variables.last? other.environment field.name =
            Variables.last? sources.environment field.name ∧
          file'.get? field.name = file.get? field.name) →
      setting.Hides given sources.environment other.environment file file' →
      other.load = sources.load :=
  ⟨fun _ => h.load_eq_ok_iff, h.exists_load_iff,
    fun _ _ _ hother hrest hides => h.load_congr hother hrest hides⟩

/-- A port that the file gives as `text`, and a flag over it; a form of the log in the environment
over a number in the file. -/
def portOver (text : String) : Sources where
  files _ := .text ("log_format = 3\nserver_port = " ++ text ++ "\n")
  environment := [("PHASER_LOG_FORMAT", "json")]
  arguments := ["--config-path", "settings.toml", "-S", "7"]

theorem portOver_gives (text : String) (port : Json)
    (h : Toml.members? ("log_format = 3\nserver_port = " ++ text ++ "\n") =
      some [("log_format", .number (.integer 3)), ("server_port", port)]) :
    (portOver text).Gives [(.configPath, "settings.toml"), (.setting .serverPort, "7")]
      [("log_format", .number (.integer 3)), ("server_port", port)] where
  spelled := .followed .text (by decide +kernel) (.followed (.letter rfl) (by decide +kernel) .nil)
  readable := by
    intro entry hentry first steps _
    rw [List.mem_singleton.mp hentry]
    exact ⟨.string "json", by with_unfolding_all rfl⟩
  filed := ⟨"settings.toml", _, rfl, rfl, h, rfl⟩

theorem load_by_layers_portOver :
    (portOver "true").Gives [(.configPath, "settings.toml"), (.setting .serverPort, "7")]
        [("log_format", .number (.integer 3)), ("server_port", .boolean true)] ∧
      (portOver "true").load = .ok { serverPort := 7, logFormat := .json } ∧
      (portOver "'x'").load = (portOver "true").load := by
  have hbefore := portOver_gives "true" (.boolean true) (by rfl)
  have hafter := portOver_gives "'x'" (.string "x") (by rfl)
  have hform : Variables.last? (portOver "true").environment Setting.logFormat.name =
      some (.string "json") := by with_unfolding_all rfl
  obtain ⟨hload, -, hsame⟩ := load_by_layers hbefore
  refine ⟨hbefore, (hload _).mpr ⟨by decide, fun setting => ?_⟩,
    hsame _ _ .serverPort hafter ?_ ?_⟩
  · cases setting with
    | serverPort =>
      exact .flag rfl (.number rfl (.plain (by decide) (by simp)) (by decide) (.inl rfl))
    | logFormat => exact .environment rfl hform (fun _ _ => nofun) (.form .json)
    | _ => exact .default rfl (by with_unfolding_all rfl) rfl
  · intro field hfield
    cases field <;> first | exact ⟨rfl, rfl⟩ | exact absurd rfl hfield
  · exact .flag rfl

/-- An empty table in the environment over a table in the file. -/
def emptyOver : Sources where
  files _ := .text "log_format.json = nan\n"
  environment := [("PHASER_LOG_FORMAT", "\x7b\x7d")]
  arguments := ["--config-path", "settings.toml"]

/-- The same flag two times, with the same port. -/
def portTwice : Sources where
  files _ := .text ""
  arguments := ["--config-path", "settings.toml", "-S", "7", "-S", "7"]

/-- A file that gives no setting and builds on another one. -/
def builtOn : Sources where
  files _ := .text "extends = \"\"\n"
  arguments := ["--config-path", "settings.toml"]

/-- **The values of the highest layers alone do not decide.** No empty table is a form of the log,
and yet settings are loaded from one, as the file shows through. No settings are loaded from a flag
that stands twice, although its value is a port, and none from a file that builds on one that cannot
be read, although every setting has its default. -/
theorem highest_layer_not_alone :
    (emptyOver.Gives [(.configPath, "settings.toml")] [("log_format", .object [("json", .null)])] ∧
      Variables.last? emptyOver.environment Setting.logFormat.name = some (.object []) ∧
      (∀ value, ¬ Setting.logFormat.Takes (.object []) value) ∧
      emptyOver.load = .ok { logFormat := .json }) ∧
    portTwice.Gives [(.configPath, "settings.toml"), (.setting .serverPort, "7"),
        (.setting .serverPort, "7")] [] ∧
      Setting.serverPort.Typed "7" (.number (.integer 7)) ∧
      portTwice.load = .error .invalidFlags ∧
    Toml.members? "extends = \"\"\n" = some [(baseKey, .string "")] ∧
      (∀ setting : Setting, setting.Gets [(.configPath, "settings.toml")] []
        [(baseKey, .string "")] setting.byDefault) ∧
      builtOn.load = .error (.missingBase "settings.toml") := by
  refine ⟨⟨⟨?_, ?_, ?_⟩, ?_, nofun, by decide +kernel⟩, ⟨?_, nofun, ?_⟩, ?_, by decide +kernel,
    by rfl, fun setting => ?_, by decide +kernel⟩
  · exact .followed .text (by decide +kernel) .nil
  · intro entry hentry first steps _
    rw [List.mem_singleton.mp hentry]
    exact ⟨.object [], by with_unfolding_all rfl⟩
  · exact ⟨"settings.toml", _, rfl, rfl, by rfl, rfl⟩
  · with_unfolding_all rfl
  · have hport : Flags.Spells ["-S", "7"] [(.setting .serverPort, "7")] :=
      .followed (.letter rfl) (by decide +kernel) .nil
    exact .followed .text (by decide +kernel) (.followed (.letter rfl) (by decide +kernel) hport)
  · exact ⟨"settings.toml", _, rfl, rfl, by rfl, rfl⟩
  · exact .number rfl (.plain (by decide) (by simp)) (by decide) (.inl rfl)
  · cases setting <;> exact .default rfl rfl rfl

end Sources

end CavityConsole
