import CavityConsole.Proofs.Console.Payload
import CavityConsole.Proofs.Session.Calls
import Mathlib.Data.List.ReduceOption

/-!
# The cavity cache is replaced whole or not at all

A program holds a cavity cache, hands it to the sessions that it opens, reads it through clones and
keeps the lists that it has read. What the cache shows is a matter of the calls that read the
cavities of a server: those that open a session and those that refresh it.

**The law** (`cache_after`): in every run the cache shows, in the order of the server and each name
once, the array of the last such call that succeeded, and what it showed at first if none did. A
call that fails, wherever it fails, returns its failure and leaves every cache as it was. Clones
show the same, and no list that was read before changes.

One call is taken apart in `refreshes` and `opens`: the cache is touched only behind a complete
array of strings.
-/

namespace CavityConsole

/-- What an array that was read makes of the caches: one of them is replaced by the names in it.
Without an array all stay as they are. -/
def CavityCaches.Stores (caches : CavityCaches) (cache : CavityHandle) (left : CavityCaches) :
    Option (List String) → Prop
  | none => left = caches
  | some names => ∃ cavities : CavityList,
      FirstOccurrences names cavities.names ∧ left = caches.replace cache cavities

namespace Session

variable {session : Session} {server : Server}

/-- What refreshing ends with, which caches it leaves, and which array it read if it succeeds. -/
inductive Refreshes (session : Session) (server : Server) (left : CavityCaches) :
    Except CommandError Unit → Option (List String) → Prop
  /-- The command fails. -/
  | failed {error : CommandError} (call : (session.call server .cavities).2 = .error error)
    (kept : left = session.caches) : Refreshes session server left (.error error) none
  /-- The response has no cavities. -/
  | missing {document : Document} (call : (session.call server .cavities).2 = .ok document)
    (lacks : Lacks document "cavities") (kept : left = session.caches) :
    Refreshes session server left (.error (.missingField "cavities" "cavities")) none
  /-- What the response has for cavities is no array, or not one of strings. -/
  | invalid {document : Document} (call : (session.call server .cavities).2 = .ok document)
    (mislists : Mislists document) (kept : left = session.caches) :
    Refreshes session server left (.error (.invalidField "cavities" "cavities")) none
  /-- The response has an array of strings. -/
  | replaced {document : Document} {names : List String} {cavities : CavityList}
    (call : (session.call server .cavities).2 = .ok document) (lists : Lists document names)
    (kept : FirstOccurrences names cavities.names)
    (replaced : left = session.caches.replace session.cache cavities) :
    Refreshes session server left (.ok ()) (some names)

/-- **One refresh.** The cache is replaced behind a complete array of strings only. -/
theorem refreshes (session : Session) (server : Server) :
    ∃ read, Refreshes session server (session.refreshCavities server).1.caches
      (session.refreshCavities server).2 read := by
  have hask : (session.askCavities server).2 =
      (session.call server .cavities).2.bind cavitiesOf := rfl
  cases hcall : (session.call server .cavities).2 with
  | error error =>
    rw [hcall] at hask
    rw [refreshCavities_of_error hask]
    exact ⟨none, .failed hcall rfl⟩
  | ok document =>
    rw [hcall] at hask
    rcases cavitiesOf_cases document with ⟨names, hlists, hread⟩ | ⟨hlacks, hread⟩ | ⟨hmis, hread⟩
    · rw [refreshCavities_of_ok (hask.trans hread)]
      exact ⟨some names, .replaced hcall hlists (firstOccurrences_ofList names) rfl⟩
    · rw [refreshCavities_of_error (hask.trans hread)]
      exact ⟨none, .missing hcall hlacks rfl⟩
    · rw [refreshCavities_of_error (hask.trans hread)]
      exact ⟨none, .invalid hcall hmis rfl⟩

variable {settings : SessionSettings} {listeners : List Recorder} {caches left : CavityCaches}
  {cache : CavityHandle} {read : Option (List String)}

theorem Refreshes.stores {outcome : Except CommandError Unit}
    (h : session.Refreshes server left outcome read) :
    session.caches.Stores session.cache left read := by
  cases h with
  | failed _ kept | missing _ _ kept | invalid _ _ kept => exact kept
  | replaced _ _ kept replaced => exact ⟨_, kept, replaced⟩

/-- What opening a session ends with, which caches it leaves, and which array it read if it
succeeds. -/
inductive Opens (settings : SessionSettings) (listeners : List Recorder) (caches : CavityCaches)
    (cache : CavityHandle) (server : Server) (left : CavityCaches) :
    Except SessionError Unit → Option (List String) → Prop
  /-- The server does not say its version. -/
  | unversioned {error : CommandError}
    (version : ((greeted settings listeners caches cache server).askVersion server).2 =
      .error error) (kept : left = caches) :
    Opens settings listeners caches cache server left (.error (.handshake error)) none
  /-- The server says its version and is asked for its cavities. -/
  | versioned {version : String} {outcome : Except CommandError Unit} {read : Option (List String)}
    (answered : ((greeted settings listeners caches cache server).askVersion server).2 =
      .ok version)
    (cavities : Refreshes
      { ((greeted settings listeners caches cache server).askVersion server).1 with version }
      server left outcome read) :
    Opens settings listeners caches cache server left (outcome.mapError .handshake) read

theorem Opens.stores {outcome : Except SessionError Unit}
    (h : Opens settings listeners caches cache server left outcome read) :
    caches.Stores cache left read := by
  cases h with
  | unversioned _ kept => exact kept
  | versioned _ cavities =>
    obtain ⟨hcaches, hcache⟩ := greeted_caches settings listeners caches cache server
    have hstores : (greeted settings listeners caches cache server).caches.Stores
        (greeted settings listeners caches cache server).cache left read := cavities.stores
    rwa [hcaches, hcache] at hstores

/-- **One opening.** -/
theorem opens (settings : SessionSettings) (listeners : List Recorder) (caches : CavityCaches)
    (cache : CavityHandle) (server : Server) :
    ∃ read, Opens settings listeners caches cache server
      (openWith settings listeners caches cache server).1.caches
      (openWith settings listeners caches cache server).2 read := by
  cases hversion : ((greeted settings listeners caches cache server).askVersion server).2 with
  | error error =>
    rw [openWith_eq, handshake_of_error hversion]
    exact ⟨none, .unversioned hversion (arrive_caches _ _).1⟩
  | ok version =>
    rw [openWith_eq, handshake_of_ok hversion]
    obtain ⟨read, hread⟩ := refreshes
      { ((greeted settings listeners caches cache server).askVersion server).1 with version } server
    exact ⟨read, .versioned hversion hread⟩

/-- Refreshing keeps the session on its cache. -/
theorem refreshCavities_cache (session : Session) (server : Server) :
    (session.refreshCavities server).1.cache = session.cache := by
  cases hask : (session.askCavities server).2 with
  | error error => rw [refreshCavities_of_error hask]; rfl
  | ok cavities => rw [refreshCavities_of_ok hask]; rfl

/-- A session is opened on the cache that it is given. -/
theorem openWith_cache (settings : SessionSettings) (listeners : List Recorder)
    (caches : CavityCaches) (cache : CavityHandle) (server : Server) :
    (openWith settings listeners caches cache server).1.cache = cache := by
  have hgreeted := (greeted_caches settings listeners caches cache server).2
  cases hversion : ((greeted settings listeners caches cache server).askVersion server).2 with
  | error error =>
    rw [openWith_eq, handshake_of_error hversion]
    exact hgreeted
  | ok version =>
    rw [openWith_eq, handshake_of_ok hversion]
    exact (refreshCavities_cache _ server).trans hgreeted

end Session

/-! ## A program that holds a cache -/

/-- A program with a cavity cache. -/
structure Holder where
  /-- All caches that there are. -/
  caches : CavityCaches
  /-- The cache that is handed to sessions. -/
  cache : CavityHandle
  /-- The session, while one is open. -/
  session : Option Session := none
  /-- The cache and its clones. -/
  clones : List CavityHandle
  /-- The lists that were read, in order. -/
  saved : List CavityList := []

namespace Holder

/-- What a program does that holds a cache. -/
inductive Use where
  /-- Opens a session. -/
  | openSession (settings : SessionSettings) (listeners : List Recorder) (server : Server)
  /-- Refreshes the cavities. -/
  | refresh (server : Server)
  /-- Issues any command. -/
  | issue (server : Server) (command : Command)
  /-- Hears something from the server. -/
  | hear (arrivals : List Arrival)
  /-- Gives the session up. -/
  | close
  /-- Clones one of the clones. -/
  | clone (which : Nat)
  /-- Reads the list through one of the clones and keeps it. -/
  | save (which : Nat)

/-- A program that has made its cache and nothing else. -/
def fresh (caches : CavityCaches) (cache : CavityHandle) : Holder :=
  { caches, cache, clones := [cache] }

/-- Goes on with a session. -/
def resume (holder : Holder) (session : Session) : Holder :=
  { holder with caches := session.caches, session := some session }

/-- Does something on the session, if one is open. -/
def onSession (holder : Holder) (f : Session → Session) : Holder :=
  match holder.session with
  | none => holder
  | some session => holder.resume (f session)

/-- Opens a session; without one the caches are all that is left. -/
def openSession (holder : Holder) (opened : Session × Except SessionError Unit) : Holder :=
  match opened with
  | (session, .ok ()) => holder.resume session
  | (session, .error _) => { holder with caches := session.caches, session := none }

/-- One use. -/
def act (holder : Holder) : Use → Holder
  | .openSession settings listeners server =>
    holder.openSession (Session.openWith settings listeners holder.caches holder.cache server)
  | .refresh server => holder.onSession fun session => (session.refreshCavities server).1
  | .issue server command => holder.onSession fun session => (session.call server command).1
  | .hear arrivals => holder.onSession fun session => session.arrive arrivals
  | .close => { holder with session := none }
  | .clone which => { holder with clones := holder.clones ++ holder.clones[which]?.toList }
  | .save which =>
    { holder with
      saved := holder.saved ++ holder.clones[which]?.toList.map holder.caches.snapshot }

/-- Uses one after the other. -/
def run (holder : Holder) (uses : List Use) : Holder := uses.foldl act holder

/-- The cache is one of those that there are, and the clones and the session are on it. -/
structure Sound (holder : Holder) : Prop where
  there : holder.cache.index < holder.caches.lists.length
  clones : ∀ handle ∈ holder.clones, handle = holder.cache
  session : ∀ session, holder.session = some session →
    session.caches = holder.caches ∧ session.cache = holder.cache

/-- What a use comes to: which caches it leaves, and which array it read if it read one. -/
inductive Does (holder : Holder) : Use → Option (List String) → Prop
  /-- A session is opened, or not. -/
  | opened {settings : SessionSettings} {listeners : List Recorder} {server : Server}
    {read : Option (List String)}
    (opens : Session.Opens settings listeners holder.caches holder.cache server
      (holder.act (.openSession settings listeners server)).caches
      (Session.openWith settings listeners holder.caches holder.cache server).2 read) :
    Does holder (.openSession settings listeners server) read
  /-- The cavities are refreshed, or not. -/
  | refreshed {session : Session} {server : Server} {read : Option (List String)}
    (held : holder.session = some session)
    (refreshes : session.Refreshes server (holder.act (.refresh server)).caches
      (session.refreshCavities server).2 read) : Does holder (.refresh server) read
  /-- Nothing that reads the cavities. -/
  | other {use : Use}
    (beside : ∀ settings listeners server, use ≠ .openSession settings listeners server)
    (unread : ∀ server, use = .refresh server → holder.session = none)
    (kept : (holder.act use).caches = holder.caches) : Does holder use none

/-- What the uses of a run come to, one after the other. -/
inductive Trace : Holder → List Use → List (Option (List String)) → Prop
  | nil {holder : Holder} : Trace holder [] []
  | cons {holder : Holder} {use : Use} {uses : List Use} {read : Option (List String)}
    {reads : List (Option (List String))} (does : Does holder use read)
    (rest : Trace (holder.act use) uses reads) : Trace holder (use :: uses) (read :: reads)

/-- What the cache shows. -/
def shown (holder : Holder) : CavityList := holder.caches.snapshot holder.cache

/-- A list shows the last array that was read, and without one it is the first list. -/
def Shows (first : CavityList) (reads : List (Option (List String))) (cavities : CavityList) :
    Prop :=
  match reads.reduceOption.getLast? with
  | none => cavities = first
  | some names => FirstOccurrences names cavities.names

/-! ## One use -/

variable {holder : Holder}

theorem onSession_of_some {session : Session} (h : holder.session = some session)
    (f : Session → Session) : holder.onSession f = holder.resume (f session) := by
  rw [onSession, h]

theorem onSession_of_none (h : holder.session = none) (f : Session → Session) :
    holder.onSession f = holder := by
  rw [onSession, h]

/-- What is left of the caches by an opening. -/
theorem openSession_caches (holder : Holder) (opened : Session × Except SessionError Unit) :
    (holder.openSession opened).caches = opened.1.caches := by
  unfold openSession
  split <;> rfl

/-- What a session does on caches that it does not touch leaves all caches as they are. -/
theorem onSession_caches (sound : holder.Sound) {f : Session → Session}
    (hf : ∀ session, (f session).caches = session.caches) :
    (holder.onSession f).caches = holder.caches := by
  cases hsession : holder.session with
  | none => rw [onSession_of_none hsession]
  | some session =>
    rw [onSession_of_some hsession]
    exact (hf session).trans (sound.session session hsession).1

/-- **Every use** opens a session, refreshes the cavities, or leaves the caches alone. -/
theorem does (holder : Holder) (sound : holder.Sound) (use : Use) :
    ∃ read, holder.Does use read := by
  cases use with
  | openSession settings listeners server =>
    obtain ⟨read, hopens⟩ := Session.opens settings listeners holder.caches holder.cache server
    refine ⟨read, .opened ?_⟩
    rw [act, openSession_caches]
    exact hopens
  | refresh server =>
    cases hsession : holder.session with
    | none =>
      refine ⟨none, .other (fun _ _ _ => nofun) (fun _ _ => hsession) ?_⟩
      rw [act, onSession_of_none hsession]
    | some session =>
      obtain ⟨read, hrefreshes⟩ := session.refreshes server
      refine ⟨read, .refreshed hsession ?_⟩
      rw [act, onSession_of_some hsession]
      exact hrefreshes
  | issue server command =>
    exact ⟨none, .other (fun _ _ _ => nofun) (fun _ => nofun)
      (onSession_caches sound fun session => rfl)⟩
  | hear arrivals =>
    exact ⟨none, .other (fun _ _ _ => nofun) (fun _ => nofun)
      (onSession_caches sound fun session => (session.arrive_caches arrivals).1)⟩
  | close => exact ⟨none, .other (fun _ _ _ => nofun) (fun _ => nofun) rfl⟩
  | clone which => exact ⟨none, .other (fun _ _ _ => nofun) (fun _ => nofun) rfl⟩
  | save which => exact ⟨none, .other (fun _ _ _ => nofun) (fun _ => nofun) rfl⟩

theorem Does.stores {use : Use} {read : Option (List String)} (sound : holder.Sound)
    (h : holder.Does use read) :
    holder.caches.Stores holder.cache (holder.act use).caches read := by
  cases h with
  | opened opens => exact opens.stores
  | refreshed held refreshes =>
    obtain ⟨hcaches, hcache⟩ := sound.session _ held
    rw [← hcaches, ← hcache]
    exact refreshes.stores
  | other _ _ kept => exact kept

/-! ## What uses keep -/

/-- What a use keeps of a program: its cache, its clones, and that a session is on both. -/
structure Keeps (holder next : Holder) : Prop where
  cache : next.cache = holder.cache
  clones : ∀ handle ∈ next.clones, handle ∈ holder.clones
  session : ∀ session, next.session = some session →
    session.caches = next.caches ∧ session.cache = holder.cache

theorem keeps_onSession (sound : holder.Sound) {f : Session → Session}
    (hf : ∀ session, (f session).cache = session.cache) : Keeps holder (holder.onSession f) := by
  cases hsession : holder.session with
  | none =>
    rw [onSession_of_none hsession]
    exact ⟨rfl, fun _ => id, sound.session⟩
  | some session =>
    rw [onSession_of_some hsession]
    refine ⟨rfl, fun _ => id, ?_⟩
    rintro _ ⟨rfl⟩
    exact ⟨rfl, (hf session).trans (sound.session session hsession).2⟩

theorem keeps_openSession {opened : Session × Except SessionError Unit}
    (h : opened.1.cache = holder.cache) : Keeps holder (holder.openSession opened) := by
  unfold openSession
  split
  · refine ⟨rfl, fun _ => id, ?_⟩
    rintro _ ⟨rfl⟩
    exact ⟨rfl, h⟩
  · exact ⟨rfl, fun _ => id, fun _ => nofun⟩

theorem keeps_act (sound : holder.Sound) (use : Use) : Keeps holder (holder.act use) := by
  cases use with
  | openSession settings listeners server => exact keeps_openSession (Session.openWith_cache ..)
  | refresh server =>
    exact keeps_onSession sound fun session => session.refreshCavities_cache server
  | issue server command => exact keeps_onSession sound fun _ => rfl
  | hear arrivals => exact keeps_onSession sound fun session => (session.arrive_caches arrivals).2
  | close => exact ⟨rfl, fun _ => id, fun _ => nofun⟩
  | clone which =>
    rw [act]
    refine ⟨rfl, fun handle hhandle => ?_, sound.session⟩
    rcases List.mem_append.mp hhandle with h | h
    · exact h
    · exact List.mem_of_getElem? (Option.mem_toList.mp h)
  | save which =>
    rw [act]
    exact ⟨rfl, fun _ => id, sound.session⟩

/-- Caches stay where they are. -/
theorem length_of_stores {caches left : CavityCaches} {cache : CavityHandle}
    {read : Option (List String)} (h : caches.Stores cache left read) :
    left.lists.length = caches.lists.length := by
  cases read with
  | none => exact congrArg (·.lists.length) h
  | some names =>
    obtain ⟨cavities, -, rfl⟩ := h
    exact List.length_set

/-- **Every use keeps a program sound.** -/
theorem Sound.act (sound : holder.Sound) (use : Use) : (holder.act use).Sound := by
  obtain ⟨read, hdoes⟩ := holder.does sound use
  have keeps := keeps_act sound use
  refine ⟨?_, fun handle hhandle => ?_, fun session hsession => ?_⟩
  · rw [keeps.cache, length_of_stores (hdoes.stores sound)]
    exact sound.there
  · rw [keeps.cache]
    exact sound.clones handle (keeps.clones handle hhandle)
  · rw [keeps.cache]
    exact keeps.session session hsession

theorem sound_fresh {caches : CavityCaches} {cache : CavityHandle}
    (there : cache.index < caches.lists.length) : (fresh caches cache).Sound where
  there := there
  clones _ hhandle := List.mem_singleton.mp hhandle
  session _ := nofun

/-! ## What is shown -/

/-- What the caches show behind a use. -/
theorem snapshot_of_stores {caches left : CavityCaches} {cache : CavityHandle}
    {read : Option (List String)} (there : cache.index < caches.lists.length)
    (h : caches.Stores cache left read) :
    Shows (caches.snapshot cache) [read] (left.snapshot cache) ∧
      ∀ handle, handle.index ≠ cache.index → left.snapshot handle = caches.snapshot handle := by
  cases read with
  | none =>
    cases h
    exact ⟨rfl, fun _ _ => rfl⟩
  | some names =>
    obtain ⟨cavities, hkept, rfl⟩ := h
    refine ⟨?_, fun handle hother => ?_⟩
    · rw [CavityCaches.snapshot_replace there]
      exact hkept
    · rw [CavityCaches.snapshot, CavityCaches.replace, List.getElem?_set_ne (Ne.symm hother)]
      rfl

/-- Of arrays that are read one after the other the last one counts. -/
theorem Shows.append {first middle last : CavityList} {reads more : List (Option (List String))}
    (h : Shows first reads middle) (hmore : Shows middle more last) :
    Shows first (reads ++ more) last := by
  unfold Shows at *
  rw [List.reduceOption_append, List.getLast?_append]
  cases hlast : more.reduceOption.getLast? with
  | none =>
    rw [hlast] at hmore
    rw [Option.none_or]
    cases hmore
    exact h
  | some names =>
    rw [hlast] at hmore
    exact hmore

/-! ## A run -/

theorem run_cons (holder : Holder) (use : Use) (uses : List Use) :
    holder.run (use :: uses) = (holder.act use).run uses := rfl

theorem run_append (holder : Holder) (uses more : List Use) :
    holder.run (uses ++ more) = (holder.run uses).run more := List.foldl_append

theorem Sound.run (sound : holder.Sound) (uses : List Use) : (holder.run uses).Sound := by
  induction uses generalizing holder with
  | nil => exact sound
  | cons use uses ih => exact ih (sound.act use)

/-- Lists that were read are only added to. -/
theorem saved_act (holder : Holder) (use : Use) : holder.saved <+: (holder.act use).saved := by
  cases use with
  | openSession settings listeners server =>
    rw [act]
    unfold openSession
    split <;> exact List.prefix_rfl
  | refresh server | issue server command | hear arrivals =>
    rw [act, onSession]
    split <;> exact List.prefix_rfl
  | close | clone which => exact List.prefix_rfl
  | save which => exact List.prefix_append _ _

theorem saved_run (holder : Holder) (uses : List Use) :
    holder.saved <+: (holder.run uses).saved := by
  induction uses generalizing holder with
  | nil => exact List.prefix_rfl
  | cons use uses ih => exact (saved_act holder use).trans (ih (holder.act use))

/-- What a run comes to: the induction takes one use off its front. -/
theorem trace_run (sound : holder.Sound) (uses : List Use) :
    ∃ reads, Trace holder uses reads ∧ Shows holder.shown reads (holder.run uses).shown ∧
      ∀ handle, handle.index ≠ holder.cache.index →
        (holder.run uses).caches.snapshot handle = holder.caches.snapshot handle := by
  induction uses generalizing holder with
  | nil => exact ⟨[], .nil, rfl, fun _ _ => rfl⟩
  | cons use uses ih =>
    obtain ⟨read, hdoes⟩ := holder.does sound use
    obtain ⟨hshows, hothers⟩ := snapshot_of_stores sound.there (hdoes.stores sound)
    obtain ⟨reads, htrace, hrest, hrestOthers⟩ := ih (sound.act use)
    have hcache := (keeps_act sound use).cache
    rw [shown, hcache] at hrest
    rw [hcache] at hrestOthers
    exact ⟨read :: reads, .cons hdoes htrace, hshows.append hrest,
      fun handle hother => (hrestOthers handle hother).trans (hothers handle hother)⟩

/-- **The cavity cache is replaced whole or not at all.** Of every run of a program that has made a
cache with any content:

* the cache shows the array of the last call that succeeded, each name at its first occurrence, and
  without one what it showed at first; `Trace` says of each call why it failed, or which array it
  read, and that every cache is as it was behind a call that failed;
* all clones show what the cache shows, and no other cache is ever touched;
* a list that was read through a clone is what the cache showed then, and stays as it is. -/
theorem cache_after (caches : CavityCaches) (cache : CavityHandle)
    (there : cache.index < caches.lists.length) (uses : List Use) :
    (∃ reads, Trace (fresh caches cache) uses reads ∧
      Shows (caches.snapshot cache) reads ((fresh caches cache).run uses).shown) ∧
    (∀ clone ∈ ((fresh caches cache).run uses).clones,
      ((fresh caches cache).run uses).caches.snapshot clone =
        ((fresh caches cache).run uses).shown) ∧
    (∀ handle, handle.index ≠ cache.index →
      ((fresh caches cache).run uses).caches.snapshot handle = caches.snapshot handle) ∧
    (∀ which, which < ((fresh caches cache).run uses).clones.length →
      ((fresh caches cache).run (uses ++ [.save which])).saved =
        ((fresh caches cache).run uses).saved ++ [((fresh caches cache).run uses).shown]) ∧
    ∀ more, ((fresh caches cache).run uses).saved <+:
      ((fresh caches cache).run (uses ++ more)).saved := by
  have sound := (sound_fresh there).run uses
  obtain ⟨reads, htrace, hshows, hothers⟩ := trace_run (sound_fresh there) uses
  have hclones : ∀ clone ∈ ((fresh caches cache).run uses).clones,
      ((fresh caches cache).run uses).caches.snapshot clone =
        ((fresh caches cache).run uses).shown := by
    intro clone hclone
    rw [sound.clones clone hclone, shown]
  refine ⟨⟨reads, htrace, hshows⟩, hclones, hothers, fun which hwhich => ?_, fun more => ?_⟩
  · rw [run_append, run_cons, act, List.getElem?_eq_getElem hwhich,
      ← hclones _ (List.getElem_mem hwhich)]
    rfl
  · rw [run_append]
    exact saved_run _ more

/-- A server that lists a cavity twice, and the next time something that is no name behind it. -/
def wavering : Server :=
  .ofTranscript
    [.ok [.line "\x7b\"response\":\"ok\",\"version\":\"1\"\x7d"],
     .ok [.line "\x7b\"response\":\"ok\",\"cavities\":[\"b\",\"a\",\"b\"]\x7d"],
     .ok [.line "\x7b\"response\":\"ok\",\"cavities\":[\"c\",7]\x7d"]]

/-- A server that does not know its version. -/
def nameless : Server := .ofTranscript [.ok [.line "\x7b\"response\":\"ok\"\x7d"]]

/-- How to reach both. -/
def nearby : SessionSettings where
  endpoint := ⟨"localhost", 5000⟩
  connectTimeout := .ofSeconds 1
  responseTimeout := .ofSeconds 1
  maxFrameLength := 1024

/-- A session is opened, the cavities are refreshed in vain, and another session is not opened. -/
def restarts : List Use :=
  [.clone 0, .openSession nearby [] wavering, .save 1, .refresh wavering,
   .openSession nearby [] nameless]

theorem cache_after_restarts :
    (⟨0⟩ : CavityHandle).index < [CavityList.ofList ["old"]].length ∧
      (∃ reads, Trace (fresh ⟨[.ofList ["old"]]⟩ ⟨0⟩) restarts reads ∧
        Shows (.ofList ["old"]) reads ((fresh ⟨[.ofList ["old"]]⟩ ⟨0⟩).run restarts).shown) ∧
      ((fresh ⟨[.ofList ["old"]]⟩ ⟨0⟩).run restarts).shown.names = ["b", "a"] := by
  have there : (⟨0⟩ : CavityHandle).index < [CavityList.ofList ["old"]].length := by decide
  exact ⟨there, (cache_after ⟨[.ofList ["old"]]⟩ ⟨0⟩ there restarts).1, by decide +kernel⟩

end Holder

end CavityConsole
