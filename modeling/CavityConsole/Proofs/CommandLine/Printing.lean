import CavityConsole.CommandLine.Run
import CavityConsole.Proofs.Outcome

/-!
# What a run prints and leaves behind

Writing pieces to a place either writes them all, or it stops at the first piece for which there is
no room, and then those before it are written (`Output.writes`). A place without an end takes
everything (`Output.write_unlimited`).

A run that was understood and has its settings leaves behind what serving its request comes to
(`World.run_of_request`).
-/

namespace CavityConsole

namespace Output

/-- Puts pieces behind those that are written. -/
def add (output : Output) (pieces : List String) : Output :=
  { output with pieces := pieces.reverse ++ output.pieces }

theorem add_cons (output : Output) (piece : String) (pieces : List String) :
    output.add (piece :: pieces) = (output.add [piece]).add pieces := by
  simp [add]

theorem text_add (output : Output) (pieces : List String) :
    (output.add pieces).text = output.text ++ String.join pieces := by
  simp [add, text]

/-- What writing pieces comes to. -/
inductive Writes (output : Output) (pieces : List String) : Output × Except String Unit → Prop
  /-- All of them are written. -/
  | all : Writes output pieces (output.add pieces, .ok ())
  /-- There is no room for one of them, and those before it are written. -/
  | full (written : List String) (piece : String) (later : List String) {limit : OutputLimit}
    (limited : output.limit = some limit) (split : pieces = written ++ piece :: later)
    (exceeds : limit.bytes < (output.add (written ++ [piece])).text.utf8ByteSize) :
    Writes output pieces (output.add written, .error limit.reason)

/-- One piece. -/
theorem writePiece_cases (output : Output) (piece : String) :
    output.writePiece piece = (output.add [piece], .ok ()) ∨
      ∃ limit, output.limit = some limit ∧
        limit.bytes < (output.add [piece]).text.utf8ByteSize ∧
        output.writePiece piece = (output, .error limit.reason) := by
  unfold writePiece
  cases hlimit : output.limit with
  | none => exact .inl (by rw [add, hlimit]; rfl)
  | some limit =>
    dsimp only
    split
    · exact .inl (by rw [add, hlimit]; rfl)
    next hfull =>
      refine .inr ⟨limit, rfl, ?_, rfl⟩
      have hexceeds := Nat.lt_of_not_le (not_or.mp hfull).2
      rw [← hlimit] at hexceeds
      exact hexceeds

/-- **Writing stops where there is no room**, and nowhere else. -/
theorem writes (output : Output) (pieces : List String) :
    Writes output pieces (output.write pieces) := by
  induction pieces generalizing output with
  | nil => exact .all
  | cons piece pieces ih =>
    rw [write]
    rcases output.writePiece_cases piece with hpiece | ⟨limit, hlimit, hexceeds, hpiece⟩
    · rw [hpiece]
      dsimp only
      have hrest := ih (output.add [piece])
      generalize (output.add [piece]).write pieces = result at hrest
      cases hrest with
      | all =>
        rw [← add_cons]
        exact .all
      | full written next later limited split exceeds =>
        rw [← add_cons]
        refine .full (piece :: written) next later limited (congrArg (piece :: ·) split) ?_
        rw [List.cons_append, add_cons]
        exact exceeds
    · rw [hpiece]
      exact .full [] piece pieces hlimit rfl hexceeds

/-- A place without an end takes everything. -/
theorem write_unlimited {output : Output} (h : output.limit = none) (pieces : List String) :
    output.write pieces = (output.add pieces, .ok ()) := by
  have hwrites := output.writes pieces
  generalize output.write pieces = result at hwrites
  cases hwrites with
  | all => rfl
  | full written piece later limited => cases h.symm.trans limited

end Output

/-- What serving a request leaves behind. -/
def RunResult.ofServed : Output × List Command × Except RunError Unit → RunResult
  | (output, received, .ok ()) => { exitCode := 0, stdout := output.text, received }
  | (output, received, .error error) =>
    { exitCode := 1, stdout := output.text, stderr := error.message ++ "\n", received }

/-- How far a request has come, without its session. -/
def Progress.served (progress : Progress) : Output × List Command × Except RunError Unit :=
  (progress.output, progress.session.received, progress.outcome)

namespace World

variable {world : World} {arguments : List Argument} {request : Request} {settings : Settings}

/-- The request that arguments are, or why they are none. -/
def requested (arguments : List Argument) : Except UsageAnswer Request :=
  Request.ofArguments (SplitArguments.ofArguments arguments).command.tail

/-- The settings of a run of the program. -/
def loaded (world : World) (arguments : List Argument) : Except RunError Settings :=
  world.settings (SplitArguments.ofArguments arguments).configuration.tail

theorem run_of_request (understood : requested arguments = .ok request)
    (loaded : world.loaded arguments = .ok settings) :
    world.run arguments = RunResult.ofServed (world.serve settings.session request) := by
  rw [requested] at understood
  rw [World.loaded] at loaded
  rw [run, understood]
  dsimp only
  rw [loaded]
  dsimp only
  split
  next hserve => rw [hserve]; rfl
  next hserve => rw [hserve]; rfl

section

variable {settings : SessionSettings} {server : Server} {session : Session}
  (reached : world.reach settings = .ok server)
include reached

/-- An operation on a session that is not opened. -/
theorem serve_operate_of_error {operation : Operation} {error : SessionError}
    (opened : Session.openWith settings [] (CavityCaches.fresh {}).1 (CavityCaches.fresh {}).2
      server = (session, .error error)) :
    world.serve settings (.operate operation) =
      ({ limit := world.outputLimit }, session.received, .error (.session error)) := by
  simp only [serve, reached, opened]

/-- An operation on a session that is opened. -/
theorem serve_operate_of_ok {operation : Operation}
    (opened : Session.openWith settings [] (CavityCaches.fresh {}).1 (CavityCaches.fresh {}).2
      server = (session, .ok ())) :
    world.serve settings (.operate operation) =
      (session.operate server { limit := world.outputLimit } operation).served := by
  simp only [serve, reached, opened, Progress.served]

/-- Watching on a session that is opened. -/
theorem serve_watch_of_ok
    (opened : Session.openWith settings [watcher] (CavityCaches.fresh {}).1
      (CavityCaches.fresh {}).2 server = (session, .ok ())) :
    world.serve settings .watch =
      (session.watch { limit := world.outputLimit } world.later).served := by
  simp only [serve, reached, opened, Progress.served]

end

end World

/-! ## A command line with one flag -/

/-- A command behind the flag that names the host. -/
def typed (command : List String) : List Argument :=
  (["phaserctl", "--server-host=here"] ++ command).map fun text => ⟨text.toUTF8.data.toList⟩

/-- The settings that it gives. -/
def hereSettings : Settings := { serverHost := "here" }

theorem load_here :
    ({ arguments := ["--server-host=here"] } : Sources).load = .ok hereSettings := by
  have hflags : Flags.read ["--server-host=here"] =
      some ⟨[(.setting .serverHost, "here")]⟩ := by decide +kernel
  have henvironment : Variables.layer [] = .ok {} := rfl
  have hlayers : ({ arguments := ["--server-host=here"] } : Sources).layers =
      .ok { flags := ⟨[("server_host", .string "here")]⟩ } := by
    simp only [Sources.layers, hflags, henvironment]
    rfl
  simp only [Sources.load, hlayers, bind, Except.bind]
  rfl

/-- Nothing but the flag is looked at for the settings. -/
theorem loaded_typed (reach : SessionSettings → Except SessionError Server) (later : List Arrival)
    {command : List String}
    (flags : (SplitArguments.ofArguments (typed command)).configuration.tail.mapM
      Argument.text? = some ["--server-host=here"]) :
    ({ reach, later } : World).loaded (typed command) = .ok hereSettings := by
  have hfilter : LogFilter.isValid hereSettings.logFilter = true := by decide +kernel
  have hload := mapError_eq_ok_iff (f := RunError.configuration).mpr load_here
  simp only [World.loaded, World.settings, flags, hload]
  simp [bind, Except.bind, hfilter, pure, Except.pure]

end CavityConsole
