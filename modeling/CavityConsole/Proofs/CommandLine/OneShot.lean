import CavityConsole.Proofs.CommandLine.Asking
import CavityConsole.Proofs.CommandLine.Printing
import CavityConsole.Proofs.CommandLine.Selection
import CavityConsole.Proofs.Console.Outgoing
import CavityConsole.Proofs.Session.Exchange

/-!
# One command at a time

Behind the flags of the configuration stands a command line, and what it asks for is said by its
words alone (`Request.AskedBy`). A run for one operation asks for the version, then for the
cavities, and then issues the command that the operation stands for (`Operation.Requests`). Each
step is taken only if the one before was completed, and a job is started only on cavities that the
server has listed.

**The law** (`one_shot_truthful`): the server receives a beginning of these three commands; the exit
code is zero exactly when it received and completed them all, and then what the command prints is
printed (`Command.Prints`); in every other case the exit code is one, nothing is printed, and the
one thing reported is the first that failed (`Failure`). A command line that asks for no request and
for no help is refused with exit code two whatever the configuration and the server are.

A run comes to a failure with its reason or to its end (`OneShot`), and this is read off command by
command from what an exchange with the server comes to.
-/

namespace CavityConsole

open Connection

/-! ## What an operation stands for -/

/-- What is typed for the job of a start on a server with these cavities. -/
structure StartArguments.Chooses (arguments : StartArguments) (names : List String)
    (input : Job.Input) : Prop where
  correct : input.correct = arguments.correct
  continuous : input.continuous = arguments.continuous
  maxPhaseError : input.maxPhaseError = arguments.maxPhaseError
  maxMomentumError : input.maxMomentumError = arguments.maxMomentumError
  kickSamples : input.kickSamples = arguments.kickSamples
  /-- Every cavity of the server stands where it is listed first. -/
  all : arguments.allCavities = true → FirstOccurrences names input.cavities
  named : arguments.allCavities = false → input.cavities = arguments.cavities

/-- The command that an operation stands for on a server with these cavities. -/
inductive Operation.Requests (names : List String) : Operation → Command → Prop
  | version : Requests names .version .version
  | cavities : Requests names .cavities .cavities
  /-- All cavities of the job are on the list, and what was typed is a job. -/
  | start {arguments : StartArguments} {input : Job.Input} {job : Job}
    (chooses : arguments.Chooses names input) (known : ∀ name ∈ input.cavities, name ∈ names)
    (sound : ∀ error, ¬ Job.Fault input error) (typed : Job.Typed input job) :
    Requests names (.start arguments) (.start job)
  | pause : Requests names .pause .pause
  | resume : Requests names .resume .resume
  | stop : Requests names .stop .stop
  | skip : Requests names .skip .skip
  | applyCorrections {results : List ResultId} :
    Requests names (.applyCorrections results) (.applyCorrections results)

/-- What is printed for a command that was completed with a response. -/
inductive Command.Prints : Command → Document → String → Prop
  | version {document : Document} {version : String}
    (holds : Members.get? document "version" = some (.string version)) :
    Prints .version document (version ++ "\n")
  | cavities {document : Document} {names : List String} {cavities : CavityList}
    (lists : Lists document names) (kept : FirstOccurrences names cavities.names) :
    Prints .cavities document (String.join (cavities.names.map (· ++ "\n")))
  | start {job : Job} {document : Document} :
    Prints (.start job) document
      ("started job on " ++ countText job.cavities.size ++ " cavities\n")
  | pause {document : Document} : Prints .pause document "pause: ok\n"
  | resume {document : Document} : Prints .resume document "resume: ok\n"
  | stop {document : Document} : Prints .stop document "stop: ok\n"
  | skip {document : Document} : Prints .skip document "skip: ok\n"
  | applyCorrections {results : List ResultId} {document : Document} :
    Prints (.applyCorrections results) document
      ("applied corrections from " ++ countText results.length ++ " results\n")

/-- What the opening of a session has to bring about: the server has said its version and listed
these cavities. -/
structure Server.Opened (server : Server) (names : List String) : Prop where
  version : ∃ document, server.Completes [] .version document
  cavities : ∃ listing, server.Completes [.version] .cavities listing ∧ Lists listing names

/-- Why a run fails, and which commands the server has received then. -/
inductive Failure (server : Server) (timeout : Duration) (operation : Operation) :
    List Command → RunError → Prop
  /-- The version. -/
  | version {received : List Command} {error : CommandError}
    (fails : server.Fails timeout [] .version received error) :
    Failure server timeout operation received (.session (.handshake error))
  /-- The cavities. -/
  | cavities {document : Document} {received : List Command} {error : CommandError}
    (version : server.Completes [] .version document)
    (fails : server.Fails timeout [.version] .cavities received error) :
    Failure server timeout operation received (.session (.handshake error))
  /-- A cavity that is not on the list; the first one is reported. -/
  | unknownCavity {names : List String} {arguments : StartArguments} {input : Job.Input}
    {before after : List String} {name : String} (opened : server.Opened names)
    (start : operation = .start arguments) (chooses : arguments.Chooses names input)
    (split : input.cavities = before ++ name :: after) (known : ∀ other ∈ before, other ∈ names)
    (unknown : name ∉ names) :
    Failure server timeout operation [.version, .cavities] (.unknownCavity name)
  /-- What was typed for a job; the earliest fault is reported. -/
  | job {names : List String} {arguments : StartArguments} {input : Job.Input}
    {error : Job.InputError} (opened : server.Opened names) (start : operation = .start arguments)
    (chooses : arguments.Chooses names input) (known : ∀ name ∈ input.cavities, name ∈ names)
    (earliest : Job.Earliest input error) :
    Failure server timeout operation [.version, .cavities] (.job error)
  /-- The command itself. -/
  | command {names : List String} {command : Command} {received : List Command}
    {error : CommandError} (opened : server.Opened names)
    (requests : operation.Requests names command)
    (fails : server.Fails timeout [.version, .cavities] command received error) :
    Failure server timeout operation received (.command error)

/-- What a run for an operation leaves behind. -/
inductive OneShot (server : Server) (timeout : Duration) (operation : Operation) :
    RunResult → Prop
  | failed {received : List Command} {error : RunError}
    (failure : Failure server timeout operation received error) :
    OneShot server timeout operation
      { exitCode := 1, stderr := error.message ++ "\n", received }
  | done {names : List String} {command : Command} {response : Document} {text : String}
    (opened : server.Opened names) (requests : operation.Requests names command)
    (completes : server.Completes [.version, .cavities] command response)
    (prints : command.Prints response text) :
    OneShot server timeout operation
      { exitCode := 0, stdout := text, received := [.version, .cavities, command] }

/-! ## What is printed -/

theorem join_version (version : String) :
    String.join (versionPieces version) = version ++ "\n" := by
  simp [versionPieces]

theorem join_cavities (cavities : CavityList) :
    String.join (cavityPieces cavities) = String.join (cavities.names.map (· ++ "\n")) := by
  rw [cavityPieces]
  induction cavities.names with
  | nil => rfl
  | cons name names ih =>
    rw [List.flatMap_cons, String.join_append, ih, List.map_cons, String.join_cons]
    simp

theorem join_started (job : Job) :
    String.join (startedPieces job) =
      "started job on " ++ countText job.cavities.size ++ " cavities\n" := by
  simp [startedPieces, String.append_assoc]

theorem join_applied (results : List ResultId) :
    String.join (appliedPieces results) =
      "applied corrections from " ++ countText results.length ++ " results\n" := by
  simp [appliedPieces, String.append_assoc]

/-! ## One operation -/

section

variable {listeners : List Recorder} {timeout : Duration} {server : Server} {session : Session}
  {names : List String}

/-- A command whose response is not looked into. -/
theorem reads_acknowledged {command : Command} (h : ∀ document, command.Payload document) :
    Session.Reads command fun _ => .ok () :=
  ⟨fun document _ _ => h document, nofun⟩

/-- A command is issued and something printed when it is completed. -/
theorem oneShot_print {α : Type} {operation : Operation} {command : Command}
    {read : Document → Except CommandError α} (attends : session.Attends listeners timeout server)
    (calm : Calm listeners) (received : session.received = [.version, .cavities])
    (opened : server.Opened names) (requests : operation.Requests names command)
    (reads : Session.Reads command read) (pieces : α → List String)
    (prints : ∀ document value, read document = .ok value →
      command.Prints document (String.join (pieces value))) :
    OneShot server timeout operation (RunResult.ofServed
      (Progress.print (session.ask server command read).1 {}
        ((session.ask server command read).2.map pieces)).served) := by
  obtain ⟨-, asked⟩ := attends.ask calm reads
  rw [received] at asked
  generalize session.ask server command read = after at asked
  obtain ⟨next, outcome⟩ := after
  dsimp only at asked ⊢
  cases asked with
  | failed fails => exact .failed (.command opened requests fails)
  | completed completes sent holds =>
    rename_i response value
    have hwrite : Output.write {} (pieces value) = (Output.add {} (pieces value), .ok ()) :=
      Output.write_unlimited rfl (pieces value)
    have htext : (Output.add {} (pieces value)).text = String.join (pieces value) := by
      rw [Output.text_add]
      simp [Output.text]
    have hresult : RunResult.ofServed
        (Progress.print next {} (Except.map pieces (.ok value))).served =
          { exitCode := 0
            stdout := String.join (pieces value)
            received := [.version, .cavities, command] } := by
      rw [Except.map, Progress.print, hwrite, ← htext]
      dsimp only [Progress.served, Except.mapError]
      rw [RunResult.ofServed, sent]
      rfl
    rw [hresult]
    exact .done opened requests completes (prints response value holds)

/-- A command that is only acknowledged. -/
theorem oneShot_issue {operation : Operation} {command : Command}
    (attends : session.Attends listeners timeout server) (calm : Calm listeners)
    (received : session.received = [.version, .cavities]) (opened : server.Opened names)
    (requests : operation.Requests names command) (payload : ∀ document, command.Payload document)
    (pieces : List String) (prints : ∀ document, command.Prints document (String.join pieces)) :
    OneShot server timeout operation
      (RunResult.ofServed (session.issue server {} command pieces).served) := by
  rw [Session.issue, Session.acknowledge_eq]
  exact oneShot_print attends calm received opened requests (reads_acknowledged payload)
    (fun _ => pieces) fun document _ _ => prints document

/-- The input of a start holds what was typed, with the cavities that are candidates. -/
theorem chooses_input (arguments : StartArguments) (names : List String) :
    arguments.Chooses names (arguments.input (arguments.candidates (.ofList names))) where
  correct := rfl
  continuous := rfl
  maxPhaseError := rfl
  maxMomentumError := rfl
  kickSamples := rfl
  all hall := by
    rw [StartArguments.candidates, if_pos hall]
    exact firstOccurrences_ofList names
  named hnamed := by
    rw [StartArguments.candidates, if_neg (Bool.eq_false_iff.mp hnamed)]
    rfl

theorem mem_names_ofList {name : String} : name ∈ (CavityList.ofList names).names ↔ name ∈ names :=
  (firstOccurrences_ofList names).members name

/-- A job that is none is reported before anything is sent. -/
theorem operate_of_no_job {arguments : StartArguments} {error : RunError}
    (h : arguments.job session.cavities = .error error) :
    session.operate server {} (.start arguments) = ⟨session, {}, .error error⟩ := by
  rw [Session.operate, h]

theorem operate_of_job {arguments : StartArguments} {job : Job}
    (h : arguments.job session.cavities = .ok job) :
    session.operate server {} (.start arguments) =
      session.issue server {} (.start job) (startedPieces job) := by
  rw [Session.operate, h]

/-- A start: the job is looked at before anything is sent. -/
theorem oneShot_start (arguments : StartArguments)
    (attends : session.Attends listeners timeout server) (calm : Calm listeners)
    (received : session.received = [.version, .cavities]) (opened : server.Opened names)
    (shows : session.cavities = .ofList names) :
    OneShot server timeout (.start arguments)
      (RunResult.ofServed (session.operate server {} (.start arguments)).served) := by
  have chooses := chooses_input arguments names
  -- nothing is sent unless there is a job, so the two refusals leave what was received as it is
  have hselects := StartArguments.selects_job arguments (.ofList names)
  generalize hjob : arguments.job (.ofList names) = result at hselects
  rw [← shows] at hjob
  cases hselects with
  | unknown first =>
    obtain ⟨before, after, split, known, unknown⟩ := first
    rw [operate_of_no_job hjob]
    show OneShot server timeout _ { exitCode := 1, stderr := _, received := session.received }
    rw [received]
    exact .failed (.unknownCavity opened rfl chooses split
      (fun other hother => mem_names_ofList.mp (known other hother))
      fun hname => unknown (mem_names_ofList.mpr hname))
  | refused listed earliest =>
    rw [operate_of_no_job hjob]
    show OneShot server timeout _ { exitCode := 1, stderr := _, received := session.received }
    rw [received]
    exact .failed (.job opened rfl chooses
      (fun name hname => mem_names_ofList.mp (listed name hname)) earliest)
  | accepted listed sound typed =>
    have known name hname := mem_names_ofList.mp (listed name hname)
    rw [operate_of_job hjob]
    refine oneShot_issue attends calm received opened (.start chooses known sound typed)
      (fun _ => trivial) _ fun _ => ?_
    rw [join_started]
    exact .start

/-- **An operation on an open session** comes to its end or fails for its reason. -/
theorem oneShot_operate (operation : Operation)
    (attends : session.Attends listeners timeout server) (calm : Calm listeners)
    (received : session.received = [.version, .cavities]) (opened : server.Opened names)
    (shows : session.cavities = .ofList names) :
    OneShot server timeout operation
      (RunResult.ofServed (session.operate server {} operation).served) := by
  cases operation with
  | version =>
    refine oneShot_print attends calm received opened .version Session.reads_version versionPieces
      fun document version holds => ?_
    rw [join_version]
    exact .version (versionOf_eq_ok_iff.mp holds)
  | cavities =>
    refine oneShot_print attends calm received opened .cavities Session.reads_cavities cavityPieces
      fun document cavities holds => ?_
    rw [join_cavities]
    rcases cavitiesOf_cases document with ⟨names, hlists, hread⟩ | ⟨-, hread⟩ | ⟨-, hread⟩
    · cases hread.symm.trans holds
      exact .cavities hlists (firstOccurrences_ofList names)
    all_goals cases hread.symm.trans holds
  | start arguments => exact oneShot_start arguments attends calm received opened shows
  | pause =>
    exact oneShot_issue attends calm received opened .pause (fun _ => trivial) _ fun _ => .pause
  | resume =>
    exact oneShot_issue attends calm received opened .resume (fun _ => trivial) _ fun _ => .resume
  | stop =>
    exact oneShot_issue attends calm received opened .stop (fun _ => trivial) _ fun _ => .stop
  | skip =>
    exact oneShot_issue attends calm received opened .skip (fun _ => trivial) _ fun _ => .skip
  | applyCorrections results =>
    refine oneShot_issue attends calm received opened .applyCorrections (fun _ => trivial) _
      fun _ => ?_
    rw [join_applied]
    exact .applyCorrections

end

/-! ## A whole run -/

/-- **A run for an operation** comes to its end or fails for its reason. -/
theorem oneShot_serve {world : World} {settings : SessionSettings} {server : Server}
    (operation : Operation) (reached : world.reach settings = .ok server)
    (unlimited : world.outputLimit = none) :
    OneShot server settings.responseTimeout operation
      (RunResult.ofServed (world.serve settings (.operate operation))) := by
  have calm : Calm [] := nofun
  have hopening := Session.opening_openWith calm settings (CavityCaches.fresh {}).1
    (CavityCaches.fresh {}).2 (by decide) server
  generalize hopen : Session.openWith settings [] (CavityCaches.fresh {}).1
    (CavityCaches.fresh {}).2 server = opened at hopening
  obtain ⟨session, outcome⟩ := opened
  dsimp only at hopening
  cases hopening with
  | unversioned fails =>
    rw [World.serve_operate_of_error reached hopen, unlimited]
    exact .failed (.version fails)
  | unlisted version fails =>
    rw [World.serve_operate_of_error reached hopen, unlimited]
    exact .failed (.cavities version fails)
  | opened version cavities lists received attends shows =>
    rw [World.serve_operate_of_ok reached hopen, unlimited]
    exact oneShot_operate operation attends calm received
      ⟨⟨_, version⟩, _, cavities, lists⟩ shows

/-- A response that holds what a command asks for is not wrong. -/
theorem Command.Misanswers.not_payload {command : Command} {document : Document}
    {error : CommandError} (wrong : command.Misanswers document error) :
    ¬ command.Payload document := by
  cases wrong with
  | noVersion lacks =>
    rintro ⟨version, hversion⟩
    rcases lacks with h | h <;> cases hversion.symm.trans h
  | badVersion present other => exact fun ⟨said, hsaid⟩ => other said hsaid
  | noCavities lacks =>
    rintro ⟨names, hlists⟩
    rcases lacks with h | h <;> cases hlists.symm.trans h
  | badCavities mislists => exact fun ⟨names, hlists⟩ => mislists.2 names hlists

/-- A command that fails was received or not. -/
theorem Server.Fails.received {server : Server} {timeout : Duration}
    {before received : List Command} {command : Command} {error : CommandError}
    (fails : server.Fails timeout before command received error) :
    received = before ∨ received = before ++ [command] := by
  cases fails with
  | unsent | ended => exact .inl rfl
  | cut | late | rejected | misanswered => exact .inr rfl

/-- A command is completed or it fails, and not both. -/
theorem Server.Completes.not_fails {server : Server} {timeout : Duration}
    {before received : List Command} {command : Command} {response : Document}
    {error : CommandError} (completes : server.Completes before command response) :
    ¬ server.Fails timeout before command received error := by
  intro fails
  cases fails with
  | unsent refusal => cases completes.taken.symm.trans refusal
  | ended taken reading => cases completes.reading.symm.trans reading
  | cut taken reading silent =>
    have hfirst := completes.first
    rw [silent] at hfirst
    cases hfirst
  | late taken silent =>
    have hfirst := completes.first
    rw [silent] at hfirst
    cases hfirst
  | rejected answers refuses =>
    cases completes.first.symm.trans answers.first
    exact refuses completes.accepting
  | misanswered answers accepting wrong =>
    cases completes.first.symm.trans answers.first
    exact wrong.not_payload completes.payload

/-- What a run for an operation has to be. -/
structure Truthful (server : Server) (timeout : Duration) (operation : Operation)
    (result : RunResult) : Prop where
  /-- The server receives a beginning of three commands. -/
  begins : ∃ command, result.received <+: [.version, .cavities, command]
  /-- It is asked for its cavities only if it has said its version. -/
  cavities : [.version, .cavities] <+: result.received →
    ∃ document, server.Completes [] .version document
  /-- It receives the command of the operation only if it has listed its cavities, and a start only
  if the job is one for these cavities. -/
  requested : ∀ command, result.received = [.version, .cavities, command] →
    ∃ listing names, server.Completes [.version] .cavities listing ∧ Lists listing names ∧
      operation.Requests names command
  /-- What goes out is a document that describes the command. -/
  lines : ∀ command ∈ result.received, ∃ document, command.Described document ∧
    Document.ofLine command.line = .ok document
  /-- The exit code is zero exactly when all three are received and completed. -/
  success : result.exitCode = 0 ↔ ∃ document listing command response,
    result.received = [.version, .cavities, command] ∧
      server.Completes [] .version document ∧ server.Completes [.version] .cavities listing ∧
      server.Completes [.version, .cavities] command response
  /-- Then what the command prints is printed. -/
  printed : ∀ command response, result.received = [.version, .cavities, command] →
    server.Completes [.version, .cavities] command response →
    command.Prints response result.stdout ∧ result.stderr = ""
  /-- Otherwise nothing is printed, and what failed is reported. -/
  failed : result.exitCode ≠ 0 → result.exitCode = 1 ∧ result.stdout = "" ∧
    ∃ error, Failure server timeout operation result.received error ∧
      result.stderr = error.message ++ "\n"

variable {server : Server} {timeout : Duration} {operation : Operation} {received : List Command}
  {error : RunError}

/-- When a run fails, the server has received a beginning of the three commands. -/
theorem Failure.begins (failure : Failure server timeout operation received error) :
    ∃ command, received <+: [.version, .cavities, command] := by
  cases failure with
  | version fails =>
    refine ⟨.version, ?_⟩
    rcases fails.received with rfl | rfl
    · exact List.nil_prefix
    · exact ⟨_, rfl⟩
  | cavities version fails =>
    refine ⟨.version, ?_⟩
    rcases fails.received with rfl | rfl <;> exact ⟨_, rfl⟩
  | unknownCavity | job => exact ⟨.version, _, rfl⟩
  | command opened requests fails =>
    rename_i names command error
    refine ⟨command, ?_⟩
    rcases fails.received with rfl | rfl
    · exact ⟨_, rfl⟩
    · exact List.prefix_rfl

/-- When it fails behind the second command, the server has said its version. -/
theorem Failure.version_completed (failure : Failure server timeout operation received error)
    (h : [.version, .cavities] <+: received) :
    ∃ document, server.Completes [] .version document := by
  cases failure with
  | version fails =>
    have hlength := h.length_le
    rcases fails.received with rfl | rfl <;> simp at hlength
  | cavities version fails => exact ⟨_, version⟩
  | unknownCavity opened | job opened | command opened => exact opened.version

/-- When it fails behind the third command, that command was due and has failed. -/
theorem Failure.third {command : Command}
    (failure : Failure server timeout operation received error)
    (h : received = [.version, .cavities, command]) :
    ∃ names, server.Opened names ∧ operation.Requests names command ∧
      ∃ error, server.Fails timeout [.version, .cavities] command received error := by
  cases failure with
  | version fails => rcases fails.received with rfl | rfl <;> cases h
  | cavities version fails => rcases fails.received with rfl | rfl <;> cases h
  | unknownCavity | job => cases h
  | command opened requests fails =>
    rcases fails.received with rfl | rfl
    · cases h
    · cases h
      exact ⟨_, opened, requests, _, fails⟩

/-- **Every run for an operation is truthful.** -/
theorem OneShot.truthful {result : RunResult} (h : OneShot server timeout operation result) :
    Truthful server timeout operation result := by
  cases h with
  | failed failure =>
    rename_i received error
    have hincomplete : ∀ command response, received = [.version, .cavities, command] →
        ¬ server.Completes [.version, .cavities] command response := by
      intro command response hreceived completes
      obtain ⟨names, -, -, error, fails⟩ := failure.third hreceived
      exact completes.not_fails fails
    refine ⟨failure.begins, failure.version_completed, fun command hreceived => ?_,
      fun command _ => command.ofLine_line, ⟨nofun, ?_⟩, ?_,
      fun _ => ⟨rfl, rfl, error, failure, rfl⟩⟩
    · obtain ⟨names, opened, requests, -⟩ := failure.third hreceived
      obtain ⟨listing, completes, lists⟩ := opened.cavities
      exact ⟨listing, names, completes, lists, requests⟩
    · rintro ⟨document, listing, command, response, hreceived, -, -, completes⟩
      exact absurd completes (hincomplete command response hreceived)
    · intro command response hreceived completes
      exact absurd completes (hincomplete command response hreceived)
  | done opened requests completes prints =>
    rename_i names command response text
    obtain ⟨document, version⟩ := opened.version
    obtain ⟨listing, cavities, lists⟩ := opened.cavities
    refine ⟨⟨command, List.prefix_rfl⟩, fun _ => ⟨document, version⟩, ?_,
      fun command _ => command.ofLine_line,
      ⟨fun _ => ⟨document, listing, command, response, rfl, version, cavities, completes⟩,
        fun _ => rfl⟩, ?_, fun h => absurd rfl h⟩
    · rintro _ ⟨rfl⟩
      exact ⟨listing, names, cavities, lists, requests⟩
    · rintro _ other ⟨rfl⟩ othersCompletes
      cases completes.first.symm.trans othersCompletes.first
      exact ⟨prints, rfl⟩

/-- The parts of a command line behind the name of the program. -/
theorem parts_of_divides {arguments command : List Argument} {run : FlagRun}
    (h : Divides arguments.tail run command) :
    (SplitArguments.ofArguments arguments).configuration.tail = run.arguments ∧
      (SplitArguments.ofArguments arguments).command.tail = command := by
  cases arguments with
  | nil =>
    have hdivide := SplitArguments.divide_of_divides h
    exact ⟨congrArg SplitArguments.configuration hdivide,
      congrArg SplitArguments.command hdivide⟩
  | cons program rest =>
    rw [List.tail_cons] at h
    rw [SplitArguments.ofArguments_of_divides program h]
    exact ⟨rfl, rfl⟩

/-- **One-shot commands send what they should and report it truthfully.** Every list of arguments is
flags of the configuration and a command line. A command line that asks for no request is refused,
or answered with help if it asks for that, whatever the configuration and the server are. A run for
an operation, on any server and with any configuration that can be loaded, is truthful. -/
theorem one_shot_truthful (arguments : List Argument) :
    (∃ run command, Divides arguments.tail run command) ∧
    ∀ run command, Divides arguments.tail run command →
      ((∀ request, ¬ Request.AskedBy command request) → ¬ Request.AsksHelp command →
        ∃ error : UsageError, ∀ world : World, world.run arguments =
          { exitCode := 2, stderr := error.message ++ "\n", received := [] }) ∧
      (Request.AsksHelp command →
        ∃ line, ∀ world : World, world.run arguments =
          { exitCode := 0, stdout := line ++ "\n", received := [] }) ∧
      ∀ (world : World) (operation : Operation) (settings : Settings) (server : Server),
        Request.AskedBy command (.operate operation) →
        world.settings run.arguments = .ok settings →
        world.reach settings.session = .ok server →
        world.outputLimit = none →
        Truthful server settings.responseTimeout operation (world.run arguments) := by
  refine ⟨SplitArguments.exists_divides _, fun run command divides => ?_⟩
  obtain ⟨hflags, hcommand⟩ := parts_of_divides divides
  refine ⟨fun unasked nohelp => ?_, fun help => ?_, ?_⟩
  · obtain ⟨error, refused⟩ := Request.exists_usageError unasked nohelp
    refine ⟨error, fun world => ?_⟩
    rw [World.run, hcommand, refused]
  · obtain ⟨line, answered⟩ := Request.ofArguments_eq_help_iff.mpr help
    refine ⟨line, fun world => ?_⟩
    rw [World.run, hcommand, answered]
  · intro world operation settings server asked loaded reached unlimited
    have hasked : World.requested arguments = .ok (.operate operation) := by
      rw [World.requested, hcommand]
      exact Request.ofArguments_eq_ok_iff.mpr asked
    have hloaded : world.loaded arguments = .ok settings := by
      rwa [World.loaded, hflags]
    rw [World.run_of_request hasked hloaded]
    exact (oneShot_serve operation reached unlimited).truthful

/-- A server that has two cavities and accepts three commands. -/
def obliging : Server :=
  .ofTranscript
    [.ok [.line "\x7b\"response\":\"ok\",\"version\":\"1\"\x7d"],
     .ok [.line "\x7b\"response\":\"ok\",\"cavities\":[\"a\",\"c\"]\x7d"],
     .ok [.line "\x7b\"response\":\"ok\"\x7d"]]

/-- A run that reaches it. -/
def obligingWorld : World where
  reach := fun _ => .ok obliging

/-- The flag in front of a command that is typed. -/
def hereFlags : FlagRun := ⟨[.attached (.setting .serverHost) (.ofText "here")], none⟩

theorem divides_typed {command : List String}
    (starts : ∀ first ∈ (command.map Argument.ofText).head?, first.role = .other) :
    Divides (typed command).tail hereFlags (command.map .ofText) where
  whole := by
    have hflag : (typed []).tail = hereFlags.arguments := by decide +kernel
    have htyped : (typed command).tail = (typed []).tail ++ command.map .ofText := by
      show _ :: List.map _ _ = _ :: List.map _ _
      exact congrArg _ (List.map_congr_left fun text _ =>
        congrArg Argument.mk (Argument.bytes_ofText text).symm)
    rw [htyped, hflag]
  atEnd := nofun
  starts first hfirst hflag := by
    have hother := starts first hfirst
    obtain ⟨flag, rfl | ⟨value, rfl⟩⟩ := hflag
    · cases (Argument.role_ofFlag flag).symm.trans hother
    · cases (Argument.role_attached flag value).symm.trans hother

/-- A start as it is typed. -/
def startWords : List String :=
  ["start", "--correct", "--max-phase-error=5", "c", "--max-momentum-error", "0.5",
    "--kick-samples=32", "a", "--", "c"]

/-- Results as they are typed. -/
def resultWords : List String := ["apply-corrections", "7", "--", "8"]

/-- A start that cannot be understood. -/
def unclearWords : List String := ["start", "--all-cavities", "a"]

theorem one_shot_truthful_obliging :
    Truthful obliging hereSettings.responseTimeout (.start StartArguments.namedStart)
        (obligingWorld.run (typed startWords)) ∧
      obligingWorld.run (typed startWords) =
        { exitCode := 0
          stdout := "started job on 2 cavities\n"
          received := [.version, .cavities,
            .start (StartArguments.typedJob false (.ofList ["c", "a"]))] } ∧
      Truthful obliging hereSettings.responseTimeout (.applyCorrections [⟨7⟩, ⟨8⟩])
        (obligingWorld.run (typed resultWords)) ∧
      obligingWorld.run (typed resultWords) =
        { exitCode := 0
          stdout := "applied corrections from 2 results\n"
          received := [.version, .cavities, .applyCorrections [⟨7⟩, ⟨8⟩]] } ∧
      (∃ error : UsageError, ∀ world : World, world.run (typed unclearWords) =
        { exitCode := 2, stderr := error.message ++ "\n", received := [] }) ∧
      ∃ line, ∀ world : World, world.run (typed ["start", "--help"]) =
        { exitCode := 0, stdout := line ++ "\n", received := [] } := by
  have understoodStart : World.requested (typed startWords) =
      .ok (.operate (.start StartArguments.namedStart)) := by decide +kernel
  have understoodResults : World.requested (typed resultWords) =
      .ok (.operate (.applyCorrections [⟨7⟩, ⟨8⟩])) := by decide +kernel
  have loadedStart : obligingWorld.loaded (typed startWords) = .ok hereSettings :=
    loaded_typed _ _ (by decide +kernel)
  have loadedResults : obligingWorld.loaded (typed resultWords) = .ok hereSettings :=
    loaded_typed _ _ (by decide +kernel)
  have loaded : obligingWorld.settings hereFlags.arguments = .ok hereSettings := by
    rwa [World.loaded, (parts_of_divides (divides_typed (by decide +kernel))).1] at loadedStart
  have refused : Request.ofArguments (unclearWords.map .ofText) =
      .error (.error (.conflict "--all-cavities" "[CAVITY]...")) := by decide +kernel
  obtain ⟨-, start⟩ := one_shot_truthful (typed startWords)
  obtain ⟨-, results⟩ := one_shot_truthful (typed resultWords)
  obtain ⟨-, unclear⟩ := one_shot_truthful (typed unclearWords)
  obtain ⟨-, help⟩ := one_shot_truthful (typed ["start", "--help"])
  refine ⟨?_, ?_, ?_, ?_, ?_, ?_⟩
  · exact (start _ _ (divides_typed (by decide +kernel))).2.2 obligingWorld _ hereSettings obliging
      (Request.ofArguments_eq_ok_iff.mp (by decide +kernel)) loaded rfl rfl
  · rw [World.run_of_request understoodStart loadedStart]
    decide +kernel
  · exact (results _ _ (divides_typed (by decide +kernel))).2.2 obligingWorld _ hereSettings
      obliging (Request.ofArguments_eq_ok_iff.mp (by decide +kernel)) loaded rfl rfl
  · rw [World.run_of_request understoodResults loadedResults]
    decide +kernel
  · refine (unclear _ _ (divides_typed (by decide +kernel))).1 (fun request asked => ?_)
      fun asks => ?_
    · cases refused.symm.trans (Request.ofArguments_eq_ok_iff.mpr asked)
    · obtain ⟨line, answered⟩ := Request.ofArguments_eq_help_iff.mpr asks
      cases refused.symm.trans answered
  · exact (help _ _ (divides_typed (by decide +kernel))).2.1
      (.start .nil (List.forall_mem_nil _) List.nodup_nil (.inl rfl))

end CavityConsole
