import CavityConsole.Json.Shape
import CavityConsole.Settings.LogFormat
import CavityConsole.Time.Duration
import CavityConsole.Transport.Endpoint

/-!
# Settings

Seven settings say where the server is, how long it is waited for and how the log is written. Each
has a name, a default, and a type that a given value has to have: a port, a count of 64 bits, a
text, or the exact name of a form of the log. `Settings.put` checks a given value and sets it.

In JSON the settings are a record. Members that are missing keep their defaults.
-/

namespace CavityConsole

/-- A form of the log as a JSON text has it. -/
def LogFormat.ofJsonText (text : String) : Except Json.Problem LogFormat :=
  Json.readAs (fun room => Json.Shape.name room choice) text

/-- What a client needs to know before it connects. -/
structure Settings where
  /-- The host of the server. -/
  serverHost : String := "localhost"
  /-- The port of the server. -/
  serverPort : UInt16 := 2048
  /-- Seconds until a connection has to be there. -/
  connectTimeoutSecs : UInt64 := 5
  /-- Seconds a command waits for its response. -/
  responseTimeoutSecs : UInt64 := 5
  /-- The bytes of the longest inbound line. -/
  maxFrameLength : UInt64 := 1048576
  /-- Which entries are written to the log. -/
  logFilter : String := "info"
  /-- How they are written. -/
  logFormat : LogFormat := .compact
deriving DecidableEq, Repr, Inhabited

/-- One of the settings. -/
inductive Setting where
  /-- The host of the server. -/
  | serverHost
  /-- The port of the server. -/
  | serverPort
  /-- Seconds until a connection has to be there. -/
  | connectTimeoutSecs
  /-- Seconds a command waits for its response. -/
  | responseTimeoutSecs
  /-- The bytes of the longest inbound line. -/
  | maxFrameLength
  /-- Which entries are written to the log. -/
  | logFilter
  /-- How they are written. -/
  | logFormat
deriving DecidableEq, Repr

namespace Setting

/-- All settings in their order. -/
def all : List Setting :=
  [.serverHost, .serverPort, .connectTimeoutSecs, .responseTimeoutSecs, .maxFrameLength, .logFilter,
   .logFormat]

/-- The name of a setting in documents and files. -/
def name : Setting → String
  | .serverHost => "server_host"
  | .serverPort => "server_port"
  | .connectTimeoutSecs => "connect_timeout_secs"
  | .responseTimeoutSecs => "response_timeout_secs"
  | .maxFrameLength => "max_frame_length"
  | .logFilter => "log_filter"
  | .logFormat => "log_format"

end Setting

namespace Settings

open Json

/-- The largest port. -/
def portBound : Nat := UInt16.size - 1

/-- The largest count of seconds or bytes. -/
def countBound : Nat := UInt64.size - 1

/-- Sets a setting to what was found in its place, if that is of its type. -/
def putFound (settings : Settings) (setting : Setting) (given : Found) : Except Mismatch Settings :=
  match setting with
  | .serverHost => (given.requireText "a string").map fun s => { settings with serverHost := s }
  | .serverPort =>
    (given.requireNatural portBound "u16").map fun n =>
      { settings with serverPort := UInt16.ofNat n }
  | .connectTimeoutSecs =>
    (given.requireNatural countBound "u64").map fun n =>
      { settings with connectTimeoutSecs := UInt64.ofNat n }
  | .responseTimeoutSecs =>
    (given.requireNatural countBound "u64").map fun n =>
      { settings with responseTimeoutSecs := UInt64.ofNat n }
  | .maxFrameLength =>
    (given.requireNatural countBound "usize").map fun n =>
      { settings with maxFrameLength := UInt64.ofNat n }
  | .logFilter => (given.requireText "a string").map fun s => { settings with logFilter := s }
  | .logFormat => do
    let name ← given.requireText "string or map"
    return { settings with logFormat := ← chosen LogFormat.choice name }

/-- Sets the form of the log by the members of an object: its name is the one key, and `null` the
value. -/
def putForm (settings : Settings) (given : Members) : Except Mismatch Settings :=
  match given with
  | [(name, value)] => do
    let form ← chosen LogFormat.choice name
    value.found.requireNull
    return { settings with logFormat := form }
  | members => .error (.wrongLength members.length "map with a single key")

/-- Sets a setting to a given value, if the value is of its type. -/
def put (settings : Settings) (setting : Setting) (given : Json) : Except Mismatch Settings :=
  match setting, given with
  | .logFormat, .object members => settings.putForm members
  | _, _ => settings.putFound setting given.found

/-- The endpoint of the server. -/
def endpoint (settings : Settings) : Endpoint := ⟨settings.serverHost, settings.serverPort⟩

/-- How long a connection is waited for. -/
def connectTimeout (settings : Settings) : Duration :=
  .ofSeconds settings.connectTimeoutSecs.toNat

/-- How long a response is waited for. -/
def responseTimeout (settings : Settings) : Duration :=
  .ofSeconds settings.responseTimeoutSecs.toNat

/-! ## JSON -/

/-- A setting as a field of a JSON record. -/
def fieldShape (room : Nat) (setting : Setting) : FieldShape Settings where
  name := setting.name
  read settings cs :=
    match setting with
    | .logFormat =>
      (Shape.name room LogFormat.choice cs).map fun (form, rest) =>
        ({ settings with logFormat := form }, rest)
    | other => Shape.checked room (settings.putFound other) cs

/-- Settings as a JSON text has them. -/
def ofJsonText (text : String) : Except Problem Settings :=
  readAs (fun room => Shape.record room "struct Config" (Setting.all.map (fieldShape room)) {}) text

/-- The JSON text of one setting. -/
def valueText (settings : Settings) : Setting → List Char
  | .serverHost => stringText settings.serverHost
  | .serverPort => Decimal.digitText settings.serverPort.toNat
  | .connectTimeoutSecs => Decimal.digitText settings.connectTimeoutSecs.toNat
  | .responseTimeoutSecs => Decimal.digitText settings.responseTimeoutSecs.toNat
  | .maxFrameLength => Decimal.digitText settings.maxFrameLength.toNat
  | .logFilter => stringText settings.logFilter
  | .logFormat => stringText settings.logFormat.name

/-- All settings as a JSON text, in their order. -/
def jsonText (settings : Settings) : String :=
  String.ofList <|
    objectText (Setting.all.map fun setting => (setting.name, settings.valueText setting))

end Settings

end CavityConsole
