import RdpMcp.Foundations.LineReader
import RdpMcp.Json.Value
import RdpMcp.Worker.Message

/-!
# The worker's command loop

`run` is the worker process behind its start-up: it reads commands from its standard input, one JSON
value a line, gates them, hands them to the native layer, and reports what became of them. Every
exit of the loop drops the native runtime.

A run is a **trace** of what the loop did and an outcome. What arrives on the standard input is a
stream in pieces, the results of the native calls are a sequence, one for each call, and the reader
of JSON is a parameter; everything else is computed. Events that the native layer writes while a
call is going on are not part of the trace. Writing to the parent succeeds here: where it fails the
process exits on the spot.
-/

open ByteReader

namespace RdpMcp

/-- `MAX_COMMAND`. -/
def maxCommand : ℕ := 1024 * 1024

/-! ### The sender -/

/-- What becomes of writing to the worker's input. -/
inductive WriteResult where
  | written
  /-- It fails behind the first `n` bytes. -/
  | failed (n : ℕ)
  deriving DecidableEq, Repr

def commandTooLarge : String :=
  "worker command is too large"

def workerClosed : String :=
  "RDP worker is closed"

/-- `WorkerProcess::send`: write a command and a newline to the input, which holds what has been
written so far and is `none` once it has been taken away. -/
def send (toVec : JsonValue → List UInt8) (write : WriteResult) (command : JsonValue)
    (input : Option (List UInt8)) : Except String Unit × Option (List UInt8) :=
  let bytes := toVec command
  if maxCommand ≤ bytes.length then (.error commandTooLarge, input)
  else
    let bytes := bytes ++ [0x0a]
    match input with
    | none => (.error workerClosed, none)
    | some sent =>
      match write with
      | .written => (.ok (), some (sent ++ bytes))
      | .failed n => (.error "could not write to RDP worker", some (sent ++ bytes.take n))

/-! ### One line -/

/-- Why `run` ends with an error. -/
inductive RunError (ε : Type*) where
  | io (error : ε)
  | bail (text : String)
  deriving DecidableEq, Repr

def invalidLength : String :=
  "invalid worker command length or truncated command"

def invalidJson : String :=
  "invalid worker JSON command"

def noType : String :=
  "worker command has no type"

def connectOnce : String :=
  "worker requires exactly one connect command before input"

def containsNul : String :=
  "worker command contains NUL"

/-- What the loop makes of a line. -/
inductive LineAction where
  | disconnect
  | refuse (text : String)
  | call (kind : String)
  deriving DecidableEq, Repr

section Lines

variable (fromSlice : List UInt8 → Option JsonValue)

/-- The type field of a line. -/
def lineKind (line : List UInt8) : Option String :=
  (fromSlice line).bind fun value ↦ (value.index "type").asStr

/-- The checks of one line, in their order. -/
def lineAction (connected : Bool) (line : List UInt8) : LineAction :=
  if line.length > maxCommand ∨ line.getLast? ≠ some 0x0a then .refuse invalidLength
  else
    match fromSlice line with
    | none => .refuse invalidJson
    | some value =>
      match (value.index "type").asStr with
      | none => .refuse noType
      | some kind =>
        if kind = "disconnect" then .disconnect
        else if connected ∧ kind = "connect" ∨ ¬connected ∧ kind ≠ "connect" then
          .refuse connectOnce
        else if 0 ∈ line then .refuse containsNul
        else .call kind

end Lines

/-! ### The loop -/

/-- What the loop does. -/
inductive RunEffect where
  /-- Reading a line; the empty line is the end of the input. -/
  | read (line : List UInt8)
  /-- A call of `rdp_mcp_native_command` and its result. -/
  | native (command : List UInt8) (result : Int32)
  | output (kind : UInt32) (partA partB : List UInt8)
  /-- `rdp_mcp_native_shutdown`. -/
  | shutdown
  deriving DecidableEq, Repr

/-- What is read, line by line. -/
def readLines (trace : List RunEffect) : List (List UInt8) :=
  trace.filterMap fun
    | .read line => some line
    | _ => none

/-- `error_payload`. -/
def errorPayload (toVec : JsonValue → List UInt8) (message : String) : List UInt8 :=
  toVec (.record [("message", .string message)])

def nativeFailed (result : Int32) : String :=
  s!"native command failed with code {result}"

section Loop

variable {ε : Type*} (fromSlice : List UInt8 → Option JsonValue) (toVec : JsonValue → List UInt8)
  (native : ℕ → Int32)

/-- The loop of `run`, with `calls` native calls behind it. -/
def runLoop (connected : Bool) (calls : ℕ) (events : List (ReadEvent UInt8 ε)) :
    List RunEffect × Except (RunError ε) Unit :=
  match _ : readUntil (· == 0x0a) (maxCommand + 1) events with
  | (.error error, _) => ([], .error (.io error))
  | (.ok line, rest) =>
    if _ : line = [] then ([.read line], .ok ())
    else
      match lineAction fromSlice connected line with
      | .disconnect => ([.read line], .ok ())
      | .refuse text => ([.read line], .error (.bail text))
      | .call kind =>
        let result := native calls
        if result ≠ 0 then
          ([.read line, .native line result,
              .output msgError (errorPayload toVec (nativeFailed result)) []],
            .error (.bail (nativeFailed result)))
        else if kind = "connect" then
          let later := runLoop true (calls + 1) rest
          (.read line :: .native line result :: .output msgReady [] [] :: later.1, later.2)
        else
          let later := runLoop connected (calls + 1) rest
          (.read line :: .native line result :: later.1, later.2)
termination_by (bytes events).length
decreasing_by all_goals
  have hread := length_bytes_readUntil ‹_›
  have hline : 0 < line.length := List.length_pos_iff.2 ‹_›
  omega

/-- `run`, from the query of the ABI version on. -/
def run (abiVersion : UInt32) (initialized : Int32) (events : List (ReadEvent UInt8 ε)) :
    List RunEffect × Except (RunError ε) Unit :=
  if abiVersion ≠ 1 then ([], .error (.bail "unsupported native ABI version"))
  else if initialized ≠ 0 then
    ([], .error (.bail s!"native initialization failed with code {initialized}"))
  else
    let loop := runLoop fromSlice toVec native false 0 events
    (loop.1 ++ [.shutdown], loop.2)

end Loop

end RdpMcp
