import PiRust.Text

namespace PiRust.Sse

structure ServerSentEvent where
  event : Option String
  data : String
  deriving DecidableEq, Repr

/-- The locals of one `process_chunk` call. -/
structure Locals where
  events : List ServerSentEvent
  eventType : Option String
  dataParts : List String
  deriving DecidableEq, Repr

def Locals.fresh : Locals := ⟨[], none, []⟩

def newline : UInt8 := 0x0A

def stripTerminator (line : Bytes) : Bytes :=
  if [0x0D, newline].isSuffixOf line then line.take (line.length - 2)
  else if [newline].isSuffixOf line then line.dropLast
  else line

def fieldValue (rest : String) : String := (stripPrefix " " rest).getD rest

def processLine (locals : Locals) (line : Bytes) : Locals :=
  let trimmed := trimEndMatches '\r' (fromUtf8Lossy (stripTerminator line))
  if trimmed = "" then
    if locals.dataParts ≠ [] then
      { events := locals.events ++ [⟨locals.eventType, String.join locals.dataParts⟩]
        eventType := none
        dataParts := [] }
    else { locals with eventType := none }
  else if (stripPrefix ":" trimmed).isSome then locals
  else match stripPrefix "event:" trimmed with
    | some rest => { locals with eventType := some (fieldValue rest) }
    | none => match stripPrefix "data:" trimmed with
      | some rest => { locals with dataParts := locals.dataParts ++ [fieldValue rest] }
      | none => locals

/-- The loop of `process_chunk`: drain one line, handle it, until no newline is left. -/
def processLines (locals : Locals) (buf : Bytes) : Locals × Bytes :=
  match _ : Framing.cut newline buf with
  | none => (locals, buf)
  | some (line, rest) => processLines (processLine locals line) rest
termination_by buf.length
decreasing_by exact Framing.cut_length newline ‹_›

/-- The events of one call and the bytes left in `buf`. -/
def processChunk (chunk buf : Bytes) : List ServerSentEvent × Bytes :=
  let done := processLines Locals.fresh (buf ++ chunk)
  (done.1.events, done.2)

def flush (buf : Bytes) : List ServerSentEvent :=
  if buf = [] then []
  else
    let last := processChunk [] buf
    if last.2 = [] then last.1 else last.1 ++ [⟨none, fromUtf8Lossy last.2⟩]

/-- The items of the stream that `iterate_sse` makes of a body, whose reads are
chunks or a read error. -/
def iterateFrom (buf : Bytes) : List (Except String Bytes) → List (Except String ServerSentEvent)
  | [] => (flush buf).map .ok
  | .error reason :: _ => [.error ("SSE read error: " ++ reason)]
  | .ok chunk :: rest =>
    (processChunk chunk buf).1.map .ok ++ iterateFrom (processChunk chunk buf).2 rest

def iterateSse (body : List (Except String Bytes)) : List (Except String ServerSentEvent) :=
  iterateFrom [] body

end PiRust.Sse
