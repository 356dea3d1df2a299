import Responder.Config.Basic
import Responder.Http.Exchange

/-!
# The program

The program is configured by environment variables and answers the requests that it
reads, one a line: a method, a target and a body, with a blank after each of the first
two. A line with the status comes before each body, and a line with its type before
each event.
-/

namespace Responder

/-- The server that a configuration asks for. A remote backend answers only where there
is a network. -/
def Server.ofConfig (c : Config) : Server where
  limits := c.limits
  count := Context.estimate
  backend := match c.backend with
    | .mock => .mock {}
    | .remote baseUrl apiKey => .remote {
        baseUrl, apiKey, timeout := .ofSeconds c.backendTimeoutSeconds
        network := .unreachable "connection refused" }
  store := .ofMaxEntries c.storeMaxEntries

def Http.Demand.ofLine (line : List Char) : Http.Demand :=
  let (method, rest) := Text.cut ' ' line
  let (target, body) := Text.cut ' ' rest
  { method := .ofText (String.ofList method), target := String.ofList target
    body := String.ofList body }

/-- The lines of an answer, and the server after its events were read. -/
def Http.Reply.lines (s : Server) : Http.Reply → List String × Server
  | .empty status => ([status.repr], s)
  | .text status words => ([status.repr, words], s)
  | .json status body => ([status.repr, body.text], s)
  | .finished id =>
    let (_, s) := s.await id
    (((s.turn? id).bind Turn.response?).elim [] fun r => ["200", r.toJson.text], s)
  | .events id =>
    let (read, s) := s.await id
    ("200" :: read.flatMap fun e => [e.event.type, e.toJson.text], s)
  | .never => ([], s)

partial def serve (s : Server) (input output : IO.FS.Stream) : IO Unit := do
  let line ← input.getLine
  if line.isEmpty then return
  let (s, reply) := Http.exchange s (.ofLine (Text.trim line.toList))
  let (lines, s) := reply.lines s
  lines.forM output.putStrLn
  output.flush
  serve s input output

def run : IO UInt32 := do
  let values ← Config.names.filterMapM fun name =>
    return (← IO.getEnv name).map fun value => (name, value)
  match Config.ofEnvironment (values.lookup ·) with
  | .error fault =>
    IO.eprintln ("Invalid configuration: " ++ fault.message)
    return 1
  | .ok config =>
    serve (Server.ofConfig config) (← IO.getStdin) (← IO.getStdout)
    return 0

end Responder

def main : IO UInt32 := Responder.run
