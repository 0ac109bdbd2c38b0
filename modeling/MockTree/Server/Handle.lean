import MockTree.Server.Admin
/-! Answering requests as they come in. -/
namespace MockTree
open Text

namespace Server

def failed (f : Fault) (waits : List Double) : Outcome := ⟨.serverError, waits, some f⟩

def replied (r : Reply) : Outcome := ⟨r, [], none⟩

/-- The wait before an answer; milliseconds become seconds. -/
def waitsFor (delay : Int) : List Double :=
  if 0 < delay then [.ofRatio false delay.natAbs 1000] else []

/-- Records the answer and sends it. -/
def finish (files : FileTree) (r : Request) (kind : String) (status : Int) (waits : List Double)
    (draft : Reply.Draft) (s : Server) : Outcome × Server :=
  match s.record ⟨r.method, r.path, kind, status⟩ with
  | .error f => (failed f waits, s)
  | .ok s =>
    match Reply.send files (r.method == "HEAD") draft with
    | .ok reply => (⟨reply, waits, none⟩, s)
    | .error f => (failed f waits, s)

/-- Answers with a definition, or with the report of its failure. The request has been counted. -/
def answer (registry : Registry) (s : Setting) (server : Server) : Outcome × Server :=
  let (result, session) :=
    StateT.run (ExceptT.run (Engine.respond registry server.root s)) server.session
  let server := { server with session := session }
  match result with
  | .error (.failure f) =>
    finish s.files s.request "error" 500 [] (.ready (.json 500 f.report.toValue)) server.countFailure
  | .error f => (failed f [], server)
  | .ok response =>
    let server := server.countResponse response.origin
    let waits := waitsFor response.delay
    match Reply.Draft.of response with
    | .error f => (failed f waits, server)
    | .ok draft =>
      finish s.files s.request response.origin.name response.status waits draft server

/-- Deals with a request; those for the definitions are counted before they are taken up. The setting tells the
surroundings; its request and sink do not count. -/
def handle (registry : Registry) (s : Setting) (r : Incoming) (server : Server) : Outcome × Server :=
  match Route.find server.config r.method r.target.path with
  | .notFound => (replied .notFound, server)
  | .methodNotAllowed => (replied .methodNotAllowed, server)
  | .moved path => (replied (.moved (server.framework.addressFor r path)), server)
  | .page page => (server.framework.page page r, server)
  | .admin call =>
    match server.administer s.files call r.target.query with
    | (.ok reply, server) => (replied reply, server)
    | (.error f, server) => (failed f [], server)
  | .definitions =>
    let server := server.countRequest
    match server.framework.request? r with
    | .ok request => server.answer registry { s with request := request, sink := server.sink }
    | .error f => (failed f [], server)

end Server
end MockTree
