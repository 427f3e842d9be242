import VetisTokio.HostRoute
import VetisTokio.ServiceQuic

/-! worker::udp, the requests of one HTTP/3 connection: how each is served, and what
is called on the stream it came with. The serving of a body need not end, so it is
given fuel; a result that is missing is a loop, a handler or a send that still runs. -/
namespace VetisTokio.H3Model
open HttpData ConfigData HostModel ServiceHttp HostRoute

inductive Protocol where
  | webTransport
  | named (name : String)
  deriving DecidableEq, Repr

/- What the operations of a stream come to, the data by the number of earlier data. A
peer that gives no more credit leaves one without a result. -/
structure SendStream where
  sendResponse : Option (Except String Unit)
  sendData : Nat → Option (Except String Unit)
  finish : Option (Except String Unit)

/- A request that could be resolved, with its stream. Whether a handler that gets it
comes to an end is the handler's own business. -/
structure Incoming where
  request : Request
  protocol : Option Protocol
  stream : SendStream
  returns : Bool

inductive Resolution where
  | request (incoming : Incoming)
  | failed (text : String)
  | waiting

inductive StreamCall where
  | sendResponse (status : Nat) (headers : HeaderMap)
  | sendData (bytes : Bytes)
  | finish
  deriving DecidableEq, Repr

structure Served where
  calls : List StreamCall
  result : Option (VetisResult Unit)

def Served.after (call : StreamCall) (served : Served) : Served := ⟨call :: served.calls, served.result⟩

def later {A : Type} (items : Nat → A) : Nat → A := fun n => items (n + 1)

def workerResult (result : Except String Unit) : VetisResult Unit :=
  match result with
  | .ok _ => .ok ()
  | .error text => .error (.worker text)

def drain (sendData : Nat → Option (Except String Unit)) (body : HttpBody) : Nat → Served
  | 0 => ⟨[], none⟩
  | fuel + 1 =>
    match body 0 with
    | none => ⟨[], some (.ok ())⟩
    | some (.ok (.data bytes)) =>
      match sendData 0 with
      | none => ⟨[.sendData bytes], none⟩
      | some (.ok _) => (drain (later sendData) (later body) fuel).after (.sendData bytes)
      | some (.error text) => ⟨[.sendData bytes], some (.error (.worker text))⟩
    -- neither of the two `if let Ok` has an else: trailers and errors of the body are passed over
    | some (.ok (.trailers _)) => drain sendData (later body) fuel
    | some (.error _) => drain sendData (later body) fuel

def serveBody (stream : SendStream) (body : HttpBody) (fuel : Nat) : Served :=
  let drained := drain stream.sendData body fuel
  match drained.result with
  | some (.ok _) => ⟨drained.calls ++ [.finish], stream.finish.map workerResult⟩
  | result => ⟨drained.calls, result⟩

def serveResponse (stream : SendStream) (response : Response) (fuel : Nat) : Served :=
  let head := StreamCall.sendResponse response.status response.headers
  match stream.sendResponse with
  | none => ⟨[head], none⟩
  -- a head that could not be sent is only logged
  | some _ => (serveBody stream response.body fuel).after head

def serveHttp (errorText : VetisError → String) (stream : SendStream) (answer : Option (VetisResult Response))
    (fuel : Nat) : Served :=
  match answer with
  | none => ⟨[], none⟩
  | some (.error error) => ⟨[], some (.error (.worker (errorText error)))⟩
  | some (.ok response) => serveResponse stream response fuel

def serveRaw (errorText : VetisError → String) (answer : Option (VetisResult Response)) : Served :=
  match answer with
  | none => ⟨[], none⟩
  | some (.error error) => ⟨[], some (.error (.worker (errorText error)))⟩
  | some (.ok _) => ⟨[], some (.ok ())⟩

def isWebTransport (incoming : Incoming) : Bool :=
  incoming.request.method == "CONNECT" && incoming.protocol == some .webTransport

section
variable {crates : RouteCrates} {files : HostFiles} {logger : Option Logger}

abbrev H3Service (crates : RouteCrates) (files : HostFiles) (logger : Option Logger) :=
  HttpService (ServedHost crates files logger)

def answerOf (service : H3Service crates files logger) (req : Request) :
    Answer (ServedHost crates files logger) := ServiceQuic.HttpService.call crates.http service req

def handlerCalls (service : H3Service crates files logger) (req : Request) : List HandlerCall :=
  match (answerOf service req).routed with
  | some (host, passed) => (route crates files logger host passed).calls
  | none => []

def awaited (service : H3Service crates files logger) (incoming : Incoming) : Option (VetisResult Response) :=
  if (handlerCalls service incoming.request).isEmpty || incoming.returns then
    some (answerOf service incoming.request).response
  else none

def serveRequest (errorText : VetisError → String) (service : H3Service crates files logger) (incoming : Incoming)
    (fuel : Nat) : Served :=
  if isWebTransport incoming then serveRaw errorText (awaited service incoming)
  else serveHttp errorText incoming.stream (awaited service incoming) fuel

def serveResolved (errorText : VetisError → String) (service : H3Service crates files logger)
    (resolution : Resolution) (fuel : Nat) : Served :=
  match resolution with
  | .request incoming => serveRequest errorText service incoming fuel
  | .failed _ => ⟨[], some (.ok ())⟩
  | .waiting => ⟨[], none⟩

structure Connection where
  streams : List (List StreamCall)
  result : Option (VetisResult Unit)

def Connection.after (calls : List StreamCall) (rest : Connection) : Connection := ⟨calls :: rest.streams, rest.result⟩

/- The accept loop over the streams of a connection, and the way `accept` ends. One
request is served after the other, whatever became of the last. -/
def serveConnection (errorText : VetisError → String) (service : H3Service crates files logger)
    (closed : Except String Unit) (fuel : Nat) : List Resolution → Connection
  | [] => ⟨[], some (workerResult closed)⟩
  | resolution :: rest =>
    let served := serveResolved errorText service resolution fuel
    match served.result with
    | some _ => (serveConnection errorText service closed fuel rest).after served.calls
    | none => ⟨[served.calls], none⟩

end

end VetisTokio.H3Model
