import VetisTokio.Library.MultiMap

/-! Requests, responses and errors as this repository reads them. The types
themselves belong to the http and vetis crates; only the parts that the code
under src/ looks at or builds are kept. Texts of foreign errors are strings. -/
namespace VetisTokio.HttpData

abbrev Bytes := List UInt8

inductive Version where
  | http09 | http10 | http11 | http2 | http3
  deriving DecidableEq, Repr

structure Uri where
  scheme : Option String
  authority : Option String
  path : String
  query : Option String
  deriving DecidableEq, Repr

structure HeaderName where
  name : String
  deriving DecidableEq, Repr

structure HeaderValue where
  bytes : Bytes
  deriving DecidableEq, Repr

abbrev HeaderMap := List (HeaderName × HeaderValue)

def HeaderMap.get (headers : HeaderMap) (name : HeaderName) : Option HeaderValue :=
  (headers.find? (fun h => h.1 == name)).map Prod.snd

/- The crate keeps no order between names that anything here depends on. -/
def HeaderMap.insert (headers : HeaderMap) (name : HeaderName) (value : HeaderValue) : HeaderMap :=
  MultiMap.replace headers name value

def host : HeaderName := ⟨"host"⟩
def location : HeaderName := ⟨"location"⟩

inductive Frame where
  | data (bytes : Bytes)
  | trailers (headers : HeaderMap)
  deriving DecidableEq, Repr

/- A body is what reading it yields, one item after another, until the first
`none`. -/
abbrev HttpBody := Nat → Option (Except String Frame)

def textBody (text : String) : HttpBody
  | 0 => some (.ok (.data text.toUTF8.toList))
  | _ => none

structure Request where
  method : String
  uri : Uri
  version : Version
  headers : HeaderMap
  body : HttpBody

structure Response where
  status : Nat
  headers : HeaderMap
  body : HttpBody

inductive ContentError where
  | forbidden
  | notFound (text : String)
  | invalidMetadata (text : String)
  | invalidRange (text : String)
  | serverError (text : String)
  deriving DecidableEq, Repr

inductive HandlerError where
  | uri (text : String)
  | handler (text : String)
  deriving DecidableEq, Repr

inductive HostError where
  | proxy (text : String)
  | auth (text : String)
  | content (error : ContentError)
  | handler (error : HandlerError)
  deriving DecidableEq, Repr

inductive ListenerError where
  | noListeners
  | bind (text : String)
  deriving DecidableEq, Repr

inductive ConfigError where
  | tls (text : String)
  deriving DecidableEq, Repr

inductive StartError where
  | tls (text : String)
  deriving DecidableEq, Repr

/- `other` stands for the variants that nothing under src/ names. -/
inductive VetisError where
  | listener (error : ListenerError)
  | config (error : ConfigError)
  | start (error : StartError)
  | host (error : HostError)
  | bind (text : String)
  | tls (text : String)
  | worker (text : String)
  | stop (text : String)
  | other (text : String)
  deriving DecidableEq, Repr

abbrev VetisResult (α : Type) := Except VetisError α

theorem bindOkIff {ε α β : Type} {x : Except ε α} {f : α → Except ε β} {out : β} :
    (x >>= f) = .ok out ↔ ∃ a, x = .ok a ∧ f a = .ok out := by
  cases x <;> simp [bind, Except.bind]

def StatusCode.permanentRedirect : Nat := 308
def StatusCode.badRequest : Nat := 400
def StatusCode.unauthorized : Nat := 401
def StatusCode.forbidden : Nat := 403
def StatusCode.notFound : Nat := 404
def StatusCode.rangeNotSatisfiable : Nat := 416
def StatusCode.internalServerError : Nat := 500
def StatusCode.badGateway : Nat := 502

def StatusCode.asU16 (status : Nat) : UInt16 := status.toUInt16

def StatusCode.fromU16 (status : UInt16) : Option Nat :=
  if 100 ≤ status ∧ status ≤ 999 then some status.toNat else none

end VetisTokio.HttpData
