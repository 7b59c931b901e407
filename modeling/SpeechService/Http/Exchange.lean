import SpeechService.Http.Body
import SpeechService.Http.MediaType
import SpeechService.Service.Encoder
import SpeechService.Service.Session
import SpeechService.Text.Quoted
import SpeechService.Text.Segments

/-!
# The interface over HTTP

Two paths are served: one tells how the service is, the other one speaks. `HttpRequest.decide` says
what a request comes to before anything is done, and `exchange` runs it in a session.
-/

namespace SpeechService

/-- A **request** over HTTP. -/
structure HttpRequest where
  method : String := "GET"
  uri : String
  headers : List (String × String) := []
  body : List UInt8 := []
deriving DecidableEq, Repr

/-- A **response** over HTTP. A length is given where the body is known to the last byte. -/
structure HttpResponse where
  status : Nat
  headers : List (String × String) := []
  /-- The response has a number of its own. -/
  hasSession : Bool := false
  body : List UInt8 := []
deriving DecidableEq, Repr

namespace Http

/-! ### Responses -/

/-- The header with the length of a body. -/
def lengthHeader (body : List UInt8) : String × String :=
  ("content-length", Text.ofNat body.length)

/-- The header of JSON bodies. -/
def jsonHeader : String × String := ("content-type", "application/json")

/-- A response without a body. -/
def bare (status : Nat) (headers : List (String × String)) : HttpResponse :=
  { status, headers := lengthHeader [] :: headers }

/-- A value as the bytes of its text. -/
def jsonBytes (value : Json) : List UInt8 := value.render.toUTF8.toList

/-- The response to a request that fails; `exact` tells whether the message is known to the last
character. -/
def failed (e : ApiError) (exact : Bool) : HttpResponse :=
  let body := jsonBytes e.body
  { status := e.status
    headers := if exact then [jsonHeader, lengthHeader body] else [jsonHeader]
    body }

/-- The response that tells how a service is. -/
def health {B : Backend} (s : Service B) (withBody : Bool) : HttpResponse :=
  let body := jsonBytes (.object
    [("ok", .bool s.isReady), ("model", .string s.settings.modelId),
     ("device", .string s.device.name)])
  { status := 200, headers := [jsonHeader, lengthHeader body],
    body := if withBody then body else [] }

/-- The response with a file. -/
def speech (f : SpokenFile) : HttpResponse :=
  { status := 200
    headers :=
      [("content-type", f.contentType), lengthHeader f.content,
       ("x-tts-sample-rate", Text.ofNat f.sampleRate),
       ("x-tts-duration-ms", Text.ofNat f.durationMs)]
    hasSession := true
    body := f.content }

/-- The message for a task that broke down; which number it had is left open. -/
def panicMessage (message : String) : String :=
  "TTS generation failed: task N panicked with message " ++ Text.quoted message

/-- The response to a request for speech, by how its task ended. -/
def ofEnding {B : Backend} (encoder : Encoder) : Ending B → HttpResponse
  | .spoken (.ok clip) =>
    match encoder.file clip with
    | .ok f => speech f
    | .error e => failed (.ofSynthesis e) true
  | .spoken (.error e) => failed (.ofSynthesis e) true
  | .panicked message => failed (.internal (panicMessage message)) false
  | .loaded _ => bare 204 []

end Http

namespace HttpRequest

open Http

/-! ### Requests -/

/-- The value of the first header of a name, in any case. -/
def header? (r : HttpRequest) (name : String) : Option String :=
  (r.headers.find? fun h => h.1.toList.map Char.toLower == name.toList).map (·.2)

/-- What is behind a scheme and an authority. -/
def afterAuthority (uri : List Char) : List Char :=
  match uri.dropWhile (· ≠ ':') with
  | ':' :: '/' :: '/' :: rest =>
    match rest.dropWhile (· ≠ '/') with
    | [] => ['/']
    | path => path
  | _ => uri

/-- The path of a request, without the query and the fragment. -/
def path (r : HttpRequest) : String :=
  let uri := r.uri.toList.takeWhile fun c => c ≠ '?' ∧ c ≠ '#'
  String.ofList (if uri.head? = some '/' then uri else afterAuthority uri)

/-- What a request comes to. -/
inductive Decision where
  /-- It is answered at once. -/
  | reply (response : HttpResponse)
  /-- It asks how the service is. -/
  | health (withBody : Bool)
  | speak (request : Request)

/-- What a request for speech comes to: the header is looked at first, then the size of the body,
then the body. -/
def decideSpeech (r : HttpRequest) (bodyLimit : Nat) : Decision :=
  if !(r.header? "content-type").any MediaType.isJson then
    .reply (failed (.badRequest
      "Expected request with `Content-Type: application/json`") true)
  else if bodyLimit < r.body.length then
    .reply (failed (.badRequest
      "Failed to buffer the request body: length limit exceeded") true)
  else
    match readRequest r.body with
    | .ok request => .speak request
    | .error problem => .reply (failed (.badRequest (problemMessage problem)) false)

/-- What a request comes to. -/
def decide (r : HttpRequest) (bodyLimit : Nat) : Decision :=
  if r.path = "/healthz" then
    if r.method = "GET" then .health true
    else if r.method = "HEAD" then .health false
    else .reply (bare 405 [("allow", "GET,HEAD")])
  else if r.path = "/v1/tts" then
    if r.method = "POST" then r.decideSpeech bodyLimit
    else .reply (bare 405 [("allow", "POST")])
  else .reply (bare 404 [])

end HttpRequest

namespace Session

variable {B : Backend}

/-- Answers a request for speech in a session. -/
def speak (s : Session B) (encoder : Encoder) (request : Request) : Session B × HttpResponse :=
  match s.serve [.speak request] none with
  | (s, [some ending]) => (s, Http.ofEnding encoder ending)
  | (s, _) => (s, Http.bare 500 [])

/-- Answers a request in a session. -/
def exchange (s : Session B) (encoder : Encoder) (bodyLimit : Nat) (r : HttpRequest) :
    Session B × HttpResponse :=
  match r.decide bodyLimit with
  | .reply response => (s, response)
  | .health withBody => (s, Http.health s.service withBody)
  | .speak request => s.speak encoder request

end Session

end SpeechService
