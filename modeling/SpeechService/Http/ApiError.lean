import SpeechService.Failure
import SpeechService.Json.Value

/-!
# Errors of the interface

What a client is told when a request fails: one of three statuses, and a body that repeats the
status beside the message.
-/

namespace SpeechService.Http

/-- An **error** of the interface, with its message. -/
inductive ApiError where
  | badRequest (message : String)
  | serviceUnavailable (message : String)
  | internal (message : String)
deriving DecidableEq, Repr

namespace ApiError

/-- The status of the response. -/
def status : ApiError → Nat
  | .badRequest _ => 400
  | .serviceUnavailable _ => 503
  | .internal _ => 500

/-- The message of an error. -/
def message : ApiError → String
  | .badRequest m => m
  | .serviceUnavailable m => m
  | .internal m => m

/-- A request at fault is a bad request, a model that is not there makes the service unavailable,
and all else is internal. -/
def ofSynthesis (e : SynthesisError) : ApiError :=
  match e with
  | .validation _ => .badRequest e.message
  | .notReady _ => .serviceUnavailable e.message
  | .generation _ => .internal e.message

/-- The body of the response. -/
def body (e : ApiError) : Json :=
  .object [("errno", .integer e.status), ("error", .string e.message), ("data", .null)]

end ApiError

end SpeechService.Http
