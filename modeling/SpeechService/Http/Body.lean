import SpeechService.Http.ApiError
import SpeechService.Json.Decode
import SpeechService.Request

/-!
# Bodies of requests for speech

The body of a request for speech is a JSON object, or an array of its fields in their order. What
follows it is not looked at. A body that is no JSON, and one that does not fit, are told apart in
the message.
-/

namespace SpeechService.Http

open SpeechService.Json

/-- The fields of a body, as far as they are read. -/
structure Draft where
  text : Option String := none
  voice : Option String := none
  cfgScale : Option Double := none
  maxTokens : Option Int := none
deriving DecidableEq, Repr

namespace Draft

/-- The fields in the order in which an array has them. Only the text may not be missing. -/
def fields : List (Reader.Field Draft) :=
  [Reader.field "text" Reader.text false fun d text => { d with text := some text },
   Reader.field "voice" Reader.text.optional true fun d voice => { d with voice },
   Reader.field "cfgScale" Reader.double.optional true fun d cfgScale => { d with cfgScale },
   Reader.field "maxTokens"
    (Reader.integer (-9223372036854775808) 9223372036854775807 "i64").optional true
    fun d maxTokens => { d with maxTokens }]

/-- The request of a body in which a text was found. -/
def request (d : Draft) : Except Problem Request :=
  match d.text with
  | some text => .ok { text, voice := d.voice, cfgScale := d.cfgScale, maxTokens := d.maxTokens }
  | none => .error (.here (.missingField "text"))

/-- Reads a request. -/
def reader : Reader Request := fun t => do
  (← Reader.record "TtsRequest" fields {} t).request

end Draft

/-- The message for a body that is no request. Where in the text it ceases to be JSON is left
open. -/
def problemMessage : Problem → String
  | .malformed => "Failed to parse the request body as JSON: *"
  | .fault place cause =>
    "Failed to deserialize the JSON body into the target type: "
      ++ (place.map fun p => p.text ++ ": ").getD "" ++ cause.message

/-- Reads the request of a body. -/
def readRequest (body : List UInt8) : Except Problem Request :=
  Draft.reader (Tree.ofBytes body).1

end SpeechService.Http
