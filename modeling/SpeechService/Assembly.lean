import SpeechService.Service.Session
import SpeechService.Synthetic.Backend

/-!
# Assembly

How a service comes out of its settings: the synthetic backend, what the service knows about its
model and its requests, and a session in which nothing was asked of it yet.
-/

namespace SpeechService

namespace Settings

/-- What a service of these settings knows about its model and its requests. -/
def service (s : Settings) : ServiceSettings where
  modelId := s.modelId
  device := s.device
  textMaxChars := s.textMaxChars
  defaults := s.defaults

/-- The backend of a service of these settings, by what the search for a device finds. -/
abbrev backend (s : Settings) (search : DeviceSearch) : Backend :=
  s.synthetic.backend (s.synthetic.accelerated search)

/-- The new service of these settings. -/
def start (s : Settings) (search : DeviceSearch) (files : Files) : Service (s.backend search) :=
  { settings := s.service, world := files }

end Settings

end SpeechService
