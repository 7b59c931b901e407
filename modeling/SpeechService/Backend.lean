import SpeechService.Speech

/-!
# Backends

What the service is built on: something that loads an engine and a processor for a model, encodes
a text, and generates speech. A backend has a **world** of its own, which its calls may look at and
change, and a call may take a while. Nothing is said about how a call comes to its result.
-/

namespace SpeechService

/-- What generation is asked for beside its inputs. -/
structure GenerateOptions where
  cfgScale : Double
  maxNewTokens : Nat
  /-- Gradients are recorded. -/
  gradients : Bool := false
deriving DecidableEq, Repr

/-- What becomes of a generation. -/
inductive Performance where
  | speech (outputs : List RawSpeech)
  | failure (cause : EngineError)
  /-- The engine breaks down. -/
  | panic (message : String)
deriving DecidableEq, Repr

/-- A **call** that takes some milliseconds and then has a result. -/
structure Call (α : Type) where
  delay : Nat := 0
  result : α

/-- A **backend**. -/
structure Backend where
  World : Type
  Engine : Type
  Processor : Type
  /-- There is an accelerated device. -/
  accelerated : Bool
  /-- Begins to load the engine of a model for a device. -/
  loadEngine : World → String → Device → Precision → World × Call (Except EngineError Engine)
  /-- Prepares an engine for generation. -/
  prepare : World → Engine → World × Engine
  /-- Begins to load the processor of a model. -/
  loadProcessor : World → String → World × Call (Except EngineError Processor)
  /-- The rate that a processor declares. -/
  samplingRate : Processor → Option Nat
  /-- The inputs for a text that is said by a voice. -/
  encode : World → Processor → String → Option String → World × Except EngineError Inputs
  /-- Begins to generate. -/
  generate : World → Engine → Inputs → GenerateOptions → World × Call Performance
  /-- A generation has come to its end. -/
  conclude : World → World
  /-- It is now so many milliseconds after the beginning. -/
  elapse : World → Nat → World

end SpeechService
