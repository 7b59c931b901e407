import SpeechService.Synthetic.Tone

/-!
# Guarded rendering

Rendering divides: by the number of tokens, to find the token of a turn, and by the length of a
fade, to find the envelope. It takes differences of natural numbers, takes tokens out of a list, and
asks for a buffer beforehand. Each of these operations has arguments for which it is not defined.

**Guarded** rendering is the same computation, written as it goes along: nested loops that push one
sample after another, with a guard in front of every operation that may fail.
-/

namespace SpeechService.Tone.Guarded

/-! ### Guards -/

/-- Why an operation is **undefined**. -/
inductive Undefined where
  | remainderByZero
  /-- A place is taken outside of a list. -/
  | outside
  | belowZero
  /-- A fraction has the denominator zero. -/
  | zeroDenominator
  /-- No buffer has room for so many samples. -/
  | tooLarge
deriving DecidableEq, Repr

/-- The remainder of a division. -/
def remainder (n d : Nat) : Except Undefined Nat :=
  if d = 0 then .error .remainderByZero else .ok (n % d)

/-- What is at a place of a list. -/
def item {α : Type} (xs : List α) (place : Nat) : Except Undefined α :=
  match xs[place]? with
  | some x => .ok x
  | none => .error .outside

/-- A difference of natural numbers. -/
def difference (n m : Nat) : Except Undefined Nat :=
  if n < m then .error .belowZero else .ok (n - m)

/-- A fraction. -/
def fraction (num den : Nat) : Except Undefined Fraction :=
  if den = 0 then .error .zeroDenominator else .ok ⟨num, den⟩

/-- There is **room** for so many samples of four bytes: no buffer has `2 ^ 63` bytes or more. -/
def HasRoom (samples : Nat) : Prop := 4 * samples < 0x8000000000000000

instance (samples : Nat) : Decidable (HasRoom samples) :=
  inferInstanceAs (Decidable (4 * samples < 0x8000000000000000))

/-- An empty buffer for so many samples. -/
def buffer (samples : Nat) : Except Undefined (List Single) :=
  if HasRoom samples then .ok [] else .error .tooLarge

/-- So many turns of a loop, one after another. -/
def loop {α : Type} (turn : Nat → α → Except Undefined α) : Nat → α → Except Undefined α
  | 0, state => .ok state
  | n + 1, state => do turn n (← loop turn n state)

/-! ### Guarded steps -/

/-- The envelope at a position. -/
def envelope (size i : Nat) : Except Undefined Fraction := do
  if i < fade size then fraction i (fade size)
  else if (← difference size (fade size)) ≤ i then fraction (← difference size i) (fade size)
  else return ⟨1, 1⟩

/-- One sample of a tone. -/
def sample (size : Nat) (angle amplitude : Float32) (i : Nat) : Except Undefined Single := do
  let q ← envelope size i
  return .ofFloat32 (Sine.sin (angle * Float32.ofNat i) * amplitude * q.toFloat32)

/-- Pushes the samples of a tone. -/
def block (size : Nat) (angle amplitude : Float32) (samples : List Single) :
    Except Undefined (List Single) :=
  loop (fun i pushed => return pushed ++ [← sample size angle amplitude i]) size samples

/-- Pushes the samples of a turn. -/
def turn (size : Nat) (pitch amplitude : Single) (tokens : List Single) (t : Nat)
    (samples : List Single) : Except Undefined (List Single) := do
  let token ← item tokens (← remainder t tokens.length)
  block size (angle pitch token) amplitude.toFloat32 samples

/-- Pushes the samples of all turns to a buffer that has room for them. -/
def render (size : Nat) (pitch amplitude : Single) (maxTokens : Nat) (tokens : List Single) :
    Except Undefined (List Single) := do
  loop (turn size pitch amplitude tokens) (turns maxTokens tokens)
    (← buffer (turns maxTokens tokens * size))

end SpeechService.Tone.Guarded
