import EcmaEval.Machine.Create

/-!
# Engines

Evaluation runs through itself: an expression calls functions, a function runs statements, and a
conversion or a property may call a function too.  An engine is a way to do all that for the parts
of a phrase; the definitions of this folder and of the ones behind it say how a phrase runs, given
an engine for its parts.  `Engine.ofFuel` ties them together.

## Main definitions

* `Engine`: the ways to run the parts of a phrase
-/

namespace EcmaEval

/-- Ways to run the parts of a phrase. -/
structure Engine where
  /-- A bound on the steps that are left. -/
  fuel : Nat
  /-- Evaluates an expression in a frame.  A function or class without a name of its own gets the
  given one. -/
  evaluateAs : (name : String) → FrameId → Expression → Action Value
  /-- Executes a statement in a frame.  What it asks for is left in the machine. -/
  execute : FrameId → Statement → Action Value
  /-- Calls a function object with a receiver and arguments. -/
  call : ObjectId → Value → List Value → Action Value
  /-- Lets a function object construct an object from arguments, for a given target of `new`. -/
  construct : ObjectId → List Value → ObjectId → Action Value
  /-- Settles a promise that is pending, and runs what waits for it. -/
  settle : ObjectId → Settlement → Action Unit

/-- The engine that runs nothing. -/
def Engine.idle : Engine where
  fuel := 0
  evaluateAs _ _ _ := .exhausted
  execute _ _ := .exhausted
  call _ _ _ := .exhausted
  construct _ _ _ := .exhausted
  settle _ _ := .exhausted

/-- Evaluates an expression in a frame. -/
def Engine.evaluate (engine : Engine) (scope : FrameId) (e : Expression) : Action Value :=
  engine.evaluateAs "" scope e

end EcmaEval
