import StoryEngine.Draws.ChaCha

/-!
# Random draws

An endless stream of numbers to draw, and the count of those already drawn. Everything random
goes through such a stream, so a game is a function of the stream that it is given.

Specification: `SPEC_FULL.md` §9 (injected random source) and §10.5 (`roll`).
-/

namespace StoryEngine

/-- A stream of numbers, of which the first `drawn` are used up. -/
structure Draws where
  stream : Nat → Float
  drawn : Nat

namespace Draws

/-- A stream of which nothing is drawn yet. -/
def ofStream (stream : Nat → Float) : Draws := ⟨stream, 0⟩

/-- The stream that always gives the same number. -/
def fixed (x : Float) : Draws :=
  ofStream fun _ ↦ x

/-- The stream that goes through a list of numbers again and again; an empty list gives zeros. -/
def cycle (values : Array Float) : Draws :=
  ofStream fun n ↦ values[n % values.size]?.getD 0

/-- The stream of a seed. -/
def seeded (seed : UInt64) : Draws :=
  ofStream (ChaCha.stream seed)

/-- The next number. -/
def next (d : Draws) : Float × Draws :=
  (d.stream d.drawn, { d with drawn := d.drawn + 1 })

/-- A chance of `p`: certain from one on and impossible up to zero, without a draw; in between it
comes true unless the number drawn lies above `p`. Specification: §10.5 (`roll`). -/
def roll (d : Draws) (p : Float) : Bool × Draws :=
  if 1 ≤ p then (true, d)
  else if p ≤ 0 then (false, d)
  else
    let (x, d) := d.next
    (x ≤ p, d)

/-- How many numbers of the list behind a cycle were handed out; an empty list hands out none. -/
def handedOut (values : Array Float) (d : Draws) : Nat :=
  if values.isEmpty then 0 else d.drawn

end Draws

end StoryEngine
