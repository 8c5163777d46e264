import StoryEngine.Engine.Run
import StoryEngine.Probability

/-!
# Notes

What the stock handlers report to the host.

Specification: `SPEC_FULL.md` §9 (dispatch to action handlers); what a handler reports it leaves to
the host.
-/

namespace StoryEngine.Stock

/-- A report of a stock handler. -/
inductive Note where
  | recorded (tag : String)
  | evaluated (result : Except Expression.Failure Expression.Value)
  | emitted (result : Except Refusal Nat)
  | queried (event : String) (phase : Phase) (choice : Option Nat) (target : String)
      (enabled occurred : Bool)
  | taken (success : Bool)
  | drawn (x : Float)
  | looked (var : Option Float) (count : Int64) (active : Bool)
  | dispatched (action : String) (found : Bool)

end StoryEngine.Stock
