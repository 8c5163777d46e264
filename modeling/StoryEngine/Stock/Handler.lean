import StoryEngine.Engine.Script
import StoryEngine.Stock.Note

/-!
# Stock handlers

Ready-made handlers for common actions: changes to the store, messages and choices, triggers and
event flags, and composites that perform the actions in one of their parameters.

Specification: `SPEC_FULL.md` §10.5 (handler capabilities); which handlers there are it leaves to
the host.
-/

namespace StoryEngine.Stock

/-- The kinds of stock handlers. -/
inductive Kind where
  | record
  | add
  | addClamped
  | set
  | eval
  | message
  | ask
  | stop
  | emit
  | enable
  | disable
  | query
  | give
  | take
  | status
  | random
  | read
  | seq
  | cond
  | switch
deriving DecidableEq, Repr

/-- The action that a bag with a text for `id` describes, with the bag for `params` as its
parameters. -/
def actionOf? (item : Param) : Option Action := do
  let id ← (← item.get? "id").text?
  return { id, params := ((item.get? "params").bind Param.map?).getD [] }

/-- Performs the actions that the items of a list describe, and reports each; any other item is
passed over. -/
def performAll : List Param → Script Note Unit
  | [] => pure ()
  | item :: rest =>
      match actionOf? item with
      | none => performAll rest
      | some action => do
          let found ← .ofDispatch action
          .report (.dispatched action.id found)
          performAll rest

/-- The items of a list; nothing and what is no list have none. -/
def itemsOf (p : Option Param) : List Param :=
  (p.bind Param.list?).getD []

namespace Kind

/-- The number of items in an action's parameters, one if there is none. -/
def countOf (a : Action) : Int64 :=
  Number.toInt64 (a.number "count" 1)

/-- The number for a key, if there is one. -/
def number? (a : Action) (key : String) : Option Float :=
  (a.param? key).bind Param.number?

/-- The text for a key, if there is one. -/
def text? (a : Action) (key : String) : Option String :=
  (a.param? key).bind Param.text?

/-- Sets a variable, if there are a variable to set and a value for it. -/
def setIfGiven : Option String → Option Float → Script Note Unit
  | some var, some x => .onStore (.assign var x)
  | _, _ => pure ()

/-- The number of a result, if it has one. -/
def numberOf? : Except Expression.Failure Expression.Value → Option Float
  | .ok value => value.toNumber.toOption
  | .error _ => none

/-- Whether a result counts as true; an error does not. -/
def isTrue : Except Expression.Failure Expression.Value → Bool
  | .ok value => value.isTrue
  | .error _ => false

/-- The handler of a kind. -/
def handler : Kind → Handler Note
  | record, a => .report (.recorded (a.text "tag" "?"))
  | add, a => .onStore (.increase (a.text "var" "x") (a.number "by" 1))
  | addClamped, a =>
      .onStore (.increaseWithin (a.text "var" "x") (a.number "by" 1) (number? a "min")
        (number? a "max"))
  | set, a => .onStore (.assign (a.text "var" "x") (a.number "value" 0))
  | eval, a => do
      let result ← .ofCall (.evaluate (a.text "expr" ""))
      setIfGiven (text? a "var") (numberOf? result)
      .report (.evaluated result)
  | message, a => .ofCall (.showMessage (a.text "text" ""))
  | ask, a => .ofCall (.offerChoices (text? a "message") (itemsOf (a.param? "choices")))
  | stop, _ => .ofCall .stop
  | emit, a => do
      let result ← .ofCall (.emit (a.text "trigger" "") (a.number "probability" 1)
        (Number.toInt32 (a.number "priority" 0)))
      .report (.emitted result)
  | enable, a => .ofCall (.enable (a.text "event" ""))
  | disable, a => .ofCall (.disable (a.text "event" ""))
  | query, a => do
      let event ← .ofCall .event
      let target := a.text "event" event.id
      let phase ← .ofCall .phase
      let choice ← .ofCall .userChoice
      let enabled ← .ofCall (.isEnabled target)
      let occurred ← .ofCall (.hasOccurred target)
      .report (.queried event.id phase choice target enabled occurred)
  | give, a => .onStore (.gain (a.text "item" "") (countOf a))
  | take, a => do
      let success ← .onStore (.spend (a.text "item" "") (countOf a))
      .report (.taken success)
  | status, a =>
      if a.flag "on" true then .onStore (.activate (a.text "status" ""))
      else .onStore (.deactivate (a.text "status" ""))
  | random, a => do
      let x ← .ofCall .draw
      .report (.drawn x)
      setIfGiven (text? a "var") (some x)
  | read, a => do
      let name := a.text "name" ""
      let var ← .onStore (.value name)
      let count ← .onStore (.count name)
      let active ← .onStore (.isActive name)
      .report (.looked var count active)
  | seq, a => performAll (itemsOf (a.param? "actions"))
  | cond, a => do
      let result ← .ofCall (.evaluate (a.text "expr" "false"))
      if isTrue result then performAll (itemsOf (a.param? "then"))
      else performAll (itemsOf (a.param? "else"))
  | switch, a => do
      let choice ← .ofCall .userChoice
      match choice.bind fun i ↦ (itemsOf (a.param? "cases"))[i]? with
      | some case => performAll (itemsOf (some case))
      | none => performAll (itemsOf (a.param? "default"))

end Kind

end StoryEngine.Stock
