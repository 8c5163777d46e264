import StoryEngine.Store.Json

/-!
# Store operations

The operations on a store as values, each with the type of its answer, and their effect. Runs of
operations are lists, so that laws can speak of every store that operations lead to.

Specification: `SPEC_FULL.md` §6 (query and mutation surface) and §10.5 (`VariableStore`).
-/

namespace StoryEngine

/-- An operation on a store. -/
inductive StoreOp where
  | assign (name : String) (x : Float)
  | increase (name : String) (delta : Float)
  | increaseWithin (name : String) (delta : Float) (low high : Option Float)
  | confine (name : String) (low high : Float)
  | value (name : String)
  | isSet (name : String)
  | limits (name : String)
  | gain (item : String) (n : Int64)
  | spend (item : String) (n : Int64)
  | count (item : String)
  | itemNames
  | activate (name : String)
  | deactivate (name : String)
  | isActive (name : String)
  | restart
  | saveAndLoad
  | load (saved : Json)

namespace StoreOp

/-- What an operation answers. Reading a saved game may fail; it answers whether it succeeded. -/
def Answer : StoreOp → Type
  | value _ => Option Float
  | limits _ => Option (Float × Float)
  | count _ => Int64
  | itemNames => List String
  | isSet _ | spend .. | isActive _ | saveAndLoad | load _ => Bool
  | assign .. | increase .. | increaseWithin .. | confine .. | gain .. | activate _
  | deactivate _ | restart => Unit

/-- Replaces the store by one that was read, if reading succeeded. -/
def replace (s : Store) : Option Store → Bool × Store
  | some read => (true, read)
  | none => (false, s)

/-- The answer to an operation, and the store afterwards. -/
def apply (s : Store) : (op : StoreOp) → op.Answer × Store
  | assign name x => ((), s.assign name x)
  | increase name delta => ((), s.increase name delta)
  | increaseWithin name delta low high => ((), s.increaseWithin name delta low high)
  | confine name low high => ((), s.confine name low high)
  | value name => (s.value? name, s)
  | isSet name => (s.isSet name, s)
  | limits name => (s.limits? name, s)
  | gain item n => ((), s.gain item n)
  | spend item n => s.spend item n
  | count item => (s.count item, s)
  | itemNames => (s.items.keys, s)
  | activate name => ((), s.activate name)
  | deactivate name => ((), s.deactivate name)
  | isActive name => (s.isActive name, s)
  | restart => ((), s.restart)
  | saveAndLoad => replace s (Store.ofJson? s.toJson)
  | load saved => replace s (Store.ofJson? saved)

end StoreOp

/-- The store after operations in turn. -/
def Store.run (s : Store) (ops : List StoreOp) : Store :=
  ops.foldl (fun s op ↦ (op.apply s).2) s

end StoryEngine
