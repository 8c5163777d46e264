import StoryEngine.Catalog
import StoryEngine.Engine.Handlers

/-!
# Firing

How triggers make events happen. A trigger is taken from the queue and must pass its gate; then
the events listed for it are scanned in order. Each must be enabled, not used up, meet its
conditions and pass its own gate, in that order, and fires at once if it does. A firing that
waits for the player ends the scan.

Specification: `SPEC_FULL.md` §4.3 (the steps of `process_next_trigger`), §4.4 (running and resuming
the actions of an event) and §10.5 (`process_pending_triggers`). The scan follows the order of the
index, as §4.3 has it, also where events have priorities of their own (§3).
-/

namespace StoryEngine

variable {ν : Type}

namespace Scene

/-- Performs actions until one waits or the run is stopped. The place of the run moves past an
action before it is performed, so a run that waits goes on after the action that waited.
Specification: §4.4. -/
def perform (handlers : Handlers ν) : List Action → Scene ν → Scene ν
  | [], s => s
  | action :: rest, s =>
      if s.run.phase = .stopped then s
      else
        let index := s.run.next
        let s := (s.note (.began s.run.event.id index action)).mapRun
          ({ · with next := index + 1 })
        let s := (handlers.dispatch action s).2
        if s.run.isWaiting then s.log (.waiting s.run.event.id index action.id)
        else perform handlers rest s

/-- Performs the actions that remain of the run. -/
def play (handlers : Handlers ν) (s : Scene ν) : Scene ν :=
  s.perform handlers s.run.remaining

end Scene

namespace Stage

/-- Whether an event may fire now. The first of its gates that is shut ends the test. Specification:
§4.3, steps 3a to 3d. -/
def admits (s : Stage ν) (e : Event) : Bool × Stage ν :=
  if !s.world.flags.isEnabled e.id then (false, s.log (.skipped e.id .disabled))
  else if e.once && s.world.flags.hasOccurred e.id then
    (false, s.log (.skipped e.id .alreadyFired))
  else
    let (held, s) := s.test e
    if !held then (false, s.log (.skipped e.id .conditionsNotMet))
    else
      let (passed, s) := s.roll (.event e.id) e.probability
      if passed then (true, s) else (false, s.log (.skipped e.id .probabilityGate))

/-- Notes that an event has fired: it has occurred, the events that it excludes are disabled, and so
is the event itself if it fires only once. Specification: §4.3, step 3e. -/
def settle (s : Stage ν) (e : Event) : Stage ν :=
  let flags := (s.world.flags.markOccurred e.id).disableAll e.exclusions
  { s with world.flags := if e.once then flags.disable e.id else flags }

/-- Fires an event: performs its actions until it waits, then settles it. -/
def fire (handlers : Handlers ν) (s : Stage ν) (e : Event) : Run × Stage ν :=
  let scene : Scene ν := { s.log (.firing e) with run := .start e }
  let scene := scene.play handlers
  (scene.run, scene.toStage.settle e)

/-- Scans ids in order and fires the events that may fire, up to the first that waits.
Specification: §4.3, steps 3f and 4. -/
def scan (catalog : Catalog) (handlers : Handlers ν) :
    List String → Stage ν → Option Run × Stage ν
  | [], s => (none, s)
  | id :: rest, s =>
      match catalog.find? id with
      | none => scan catalog handlers rest s
      | some e =>
          match s.admits e with
          | (false, s) => scan catalog handlers rest s
          | (true, s) =>
              let (run, s) := s.fire handlers e
              if run.isWaiting then (some run, s) else scan catalog handlers rest s

/-- Takes the next trigger, if there is one, and scans its events if it passes its gate.
Specification: §4.3, steps 1 to 3. -/
def processNext (catalog : Catalog) (handlers : Handlers ν) (s : Stage ν) :
    Option Run × Stage ν :=
  match s.world.queue.pop? with
  | none => (none, s)
  | some (signal, queue) =>
      let s := { s with world.queue := queue }.log (.processing signal.trigger)
      match s.roll (.trigger signal.trigger) signal.probability with
      | (false, s) => (none, s.log (.gateFailed signal.trigger))
      | (true, s) => scan catalog handlers (catalog.idsFor signal.trigger) s

/-- Processes triggers until one leads to a run that waits, none is left, or the given number
has been processed. -/
def processUpTo (catalog : Catalog) (handlers : Handlers ν) :
    Nat → Stage ν → Option Run × Stage ν
  | 0, s => (none, s)
  | n + 1, s =>
      if s.world.queue.isEmpty then (none, s)
      else
        match s.processNext catalog handlers with
        | (some run, s) => (some run, s)
        | (none, s) => processUpTo catalog handlers n s

/-- Processes up to `cap` triggers, and warns if that leaves some pending without a run that waits.
Specification: §10.5 (`process_pending_triggers`). -/
def processPending (catalog : Catalog) (handlers : Handlers ν) (cap : Nat) (s : Stage ν) :
    Option Run × Stage ν :=
  match s.processUpTo catalog handlers cap with
  | (some run, s) => (some run, s)
  | (none, s) =>
      if s.world.queue.isEmpty then (none, s)
      else (none, s.log (.stoppedAtCap cap s.world.queue.size))

/-- Goes on with a run that waits, with the choice of the player. Any other run is given back as it
is. Specification: §4.4 (`continue_event`). -/
def resume (handlers : Handlers ν) (run : Run) (choice : Option Nat) (s : Stage ν) :
    Run × Stage ν :=
  if run.isWaiting then
    let scene : Scene ν :=
      { s.log (.resuming run.event.id run.next choice) with run := run.resume choice }
    let scene := scene.play handlers
    (scene.run, scene.toStage)
  else (run, s.log (.notWaiting run.event.id))

end Stage

end StoryEngine
