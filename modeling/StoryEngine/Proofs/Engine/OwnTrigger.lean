import StoryEngine.Proofs.Catalog.Listing
import StoryEngine.Proofs.Engine.Processing
import StoryEngine.Proofs.Engine.Setup

/-!
# Own triggers

With `dedupe` an event fires only while the trigger of its definition is processed, because the
ids that are scanned for a trigger are those of its events.
-/

namespace StoryEngine

variable {ν : Type}

namespace Entry

/-- The trigger that is processed after some entries, given the one before them. -/
def processing (current : Option String) (entries : List (Entry ν)) : Option String :=
  entries.foldl (fun current entry ↦ entry.processed?.or current) current

/-- Every event that fires is one of the trigger that is processed then. -/
def OwnTriggers (current : Option String) : List (Entry ν) → Prop
  | [] => True
  | entry :: rest =>
      (∀ e, entry.fired? = some e → current = some e.trigger) ∧
        OwnTriggers (entry.processed?.or current) rest

private theorem ownTriggers_append (current : Option String) (entries later : List (Entry ν)) :
    OwnTriggers current (entries ++ later) ↔
      OwnTriggers current entries ∧ OwnTriggers (processing current entries) later := by
  induction entries generalizing current with
  | nil => simp [OwnTriggers, processing]
  | cons entry rest ih =>
    simp only [List.cons_append, OwnTriggers, ih, and_assoc]
    rfl

private theorem processing_eq (current : Option String) (entries : List (Entry ν)) :
    processing current entries = (entries.filterMap processed?).getLast?.or current := by
  induction entries generalizing current with
  | nil => rfl
  | cons entry rest ih =>
    show processing (entry.processed?.or current) rest = _
    rw [ih, List.filterMap_cons]
    cases entry.processed? with
    | none => rfl
    | some trigger => cases rest.filterMap processed? <;> simp [List.getLast?_cons]

/-- While no other trigger is taken, it is the current one whose events may fire. -/
private theorem ownTriggers_of_same {current : Option String} {entries : List (Entry ν)}
    (same : ∀ entry ∈ entries, entry.processed? = none)
    (own : ∀ entry ∈ entries, ∀ e, entry.fired? = some e → current = some e.trigger) :
    OwnTriggers current entries := by
  induction entries with
  | nil => trivial
  | cons entry rest ih =>
    obtain ⟨same, sames⟩ := List.forall_mem_cons.1 same
    obtain ⟨own, owns⟩ := List.forall_mem_cons.1 own
    refine ⟨own, ?_⟩
    rw [same]
    exact ih sames owns

private theorem ownTriggers_of_calm {entries : List (Entry ν)}
    (calm : ∀ entry ∈ entries, entry.fired? = none) (current : Option String) :
    OwnTriggers current entries := by
  induction entries generalizing current with
  | nil => trivial
  | cons entry rest ih =>
    obtain ⟨none, others⟩ := List.forall_mem_cons.1 calm
    refine ⟨?_, ih others _⟩
    intro e fires
    rw [none] at fires
    cases fires

end Entry

/-! ### Processing -/

namespace Stage

variable {current : Option String} {trigger : String} {s t : Stage ν}

/-- Of the events in the journal each has fired while its own trigger was processed, and the one
that is processed now is `trigger`. -/
structure Processes (current : Option String) (trigger : String) (s : Stage ν) : Prop where
  own : Entry.OwnTriggers current s.journal.toList
  now : Entry.processing current s.journal.toList = some trigger

/-- The events of the trigger that is processed may fire. -/
private theorem Processes.notes {fired : List Event} (processes : Processes current trigger s)
    (noted : Notes fired [] s t) (own : ∀ e ∈ fired, e.trigger = trigger) :
    Processes current trigger t := by
  obtain ⟨notes, journal, rfl, none⟩ := noted
  constructor
  · rw [journal, Entry.ownTriggers_append, processes.now]
    refine ⟨processes.own, Entry.ownTriggers_of_same (List.filterMap_eq_nil_iff.1 none) ?_⟩
    intro entry member e fires
    rw [own e (List.mem_filterMap.2 ⟨entry, member, fires⟩)]
  · have now := processes.now
    rw [Entry.processing_eq] at now ⊢
    rwa [journal, List.filterMap_append, none, List.append_nil]

private theorem Processes.taken (own : Entry.OwnTriggers current s.journal.toList)
    (noted : Notes [] [trigger] s t) : Processes current trigger t := by
  obtain ⟨notes, journal, none, taken⟩ := noted
  constructor
  · rw [journal, Entry.ownTriggers_append]
    exact ⟨own, Entry.ownTriggers_of_calm (List.filterMap_eq_nil_iff.1 none) _⟩
  · rw [Entry.processing_eq, journal, List.filterMap_append, taken, List.getLast?_concat]
    rfl

private theorem own_log (own : Entry.OwnTriggers current s.journal.toList) {record : LogRecord}
    (calm : (.logged record : Entry ν).fired? = none) :
    Entry.OwnTriggers current (s.log record).journal.toList := by
  show Entry.OwnTriggers current (s.journal.push _).toList
  rw [Array.toList_push, Entry.ownTriggers_append]
  refine ⟨own, Entry.ownTriggers_of_calm ?_ _⟩
  intro entry member
  cases List.mem_singleton.1 member
  exact calm

/-- The ids that are listed for a trigger are those of its events. -/
theorem kept_own {ops : List CatalogOp} {catalog : Catalog} (agrees : catalog.Agrees ops)
    (handlers : Handlers ν) (current : Option String) :
    Kept catalog handlers (fun s ↦ Entry.OwnTriggers current s.journal.toList)
      (Processes current) where
  taken {s signal queue} _ own := .taken own (s.take_eq signal queue).2.2
  tested {trigger s id e} _ _ processes := by
    apply processes.notes (s.admits_spec e).2.quiet
    intro e member
    cases member
  fired {trigger s id e} listed found _ processes := by
    apply processes.notes ((s.admits_spec e).2.quiet.trans (fire_keeps handlers _ e).2)
    intro e' member
    cases List.mem_singleton.1 member
    obtain ⟨e', stands, own⟩ := Catalog.standsOn_iff.1 ((agrees.listed trigger id).1 listed)
    rw [← agrees.found, found] at stands
    cases stands
    exact own
  scanned processes := processes.own
  shut trigger own := own_log own rfl
  capped cap pending own := own_log own rfl

end Stage

/-! ### Games -/

namespace Engine

/-- With a catalog that agrees with its calls, whatever a command fires is fired while its own
trigger is processed. -/
theorem perform_ownTriggers {ops : List CatalogOp} {e : Engine ν}
    (agrees : e.catalog.Agrees ops) (c : Command ν) (current : Option String) :
    Entry.OwnTriggers current (e.perform c).journal.toList := by
  have kept := Stage.kept_own agrees e.handlers current
  have calm (idle : c.IsIdle) : Entry.OwnTriggers current (e.perform c).journal.toList :=
    Entry.ownTriggers_of_calm (List.filterMap_eq_nil_iff.1 (e.perform_isCalm idle).1) current
  cases c with
  | processNext => exact kept.processNext (s := e.stage) trivial
  | processPending => exact kept.processPending _ (s := e.stage) trivial
  | restart => exact Entry.ownTriggers_of_calm (by simp [perform, restart, Entry.fired?]) current
  | _ => exact calm trivial

end Engine

namespace Playthrough

/-- With `dedupe` the catalog agrees with the calls of the host, and whatever has fired in the
game has fired while its own trigger was processed. -/
structure Listed (p : Playthrough ν) : Prop where
  agrees : ∃ ops, p.engine.catalog.Agrees ops
  own : Entry.OwnTriggers none p.journal

private theorem begin_listed (config : Config) (draws : Option Draws) (store : Store)
    (handlers : Handlers ν) :
    (begin { config with dedupe := true } draws store handlers).Listed where
  agrees := ⟨[], Catalog.agrees_empty⟩
  own := trivial

private theorem Listed.step {p : Playthrough ν} (listed : p.Listed) (c : Command ν) :
    (p.step c).Listed := by
  obtain ⟨ops, agrees⟩ := listed.agrees
  constructor
  · rcases p.engine.catalog_perform c with same | ⟨op, changed⟩
    · exact ⟨ops, same ▸ agrees⟩
    · exact ⟨ops ++ [op], changed ▸ agrees.apply op⟩
  · apply (Entry.ownTriggers_append _ _ _).2
    refine ⟨?_, p.engine.perform_ownTriggers agrees c _⟩
    cases c with
    | restart => trivial
    | _ => exact listed.own

private theorem Listed.after {p : Playthrough ν} (listed : p.Listed) (commands : List (Command ν)) :
    (p.after commands).Listed :=
  after_keeps (fun c listed ↦ listed.step c) commands listed

end Playthrough

/-- With `dedupe` a catalog is consistent whatever calls led to it: every event is listed just for
its trigger and once, in the order in which events came to their triggers. In a game whose engine
has such a catalog every event fires while its own trigger is processed. -/
theorem Catalog.after_consistent (ops : List CatalogOp) :
    ((empty true).after ops).Consistent ops ∧
      ∀ (config : Config) (draws : Option Draws) (store : Store) (handlers : Handlers ν)
        (commands : List (Command ν)),
        Entry.OwnTriggers none ((Playthrough.begin { config with dedupe := true } draws store
          handlers).after commands).journal := by
  refine ⟨(agrees_after ops).consistent, ?_⟩
  intro config draws store handlers commands
  exact ((Playthrough.begin_listed config draws store handlers).after commands).own

end StoryEngine
