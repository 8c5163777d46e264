import StoryEngine.Proofs.Engine.Exclusion
import StoryEngine.Proofs.Engine.Journal

/-!
# Disabled events

While an event is disabled its definition cannot be observed. An engine that has another definition
for the id gives the same answers, makes the same draws and does the same things, until the id is
enabled, registered again or removed, or a new game begins.
-/

namespace StoryEngine

variable {ν : Type}

/-! ### Another definition -/

namespace Catalog

variable {c : Catalog} {e variant : Event} {id : String}

private theorem define_define (other : e.id ≠ variant.id) :
    (c.define variant).define e = (c.define e).define variant := by
  have events : (c.events.insert variant.id variant).insert e.id e =
      (c.events.insert e.id e).insert variant.id variant := by
    apply Std.ExtTreeMap.ext_getElem?
    intro key
    simp only [Std.ExtTreeMap.getElem?_insert, Std.LawfulEqCmp.compare_eq_iff_eq]
    by_cases same : e.id = key
    · rw [if_pos same, if_pos same, if_neg fun too ↦ other (same.trans too.symm)]
    · rw [if_neg same, if_neg same]
  unfold define
  rw [events]

private theorem undefine_define (other : id ≠ variant.id) :
    (c.define variant).undefine id = (c.undefine id).define variant := by
  have events : (c.events.insert variant.id variant).erase id =
      (c.events.erase id).insert variant.id variant := by
    apply Std.ExtTreeMap.ext_getElem?
    intro key
    simp only [Std.ExtTreeMap.getElem?_insert, Std.ExtTreeMap.getElem?_erase,
      Std.LawfulEqCmp.compare_eq_iff_eq]
    by_cases same : id = key
    · rw [if_pos same, if_neg fun too ↦ other (same.trans too.symm), if_pos same]
    · rw [if_neg same, if_neg same]
  unfold undefine define
  rw [events]

private theorem dedupe_define : (c.define variant).dedupe = c.dedupe :=
  rfl

private theorem unlist_define (trigger : String) :
    (c.define variant).unlist trigger id = (c.unlist trigger id).define variant := by
  unfold unlist
  rw [idsFor_define]
  split
  · rfl
  · rfl

private theorem enter_define (replaced : Option Event) :
    (c.define variant).enter e replaced = (c.enter e replaced).define variant := by
  cases replaced with
  | none => rfl
  | some old =>
    simp only [enter, unlist_define, dedupe_define]
    split
    · rfl
    · split
      · rfl
      · rfl

/-- A definition of another id does not matter to registering an event. -/
theorem register_define (other : e.id ≠ variant.id) :
    (c.define variant).register e = ((c.register e).1, (c.register e).2.define variant) := by
  unfold register
  dsimp only
  rw [find?_define, if_neg other.symm, enter_define, define_define other]

private theorem unregister_define (other : id ≠ variant.id) :
    (c.define variant).unregister id =
      ((c.unregister id).1, (c.unregister id).2.define variant) := by
  unfold unregister
  rw [find?_define, if_neg other.symm]
  cases c.find? id with
  | none => rfl
  | some e =>
    dsimp only
    rw [unlist_define, undefine_define other]

end Catalog

/-! ### Processing -/

namespace Stage

/-- An id is disabled unless a handler has enabled it. -/
def Shut (id : String) (s : Stage ν) : Prop :=
  .called (.enable id) ∉ s.journal → s.world.flags.isEnabled id = false

variable {id : String} {s t : Stage ν}

private theorem Shut.mono (shut : s.Shut id)
    (stays : ∀ entry ∈ s.journal, entry ∈ t.journal)
    (same : t.world.flags = s.world.flags) : t.Shut id := by
  intro calm
  rw [same]
  exact shut fun called ↦ calm (stays _ called)

private theorem Shut.note (shut : s.Shut id) (entry : Entry ν) : (s.note entry).Shut id :=
  shut.mono (fun _ ↦ Array.mem_push_of_mem entry) rfl

private theorem Shut.play {s : Scene ν} (shut : s.toStage.Shut id) (handlers : Handlers ν) :
    (s.play handlers).toStage.Shut id := by
  obtain ⟨run, journal, -, flags⟩ := s.play_runs handlers
  intro calm
  have noted {entry : Entry ν} (member : entry ∈ s.journal.toList ++ run) :
      entry ∈ (s.play handlers).journal := by
    rw [← journal] at member
    exact Array.mem_toList_iff.1 member
  apply flags id
  · apply shut
    intro called
    exact calm (noted (List.mem_append_left _ (Array.mem_toList_iff.2 called)))
  · intro entry member enables
    unfold Happening.Enables at enables
    split at enables
    · rename_i impossible
      cases impossible
    · rename_i other same
      cases same
      obtain rfl : other = id := enables
      exact calm (noted (List.mem_append_right _ member))
    · exact enables

private theorem Shut.fire (shut : s.Shut id) (handlers : Handlers ν) (e : Event) :
    (s.fire handlers e).2.Shut id := by
  let scene : Scene ν := { s.log (.firing e) with run := .start e }
  have played : (scene.play handlers).toStage.Shut id := (shut.note _).play handlers
  intro calm
  show ((scene.play handlers).toStage.settle e).world.flags.isEnabled id = false
  rw [isEnabled_settle, played calm, Bool.and_false, Bool.and_false]

private theorem Shut.admits (shut : s.Shut id) (e : Event) : (s.admits e).2.Shut id := by
  obtain ⟨draws, -, world⟩ := (s.admits_spec e).2.world
  obtain ⟨notes, journal, -⟩ := s.remarks_admits e
  apply shut.mono
  · intro entry member
    rw [← Array.mem_toList_iff, journal]
    exact List.mem_append_left _ (Array.mem_toList_iff.2 member)
  · rw [world]

/-- Only handlers enable events while triggers are processed. -/
theorem kept_shut (catalog : Catalog) (handlers : Handlers ν) (id : String) :
    Kept catalog handlers (Shut id) fun _ ↦ Shut id where
  taken {_ signal _} _ shut := by
    have taken := shut.note (.logged (.processing signal.trigger))
    exact (taken.mono (fun _ member ↦ member) rfl).note _
  tested _ _ shut := shut.admits _
  fired _ _ _ shut := (shut.admits _).fire handlers _
  scanned shut := shut
  shut _ shut := shut.note _
  capped _ _ shut := shut.note _

section

variable {catalog : Catalog} (handlers : Handlers ν) {event variant : Event}

/-- A scan skips an event that is disabled before it reads its definition. -/
theorem scan_define (registered : catalog.find? event.id = some event)
    (same : variant.id = event.id) (ids : List String) {s : Stage ν} (shut : s.Shut event.id)
    (calm : .called (.enable event.id) ∉ (s.scan catalog handlers ids).2.journal) :
    s.scan (catalog.define variant) handlers ids = s.scan catalog handlers ids := by
  induction ids generalizing s with
  | nil => rfl
  | cons id rest ih =>
    -- what a handler has called by now is still in the journal at the end of the scan
    have disabled : s.world.flags.isEnabled event.id = false :=
      shut fun called ↦ calm (mem_scan _ called)
    rw [scan_cons] at calm ⊢
    rw [scan_cons, Catalog.find?_define]
    by_cases own : variant.id = id
    · have registered : catalog.find? id = some event := by rw [← own, same, registered]
      have disabled' : s.world.flags.isEnabled variant.id = false := by rw [same, disabled]
      rw [registered] at calm ⊢
      rw [if_pos own]
      dsimp only at calm ⊢
      rw [admits_disabled disabled] at calm ⊢
      rw [admits_disabled disabled', same]
      exact ih (shut.note _) calm
    · rw [if_neg own]
      cases found : catalog.find? id with
      | none =>
        rw [found] at calm
        exact ih shut calm
      | some e =>
        rw [found] at calm
        dsimp only at calm ⊢
        by_cases admitted : (s.admits e).1 = true
        · simp only [if_pos admitted] at calm ⊢
          by_cases waits : ((s.admits e).2.fire handlers e).1.isWaiting = true
          · rw [if_pos waits, if_pos waits]
          · simp only [if_neg waits] at calm ⊢
            exact ih ((shut.admits e).fire handlers e) calm
        · simp only [if_neg admitted] at calm ⊢
          exact ih (shut.admits e) calm

private theorem processNext_define (registered : catalog.find? event.id = some event)
    (same : variant.id = event.id) {s : Stage ν} (shut : s.Shut event.id)
    (calm : .called (.enable event.id) ∉ (s.processNext catalog handlers).2.journal) :
    s.processNext (catalog.define variant) handlers = s.processNext catalog handlers := by
  cases popped : s.world.queue.pop? with
  | none => rw [processNext, processNext, popped]
  | some taken =>
    obtain ⟨signal, queue⟩ := taken
    rw [processNext_pop popped] at calm ⊢
    rw [processNext_pop popped, Catalog.idsFor_define]
    by_cases passed : (s.take signal queue).1 = true
    · simp only [if_pos passed] at calm ⊢
      have taken := (kept_shut catalog handlers event.id).taken popped shut
      exact scan_define handlers registered same _ taken calm
    · rw [if_neg passed, if_neg passed]

private theorem processUpTo_define (registered : catalog.find? event.id = some event)
    (same : variant.id = event.id) (n : Nat) {s : Stage ν} (shut : s.Shut event.id)
    (calm : .called (.enable event.id) ∉ (s.processUpTo catalog handlers n).2.journal) :
    s.processUpTo (catalog.define variant) handlers n = s.processUpTo catalog handlers n := by
  induction n generalizing s with
  | zero => rfl
  | succ n ih =>
    cases pending : s.world.queue.isEmpty with
    | true => rw [processUpTo_of_isEmpty pending, processUpTo_of_isEmpty pending]
    | false =>
      have next := (kept_shut catalog handlers event.id).processNext shut
      rw [processUpTo_succ pending] at calm ⊢
      rw [processUpTo_succ pending]
      rcases made : s.processNext catalog handlers with ⟨answer, t⟩
      rw [made] at next calm
      have calm' : .called (.enable event.id) ∉ (s.processNext catalog handlers).2.journal := by
        rw [made]
        cases answer with
        | none => exact fun called ↦ calm (mem_processUpTo n called)
        | some run => exact calm
      rw [processNext_define handlers registered same shut calm', made]
      cases answer with
      | none => exact ih next calm
      | some run => rfl

private theorem processPending_define (registered : catalog.find? event.id = some event)
    (same : variant.id = event.id) (cap : Nat) {s : Stage ν} (shut : s.Shut event.id)
    (calm : .called (.enable event.id) ∉ (s.processPending catalog handlers cap).2.journal) :
    s.processPending (catalog.define variant) handlers cap =
      s.processPending catalog handlers cap := by
  have calm' : .called (.enable event.id) ∉ (s.processUpTo catalog handlers cap).2.journal := by
    intro called
    apply calm
    unfold processPending
    rcases made : s.processUpTo catalog handlers cap with ⟨answer, t⟩
    rw [made] at called
    cases answer with
    | some run => exact called
    | none =>
      dsimp only
      split
      · exact called
      · exact Array.mem_push_of_mem _ called
  unfold processPending
  rw [processUpTo_define handlers registered same cap shut calm']

end

private theorem Shut.resume (shut : s.Shut id) (handlers : Handlers ν) (run : Run)
    (choice : Option Nat) : (s.resume handlers run choice).2.Shut id := by
  unfold Stage.resume
  split
  · let scene : Scene ν :=
      { s.log (.resuming run.event.id run.next choice) with run := run.resume choice }
    have start : scene.toStage.Shut id := shut.note _
    exact start.play handlers
  · exact shut.note _

end Stage

/-! ### Commands -/

/-- A command that enables an id, defines it again or removes it, or begins a new game. A
registration that is refused does none of this. -/
def Command.Touches (id : String) : Command ν → Prop
  | .enable other | .unregister other => other = id
  | .register event =>
      event.id = id ∧ admitProbability (.event event.id) event.probability = .ok ()
  | .restart => True
  | _ => False

namespace Engine

/-- The engine with another definition for the id of an event. -/
def redefine (e : Engine ν) (variant : Event) : Engine ν :=
  { e with catalog := e.catalog.define variant }

/-- An event is registered and disabled. -/
structure Hides (e : Engine ν) (event : Event) : Prop where
  registered : e.catalog.find? event.id = some event
  disabled : e.world.flags.isEnabled event.id = false

/-- While commands are performed, neither the host nor a handler touches an id. -/
def Undisturbed (id : String) (e : Engine ν) : List (Command ν) → Prop
  | [] => True
  | c :: rest =>
      ¬ c.Touches id ∧ .called (.enable id) ∉ (e.perform c).journal ∧
        (e.perform c).engine.Undisturbed id rest

/-- Commands are answered alike, and the same happens, whether or not the id of an event has
another definition; afterwards the engines differ in this definition alone. -/
def Agrees (event variant : Event) (e : Engine ν) : List (Command ν) → Prop
  | [] => True
  | c :: rest =>
      ((e.redefine variant).perform c).answer = (e.perform c).answer ∧
        ((e.redefine variant).perform c).journal = (e.perform c).journal ∧
        ((e.redefine variant).perform c).engine = (e.perform c).engine.redefine variant ∧
        (e.perform c).engine.Hides event ∧ (e.perform c).engine.Agrees event variant rest

variable {e : Engine ν} {event variant : Event} {c : Command ν}

private theorem Hides.shut (hides : e.Hides event) : e.stage.Shut event.id :=
  fun _ ↦ hides.disabled

private theorem register_redefine (e : Engine ν) {other : Event}
    (free : ¬ (Command.register other : Command ν).Touches variant.id) :
    (e.redefine variant).register other =
      { e.register other with engine := (e.register other).engine.redefine variant } := by
  unfold register
  cases admitted : admitProbability (.event other.id) other.probability with
  | error refusal => rfl
  | ok _ =>
    have apart : other.id ≠ variant.id := fun own ↦ free ⟨own, admitted⟩
    have registers : (e.redefine variant).catalog.register other =
        ((e.catalog.register other).1, (e.catalog.register other).2.define variant) :=
      Catalog.register_define apart
    dsimp only
    rw [registers]
    rfl

private theorem unregister_redefine (e : Engine ν) {id : String} (apart : id ≠ variant.id) :
    (e.redefine variant).unregister id =
      { e.unregister id with engine := (e.unregister id).engine.redefine variant } := by
  have unregisters : (e.redefine variant).catalog.unregister id =
      ((e.catalog.unregister id).1, (e.catalog.unregister id).2.define variant) :=
    Catalog.unregister_define apart
  unfold unregister
  rw [unregisters]
  rcases e.catalog.unregister id with ⟨removed, catalog⟩
  cases removed with
  | none => rfl
  | some event => rfl

/-- A command that does not touch a disabled event has the same effect whatever its definition
is. -/
theorem perform_redefine (hides : e.Hides event) (same : variant.id = event.id)
    (free : ¬ c.Touches event.id) (calm : .called (.enable event.id) ∉ (e.perform c).journal) :
    (e.redefine variant).perform c =
      { e.perform c with engine := (e.perform c).engine.redefine variant } := by
  cases c with
  | processNext =>
    have scanned := Stage.processNext_define e.handlers hides.registered same
      hides.shut calm
    exact congrArg (e.redefine variant).reply scanned
  | processPending =>
    have scanned := Stage.processPending_define e.handlers hides.registered same
      e.config.maxTriggers.toNat hides.shut calm
    exact congrArg (e.redefine variant).reply scanned
  | emit id probability priority =>
    show (e.redefine variant).emit id probability priority =
      { e.emit id probability priority with
        engine := (e.emit id probability priority).engine.redefine variant }
    unfold emit
    have world : (e.redefine variant).world = e.world := rfl
    rw [world]
    rcases e.world.emit id probability priority with ⟨refusal | sequence, world⟩
    · rfl
    · rfl
  | register other => exact e.register_redefine (same.symm ▸ free)
  | unregister id => exact e.unregister_redefine fun own ↦ free (own.trans same)
  | restart => exact absurd trivial free
  | _ => rfl

/-- The definition of another id is registered or removed. -/
private theorem Hides.registered_perform (hides : e.Hides event) (free : ¬ c.Touches event.id) :
    (e.perform c).engine.catalog.find? event.id = some event := by
  cases c with
  | emit id probability priority =>
    show (e.emit id probability priority).engine.catalog.find? event.id = some event
    unfold emit
    split
    · exact hides.registered
    · exact hides.registered
  | register other =>
    show (e.register other).engine.catalog.find? event.id = some event
    unfold register
    cases admitted : admitProbability (.event other.id) other.probability with
    | error refusal => exact hides.registered
    | ok _ =>
      show (e.catalog.register other).2.find? event.id = some event
      rw [Catalog.find?_register, if_neg fun own ↦ free ⟨own, admitted⟩, hides.registered]
  | unregister id =>
    show (e.unregister id).engine.catalog.find? event.id = some event
    have other : id ≠ event.id := free
    have left := e.catalog.find?_unregister id event.id
    rw [if_neg other, hides.registered] at left
    unfold unregister
    rcases removes : e.catalog.unregister id with ⟨removed, catalog⟩
    rw [removes] at left
    cases removed with
    | none => exact hides.registered
    | some removed => exact left
  | _ => exact hides.registered

/-- Unless it is touched, a disabled event stays registered and disabled. -/
theorem Hides.perform (hides : e.Hides event) (free : ¬ c.Touches event.id)
    (calm : .called (.enable event.id) ∉ (e.perform c).journal) :
    (e.perform c).engine.Hides event := by
  refine ⟨hides.registered_perform free, ?_⟩
  have plain (plain : c.IsPlain) (idle : ¬ c.Enables e event.id) :=
    isEnabled_perform_of_disabled plain hides.disabled idle
  cases c with
  | processNext =>
    exact (Stage.kept_shut e.catalog e.handlers event.id).processNext hides.shut calm
  | processPending =>
    exact (Stage.kept_shut e.catalog e.handlers event.id).processPending _ hides.shut calm
  | resume run choice => exact hides.shut.resume e.handlers run choice calm
  | register other =>
    apply plain trivial
    rintro ⟨own, -, -, answer⟩
    unfold register at answer
    cases admitted : admitProbability (.event other.id) other.probability with
    | error refusal =>
      rw [admitted] at answer
      cases answer
    | ok _ => exact free ⟨own, admitted⟩
  | unregister id => exact plain trivial fun enables ↦ free enables.1
  | enable id => exact plain trivial free
  | restart => exact absurd trivial free
  | _ => exact plain trivial fun impossible ↦ impossible

/-- The definition of an event that is disabled cannot be observed. Whatever is done with an engine
that has another definition for its id, the answers, the draws and everything that happens are
the same, and the engines differ in this definition alone, as long as nothing enables the id,
defines it again or removes it, and no new game begins. -/
theorem disabled_unobservable (hides : e.Hides event) (same : variant.id = event.id)
    (commands : List (Command ν)) (undisturbed : e.Undisturbed event.id commands) :
    e.Agrees event variant commands := by
  induction commands generalizing e with
  | nil => trivial
  | cons c rest ih =>
    obtain ⟨free, calm, later⟩ := undisturbed
    have performed := perform_redefine hides same free calm
    have stays := hides.perform free calm
    refine ⟨?_, ?_, ?_, stays, ih stays later⟩
    · rw [performed]
    · rw [performed]
    · rw [performed]

/-- What a disabled truce would need, and whether it takes a draw for it, cannot be observed while
a duel that is listed after it fires. -/
theorem disabled_unobservable_truce :
    let truce : Event := { id := "truce", trigger := "dawn" }
    let gated : Event :=
      { truce with conditions := [{ expression := "randi(1, 6) > 3" }], probability := 0.5 }
    let e : Engine Unit :=
      { config := {}
        catalog := (((Catalog.empty true).register truce).2.register
          { id := "duel", trigger := "dawn" }).2
        handlers := .empty
        world := { store := .empty, draws := .fixed 0, flags := Flags.clear.disable "truce" } }
    let commands := [.emit "dawn" 1 0, .processNext, .disable "duel"]
    e.Hides truce ∧ gated.id = truce.id ∧ e.Undisturbed truce.id commands ∧
      e.Agrees truce gated commands := by
  intro truce gated e commands
  have hides : e.Hides truce := by
    constructor
    · show (Catalog.register _ _).2.find? "truce" = some truce
      rw [Catalog.find?_register, Catalog.find?_register]
      rfl
    · show (Flags.clear.disable "truce").isEnabled "truce" = false
      simp
  have silent {c : Command Unit} {e : Engine Unit}
      (uncalled : (Entry.calls (e.perform c).journal.toList).isEmpty = true) :
      .called (.enable truce.id) ∉ (e.perform c).journal := by
    intro called
    have call : .enable truce.id ∈ Entry.calls (e.perform c).journal.toList :=
      List.mem_filterMap.2 ⟨_, Array.mem_toList_iff.2 called, rfl⟩
    rw [List.isEmpty_iff.1 uncalled] at call
    cases call
  have undisturbed : e.Undisturbed truce.id commands := by
    refine ⟨fun h ↦ h, silent ?_, fun h ↦ h, silent ?_, fun h ↦ h, silent ?_, trivial⟩
    · decide +kernel
    · decide +kernel
    · decide +kernel
  have same : gated.id = truce.id := rfl
  exact ⟨hides, same, undisturbed, disabled_unobservable hides same commands undisturbed⟩

end Engine

end StoryEngine
