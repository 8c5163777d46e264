import StoryEngine.Engine.Basic

/-!
# Chronicles

A chronicle keeps everything that has happened to an engine since it was created: the commands of
the host, and what was noted in the journal. Whether an event is excluded is a matter of the
chronicle alone: an event has fired that excludes it, and nothing has enabled it since.
-/

namespace StoryEngine

variable {ν : Type}

/-! ### Chronicles -/

/-- Something that happens to an engine: a command of the host, with the engine that it finds, or
an entry in the journal. -/
inductive Happening (ν : Type) where
  | commanded (engine : Engine ν) (c : Command ν)
  | noted (entry : Entry ν)

/-- An engine, and everything that has happened to it since it was created. -/
structure Chronicle (ν : Type) where
  engine : Engine ν
  history : List (Happening ν)

namespace Chronicle

/-- The chronicle of a new engine. -/
def begin (config : Config) (draws : Option Draws) (store : Store) (handlers : Handlers ν) :
    Chronicle ν :=
  ⟨.create config draws store handlers, []⟩

/-- The chronicle after a command. -/
def step (h : Chronicle ν) (c : Command ν) : Chronicle ν where
  engine := (h.engine.perform c).engine
  history := h.history ++
    .commanded h.engine c :: (h.engine.perform c).journal.toList.map .noted

/-- The chronicle after commands in turn. -/
def after (h : Chronicle ν) (commands : List (Command ν)) : Chronicle ν :=
  commands.foldl step h

end Chronicle

/-! ### What excludes and what enables -/

/-- A command that enables an event: to enable it, to register it again as enabled, to remove it,
and to begin a new game. Registering an event for the first time is none. -/
def Command.Enables (engine : Engine ν) (id : String) : Command ν → Prop
  | .enable other => other = id
  | .register event =>
      event.id = id ∧ event.enabled = true ∧ (engine.catalog.find? id).isSome ∧
        (engine.register event).answer = .ok ()
  | .unregister other => other = id ∧ (engine.catalog.find? id).isSome
  | .restart => True
  | _ => False

namespace Happening

/-- An event fires that excludes the id. -/
def Excludes (id : String) : Happening ν → Prop
  | .noted (.logged (.firing e)) => id ∈ e.exclusions
  | _ => False

/-- The id is enabled, by the host or by a handler. -/
def Enables (id : String) : Happening ν → Prop
  | .commanded engine c => c.Enables engine id
  | .noted (.called (.enable other)) => other = id
  | _ => False

/-- The event of the id fires, or one of its conditions is evaluated, or its gate is tried. -/
def Concerns (id : String) : Happening ν → Prop
  | .noted (.logged (.firing e)) => e.id = id
  | .noted (.tested other _ _) => other = id
  | .noted (.rolled (.event other) _ _) => other = id
  | _ => False

/-- What is noted of a run: the beginnings of its actions, what their handlers do, and a wait. -/
def OfRun : Happening ν → Prop
  | .noted (.began ..) | .noted (.called _) | .noted (.logged (.waiting ..))
  | .noted (.logged (.unhandled _)) => True
  | _ => False

/-- What is noted of a run neither excludes an event nor tests or fires one. -/
private theorem OfRun.idle {happening : Happening ν} (ofRun : happening.OfRun) (id : String) :
    ¬ happening.Excludes id ∧ ¬ happening.Concerns id := by
  unfold OfRun at ofRun
  split at ofRun
  case h_5 => exact ofRun.elim
  all_goals exact ⟨fun impossible ↦ impossible, fun impossible ↦ impossible⟩

end Happening

/-- An event has fired that excludes the id, and after its run nothing has enabled the id. What
handlers enable during the run does not count, since the event excludes the id at its end. -/
def Excluded (id : String) (history : List (Happening ν)) : Prop :=
  ∃ before firing run later,
    history = before ++ firing :: (run ++ later) ∧ firing.Excludes id ∧
    (∀ happening ∈ run, happening.OfRun) ∧ ∀ happening ∈ later, ¬ happening.Enables id

/-- Where the id of an event is excluded, the event does not fire, and none of its conditions is
evaluated nor its gate tried. -/
def Respected (history : List (Happening ν)) : Prop :=
  ∀ before happening later id, history = before ++ happening :: later → happening.Concerns id →
    ¬ Excluded id before

/-! ### Longer histories -/

section

variable {id : String} {history run : List (Happening ν)} {happening : Happening ν}

/-- What excludes an id once a run has been noted: what began the run, or what excluded it before,
if nothing has enabled it. -/
private theorem Excluded.before_run (outside : ¬ happening.OfRun) (ofRun : ∀ next ∈ run, next.OfRun)
    (excluded : Excluded id (history ++ happening :: run)) :
    happening.Excludes id ∨
      Excluded id history ∧ ∀ next ∈ happening :: run, ¬ next.Enables id := by
  obtain ⟨before, firing, own, later, split, excludes, ofOwn, none⟩ := excluded
  rcases List.append_eq_append_iff.1 split with ⟨between, rfl, rest⟩ | ⟨between, rfl, rest⟩
  · -- the firing comes after `history`, so it is the one that began the run
    rcases List.cons_eq_append_iff.1 rest with ⟨-, same⟩ | ⟨between, rfl, inside⟩
    · cases same
      exact .inl excludes
    · have member : firing ∈ run := by simp [inside]
      exact absurd excludes ((ofRun firing member).idle id).1
  · rcases List.cons_eq_append_iff.1 rest with ⟨-, same⟩ | ⟨between, rfl, inside⟩
    · cases same
      exact .inl excludes
    · right
      rcases List.append_eq_append_iff.1 inside with ⟨gap, rfl, tail⟩ | ⟨gap, rfl, tail⟩
      · subst tail
        refine ⟨⟨before, firing, own, gap, rfl, excludes, ofOwn, ?_⟩, ?_⟩
        · exact fun next member ↦ none next (List.mem_append_left _ member)
        · exact fun next member ↦ none next (List.mem_append_right _ member)
      · -- the run of that firing ended before `happening`, which is of no run
        cases gap with
        | nil =>
          subst tail
          refine ⟨⟨before, firing, between, [], by simp, excludes, ?_, by simp⟩, none⟩
          exact fun next member ↦ ofOwn next (List.mem_append_left _ member)
        | cons first gap =>
          cases tail
          exact absurd (ofOwn happening (by simp)) outside

private theorem Respected.append_run (respected : Respected history)
    (ofRun : ∀ next ∈ run, next.OfRun)
    (apart : ∀ id, happening.Concerns id → ¬ Excluded id history) :
    Respected (history ++ happening :: run) := by
  intro before next later id split concerns
  rcases List.append_eq_append_iff.1 split with ⟨between, rfl, rest⟩ | ⟨between, rfl, rest⟩
  · rcases List.cons_eq_append_iff.1 rest with ⟨rfl, same⟩ | ⟨between, rfl, inside⟩
    · cases same
      rw [List.append_nil]
      exact apart id concerns
    · have member : next ∈ run := by simp [inside]
      exact absurd concerns ((ofRun next member).idle id).2
  · rcases List.cons_eq_append_iff.1 rest with ⟨rfl, same⟩ | ⟨between, rfl, inside⟩
    · cases same
      rw [List.append_nil] at apart
      exact apart id concerns
    · exact respected before next between id rfl concerns

/-- The flags go with a history: an id that is excluded is disabled, and wherever one was
excluded its event did not fire and was not tested. -/
structure Flags.Guard (flags : Flags) (history : List (Happening ν)) : Prop where
  disabled : ∀ id, Excluded id history → flags.isEnabled id = false
  respected : Respected history

variable {flags flags' : Flags}

/-- Flags go with a history that is longer by a run, if what begins the run concerns only enabled
ids, and the ids that it excludes, or that were disabled and that nothing enables, are disabled
after it. -/
theorem Flags.Guard.append_run (guard : flags.Guard history) (outside : ¬ happening.OfRun)
    (ofRun : ∀ next ∈ run, next.OfRun)
    (concerns : ∀ id, happening.Concerns id → flags.isEnabled id = true)
    (after : ∀ id, happening.Excludes id ∨ flags.isEnabled id = false ∧
      (∀ next ∈ happening :: run, ¬ next.Enables id) → flags'.isEnabled id = false) :
    flags'.Guard (history ++ happening :: run) where
  disabled id excluded := by
    apply after
    rcases excluded.before_run outside ofRun with excludes | ⟨excluded, none⟩
    · exact .inl excludes
    · exact .inr ⟨guard.disabled id excluded, none⟩
  respected := by
    apply guard.respected.append_run ofRun
    intro id concerned excluded
    have disabled := guard.disabled id excluded
    rw [concerns id concerned] at disabled
    cases disabled

/-- What is neither of a run nor a firing, and concerns only events that are enabled. -/
structure Happening.Allowed (flags : Flags) (happening : Happening ν) : Prop where
  outside : ¬ happening.OfRun
  calm : ∀ id, ¬ happening.Excludes id
  concerns : ∀ id, happening.Concerns id → flags.isEnabled id = true

/-- A log record that is not about the run of an event. -/
def LogRecord.IsRemark : LogRecord → Prop
  | firing _ | waiting .. | unhandled _ => False
  | _ => True

/-- A remark is allowed under any flags. -/
theorem LogRecord.IsRemark.allowed {record : LogRecord} (remark : record.IsRemark) :
    (Happening.noted (.logged record) : Happening ν).Allowed flags := by
  cases record with
  | firing e => exact remark.elim
  | waiting event index action => exact remark.elim
  | unhandled action => exact remark.elim
  | _ => exact ⟨fun h ↦ h, fun _ h ↦ h, fun _ h ↦ h.elim⟩

/-- Flags go with a history that is longer by an allowed happening, if an id that was disabled stays
so unless the happening enables it. -/
theorem Flags.Guard.append (guard : flags.Guard history) (allowed : happening.Allowed flags)
    (after : ∀ id, flags.isEnabled id = false → ¬ happening.Enables id →
      flags'.isEnabled id = false) : flags'.Guard (history ++ [happening]) := by
  apply guard.append_run allowed.outside (by simp) allowed.concerns
  rintro id (excludes | ⟨disabled, none⟩)
  · exact absurd excludes (allowed.calm id)
  · exact after id disabled (none happening List.mem_cons_self)

/-- Flags go with a history that is longer by allowed notes. -/
theorem Flags.Guard.append_notes {notes : List (Entry ν)} (guard : flags.Guard history)
    (allowed : ∀ entry ∈ notes, (Happening.noted entry).Allowed flags) :
    flags.Guard (history ++ notes.map .noted) := by
  induction notes generalizing history with
  | nil => simpa using guard
  | cons entry rest ih =>
    obtain ⟨here, others⟩ := List.forall_mem_cons.1 allowed
    have next := ih (guard.append here fun _ disabled _ ↦ disabled) others
    rw [List.append_assoc] at next
    exact next

end

end StoryEngine
