import StoryEngine.Engine.Firing

/-!
# What handlers can do

Handlers act through calls, and dispatch one another. A relation between scenes that is kept by
every call, and by an action that has no handler, is therefore kept by every dispatch, however
deep it goes. The relations that the laws of runs need are proved here from the calls alone.
-/

namespace StoryEngine

variable {ν : Type}

/-- A relation between a scene and the scene after any calls. -/
structure Scene.Frame (R : Scene ν → Scene ν → Prop) : Prop where
  refl : ∀ s, R s s
  trans : ∀ {s t u}, R s t → R t u → R s u
  call : ∀ s c, R s ((s.note (.called c)).answer c).2
  unhandled : ∀ s id, R s (s.log (.unhandled id))

namespace Scene.Frame

variable {R : Scene ν → Scene ν → Prop}

/-- A script makes one call after another. -/
theorem perform {α : Type} (h : Frame R)
    {dispatch : Action → Scene ν → Option (Bool × Scene ν)}
    (inner : ∀ action s found t, dispatch action s = some (found, t) → R s t)
    (script : Script ν α) {s t : Scene ν} {a : α}
    (performed : script.perform dispatch s = some (a, t)) : R s t := by
  induction script generalizing s with
  | done b =>
    cases performed
    exact h.refl _
  | call c next ih => exact h.trans (h.call s c) (ih _ performed)
  | dispatch action rest ih =>
    simp only [Script.perform] at performed
    split at performed
    · rename_i found u made
      exact h.trans (inner _ _ _ _ made) (ih found performed)
    · cases performed

private theorem dispatchWithin (h : Frame R) (handler? : String → Option (Handler ν))
    (depth : Nat) :
    ∀ action s found t, StoryEngine.dispatchWithin handler? depth action s = some (found, t) →
      R s t := by
  induction depth with
  | zero => intro action s found t made; cases made
  | succ depth ih =>
    intro action s found t made
    rw [StoryEngine.dispatchWithin] at made
    split at made
    · cases made
      exact h.unhandled s action.id
    · obtain ⟨⟨a, u⟩, performed, same⟩ := Option.map_eq_some_iff.1 made
      cases same
      exact h.perform ih _ performed

/-- A dispatch keeps what calls keep. -/
theorem dispatch (h : Frame R) (handlers : Handlers ν) (action : Action) (s : Scene ν) :
    R s (handlers.dispatch action s).2 :=
  h.dispatchWithin _ _ action s _ _ (Option.some_get _).symm

end Scene.Frame

/-! ### The run -/

/-- A call that makes the run wait for the player. -/
def Call.Suspends : Call ν → Prop
  | .showMessage _ | .offerChoices .. => True
  | _ => False

/-- What performing an action may add to the journal: the calls of its handlers, and a record
that an action has no handler. -/
def Entry.IsInner : Entry ν → Prop
  | .called _ | .logged (.unhandled _) => True
  | _ => False

/-- Calls leave a run with its event, its place and its choice; they are in the journal, and a
run that waits after them but not before was suspended by one of them. -/
structure Scene.Acts (s t : Scene ν) : Prop where
  event : t.run.event = s.run.event
  next : t.run.next = s.run.next
  choice : t.run.choice = s.run.choice
  journal : ∃ inner, t.journal.toList = s.journal.toList ++ inner ∧
    (∀ entry ∈ inner, entry.IsInner) ∧
    (t.run.phase = .waiting → s.run.phase = .waiting ∨ ∃ c, .called c ∈ inner ∧ c.Suspends)

/-- What handlers do leaves a run with its event, its place and its choice. -/
theorem Scene.frame_acts : Frame (Acts (ν := ν)) where
  refl s := ⟨rfl, rfl, rfl, [], by simp⟩
  trans := by
    intro s t u first second
    obtain ⟨inner, journal, all, waits⟩ := first.journal
    obtain ⟨inner', journal', all', waits'⟩ := second.journal
    refine ⟨second.event.trans first.event, second.next.trans first.next,
      second.choice.trans first.choice, inner ++ inner', ?_, ?_, ?_⟩
    · rw [journal', journal, List.append_assoc]
    · intro entry member
      rcases List.mem_append.1 member with member | member
      · exact all entry member
      · exact all' entry member
    · intro waiting
      rcases waits' waiting with waiting | ⟨c, member, suspends⟩
      · rcases waits waiting with waiting | ⟨c, member, suspends⟩
        · exact .inl waiting
        · exact .inr ⟨c, List.mem_append_left _ member, suspends⟩
      · exact .inr ⟨c, List.mem_append_right _ member, suspends⟩
  call s c := by
    have journal : ((s.note (.called c)).answer c).2.journal.toList =
        s.journal.toList ++ [.called c] := by
      cases c <;> simp [answer, note, Stage.note, mapRun, withWorld]
    refine ⟨?_, ?_, ?_, [.called c], journal, by simp [Entry.IsInner], fun waiting ↦ ?_⟩
    · cases c <;> rfl
    · cases c <;> rfl
    · cases c <;> rfl
    · cases c with
      | showMessage message => exact .inr ⟨.showMessage message, by simp, trivial⟩
      | offerChoices message choices =>
        exact .inr ⟨.offerChoices message choices, by simp, trivial⟩
      | stop => cases waiting
      | _ => exact .inl waiting
  unhandled s id := by
    refine ⟨rfl, rfl, rfl, [.logged (.unhandled id)], ?_, by simp [Entry.IsInner], .inl⟩
    simp [log, note, Stage.note]

/-! ### Turns -/

namespace Scene

/-- The scene after the action at the place of the run. -/
def turn (handlers : Handlers ν) (action : Action) (s : Scene ν) : Scene ν :=
  (handlers.dispatch action ((s.note (.began s.run.event.id s.run.next action)).mapRun
    ({ · with next := s.run.next + 1 }))).2

/-- Performing actions keeps what calls keep, if the beginning of an action and the record of a
wait keep it too. -/
theorem Frame.performActions {R : Scene ν → Scene ν → Prop} (h : Frame R)
    (begins : ∀ s id index action place,
      R s ((s.note (.began id index action)).mapRun ({ · with next := place })))
    (waits : ∀ s id index action, R s (s.log (.waiting id index action)))
    (handlers : Handlers ν) (actions : List Action) (s : Scene ν) :
    R s (s.perform handlers actions) := by
  have turned (action : Action) (s : Scene ν) : R s (s.turn handlers action) :=
    h.trans (begins s _ _ action _) (h.dispatch handlers action _)
  fun_induction Scene.perform handlers actions s with
  | case1 s => exact h.refl s
  | case2 action rest s stopped => exact h.refl s
  | case3 action rest s going index begun after waiting =>
    exact h.trans (turned action s) (waits after _ _ _)
  | case4 action rest s going index begun after waiting ih => exact h.trans (turned action s) ih

end Scene

end StoryEngine
