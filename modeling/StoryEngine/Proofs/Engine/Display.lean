import Mathlib.Data.List.Induction
import StoryEngine.Proofs.Engine.Suspension
import StoryEngine.Stock.Table

/-!
# What a run shows

A run that waits shows a message and choices to the player. What it shows is what handlers have
asked for since it was last played, whichever action or dispatch the calls came from: the message
of the last call that suspends the run, and the choices of the last call that offers any. A plain
message does not take back choices that were offered before it, and stopping a run does not take
back what it shows. Unless calls follow one another like that, what is shown is up to date.

Specification: `SPEC_FULL.md` §4.4 (pending message and choices).
-/

namespace StoryEngine

variable {ν α : Type}

/-! ### Calls -/

/-- What a call shows to the player. A plain message comes without choices. -/
structure Display where
  message : Option String
  choices : List Param

namespace Call

/-- What a call that suspends the run asks to show. -/
def display? : Call ν → Option Display
  | .showMessage message => some ⟨some message, []⟩
  | .offerChoices message choices => some ⟨message, choices⟩
  | _ => none

/-- The message of a call that suspends the run; choices may be offered without one. -/
def message? (c : Call ν) : Option (Option String) :=
  c.display?.map Display.message

/-- The choices of a call that offers them. -/
def choices? : Call ν → Option (List Param)
  | .offerChoices _ choices => some choices
  | _ => none

/-- The phase in which a call leaves the run. -/
def phase? : Call ν → Option Phase
  | .showMessage _ | .offerChoices .. => some .waiting
  | .stop => some .stopped
  | _ => none

/-- The last value that some calls give, or the one before them. -/
def last (value? : Call ν → Option α) (before : α) (calls : List (Call ν)) : α :=
  (calls.filterMap value?).getLast?.getD before

/-- A call puts an earlier one out of date, but leaves what that one shows: a stop after a call
that suspends the run, and a plain message after choices. -/
def Outdates (earlier : Call ν) : Call ν → Prop
  | .stop => earlier.Suspends
  | .showMessage _ => earlier.choices?.isSome
  | _ => False

/-- No call puts an earlier one out of date. -/
def Tidy (calls : List (Call ν)) : Prop :=
  calls.Pairwise fun earlier later ↦ ¬ earlier.Outdates later

private theorem display?_of_not_suspends {c : Call ν} (calm : ¬ c.Suspends) :
    c.display? = none := by
  cases c with
  | showMessage message => exact absurd trivial calm
  | offerChoices message choices => exact absurd trivial calm
  | _ => rfl

/-- Whoever offers choices shows something. -/
private theorem choices?_of_display? {c : Call ν} (calm : c.display? = none) :
    c.choices? = none := by
  cases c with
  | offerChoices message choices => cases calm
  | _ => rfl

private theorem last_append (value? : Call ν → Option α) (before : α)
    (calls later : List (Call ν)) :
    last value? before (calls ++ later) = last value? (last value? before calls) later := by
  unfold last
  rw [List.filterMap_append, List.getLast?_append, Option.getD_or]

private theorem last_concat (value? : Call ν → Option α) (before : α) (calls : List (Call ν))
    (c : Call ν) :
    last value? before (calls ++ [c]) = (value? c).getD (last value? before calls) := by
  rw [last_append]
  unfold last
  cases given : value? c <;> simp [given]

private theorem last_of_forall_none {value? : Call ν → Option α} {calls : List (Call ν)}
    (calm : ∀ c ∈ calls, value? c = none) (before : α) : last value? before calls = before := by
  unfold last
  rw [List.filterMap_eq_nil_iff.2 calm]
  rfl

end Call

namespace Entry

/-- A record that a run is played: that its event fires, or that it goes on. -/
def isPlay : Entry ν → Bool
  | .logged (.firing _) | .logged (.resuming ..) => true
  | _ => false

/-- What has been noted since a run was last played. -/
def segment (entries : List (Entry ν)) : List (Entry ν) :=
  (entries.reverse.takeWhile fun entry ↦ !entry.isPlay).reverse

private theorem segment_append {play : Entry ν} {entries : List (Entry ν)}
    (isPlay : play.isPlay = true)
    (played : ∀ entry ∈ entries, entry.isPlay = false) (before : List (Entry ν)) :
    segment (before ++ play :: entries) = entries := by
  have all : ∀ entry ∈ entries.reverse, (!entry.isPlay) = true := by
    intro entry member
    rw [played entry (List.mem_reverse.1 member)]
    rfl
  unfold segment
  rw [List.reverse_append, List.reverse_cons, List.append_assoc, List.takeWhile_append_of_pos all,
    List.singleton_append, List.takeWhile_cons_of_neg (by simp [isPlay]), List.append_nil,
    List.reverse_reverse]

end Entry

/-! ### Runs -/

namespace Run

/-- What a run shows after some calls, given the run before them. -/
structure Shows (calls : List (Call ν)) (before after : Run) : Prop where
  phase : after.phase = Call.last Call.phase? before.phase calls
  message : after.message = Call.last Call.message? before.message calls
  choices : after.choices = Call.last Call.choices? before.choices calls

/-- A run shows nothing unless it waits, and while it waits just what the last call that suspends
it has asked for. -/
structure UpToDate (calls : List (Call ν)) (r : Run) : Prop where
  idle : r.phase ≠ .waiting → r.message = none ∧ r.choices = []
  waits : r.phase = .waiting → ∃ display, (calls.filterMap Call.display?).getLast? = some display ∧
    r.message = display.message ∧ r.choices = display.choices

variable {r s t : Run} {calls later : List (Call ν)}

private theorem Shows.trans (first : Shows calls r s) (second : Shows later s t) :
    Shows (calls ++ later) r t where
  phase := by rw [second.phase, first.phase, Call.last_append]
  message := by rw [second.message, first.message, Call.last_append]
  choices := by rw [second.choices, first.choices, Call.last_append]

private theorem UpToDate.concat {c : Call ν} (upToDate : r.UpToDate calls)
    (calm : c.display? = none) :
    r.UpToDate (calls ++ [c]) where
  idle := upToDate.idle
  waits waiting := by
    have same : [c].filterMap Call.display? = [] := by simp [calm]
    rw [List.filterMap_append, same, List.append_nil]
    exact upToDate.waits waiting

/-- What a run shows that has started with nothing to show is up to date after tidy calls. -/
private theorem Shows.upToDate {event : Event} (shows : Shows calls (.start event) r)
    (tidy : Call.Tidy calls) : r.UpToDate calls := by
  induction calls using List.reverseRecOn with
  | nil =>
    refine ⟨fun _ ↦ ⟨shows.message, shows.choices⟩, fun waiting ↦ ?_⟩
    have running : r.phase = .running := shows.phase
    exact absurd (running.symm.trans waiting) (by decide)
  | append_singleton calls c ih =>
    obtain ⟨before, -, apart⟩ := List.pairwise_append.1 tidy
    have apart : ∀ earlier ∈ calls, ¬ earlier.Outdates c :=
      fun earlier member ↦ apart earlier member c (List.mem_singleton_self c)
    obtain ⟨phase, message, choices⟩ := shows
    rw [Call.last_concat] at phase message choices
    cases c with
    | showMessage text =>
      have calm : ∀ earlier ∈ calls, earlier.choices? = none :=
        fun earlier member ↦ Option.not_isSome_iff_eq_none.1 (apart earlier member)
      rw [Call.last_of_forall_none calm] at choices
      refine ⟨fun idle ↦ absurd phase idle, fun _ ↦ ⟨⟨some text, []⟩, ?_, message, choices⟩⟩
      simp [Call.display?]
    | offerChoices text offered =>
      refine ⟨fun idle ↦ absurd phase idle, fun _ ↦ ⟨⟨text, offered⟩, ?_, message, choices⟩⟩
      simp [Call.display?]
    | stop =>
      have calm : ∀ earlier ∈ calls, earlier.display? = none :=
        fun earlier member ↦ Call.display?_of_not_suspends (apart earlier member)
      rw [Call.last_of_forall_none fun earlier member ↦ congrArg _ (calm earlier member)] at message
      rw [Call.last_of_forall_none fun earlier member ↦
        Call.choices?_of_display? (calm earlier member)] at choices
      refine ⟨fun _ ↦ ⟨message, choices⟩, fun waiting ↦ ?_⟩
      have stopped : r.phase = .stopped := phase
      exact absurd (stopped.symm.trans waiting) (by decide)
    | _ => exact (ih ⟨phase, message, choices⟩ before).concat rfl

end Run

/-! ### Playing -/

/-- Between two scenes the run is not played anew, and shows what the calls that are noted make of
it. -/
structure Scene.Displays (entries : List (Entry ν)) (s t : Scene ν) : Prop where
  journal : t.journal.toList = s.journal.toList ++ entries
  inner : ∀ entry ∈ entries, entry.isPlay = false
  shows : Run.Shows (Entry.calls entries) s.run t.run

namespace Scene

variable {s t u : Scene ν}

private theorem Displays.trans {entries later : List (Entry ν)} (first : Displays entries s t)
    (second : Displays later t u) : Displays (entries ++ later) s u where
  journal := by rw [second.journal, first.journal, List.append_assoc]
  inner entry member := by
    rcases List.mem_append.1 member with member | member
    · exact first.inner entry member
    · exact second.inner entry member
  shows := by
    rw [Entry.calls, List.filterMap_append]
    exact first.shows.trans second.shows

private theorem Displays.of_push (entry : Entry ν) (journal : t.journal = s.journal.push entry)
    (inner : entry.isPlay = false) (shows : Run.Shows (Entry.calls [entry]) s.run t.run) :
    Displays [entry] s t where
  journal := by rw [journal, Array.toList_push]
  inner := by simpa using inner
  shows := shows

private theorem frame_displays : Frame fun s t : Scene ν ↦ ∃ entries, Displays entries s t where
  refl s := ⟨[], by simp, by simp, rfl, rfl, rfl⟩
  trans := by
    rintro s t u ⟨entries, first⟩ ⟨later, second⟩
    exact ⟨entries ++ later, first.trans second⟩
  call s c := by
    refine ⟨[.called c], .of_push _ ?_ rfl ?_⟩
    · cases c <;> rfl
    · cases c <;> exact ⟨rfl, rfl, rfl⟩
  unhandled s id := ⟨_, .of_push _ rfl rfl ⟨rfl, rfl, rfl⟩⟩

private theorem play_displays (handlers : Handlers ν) (s : Scene ν) :
    ∃ entries, Displays entries s (s.play handlers) := by
  apply frame_displays.performActions
  · intro s id index action place
    exact ⟨_, .of_push (.began id index action) rfl rfl ⟨rfl, rfl, rfl⟩⟩
  · intro s id index action
    exact ⟨_, .of_push _ rfl rfl ⟨rfl, rfl, rfl⟩⟩

/-- A run that is played when it shows nothing shows what the calls of its segment make of it. -/
theorem segment_play (handlers : Handlers ν) (before : Stage ν) (record : LogRecord) (run : Run)
    (isPlay : Entry.isPlay (.logged record : Entry ν) = true) :
    let t := ({ before.log record with run } : Scene ν).play handlers
    Run.Shows (Entry.calls (Entry.segment t.journal.toList)) run t.run := by
  intro t
  obtain ⟨entries, displays⟩ := play_displays handlers { before.log record with run }
  have journal : t.journal.toList = before.journal.toList ++ .logged record :: entries := by
    rw [displays.journal]
    show (before.journal.push _).toList ++ entries = _
    rw [Array.toList_push, List.append_assoc, List.singleton_append]
  rw [journal, Entry.segment_append isPlay displays.inner]
  exact displays.shows

end Scene

/-! ### Runs that are handed out -/

/-- A run is handed to the host, with what has been noted since it was last played. Processing
hands out runs, and any engine can go on with a run or give it back as it is. -/
inductive Run.Handed : Run → List (Entry ν) → Prop
  | next {e : Engine ν} {run : Run} (answer : (e.perform .processNext).answer = some run) :
      Handed run (Entry.segment (e.perform .processNext).journal.toList)
  | pending {e : Engine ν} {run : Run} (answer : (e.perform .processPending).answer = some run) :
      Handed run (Entry.segment (e.perform .processPending).journal.toList)
  | resumed {e : Engine ν} {run : Run} {segment : List (Entry ν)} (choice : Option Nat)
      (held : Handed run segment) (waits : run.phase = .waiting) :
      Handed (e.perform (.resume run choice)).answer
        (Entry.segment (e.perform (.resume run choice)).journal.toList)
  | returned {e : Engine ν} {run : Run} {segment : List (Entry ν)} (choice : Option Nat)
      (held : Handed run segment) (idle : run.phase ≠ .waiting) :
      Handed (e.perform (.resume run choice)).answer segment

private theorem Stage.shows_fire (handlers : Handlers ν) (s : Stage ν) (event : Event) :
    Run.Shows (Entry.calls (Entry.segment (s.fire handlers event).2.journal.toList))
      (.start event) (s.fire handlers event).1 :=
  Scene.segment_play handlers s (.firing event) (.start event) rfl

/-- A run that processing answers has just been played. -/
private theorem Stage.Suspended.shows {catalog : Catalog} {handlers : Handlers ν}
    {outcome : Option Run × Stage ν} {run : Run} (suspended : Suspended catalog handlers outcome)
    (answer : outcome.1 = some run) :
    Run.Shows (Entry.calls (Entry.segment outcome.2.journal.toList)) (.start run.event) run := by
  obtain ⟨-, id, event, s, -, fires⟩ := suspended run answer
  have shows := s.shows_fire handlers event
  rw [fires] at shows
  exact ⟨shows.phase, shows.message, shows.choices⟩

namespace Run

variable {run : Run} {segment : List (Entry ν)}

private theorem Handed.shows (handed : run.Handed segment) :
    Shows (Entry.calls segment) (.start run.event) run := by
  induction handed with
  | next answer => exact (Stage.suspended_processNext _ _ _).shows answer
  | pending answer => exact (Stage.suspended_processPending _ _ _ _).shows answer
  | @resumed e run segment choice _ waits _ =>
    rw [Holding.perform_resume (h := ⟨e, run, []⟩) waits]
    have shows := Scene.segment_play e.handlers e.stage (.resuming run.event.id run.next choice)
      (Holding.again ⟨e, run, []⟩ choice).run rfl
    exact ⟨shows.phase, shows.message, shows.choices⟩
  | @returned e run segment choice _ idle shows =>
    rw [Holding.perform_resume_idle (h := ⟨e, run, []⟩) idle]
    exact shows

/-- A run that is handed to the host shows the message of the last call that suspended it since it
was last played, and the choices of the last call that offered any. Unless one of these calls has
put an earlier one out of date, that is what the last call has asked for, and nothing where the
run does not wait. -/
theorem shows_lastCalls (handed : run.Handed segment) :
    Shows (Entry.calls segment) (.start run.event) run ∧
      (Call.Tidy (Entry.calls segment) → run.UpToDate (Entry.calls segment)) :=
  ⟨handed.shows, handed.shows.upToDate⟩

/-- A riddle that is asked once is shown as it was asked. -/
theorem shows_lastCalls_riddle :
    let e : Engine Stock.Note :=
      { config := {}
        catalog := ((Catalog.empty true).register
          { id := "riddle", actions := [⟨"Ask", [("choices", .list [.text "a shadow"])]⟩] }).2
        handlers := Stock.table ((∅ : Std.ExtTreeMap String Stock.Kind).insert "Ask" .ask)
        world :=
          { store := .empty
            draws := .fixed 0
            queue := SignalQueue.empty.push "Manual" 1 0 } }
    let segment := Entry.segment (e.perform .processNext).journal.toList
    ∃ run : Run, run.Handed segment ∧ Call.Tidy (Entry.calls segment) ∧
      run.UpToDate (Entry.calls segment) ∧ run.choices.length = 1 := by
  intro e segment
  have handed : (e.perform .processNext).answer.map (·.choices.length) = some 1 := by decide +kernel
  have once : (Entry.calls segment).length = 1 := by decide +kernel
  obtain ⟨run, answer, offered⟩ := Option.map_eq_some_iff.1 handed
  obtain ⟨c, alone⟩ := List.length_eq_one_iff.1 once
  have tidy : Call.Tidy (Entry.calls segment) := by
    rw [alone]
    exact List.pairwise_singleton _ c
  exact ⟨run, .next answer, tidy, (shows_lastCalls (.next answer)).2 tidy, offered⟩

/-- A plain message after a riddle is shown with the choices of the riddle. -/
theorem not_upToDate_riddle :
    let e : Engine Stock.Note :=
      { config := {}
        catalog := ((Catalog.empty true).register
          { id := "riddle"
            actions := [⟨"Seq", [("actions", .list [
              .map [("id", .text "Ask"), ("params", .map [("choices", .list [.text "a shadow"])])],
              .map [("id", .text "Message")]])]⟩] }).2
        handlers := Stock.table ((((∅ : Std.ExtTreeMap String Stock.Kind).insert "Seq" .seq).insert
          "Ask" .ask).insert "Message" .message)
        world :=
          { store := .empty
            draws := .fixed 0
            queue := SignalQueue.empty.push "Manual" 1 0 } }
    let segment := Entry.segment (e.perform .processNext).journal.toList
    ∃ run : Run, run.Handed segment ∧ ¬ run.UpToDate (Entry.calls segment) := by
  intro e segment
  have handed : (e.perform .processNext).answer.map (fun run ↦ (run.phase, run.choices.length)) =
      some (.waiting, 1) := by decide +kernel
  have plain : ((Entry.calls segment).filterMap Call.display?).getLast?.map (·.choices.length) =
      some 0 := by decide +kernel
  obtain ⟨run, answer, shown⟩ := Option.map_eq_some_iff.1 handed
  obtain ⟨waiting, offered⟩ := Prod.mk.inj shown
  refine ⟨run, .next answer, fun upToDate ↦ ?_⟩
  obtain ⟨display, last, -, choices⟩ := upToDate.waits waiting
  rw [last, Option.map_some, ← choices, offered] at plain
  cases plain

end Run

end StoryEngine
