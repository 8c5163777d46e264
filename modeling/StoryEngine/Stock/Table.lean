import StoryEngine.Engine.Handlers
import StoryEngine.Stock.Handler

/-!
# Tables of stock handlers

Stock handlers under any action ids. A composite finds the actions that it performs inside its
own parameters, so dispatches go no deeper than parameters are nested.

Specification: `SPEC_FULL.md` §9 (one handler for each kind of action, in a table).
-/

namespace StoryEngine.Stock

open Param (depthEntries depthItems)

/-- An action whose parameters are nested less deep than the given depth. -/
def Shallow (depth : Nat) (a : Action) : Prop :=
  depthEntries a.params < depth

/-- The parameters of an action are nested less deep than the item that describes it. -/
private theorem depthEntries_actionOf? {item : Param} {a : Action} (h : actionOf? item = some a) :
    Shallow item.depth a := by
  cases item with
  | map entries =>
    simp only [actionOf?, Option.bind_eq_bind, Option.bind_eq_some_iff, Option.pure_def,
      Option.some.injEq] at h
    obtain ⟨-, -, id, -, rfl⟩ := h
    simp only [Shallow, Param.depth, Param.get?, Param.map?, Option.bind_some]
    cases found : Params.find? entries "params" with
    | none => simp [depthEntries]
    | some p =>
      have := Param.depth_le_depthEntries found
      cases p <;> simp only [Option.bind, Param.map?, Option.getD_none,
        Option.getD_some, depthEntries, Param.depth] at this ⊢ <;> omega
  | _ => simp [actionOf?, Param.get?, Param.map?] at h

/-- The actions performed for items are nested less deep than the items. -/
private theorem dispatchesOnly_performAll {items : List Param} {depth : Nat}
    (h : depthItems items ≤ depth) : (performAll items).DispatchesOnly (Shallow depth) := by
  induction items with
  | nil => trivial
  | cons item rest ih =>
    simp only [depthItems] at h
    have rest := ih (by omega)
    simp only [performAll]
    split
    · exact rest
    · rename_i a found
      have := depthEntries_actionOf? found
      refine ⟨?_, fun _ _ ↦ rest⟩
      simp only [Shallow] at this ⊢
      omega

/-- The items of a parameter are nested less deep than all parameters together. -/
private theorem depthItems_itemsOf (a : Action) (key : String) :
    depthItems (itemsOf (a.param? key)) ≤ depthEntries a.params := by
  cases found : a.param? key with
  | none => simp [itemsOf, depthItems]
  | some p =>
    have := Param.depth_le_depthEntries found
    cases p <;> simp only [itemsOf, Param.list?, Option.bind_some, Option.getD_some,
      Option.getD_none, depthItems, Param.depth] at this ⊢ <;> omega

/-- Setting a variable dispatches nothing. -/
private theorem dispatchesOnly_setIfGiven {kind : Action → Prop} :
    (var : Option String) → (x : Option Float) → (Kind.setIfGiven var x).DispatchesOnly kind
  | none, _ | some _, none => trivial
  | some _, some _ => fun _ ↦ trivial

/-- A stock handler dispatches only actions nested less deep than its own. -/
theorem dispatchesOnly_handler (kind : Kind) (a : Action) :
    (kind.handler a).DispatchesOnly (Shallow (depthEntries a.params)) := by
  have ofCall (c : Call Note) :
      (Script.ofCall c).DispatchesOnly (Shallow (depthEntries a.params)) :=
    Script.dispatchesOnly_ofCall c
  cases kind with
  | eval =>
    exact (ofCall _).bind fun _ ↦ (dispatchesOnly_setIfGiven _ _).bind fun _ ↦ ofCall _
  | status =>
    simp only [Kind.handler]
    cases a.flag "on" true <;> exact ofCall _
  | random => exact (ofCall _).bind fun _ ↦ (ofCall _).bind fun _ ↦ dispatchesOnly_setIfGiven _ _
  | seq => exact dispatchesOnly_performAll (depthItems_itemsOf a _)
  | cond =>
    refine (ofCall _).bind fun result ↦ ?_
    split <;> exact dispatchesOnly_performAll (depthItems_itemsOf a _)
  | switch =>
    refine (ofCall .userChoice).bind fun choice ↦ ?_
    split
    · rename_i case found
      obtain ⟨i, -, found⟩ := Option.bind_eq_some_iff.1 found
      have inside := Param.depth_le_depthItems (List.mem_of_getElem? found)
      have outside := depthItems_itemsOf a "cases"
      apply dispatchesOnly_performAll
      have : depthItems (itemsOf (some case)) ≤ case.depth := by
        cases case <;> simp [itemsOf, Param.list?, depthItems, Param.depth]
      omega
    · exact dispatchesOnly_performAll (depthItems_itemsOf a _)
  | emit | take => exact (ofCall _).bind fun _ ↦ ofCall _
  | query =>
    exact (ofCall .event).bind fun _ ↦ (ofCall .phase).bind fun _ ↦
      (ofCall .userChoice).bind fun _ ↦ (ofCall _).bind fun _ ↦ (ofCall _).bind fun _ ↦ ofCall _
  | read =>
    exact (ofCall _).bind fun _ ↦ (ofCall _).bind fun _ ↦ (ofCall _).bind fun _ ↦ ofCall _
  | _ => exact ofCall _

/-- With stock handlers, every dispatch ends within the depth of the parameters. -/
theorem isSome_dispatchWithin {handler? : String → Option (Handler Note)}
    (stock : ∀ id handler, handler? id = some handler → ∃ kind : Kind, handler = kind.handler)
    (depth : Nat) (a : Action) (shallow : Shallow depth a) (s : Scene Note) :
    (dispatchWithin handler? depth a s).isSome := by
  induction depth generalizing a s with
  | zero => simp [Shallow] at shallow
  | succ depth ih =>
    simp only [dispatchWithin]
    split
    · rfl
    · rename_i handler found
      obtain ⟨kind, rfl⟩ := stock _ _ found
      rw [Option.isSome_map]
      refine Script.isSome_perform (fun action inner s ↦ ih action ?_ s) _
        (dispatchesOnly_handler kind a) s
      simp only [Shallow] at shallow inner ⊢
      omega

/-- The table with the given stock handlers. -/
def table (kinds : Std.ExtTreeMap String Kind) : Handlers Note where
  handlers := kinds.map fun _ kind ↦ kind.handler
  depth a _ := depthEntries a.params + 1
  ends a s := by
    refine isSome_dispatchWithin (fun id handler found ↦ ?_) _ _ (Nat.lt_succ_self _) s
    rw [Std.ExtTreeMap.getElem?_map] at found
    obtain ⟨kind, -, rfl⟩ := Option.map_eq_some_iff.1 found
    exact ⟨kind, rfl⟩

end StoryEngine.Stock
