import StoryEngine.Store.Operation

/-!
# Saved games

What is read from a saved game is the game that was saved. A game in which some number is not
finite cannot be read back, as JSON has no form for that number; then the game goes on as it was.
-/

namespace StoryEngine

section

variable {α : Type} {read : Json → Option α} {write : α → Json}

/-- Items that are read from what was written are those that were written, if each is. -/
private theorem Json.eq_of_list? (inverse : ∀ a b, read (write a) = some b → b = a) {as bs : List α}
    (h : Json.list? read (.array (as.map write)) = some bs) : bs = as := by
  have items : (as.map write).mapM read = some bs := h
  clear h
  induction as generalizing bs with
  | nil => simpa using items.symm
  | cons a as ih =>
    rw [List.map_cons, List.mapM_cons] at items
    obtain ⟨b, first, items⟩ := Option.bind_eq_some_iff.1 items
    obtain ⟨rest, more, same⟩ := Option.bind_eq_some_iff.1 items
    cases same
    rw [inverse a b first, ih more]

/-- Members that are read from what was written are those that were written, if each is. -/
private theorem Json.eq_of_members? (inverse : ∀ a b, read (write a) = some b → b = a)
    {entries found : List (String × α)}
    (h : Json.members? read (.object (entries.map fun e ↦ (e.1, write e.2))) = some found) :
    found = entries := by
  have members : (entries.map fun e ↦ (e.1, write e.2)).mapM
      (fun e ↦ (read e.2).map fun a ↦ (e.1, a)) = some found := h
  clear h
  induction entries generalizing found with
  | nil => simpa using members.symm
  | cons entry entries ih =>
    rw [List.map_cons, List.mapM_cons] at members
    obtain ⟨b, first, members⟩ := Option.bind_eq_some_iff.1 members
    obtain ⟨rest, more, same⟩ := Option.bind_eq_some_iff.1 members
    obtain ⟨a, here, paired⟩ := Option.map_eq_some_iff.1 first
    cases same
    rw [← paired, inverse _ _ here, ih more]

end

private theorem Json.eq_of_float? (x y : Float) (h : (Json.ofFloat x).float? = some y) : y = x := by
  unfold ofFloat at h
  split at h
  · exact (Option.some.inj h).symm
  · cases h

private theorem Json.eq_of_string? (s t : String) (h : (Json.string s).string? = some t) : t = s :=
  (Option.some.inj h).symm

private theorem Json.eq_of_int64? (n m : Int64) (h : (Json.integer n.toInt).int64? = some m) :
    m = n := by
  have inRange : Int64.minValue.toInt ≤ n.toInt ∧ n.toInt ≤ Int64.maxValue.toInt :=
    ⟨n.minValue_le_toInt, n.toInt_le⟩
  rw [int64?, integer?, if_pos inRange, Option.map_some, Int64.ofInt_toInt] at h
  exact (Option.some.inj h).symm

namespace Store

/-- A map is made up of its entries. -/
private theorem ofList_toList_map {α : Type} (m : Std.ExtTreeMap String α) :
    Std.ExtTreeMap.ofList m.toList = m := by
  apply Std.ExtTreeMap.ext_getElem?
  intro key
  cases held : m[key]? with
  | some a =>
    have entry : (key, a) ∈ m.toList := Std.ExtTreeMap.mem_toList_iff_getElem?_eq_some.2 held
    exact Std.ExtTreeMap.getElem?_ofList_of_mem Std.ReflCmp.compare_self m.distinct_keys_toList
      entry
  | none =>
    apply Std.ExtTreeMap.getElem?_ofList_of_contains_eq_false
    have absent : key ∉ m := fun member ↦ by
      rw [Std.ExtTreeMap.getElem?_eq_some_getElem member] at held
      cases held
    simpa using absent

private theorem ofList_toList_set (t : Std.ExtTreeSet String) :
    Std.ExtTreeSet.ofList t.toList = t := by
  apply Std.ExtTreeSet.ext_mem
  intro key
  simp

private theorem eq_of_limitsOfJson? (limits found : Float × Float)
    (h : limitsOfJson? (.array [.ofFloat limits.1, .ofFloat limits.2]) = some found) :
    found = limits := by
  obtain ⟨low, readLow, h⟩ := Option.bind_eq_some_iff.1 h
  obtain ⟨high, readHigh, h⟩ := Option.bind_eq_some_iff.1 h
  cases h
  rw [Json.eq_of_float? _ _ readLow, Json.eq_of_float? _ _ readHigh]

/-- What is read from a saved game is the game that was saved. -/
theorem eq_of_ofJson?_toJson {s t : Store} (h : ofJson? s.toJson = some t) : t = s := by
  obtain ⟨vars, readVars, h⟩ := Option.bind_eq_some_iff.1 h
  obtain ⟨limits, readLimits, h⟩ := Option.bind_eq_some_iff.1 h
  obtain ⟨items, readItems, h⟩ := Option.bind_eq_some_iff.1 h
  obtain ⟨statuses, readStatuses, h⟩ := Option.bind_eq_some_iff.1 h
  cases h
  have vars_eq : vars = s.vars.toList := Json.eq_of_members? Json.eq_of_float? readVars
  have limits_eq : limits = s.limits.toList := Json.eq_of_members? eq_of_limitsOfJson? readLimits
  have items_eq : items = s.items.toList := Json.eq_of_members? Json.eq_of_int64? readItems
  have statuses_eq : statuses = s.statuses.toList :=
    Json.eq_of_list? Json.eq_of_string? readStatuses
  rw [vars_eq, limits_eq, items_eq, statuses_eq, ofList_toList_map, ofList_toList_map,
    ofList_toList_map, ofList_toList_set]

end Store

namespace StoreOp

/-- Saving a game and reading it back does not change it. -/
theorem apply_saveAndLoad (s : Store) : (saveAndLoad.apply s).2 = s := by
  show (replace s (Store.ofJson? s.toJson)).2 = s
  cases read : Store.ofJson? s.toJson with
  | none => rfl
  | some t => exact Store.eq_of_ofJson?_toJson read

/-- Whether an operation goes on with a game that comes from elsewhere. -/
def isLoad : StoreOp → Bool
  | load _ => true
  | _ => false

end StoreOp

/-- What each operation of a game keeps holds throughout the game. -/
theorem Store.run_induction {P : Store → Prop} {s : Store} (start : P s)
    (step : ∀ s (op : StoreOp), op.isLoad = false → P s → P (op.apply s).2) {ops : List StoreOp}
    (plays : ∀ op ∈ ops, op.isLoad = false) : P (s.run ops) := by
  induction ops generalizing s with
  | nil => exact start
  | cons op ops ih =>
    obtain ⟨first, rest⟩ := List.forall_mem_cons.1 plays
    exact ih (step s op first start) rest

end StoryEngine
