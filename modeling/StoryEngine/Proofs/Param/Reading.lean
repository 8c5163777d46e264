import StoryEngine.Param.Json
import StoryEngine.Proofs.Number.Order

/-!
# How JSON is read as parameters

A JSON value stands for a parameter of its own kind, and an object for the bag of its members. A
value is read just as what it stands for; only one with a `null` in it is not read at all. A
parameter is written as a value that stands for it, so what is written is read back.
-/

namespace StoryEngine

/-- What is defined on lists by recursion as holding of each item. -/
theorem forall_mem_iff_of_cons {α : Type} {each : List α → Prop} {p : α → Prop} (nil : each [])
    (cons : ∀ a as, each (a :: as) ↔ p a ∧ each as) {as : List α} :
    each as ↔ ∀ a ∈ as, p a := by
  induction as with
  | nil => exact iff_of_true nil (List.forall_mem_nil p)
  | cons a as ih => rw [cons, ih, List.forall_mem_cons]

/-! ### JSON values -/

namespace Json

mutual

/-- The members of every object, at every depth, have distinct keys. -/
def Distinct : Json → Prop
  | null | bool _ | integer _ | decimal _ | string _ => True
  | array items => DistinctItems items
  | object members => (members.map Prod.fst).Nodup ∧ DistinctMembers members

/-- The keys are distinct within every item. -/
def DistinctItems : List Json → Prop
  | [] => True
  | j :: items => j.Distinct ∧ DistinctItems items

/-- The keys are distinct within the value of every member. -/
def DistinctMembers : List (String × Json) → Prop
  | [] => True
  | (_, j) :: members => j.Distinct ∧ DistinctMembers members

end

mutual

/-- Every number, at every depth, is a finite float, as those of a JSON text are. -/
def Finite : Json → Prop
  | null | bool _ | string _ => True
  | integer n => (Float.ofInt n).isFinite
  | decimal x => x.isFinite
  | array items => FiniteItems items
  | object members => FiniteMembers members

/-- Every item is finite. -/
def FiniteItems : List Json → Prop
  | [] => True
  | j :: items => j.Finite ∧ FiniteItems items

/-- The value of every member is finite. -/
def FiniteMembers : List (String × Json) → Prop
  | [] => True
  | (_, j) :: members => j.Finite ∧ FiniteMembers members

end

/-- There is a `null` in the value, at some depth. -/
inductive HasNull : Json → Prop
  | null : HasNull .null
  | item {items j} (member : j ∈ items) (within : HasNull j) : HasNull (.array items)
  | value {members key j} (member : (key, j) ∈ members) (within : HasNull j) :
      HasNull (.object members)

end Json

/-! ### Bags -/

namespace Params

/-- The keys of the entries ascend. -/
def Ascending (entries : Params) : Prop :=
  entries.Pairwise fun e f ↦ e.1 < f.1

/-- A bag holds just the given entries, in ascending order of their keys. -/
structure IsBagOf (entries : Params) (given : List (String × Param)) : Prop where
  ascending : entries.Ascending
  perm : entries.Perm given

private theorem insert_perm {key : String} {value : Param} {entries : Params}
    (new : key ∉ entries.map Prod.fst) :
    (entries.insert key value).Perm ((key, value) :: entries) := by
  induction entries with
  | nil => exact .refl _
  | cons entry rest ih =>
    obtain ⟨other, old⟩ := entry
    simp only [List.map_cons, List.mem_cons, not_or] at new
    simp only [insert]
    split
    · exact .refl _
    · rename_i same
      exact absurd (Std.LawfulEqCmp.eq_of_compare same) new.1
    · exact ((ih new.2).cons _).trans (.swap _ _ _)

private theorem isBagOf_foldl {bag : Params} {entries : List (String × Param)}
    (ascending : bag.Ascending) (distinct : ((bag ++ entries).map Prod.fst).Nodup) :
    IsBagOf (entries.foldl (fun bag (key, value) ↦ insert key value bag) bag) (bag ++ entries) := by
  induction entries generalizing bag with
  | nil =>
    rw [List.append_nil]
    exact ⟨ascending, .refl bag⟩
  | cons entry rest ih =>
    obtain ⟨key, value⟩ := entry
    have moved : (bag ++ (key, value) :: rest).Perm ((key, value) :: bag ++ rest) :=
      List.perm_middle
    have distinct := (moved.map Prod.fst).nodup distinct
    have new : key ∉ bag.map Prod.fst := fun member ↦
      (List.nodup_cons.1 distinct).1 (by simp [member])
    have inserted : (insert key value bag).Perm ((key, value) :: bag) := insert_perm new
    have held := ih (pairwise_insert key value ascending)
      (((inserted.append_right rest).map Prod.fst).symm.nodup distinct)
    exact ⟨held.ascending, (held.perm.trans (inserted.append_right rest)).trans moved.symm⟩

private theorem isBagOf_ofList {entries : List (String × Param)}
    (distinct : (entries.map Prod.fst).Nodup) : IsBagOf (ofList entries) entries :=
  isBagOf_foldl .nil distinct

/-- There is one bag of given entries. -/
theorem IsBagOf.unique {entries others : Params} {given : List (String × Param)}
    (first : entries.IsBagOf given) (second : others.IsBagOf given) : entries = others := by
  apply (first.perm.trans second.perm.symm).eq_of_pairwise ?_ first.ascending second.ascending
  intro e f _ _ less greater
  exact absurd (String.lt_trans less greater) (String.lt_irrefl _)

private theorem ofList_eq_iff {entries : Params} {given : List (String × Param)}
    (distinct : (given.map Prod.fst).Nodup) : ofList given = entries ↔ entries.IsBagOf given := by
  constructor
  · rintro rfl
    exact isBagOf_ofList distinct
  · exact (isBagOf_ofList distinct).unique

private theorem Ascending.nodup {entries : Params} (ascending : entries.Ascending) :
    (entries.map Prod.fst).Nodup := by
  apply List.pairwise_map.2
  apply ascending.imp
  intro e f less same
  exact String.lt_irrefl _ (same ▸ less)

end Params

namespace Param

/-! ### What a value stands for -/

mutual

/-- The parameter that a JSON value stands for. -/
inductive Depicts : Json → Param → Prop
  | bool (b : Bool) : Depicts (.bool b) (.bool b)
  | integer (n : Int) : Depicts (.integer n) (.number (Float.ofInt n))
  | decimal (x : Float) : Depicts (.decimal x) (.number x)
  | text (s : String) : Depicts (.string s) (.text s)
  | list {items ps} (each : DepictsItems items ps) : Depicts (.array items) (.list ps)
  | map {members given entries} (each : DepictsMembers members given)
      (bag : Params.IsBagOf entries given) : Depicts (.object members) (.map entries)

/-- Items stand for parameters one by one. -/
inductive DepictsItems : List Json → List Param → Prop
  | nil : DepictsItems [] []
  | cons {j items p ps} (here : Depicts j p) (later : DepictsItems items ps) :
      DepictsItems (j :: items) (p :: ps)

/-- Members stand for entries one by one. -/
inductive DepictsMembers : List (String × Json) → List (String × Param) → Prop
  | nil : DepictsMembers [] []
  | cons {key j members p entries} (here : Depicts j p) (later : DepictsMembers members entries) :
      DepictsMembers ((key, j) :: members) ((key, p) :: entries)

end

private theorem DepictsMembers.keys {members : List (String × Json)} {given : List (String × Param)}
    (each : DepictsMembers members given) : given.map Prod.fst = members.map Prod.fst := by
  match each with
  | .nil => rfl
  | .cons _ later => exact congrArg _ later.keys

/-! ### Reading -/

private theorem itemsOfJson?_eq_mapM (items : List Json) :
    itemsOfJson? items = items.mapM ofJson? := by
  induction items with
  | nil => rfl
  | cons j items ih =>
    rw [itemsOfJson?, ih, List.mapM_cons]
    cases ofJson? j <;> cases items.mapM ofJson? <;> rfl

private theorem entriesOfJson?_eq_mapM (members : List (String × Json)) : entriesOfJson? members =
    members.mapM fun (key, j) ↦ (ofJson? j).map fun p ↦ (key, p) := by
  induction members with
  | nil => rfl
  | cons member members ih =>
    obtain ⟨key, j⟩ := member
    rw [entriesOfJson?, ih, List.mapM_cons]
    dsimp only
    cases ofJson? j <;>
      cases members.mapM fun (key, j) ↦ (ofJson? j).map fun p ↦ (key, p) <;> rfl

/-- A value is read as if the kinds of parameters were tried in turn, each at every depth. -/
theorem ofJson?_eq_or (j : Json) : ofJson? j =
    (j.bool?.map bool).or ((j.float?.map number).or ((j.string?.map text).or
      (((j.list? ofJson?).map list).or
        ((j.members? ofJson?).map fun entries ↦ map (Params.ofList entries))))) := by
  cases j with
  | array items =>
    rw [ofJson?, itemsOfJson?_eq_mapM]
    exact (Option.or_none).symm
  | object members =>
    rw [ofJson?, entriesOfJson?_eq_mapM]
    rfl
  | _ => rfl

mutual

/-- A value is read as what it stands for. -/
theorem ofJson?_eq_some_iff : ∀ {j : Json} {p : Param}, j.Distinct →
    (ofJson? j = some p ↔ Depicts j p)
  | .null, p, _ => by
    constructor
    · intro read
      cases read
    · intro depicts
      cases depicts
  | .bool b, p, _ => by
    constructor
    · rintro ⟨⟩
      exact .bool b
    · rintro ⟨⟩
      rfl
  | .integer n, p, _ => by
    constructor
    · rintro ⟨⟩
      exact .integer n
    · rintro ⟨⟩
      rfl
  | .decimal x, p, _ => by
    constructor
    · rintro ⟨⟩
      exact .decimal x
    · rintro ⟨⟩
      rfl
  | .string s, p, _ => by
    constructor
    · rintro ⟨⟩
      exact .text s
    · rintro ⟨⟩
      rfl
  | .array items, p, distinct => by
    rw [ofJson?, Option.map_eq_some_iff]
    constructor
    · rintro ⟨ps, read, rfl⟩
      exact .list ((itemsOfJson?_eq_some_iff distinct).1 read)
    · intro depicts
      cases depicts with
      | list each => exact ⟨_, (itemsOfJson?_eq_some_iff distinct).2 each, rfl⟩
  | .object members, p, distinct => by
    rw [ofJson?, Option.map_eq_some_iff]
    constructor
    · rintro ⟨given, read, rfl⟩
      have each := (entriesOfJson?_eq_some_iff distinct.2).1 read
      exact .map each (Params.isBagOf_ofList (each.keys ▸ distinct.1))
    · intro depicts
      cases depicts with
      | map each bag =>
        refine ⟨_, (entriesOfJson?_eq_some_iff distinct.2).2 each, ?_⟩
        rw [(Params.ofList_eq_iff (each.keys ▸ distinct.1)).2 bag]

private theorem itemsOfJson?_eq_some_iff : ∀ {items : List Json}
    {ps : List Param}, Json.DistinctItems items →
    (itemsOfJson? items = some ps ↔ DepictsItems items ps)
  | [], ps, _ => by
    constructor
    · rintro ⟨⟩
      exact .nil
    · rintro ⟨⟩
      rfl
  | j :: items, ps, distinct => by
    rw [itemsOfJson?]
    constructor
    · intro read
      split at read
      · rename_i here later
        cases read
        exact .cons ((ofJson?_eq_some_iff distinct.1).1 here)
          ((itemsOfJson?_eq_some_iff distinct.2).1 later)
      · cases read
    · intro each
      cases each with
      | cons here later =>
        rw [(ofJson?_eq_some_iff distinct.1).2 here, (itemsOfJson?_eq_some_iff distinct.2).2 later]

private theorem entriesOfJson?_eq_some_iff : ∀ {members : List (String × Json)}
    {given : List (String × Param)}, Json.DistinctMembers members →
    (entriesOfJson? members = some given ↔ DepictsMembers members given)
  | [], given, _ => by
    constructor
    · rintro ⟨⟩
      exact .nil
    · rintro ⟨⟩
      rfl
  | (key, j) :: members, given, distinct => by
    rw [entriesOfJson?]
    constructor
    · intro read
      split at read
      · rename_i here later
        cases read
        exact .cons ((ofJson?_eq_some_iff distinct.1).1 here)
          ((entriesOfJson?_eq_some_iff distinct.2).1 later)
      · cases read
    · intro each
      cases each with
      | cons here later =>
        rw [(ofJson?_eq_some_iff distinct.1).2 here,
          (entriesOfJson?_eq_some_iff distinct.2).2 later]

end

mutual

/-- Just a value with a `null` in it is not read. -/
theorem ofJson?_eq_none_iff : ∀ {j : Json}, ofJson? j = none ↔ j.HasNull
  | .null => ⟨fun _ ↦ .null, fun _ ↦ rfl⟩
  | .bool b | .integer n | .decimal x | .string s => ⟨nofun, nofun⟩
  | .array items => by
    rw [ofJson?, Option.map_eq_none_iff, itemsOfJson?_eq_none_iff]
    constructor
    · rintro ⟨j, member, within⟩
      exact .item member within
    · intro within
      cases within with
      | item member within => exact ⟨_, member, within⟩
  | .object members => by
    rw [ofJson?, Option.map_eq_none_iff, entriesOfJson?_eq_none_iff]
    constructor
    · rintro ⟨⟨key, j⟩, member, within⟩
      exact .value member within
    · intro within
      cases within with
      | value member within => exact ⟨_, member, within⟩

private theorem itemsOfJson?_eq_none_iff : ∀ {items : List Json},
    itemsOfJson? items = none ↔ ∃ j ∈ items, j.HasNull
  | [] => by simp [itemsOfJson?]
  | j :: items => by
    simp only [List.mem_cons, exists_eq_or_imp]
    rw [← ofJson?_eq_none_iff, ← itemsOfJson?_eq_none_iff, itemsOfJson?]
    cases ofJson? j <;> cases itemsOfJson? items <;> simp

private theorem entriesOfJson?_eq_none_iff : ∀ {members : List (String × Json)},
    entriesOfJson? members = none ↔ ∃ m ∈ members, m.2.HasNull
  | [] => by simp [entriesOfJson?]
  | (key, j) :: members => by
    simp only [List.mem_cons, exists_eq_or_imp]
    rw [← ofJson?_eq_none_iff, ← entriesOfJson?_eq_none_iff, entriesOfJson?]
    cases ofJson? j <;> cases entriesOfJson? members <;> simp

end

/-! ### Writing -/

mutual

/-- A parameter is written as a value that stands for it. -/
theorem depicts_toJson : ∀ {p : Param}, p.WF → p.Finite → Depicts p.toJson p
  | .bool b, _, _ => .bool b
  | .number x, _, finite => by
    have written : (number x).toJson = .decimal x := if_pos finite
    rw [written]
    exact .decimal x
  | .text s, _, _ => .text s
  | .list _, wf, finite => .list (depictsItems_toJson wf finite)
  | .map entries, wf, finite => .map (depictsMembers_toJson wf.2 finite) ⟨wf.1, .refl entries⟩

private theorem depictsItems_toJson : ∀ {items : List Param}, WFItems items → FiniteItems items →
    DepictsItems (itemsToJson items) items
  | [], _, _ => .nil
  | _ :: _, wf, finite =>
    .cons (depicts_toJson wf.1 finite.1) (depictsItems_toJson wf.2 finite.2)

private theorem depictsMembers_toJson :
    ∀ {entries : Params}, WFEntries entries → FiniteEntries entries →
    DepictsMembers (entriesToJson entries) entries
  | [], _, _ => .nil
  | (_, _) :: _, wf, finite =>
    .cons (depicts_toJson wf.1 finite.1) (depictsMembers_toJson wf.2 finite.2)

end

private theorem keys_entriesToJson (entries : Params) :
    (entriesToJson entries).map Prod.fst = entries.map Prod.fst := by
  induction entries with
  | nil => rfl
  | cons entry rest ih => exact congrArg _ ih

mutual

/-- What a well-formed parameter is written as has distinct keys. -/
theorem distinct_toJson : ∀ {p : Param}, p.WF → p.toJson.Distinct
  | .bool _, _ | .text _, _ => trivial
  | .number x, _ => by
    rw [toJson, Json.ofFloat]
    split
    · exact trivial
    · exact trivial
  | .list _, wf => distinctItems_toJson wf
  | .map entries, wf =>
    ⟨keys_entriesToJson entries ▸ Params.Ascending.nodup wf.1, distinctMembers_toJson wf.2⟩

private theorem distinctItems_toJson : ∀ {items : List Param}, WFItems items →
    Json.DistinctItems (itemsToJson items)
  | [], _ => trivial
  | _ :: _, wf => ⟨distinct_toJson wf.1, distinctItems_toJson wf.2⟩

private theorem distinctMembers_toJson : ∀ {entries : Params}, WFEntries entries →
    Json.DistinctMembers (entriesToJson entries)
  | [], _ => trivial
  | (_, _) :: _, wf => ⟨distinct_toJson wf.1, distinctMembers_toJson wf.2⟩

end

/-! ### What is read -/

private theorem wfEntries_iff {entries : List (String × Param)} :
    WFEntries entries ↔ ∀ e ∈ entries, e.2.WF :=
  forall_mem_iff_of_cons trivial fun _ _ ↦ .rfl

private theorem finiteEntries_iff {entries : List (String × Param)} :
    FiniteEntries entries ↔ ∀ e ∈ entries, e.2.Finite :=
  forall_mem_iff_of_cons trivial fun _ _ ↦ .rfl

mutual

/-- The bags of what a value stands for are ordered. -/
theorem Depicts.wf : ∀ {j : Json} {p : Param}, Depicts j p → p.WF
  | _, _, .bool _ | _, _, .integer _ | _, _, .decimal _ | _, _, .text _ => trivial
  | _, _, .list each => each.wf
  | _, _, .map each bag =>
    ⟨bag.ascending, wfEntries_iff.2 fun e member ↦
      wfEntries_iff.1 each.wf e (bag.perm.mem_iff.1 member)⟩

private theorem DepictsItems.wf : ∀ {items : List Json} {ps : List Param}, DepictsItems items ps →
    WFItems ps
  | _, _, .nil => trivial
  | _, _, .cons here later => ⟨here.wf, later.wf⟩

private theorem DepictsMembers.wf : ∀ {members : List (String × Json)}
    {given : List (String × Param)},
    DepictsMembers members given → WFEntries given
  | _, _, .nil => trivial
  | _, _, .cons here later => ⟨here.wf, later.wf⟩

end

mutual

/-- What a value of finite numbers stands for has finite numbers. -/
theorem Depicts.finite : ∀ {j : Json} {p : Param}, Depicts j p → j.Finite → p.Finite
  | _, _, .bool _, _ | _, _, .text _, _ => trivial
  | _, _, .integer _, finite | _, _, .decimal _, finite => finite
  | _, _, .list each, finite => each.finite finite
  | _, _, .map each bag, finite =>
    finiteEntries_iff.2 fun e member ↦
      finiteEntries_iff.1 (each.finite finite) e (bag.perm.mem_iff.1 member)

private theorem DepictsItems.finite : ∀ {items : List Json}
    {ps : List Param}, DepictsItems items ps →
    Json.FiniteItems items → FiniteItems ps
  | _, _, .nil, _ => trivial
  | _, _, .cons here later, finite => ⟨here.finite finite.1, later.finite finite.2⟩

private theorem DepictsMembers.finite : ∀ {members : List (String × Json)}
    {given : List (String × Param)},
    DepictsMembers members given → Json.FiniteMembers members → FiniteEntries given
  | _, _, .nil, _ => trivial
  | _, _, .cons here later, finite => ⟨here.finite finite.1, later.finite finite.2⟩

end

/-! ### Equality -/

mutual

/-- A parameter of finite numbers equals itself. -/
private theorem same_self : ∀ {p : Param}, p.Finite → p.same p = true
  | .bool b, _ => by rw [same, beq_self_eq_true]
  | .number x, finite => Number.beq_self finite
  | .text s, _ => by rw [same, beq_self_eq_true]
  | .list _, finite => sameItems_self finite
  | .map _, finite => sameEntries_self finite

private theorem sameItems_self :
    ∀ {items : List Param}, FiniteItems items → sameItems items items = true
  | [], _ => rfl
  | _ :: _, finite => by rw [sameItems, same_self finite.1, sameItems_self finite.2, Bool.and_self]

/-- Entries of finite numbers equal themselves. -/
theorem sameEntries_self : ∀ {entries : Params}, FiniteEntries entries →
    sameEntries entries entries = true
  | [], _ => rfl
  | (_, _) :: _, finite => by
    rw [sameEntries, same_self finite.1, sameEntries_self finite.2, beq_self_eq_true,
      Bool.and_self, Bool.and_self]

end

end Param

end StoryEngine
