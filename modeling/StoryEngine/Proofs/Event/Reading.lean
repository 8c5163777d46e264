import Mathlib.Data.List.Forall2
import StoryEngine.Event.Basic
import StoryEngine.Proofs.Param.Reading

/-!
# How JSON is read as events

An object stands for an event whose fields are what its members say, and whose other fields have
their defaults; a condition or an action in it may be an array of the values of its first fields.
An object of distinct members is read just as what it stands for, and what is written is read back.
So definitions can be saved and loaded at will.

Specification: `SPEC_FULL.md` §3 (defaults) and §10.5 (event definitions).
-/

namespace StoryEngine

/-! ### Fields -/

namespace Json

variable {members : List (String × Json)} {key : String}

/-- An object has a member, whose value is as told. -/
def Has (members : List (String × Json)) (key : String) (told : Json → Prop) : Prop :=
  ∃ value, (key, value) ∈ members ∧ told value

/-- The value of a member is as told; without the member something else holds. -/
def HasOr (members : List (String × Json)) (key : String) (told : Json → Prop)
    (otherwise : Prop) : Prop :=
  (∀ value, (key, value) ∈ members → told value) ∧
    ((∀ value, (key, value) ∉ members) → otherwise)

private theorem distinctItems_iff {items : List Json} :
    DistinctItems items ↔ ∀ j ∈ items, j.Distinct :=
  forall_mem_iff_of_cons trivial fun _ _ ↦ .rfl

private theorem distinctMembers_iff : DistinctMembers members ↔ ∀ m ∈ members, m.2.Distinct :=
  forall_mem_iff_of_cons trivial fun _ _ ↦ .rfl

private theorem lookup_eq_some_iff (distinct : (members.map Prod.fst).Nodup) {value : Json} :
    members.lookup key = some value ↔ (key, value) ∈ members := by
  induction members with
  | nil => simp
  | cons member rest ih =>
    obtain ⟨other, first⟩ := member
    obtain ⟨new, distinct⟩ := List.nodup_cons.1 distinct
    rw [List.lookup_cons, List.mem_cons]
    by_cases same : key = other
    · subst same
      have absent : (key, value) ∉ rest := fun member ↦
        new (List.mem_map.2 ⟨(key, value), member, rfl⟩)
      simp [absent, eq_comm]
    · have other : (key == other) = false := beq_eq_false_iff_ne.2 same
      simp [other, same, ih distinct]

private theorem lookup_eq_none_iff :
    members.lookup key = none ↔ ∀ value, (key, value) ∉ members := by
  rw [List.lookup_eq_none_iff]
  constructor
  · intro different value member
    simpa using different (key, value) member
  · rintro absent ⟨other, value⟩ member
    rw [bne_iff_ne]
    rintro rfl
    exact absent value member

/-- What a reader makes of distinct values: `means` tells which value stands for what. -/
def Reads {α : Type} (read : Json → Option α) (means : Json → α → Prop) : Prop :=
  ∀ j, j.Distinct → ∀ a, read j = some a ↔ means j a

variable {α : Type} {read : Json → Option α} {means : Json → α → Prop} {a default : α}

private theorem field?_eq_some_iff (reads : Reads read means)
    (distinct : (object members).Distinct) :
    (object members).field? key read = some a ↔ Has members key (means · a) := by
  have values := distinctMembers_iff.1 distinct.2
  rw [field?, Option.bind_eq_some_iff]
  apply exists_congr
  intro value
  rw [lookup_eq_some_iff distinct.1]
  exact and_congr_right fun member ↦ reads value (values _ member) a

private theorem fieldOr?_eq_some_iff (reads : Reads read means)
    (distinct : (object members).Distinct) :
    (object members).fieldOr? key default read = some a ↔
      HasOr members key (means · a) (a = default) := by
  have values := distinctMembers_iff.1 distinct.2
  rw [fieldOr?, HasOr]
  cases found : members.lookup key with
  | none =>
    have absent := lookup_eq_none_iff.1 found
    simp [absent, eq_comm]
  | some value =>
    have member := (lookup_eq_some_iff distinct.1).1 found
    have only (other : Json) (there : (key, other) ∈ members) : other = value :=
      Option.some.inj (((lookup_eq_some_iff distinct.1).2 there).symm.trans found)
    dsimp only
    rw [reads value (values _ member) a]
    constructor
    · intro holds
      exact ⟨fun other there ↦ only other there ▸ holds, fun absent ↦ absurd member (absent value)⟩
    · exact fun holds ↦ holds.1 value member

/-- The number that a value is, in either form. -/
def IsNumber : Json → Float → Prop
  | integer n, x => x = Float.ofInt n
  | decimal y, x => x = y
  | _, _ => False

/-- An array of values that stand one by one for what is listed. -/
def Lists (means : Json → α → Prop) (j : Json) (as : List α) : Prop :=
  ∃ items, j = array items ∧ List.Forall₂ means items as

private theorem reads_string : Reads string? fun j s ↦ j = string s := by
  intro j _ s
  cases j <;> simp [string?]

private theorem reads_bool : Reads bool? fun j b ↦ j = bool b := by
  intro j _ b
  cases j <;> simp [bool?]

private theorem reads_float : Reads float? IsNumber := by
  intro j _ x
  cases j <;> simp [float?, IsNumber, eq_comm]

private theorem reads_int32 : Reads int32? fun j n ↦ j = integer n.toInt := by
  intro j _ n
  cases j with
  | integer m =>
    simp only [int32?, integer?, Option.map_eq_some_iff, Option.ite_none_right_eq_some,
      Option.some.injEq, integer.injEq]
    constructor
    · rintro ⟨_, ⟨⟨low, high⟩, rfl⟩, rfl⟩
      rw [Int32.toInt_minValue] at low
      rw [Int32.toInt_maxValue] at high
      exact (Int32.toInt_ofInt_of_le low (by omega)).symm
    · rintro rfl
      exact ⟨_, ⟨⟨n.minValue_le_toInt, n.toInt_le⟩, rfl⟩, n.ofInt_toInt⟩
  | _ => simp [int32?, integer?]

private theorem reads_list (reads : Reads read means) : Reads (list? read) (Lists means) := by
  intro j distinct as
  cases j with
  | array items =>
    have each : items.mapM read = some as ↔ List.Forall₂ means items as := by
      have distinct : DistinctItems items := distinct
      clear * - distinct reads
      induction items generalizing as with
      | nil => simp [List.mapM_nil, eq_comm]
      | cons j items ih =>
        have here := reads j distinct.1
        cases as with
        | nil => simp [List.mapM_cons, Option.bind_eq_some_iff]
        | cons a as => simp [List.mapM_cons, Option.bind_eq_some_iff, here, ih _ distinct.2]
    rw [list?, each]
    simp [Lists]
  | _ => simp [list?, Lists]

private theorem reads_params :
    Reads Param.paramsOfJson? fun j entries ↦ Param.Depicts j (.map entries) := by
  intro j distinct entries
  show _ ↔ Param.Depicts j (.map entries)
  rw [← Param.ofJson?_eq_some_iff distinct]
  cases j <;> simp [Param.paramsOfJson?, Param.ofJson?]

/-- A record that stands for something, as an object or as an array of the values of its first
fields. -/
def IsRecord (fields : List String) (depicts : List (String × Json) → α → Prop) (j : Json)
    (a : α) : Prop :=
  ∃ members, j.record fields = object members ∧ depicts members a

private theorem keys_zip (keys : List String) (items : List Json) :
    ((keys.zip items).map Prod.fst).Sublist keys := by
  induction keys generalizing items with
  | nil => exact .slnil
  | cons key keys ih =>
    cases items with
    | nil => exact List.nil_sublist _
    | cons j items => exact (ih items).cons_cons key

private theorem distinct_record {fields : List String} (different : fields.Nodup) {j : Json}
    (distinct : j.Distinct) : (j.record fields).Distinct := by
  cases j with
  | array items =>
    rw [record]
    split
    · refine ⟨(keys_zip fields items).nodup different, distinctMembers_iff.2 fun m member ↦ ?_⟩
      exact distinctItems_iff.1 distinct _ (List.of_mem_zip member).2
    · exact distinct
  | _ => exact distinct

end Json

/-! ### Conditions and actions -/

/-- The members of an object that stands for a condition. -/
structure Condition.Depicts (members : List (String × Json)) (c : Condition) : Prop where
  id : Json.HasOr members "id" (· = .string c.id) (c.id = "Expression")
  expression : Json.HasOr members "expression" (· = .string c.expression) (c.expression = "true")

/-- The members of an object that stands for an action. -/
structure Action.Depicts (members : List (String × Json)) (a : Action) : Prop where
  id : Json.Has members "id" (· = .string a.id)
  params : Json.HasOr members "params" (Param.Depicts · (.map a.params)) (a.params = [])

/-- The members of an object that stands for an event. -/
structure Event.Depicts (members : List (String × Json)) (e : Event) : Prop where
  id : Json.Has members "id" (· = .string e.id)
  trigger : Json.HasOr members "trigger" (· = .string e.trigger) (e.trigger = "Manual")
  actions : Json.HasOr members "actions"
    (Json.Lists (Json.IsRecord Action.fields Action.Depicts) · e.actions) (e.actions = [])
  conditions : Json.HasOr members "conditions"
    (Json.Lists (Json.IsRecord Condition.fields Condition.Depicts) · e.conditions)
    (e.conditions = [])
  probability : Json.HasOr members "probability" (·.IsNumber e.probability) (e.probability = 1)
  once : Json.HasOr members "once" (· = .bool e.once) (e.once = false)
  priority : Json.HasOr members "priority" (· = .integer e.priority.toInt) (e.priority = 0)
  exclusions : Json.HasOr members "exclusions"
    (Json.Lists (fun j id ↦ j = .string id) · e.exclusions) (e.exclusions = [])
  enabled : Json.HasOr members "enabled" (· = .bool e.enabled) (e.enabled = true)

namespace Condition

private theorem reads : Json.Reads ofJson? (Json.IsRecord fields Depicts) := by
  intro j distinct c
  have distinct := Json.distinct_record (by decide : fields.Nodup) distinct
  unfold ofJson? Json.IsRecord
  generalize j.record fields = record at distinct ⊢
  cases record with
  | object members =>
    show ofJson? (.object members) = some c ↔ _
    have each : ofJson? (.object members) = some c ↔
        (Json.object members).fieldOr? "id" "Expression" Json.string? = some c.id ∧
        (Json.object members).fieldOr? "expression" "true" Json.string? = some c.expression := by
      obtain ⟨id, expression⟩ := c
      simp [ofJson?, Json.record, Option.bind_eq_some_iff]
    rw [each, Json.fieldOr?_eq_some_iff Json.reads_string distinct,
      Json.fieldOr?_eq_some_iff Json.reads_string distinct]
    constructor
    · rintro ⟨id, expression⟩
      exact ⟨members, rfl, id, expression⟩
    · rintro ⟨_, ⟨⟩, depicts⟩
      exact ⟨depicts.id, depicts.expression⟩
  | _ => simp [Json.fieldOr?]

end Condition

namespace Action

private theorem reads : Json.Reads ofJson? (Json.IsRecord fields Depicts) := by
  intro j distinct a
  have distinct := Json.distinct_record (by decide : fields.Nodup) distinct
  unfold ofJson? Json.IsRecord
  generalize j.record fields = record at distinct ⊢
  cases record with
  | object members =>
    show ofJson? (.object members) = some a ↔ _
    have each : ofJson? (.object members) = some a ↔
        (Json.object members).field? "id" Json.string? = some a.id ∧
        (Json.object members).fieldOr? "params" [] Param.paramsOfJson? = some a.params := by
      obtain ⟨id, params⟩ := a
      simp [ofJson?, Json.record, Option.bind_eq_some_iff]
    rw [each, Json.field?_eq_some_iff Json.reads_string distinct,
      Json.fieldOr?_eq_some_iff Json.reads_params distinct]
    constructor
    · rintro ⟨id, params⟩
      exact ⟨members, rfl, id, params⟩
    · rintro ⟨_, ⟨⟩, depicts⟩
      exact ⟨depicts.id, depicts.params⟩
  | _ => simp [Json.field?]

end Action

namespace Event

private theorem ofJson?_object {members : List (String × Json)} {e : Event} :
    ofJson? (.object members) = some e ↔
      (Json.object members).field? "id" Json.string? = some e.id ∧
      (Json.object members).fieldOr? "trigger" "Manual" Json.string? = some e.trigger ∧
      (Json.object members).fieldOr? "actions" [] (Json.list? Action.ofJson?) = some e.actions ∧
      (Json.object members).fieldOr? "conditions" [] (Json.list? Condition.ofJson?) =
        some e.conditions ∧
      (Json.object members).fieldOr? "probability" 1 Json.float? = some e.probability ∧
      (Json.object members).fieldOr? "once" false Json.bool? = some e.once ∧
      (Json.object members).fieldOr? "priority" 0 Json.int32? = some e.priority ∧
      (Json.object members).fieldOr? "exclusions" [] (Json.list? Json.string?) =
        some e.exclusions ∧
      (Json.object members).fieldOr? "enabled" true Json.bool? = some e.enabled := by
  simp only [ofJson?, Json.record, bind, Option.bind_eq_some_iff, pure, Option.some.injEq]
  constructor
  · rintro ⟨_, id, _, trigger, _, actions, _, conditions, _, probability, _, once, _, priority,
      _, exclusions, _, enabled, rfl⟩
    exact ⟨id, trigger, actions, conditions, probability, once, priority, exclusions, enabled⟩
  · rintro ⟨id, trigger, actions, conditions, probability, once, priority, exclusions, enabled⟩
    exact ⟨_, id, _, trigger, _, actions, _, conditions, _, probability, _, once, _, priority,
      _, exclusions, _, enabled, rfl⟩

private theorem reads : Json.Reads ofJson? (Json.IsRecord fields Depicts) := by
  intro j distinct e
  have distinct := Json.distinct_record (by decide : fields.Nodup) distinct
  unfold ofJson? Json.IsRecord
  generalize j.record fields = record at distinct ⊢
  cases record with
  | object members =>
    show ofJson? (.object members) = some e ↔ _
    rw [ofJson?_object, Json.field?_eq_some_iff Json.reads_string distinct,
      Json.fieldOr?_eq_some_iff Json.reads_string distinct,
      Json.fieldOr?_eq_some_iff (Json.reads_list Action.reads) distinct,
      Json.fieldOr?_eq_some_iff (Json.reads_list Condition.reads) distinct,
      Json.fieldOr?_eq_some_iff Json.reads_float distinct,
      Json.fieldOr?_eq_some_iff Json.reads_bool distinct,
      Json.fieldOr?_eq_some_iff Json.reads_int32 distinct,
      Json.fieldOr?_eq_some_iff (Json.reads_list Json.reads_string) distinct,
      Json.fieldOr?_eq_some_iff Json.reads_bool distinct]
    constructor
    · rintro ⟨id, trigger, actions, conditions, probability, once, priority, exclusions, enabled⟩
      exact ⟨members, rfl, id, trigger, actions, conditions, probability, once, priority,
        exclusions, enabled⟩
    · rintro ⟨_, ⟨⟩, depicts⟩
      exact ⟨depicts.id, depicts.trigger, depicts.actions, depicts.conditions,
        depicts.probability, depicts.once, depicts.priority, depicts.exclusions, depicts.enabled⟩
  | _ => simp [Json.field?]

end Event

/-! ### Writing -/

namespace Json

variable {members : List (String × Json)} {α : Type} {means : Json → α → Prop} {write : α → Json}

private theorem HasOr.of_mem (distinct : (members.map Prod.fst).Nodup) {key : String} (value : Json)
    {told : Json → Prop} {otherwise : Prop} (member : (key, value) ∈ members)
    (holds : told value) : HasOr members key told otherwise := by
  constructor
  · intro other there
    have found := (lookup_eq_some_iff distinct).2 member
    rw [(lookup_eq_some_iff distinct).2 there] at found
    cases found
    exact holds
  · exact fun absent ↦ absurd member (absent value)

private theorem HasOr.of_mem_eq (distinct : (members.map Prod.fst).Nodup) {key : String}
    {value : Json}
    {otherwise : Prop} (member : (key, value) ∈ members) :
    HasOr members key (· = value) otherwise :=
  .of_mem distinct value member rfl

private theorem lists_map {as : List α} (each : ∀ a ∈ as, means (write a) a) :
    Lists means (array (as.map write)) as := by
  refine ⟨_, rfl, ?_⟩
  rw [List.forall₂_map_left_iff, List.forall₂_same]
  exact each

private theorem distinct_array_map {as : List α} (each : ∀ a ∈ as, (write a).Distinct) :
    (array (as.map write)).Distinct :=
  distinctItems_iff.2 (List.forall_mem_map.2 each)

private theorem distinct_ofFloat (x : Float) : (ofFloat x).Distinct := by
  rw [ofFloat]
  split
  · trivial
  · trivial

end Json

namespace Condition

private theorem distinct_toJson (c : Condition) : c.toJson.Distinct :=
  ⟨by simp, trivial, trivial, trivial⟩

private theorem depicts_toJson (c : Condition) : Json.IsRecord fields Depicts c.toJson c :=
  ⟨_, rfl, .of_mem_eq c.distinct_toJson.1 (by simp),
    .of_mem_eq c.distinct_toJson.1 (by simp)⟩

end Condition

namespace Action

/-- The bags of an action are ordered. -/
def WF (a : Action) : Prop :=
  (Param.map a.params).WF

/-- The numbers in the bags of an action are finite. -/
def Finite (a : Action) : Prop :=
  (Param.map a.params).Finite

variable {a : Action}

private theorem distinct_toJson (wf : a.WF) : a.toJson.Distinct :=
  ⟨by simp, trivial, Param.distinct_toJson wf, trivial⟩

private theorem depicts_toJson (wf : a.WF) (finite : a.Finite) :
    Json.IsRecord fields Depicts a.toJson a :=
  ⟨_, rfl, ⟨.string a.id, by simp, rfl⟩,
    .of_mem (distinct_toJson wf).1 (Param.map a.params).toJson
      (by simp [Param.toJson, Param.paramsToJson]) (Param.depicts_toJson wf finite)⟩

end Action

namespace Event

/-- The bags of an event are ordered. -/
def WF (e : Event) : Prop :=
  ∀ a ∈ e.actions, a.WF

/-- The probability of an event is finite, and so are the numbers in its bags. -/
structure Finite (e : Event) : Prop where
  probability : e.probability.isFinite
  actions : ∀ a ∈ e.actions, a.Finite

variable {e : Event}

private theorem distinct_toJson (wf : e.WF) : e.toJson.Distinct :=
  ⟨by simp, trivial, trivial,
    Json.distinct_array_map fun _ member ↦ Action.distinct_toJson (wf _ member),
    Json.distinct_array_map fun c _ ↦ c.distinct_toJson, Json.distinct_ofFloat e.probability,
    trivial, trivial, Json.distinct_array_map fun _ _ ↦ trivial, trivial, trivial⟩

private theorem depicts_toJson (wf : e.WF) (finite : e.Finite) :
    Json.IsRecord fields Depicts e.toJson e := by
  have distinct := (distinct_toJson wf).1
  refine ⟨_, rfl, ?_⟩
  constructor
  case id => exact ⟨.string e.id, by simp, rfl⟩
  case trigger => exact .of_mem_eq distinct (by simp)
  case actions =>
    apply Json.HasOr.of_mem distinct (.array (e.actions.map Action.toJson)) (by simp)
    apply Json.lists_map
    exact fun a member ↦ Action.depicts_toJson (wf a member) (finite.actions a member)
  case conditions =>
    apply Json.HasOr.of_mem distinct (.array (e.conditions.map Condition.toJson)) (by simp)
    exact Json.lists_map fun c _ ↦ c.depicts_toJson
  case probability =>
    apply Json.HasOr.of_mem distinct (.decimal e.probability)
    · simp [Json.ofFloat, finite.probability]
    · rfl
  case once => exact .of_mem_eq distinct (by simp)
  case priority => exact .of_mem_eq distinct (by simp)
  case exclusions =>
    apply Json.HasOr.of_mem distinct (.array (e.exclusions.map Json.string)) (by simp)
    exact Json.lists_map fun _ _ ↦ rfl
  case enabled => exact .of_mem_eq distinct (by simp)

/-- What is written is read back. -/
theorem ofJson?_toJson (wf : e.WF) (finite : e.Finite) : ofJson? e.toJson = some e :=
  (reads _ (distinct_toJson wf) e).2 (depicts_toJson wf finite)

end Event

/-! ### What is read -/

namespace Json

variable {members : List (String × Json)} {key : String}

private theorem HasOr.cases {told : Json → Prop} {otherwise : Prop}
    (holds : HasOr members key told otherwise) : Has members key told ∨ otherwise := by
  by_cases present : ∃ value, (key, value) ∈ members
  · obtain ⟨value, member⟩ := present
    exact .inl ⟨value, member, holds.1 value member⟩
  · exact .inr (holds.2 (not_exists.1 present))

private theorem exists_of_forall₂ {α β : Type} {means : α → β → Prop} {as : List α} {bs : List β}
    (each : List.Forall₂ means as bs) {b : β} (member : b ∈ bs) : ∃ a ∈ as, means a b := by
  induction each with
  | nil => cases member
  | @cons first here rest others depicts _ ih =>
    rcases List.mem_cons.1 member with rfl | later
    · exact ⟨first, List.mem_cons_self, depicts⟩
    · obtain ⟨a, there, depicts⟩ := ih later
      exact ⟨a, List.mem_cons_of_mem first there, depicts⟩

private theorem finiteItems_iff {items : List Json} : FiniteItems items ↔ ∀ j ∈ items, j.Finite :=
  forall_mem_iff_of_cons trivial fun _ _ ↦ .rfl

private theorem finiteMembers_iff : FiniteMembers members ↔ ∀ m ∈ members, m.2.Finite :=
  forall_mem_iff_of_cons trivial fun _ _ ↦ .rfl

private theorem finite_record (fields : List String) {j : Json} (finite : j.Finite) :
    (j.record fields).Finite := by
  cases j with
  | array items =>
    rw [record]
    split
    · exact finiteMembers_iff.2 fun m member ↦ finiteItems_iff.1 finite _ (List.of_mem_zip member).2
    · exact finite
  | _ => exact finite

private theorem IsNumber.finite {j : Json} {x : Float} (is : j.IsNumber x) (finite : j.Finite) :
    x.isFinite = true := by
  cases j with
  | integer n =>
    cases is
    exact finite
  | decimal y =>
    cases is
    exact finite
  | _ => exact is.elim

end Json

namespace Action

variable {members : List (String × Json)} {a : Action}

private theorem Depicts.wf (depicts : Depicts members a) : a.WF := by
  rcases depicts.params.cases with ⟨value, _, params⟩ | none
  · exact params.wf
  · rw [WF, none]
    exact ⟨.nil, trivial⟩

private theorem Depicts.finite (depicts : Depicts members a)
    (finite : (Json.object members).Finite) :
    a.Finite := by
  rcases depicts.params.cases with ⟨value, member, params⟩ | none
  · exact params.finite (Json.finiteMembers_iff.1 finite _ member)
  · rw [Finite, none]
    exact trivial

end Action

namespace Event

variable {members : List (String × Json)} {e : Event}

/-- Every action of an event is depicted by an item of the array of actions. -/
theorem Depicts.action (depicts : Depicts members e) {a : Action} (member : a ∈ e.actions) :
    ∃ items, ("actions", .array items) ∈ members ∧
      ∃ j ∈ items, Json.IsRecord Action.fields Action.Depicts j a := by
  rcases depicts.actions.cases with ⟨_, there, items, rfl, each⟩ | none
  · exact ⟨items, there, Json.exists_of_forall₂ each member⟩
  · rw [none] at member
    cases member

/-- The bags of an event that is read are ordered. -/
theorem Depicts.wf (depicts : Depicts members e) : e.WF := by
  intro a member
  obtain ⟨items, -, j, -, fields, -, action⟩ := depicts.action member
  exact action.wf

private theorem Depicts.finite (depicts : Depicts members e)
    (finite : (Json.object members).Finite) :
    e.Finite := by
  have values := Json.finiteMembers_iff.1 finite
  constructor
  · rcases depicts.probability.cases with ⟨value, member, number⟩ | one
    · exact number.finite (values _ member)
    · rw [one]
      decide +kernel
  · intro a member
    obtain ⟨items, there, j, item, fields, record, action⟩ := depicts.action member
    have values : j.Finite := Json.finiteItems_iff.1 (values _ there) _ item
    exact action.finite (record ▸ Json.finite_record Action.fields values)

/-- Somewhere within the parameters of an action there is a `null`. -/
def NullWithin (members : List (String × Json)) : Prop :=
  ∃ items, ("actions", .array items) ∈ members ∧ ∃ j ∈ items, ∃ fields params,
    j.record Action.fields = .object fields ∧ ("params", params) ∈ fields ∧ params.HasNull

private theorem ofJson?_of_null (distinct : (Json.object members).Distinct)
    (null : NullWithin members) :
    ofJson? (.object members) = none := by
  obtain ⟨items, there, j, item, fields, params, record, member, within⟩ := null
  apply Option.eq_none_iff_forall_ne_some.2
  intro e read
  obtain ⟨_, ⟨⟩, depicts⟩ := (reads _ distinct e).1 read
  obtain ⟨_, ⟨⟩, each⟩ := depicts.actions.1 _ there
  obtain ⟨a, -, _, same, action⟩ := Json.exists_of_forall₂ each.flip item
  obtain rfl := Json.object.inj (record.symm.trans same)
  have inner : params.Distinct := by
    have outer : j.Distinct :=
      Json.distinctItems_iff.1 (Json.distinctMembers_iff.1 distinct.2 _ there) _ item
    have outer : (Json.object fields).Distinct :=
      record ▸ Json.distinct_record (by decide) outer
    exact Json.distinctMembers_iff.1 outer.2 _ member
  have some := (Param.ofJson?_eq_some_iff inner).2 (action.params.1 _ member)
  rw [Param.ofJson?_eq_none_iff.2 within] at some
  cases some

/-! ### Equality -/

private theorem sameActions_self {actions : List Action} (finite : ∀ a ∈ actions, a.Finite) :
    same.sameActions actions actions = true := by
  induction actions with
  | nil => rfl
  | cons a actions ih =>
    obtain ⟨here, later⟩ := List.forall_mem_cons.1 finite
    rw [same.sameActions, ih later, Action.same, Param.sameEntries_self here, beq_self_eq_true,
      Bool.and_self, Bool.and_self]

/-- An event of finite numbers equals itself. -/
theorem same_self (finite : e.Finite) : e.same e = true := by
  simp only [same, beq_self_eq_true, sameActions_self finite.actions,
    Number.beq_self finite.probability, Bool.and_self]

private theorem readsBack_eq (wf : e.WF) (finite : e.Finite) : e.readsBack = true := by
  rw [readsBack, ofJson?_toJson wf finite]
  exact same_self finite

/-- An event that survives being written and read. -/
structure Survives (e : Event) : Prop where
  /-- It is read again from what it is written as. -/
  ofJson?_toJson : ofJson? e.toJson = some e
  /-- It equals what is read. -/
  readsBack : e.readsBack = true

private theorem survives (wf : e.WF) (finite : e.Finite) : e.Survives :=
  ⟨ofJson?_toJson wf finite, readsBack_eq wf finite⟩

/-- How an object is read as an event. -/
structure ReadsAsDepicted (members : List (String × Json)) : Prop where
  /-- It is read just as the event that it stands for, in which every field that is there is as
  given and every other has its default. -/
  reads_iff : ∀ e, ofJson? (.object members) = some e ↔ Depicts members e
  /-- A `null` within a parameter is an error. -/
  null_refused : NullWithin members → ofJson? (.object members) = none
  /-- An event that was read is written and read again as it is. -/
  survives : (Json.object members).Finite → ∀ e, ofJson? (.object members) = some e → e.Survives

/-- With only the fields that must be there, what is read is as it is made new. -/
structure ReadsDefaults (id trigger expression : String) : Prop where
  event : ofJson? (.object [("id", .string id), ("trigger", .string trigger)]) =
    some { id, trigger }
  condition : Condition.ofJson? (.object [("expression", .string expression)]) =
    some { expression }
  action : Action.ofJson? (.object [("id", .string id)]) = some { id }

/-- Events of finite numbers survive being written and read. Objects are read as the events that
they stand for, with the defaults of what is made new. -/
theorem json_faithful :
    (∀ e : Event, e.WF → e.Finite → e.Survives) ∧
    (∀ members : List (String × Json), (Json.object members).Distinct → ReadsAsDepicted members) ∧
    ∀ id trigger expression, ReadsDefaults id trigger expression := by
  refine ⟨fun e ↦ survives, fun members distinct ↦ ?_, fun id trigger expression ↦ ⟨rfl, rfl, rfl⟩⟩
  refine ⟨fun e ↦ ?_, ofJson?_of_null distinct, fun finite e read ↦ ?_⟩
  · rw [reads _ distinct e]
    constructor
    · rintro ⟨_, ⟨⟩, depicts⟩
      exact depicts
    · exact fun depicts ↦ ⟨members, rfl, depicts⟩
  · obtain ⟨_, ⟨⟩, depicts⟩ := (reads _ distinct e).1 read
    exact survives depicts.wf (depicts.finite finite)

/-- The members of a storm come in any order, those that stand at their defaults are left out, and
one is unknown; its condition is an array. With a `null` for the hours the storm is not read. -/
theorem json_faithful_storm :
    let members (hours : Json) : List (String × Json) :=
      [("note", .null), ("probability", .decimal 0.25), ("id", .string "storm"),
        ("conditions", .array [.array [.string "wind", .string "wind > 3"]]),
        ("actions", .array [.object [("id", .string "rain"), ("params", .object [("hours", hours),
          ("deep", .array [.object [("b", .string "1"), ("a", .bool false)]])])]])]
    let storm : Event :=
      { id := "storm"
        actions := [{
          id := "rain"
          params := [("deep", .list [.map [("a", .bool false), ("b", .text "1")]]),
            ("hours", .number (Float.ofInt 6))] }]
        conditions := [{ id := "wind", expression := "wind > 3" }]
        probability := 0.25 }
    storm.WF ∧ storm.Finite ∧ ofJson? storm.toJson = some storm ∧ storm.readsBack = true ∧
      (∀ hours, hours.Distinct → (Json.object (members hours)).Distinct) ∧
      (Json.object (members (.integer 6))).Finite ∧
      ofJson? (.object (members (.integer 6))) = some storm ∧
      Depicts (members (.integer 6)) storm ∧
      NullWithin (members .null) ∧ ofJson? (.object (members .null)) = none := by
  intro members storm
  have read : ofJson? (.object (members (.integer 6))) = some storm := rfl
  have distinct (hours : Json) (within : hours.Distinct) :
      (Json.object (members hours)).Distinct := by
    simp [members, Json.Distinct, Json.DistinctMembers, Json.DistinctItems, within]
  have finite : (Json.object (members (.integer 6))).Finite := by
    have quarter : (0.25 : Float).isFinite = true := by decide +kernel
    have six : (Float.ofInt 6).isFinite = true := by decide +kernel
    simp [members, Json.Finite, Json.FiniteMembers, Json.FiniteItems, quarter, six]
  have null : NullWithin (members .null) :=
    ⟨_, .tail _ (.tail _ (.tail _ (.tail _ (.head _)))), _, .head _, _, _, rfl, .tail _ (.head _),
      .value (.head _) .null⟩
  obtain ⟨written, given, -⟩ := json_faithful
  have refused := (given (members .null) (distinct _ trivial)).null_refused null
  have depicts := ((given (members (.integer 6)) (distinct _ trivial)).reads_iff storm).1 read
  have wf : storm.WF := depicts.wf
  have numbers : storm.Finite := depicts.finite finite
  have survives := written storm wf numbers
  exact ⟨wf, numbers, survives.ofJson?_toJson, survives.readsBack, distinct, finite, read, depicts,
    null, refused⟩

end Event

end StoryEngine
