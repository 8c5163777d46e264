import StoryEngine.Number.Basic
import StoryEngine.Text.Order

/-!
# Parameters

The values that actions carry: truth values, numbers, texts, lists, and bags of named values. A
bag is a list of entries in ascending order of their keys. `Params.pairwise_insert` shows that
putting a value at a key keeps that order, and `Param.WF` says that it holds at every depth.

Specification: `SPEC_FULL.md` §9 (open-ended action parameter bag).
-/

namespace StoryEngine

/-- The value of an action parameter. -/
inductive Param where
  | bool (b : Bool)
  | number (x : Float)
  | text (s : String)
  | list (items : List Param)
  | map (entries : List (String × Param))

/-- A bag of parameters: entries in ascending order of their keys. -/
abbrev Params := List (String × Param)

namespace Params

/-- The value of a key. -/
def find? (entries : Params) (key : String) : Option Param :=
  entries.lookup key

/-- Puts a value at a key, in place of the value that was there. -/
def insert (key : String) (value : Param) : Params → Params
  | [] => [(key, value)]
  | (other, old) :: rest =>
      match compare key other with
      | .lt => (key, value) :: (other, old) :: rest
      | .eq => (key, value) :: rest
      | .gt => (other, old) :: insert key value rest

/-- The bag with the given entries; of several for one key the last counts. -/
def ofList (entries : List (String × Param)) : Params :=
  entries.foldl (fun bag (key, value) ↦ insert key value bag) []

/-- After a value is put at a key, the key has that value and all others are as before. -/
theorem find?_insert (key other : String) (value : Param) (entries : Params) :
    (entries.insert key value).find? other =
      if other = key then some value else entries.find? other := by
  have cons (k : String) (p : Param) (rest : Params) :
      find? ((k, p) :: rest) other = if other = k then some p else rest.find? other := by
    by_cases same : other = k <;> simp [find?, List.lookup_cons, same, beq_false_of_ne]
  induction entries with
  | nil => simp [insert, cons]
  | cons entry rest ih =>
    obtain ⟨k, p⟩ := entry
    simp only [insert]
    split
    · simp only [cons]
    · rename_i same
      obtain rfl := Std.LawfulEqCmp.eq_of_compare same
      simp only [cons]
      split <;> rfl
    · rename_i greater
      have : key ≠ k := by
        rintro rfl
        simp at greater
      rw [cons, cons, ih]
      by_cases atKey : other = k
      · simp [atKey, this.symm]
      · simp [atKey]

/-- Putting a value at a key adds that entry and no other. -/
theorem mem_of_mem_insert {key : String} {value : Param} {entries : Params}
    {entry : String × Param} (h : entry ∈ entries.insert key value) :
    entry = (key, value) ∨ entry ∈ entries := by
  induction entries with
  | nil => exact .inl (List.mem_singleton.1 h)
  | cons other rest ih =>
    simp only [insert] at h
    split at h <;> grind

/-- Putting a value at a key keeps the keys in ascending order. -/
theorem pairwise_insert (key : String) (value : Param) {entries : Params}
    (h : entries.Pairwise fun e f ↦ e.1 < f.1) :
    (entries.insert key value).Pairwise fun e f ↦ e.1 < f.1 := by
  induction entries with
  | nil => exact List.pairwise_singleton _ _
  | cons entry rest ih =>
    obtain ⟨first, later⟩ := List.pairwise_cons.1 h
    simp only [insert]
    split
    · rename_i less
      have less := Text.compare_eq_lt.1 less
      refine List.pairwise_cons.2 ⟨fun e he ↦ ?_, h⟩
      rcases List.mem_cons.1 he with rfl | he
      · exact less
      · exact String.lt_trans less (first e he)
    · rename_i same
      obtain rfl := Std.LawfulEqCmp.eq_of_compare same
      exact List.pairwise_cons.2 ⟨first, later⟩
    · rename_i greater
      refine List.pairwise_cons.2 ⟨fun e he ↦ ?_, ih later⟩
      rcases mem_of_mem_insert he with rfl | he
      · exact Text.compare_eq_gt.1 greater
      · exact first e he

end Params

namespace Param

/-- The number of a number. -/
def number? : Param → Option Float
  | number x => some x
  | _ => none

/-- The truth value of a truth value. -/
def bool? : Param → Option Bool
  | bool b => some b
  | _ => none

/-- The text of a text. -/
def text? : Param → Option String
  | text s => some s
  | _ => none

/-- The items of a list. -/
def list? : Param → Option (List Param)
  | list items => some items
  | _ => none

/-- The entries of a bag. -/
def map? : Param → Option Params
  | map entries => some entries
  | _ => none

/-- The value of a key of a bag. -/
def get? (p : Param) (key : String) : Option Param :=
  p.map?.bind (Params.find? · key)

/-- The parameter for a 64-bit integer: the nearest number. -/
def ofInt64 (n : Int64) : Param :=
  number (Number.ofInt64 n)

/-- The parameter for a 32-bit integer: its number. -/
def ofInt32 (n : Int32) : Param :=
  number (Float.ofInt n.toInt)

mutual

/-- Equality of parameters, numbers being compared as numbers. -/
def same : Param → Param → Bool
  | bool a, bool b => a == b
  | number x, number y => x == y
  | text s, text t => s == t
  | list items, list others => sameItems items others
  | map entries, map others => sameEntries entries others
  | _, _ => false

/-- Equality of lists, item by item. -/
def sameItems : List Param → List Param → Bool
  | [], [] => true
  | p :: items, q :: others => p.same q && sameItems items others
  | _, _ => false

/-- Equality of bags, entry by entry. -/
def sameEntries : List (String × Param) → List (String × Param) → Bool
  | [], [] => true
  | (key, p) :: entries, (other, q) :: others =>
      key == other && p.same q && sameEntries entries others
  | _, _ => false

end

mutual

/-- How many lists and bags are nested in one another. -/
def depth : Param → Nat
  | bool _ | number _ | text _ => 0
  | list items => depthItems items + 1
  | map entries => depthEntries entries + 1

/-- The greatest depth of an item. -/
def depthItems : List Param → Nat
  | [] => 0
  | p :: items => max p.depth (depthItems items)

/-- The greatest depth of an entry. -/
def depthEntries : List (String × Param) → Nat
  | [] => 0
  | (_, p) :: entries => max p.depth (depthEntries entries)

end

/-- No item of a list is deeper than its items together. -/
theorem depth_le_depthItems {p : Param} {items : List Param} (h : p ∈ items) :
    p.depth ≤ depthItems items := by
  induction items with
  | nil => simp at h
  | cons q items ih =>
    rcases List.mem_cons.1 h with rfl | h
    · simp only [depthItems]
      omega
    · have := ih h
      simp only [depthItems]
      omega

/-- No value of a bag is deeper than its entries together. -/
theorem depth_le_depthEntries {p : Param} {entries : Params} {key : String}
    (h : entries.find? key = some p) : p.depth ≤ depthEntries entries := by
  induction entries with
  | nil => simp [Params.find?] at h
  | cons entry entries ih =>
    obtain ⟨other, q⟩ := entry
    simp only [Params.find?, List.lookup_cons] at h
    simp only [depthEntries]
    split at h
    · obtain rfl := Option.some.inj h
      omega
    · have := ih h
      omega

mutual

/-- Every bag, at every depth, has its entries in strictly ascending order of their keys. -/
def WF : Param → Prop
  | bool _ | number _ | text _ => True
  | list items => WFItems items
  | map entries => entries.Pairwise (fun e f ↦ e.1 < f.1) ∧ WFEntries entries

/-- Every item is well-formed. -/
def WFItems : List Param → Prop
  | [] => True
  | p :: items => p.WF ∧ WFItems items

/-- Every entry is well-formed. -/
def WFEntries : List (String × Param) → Prop
  | [] => True
  | (_, p) :: entries => p.WF ∧ WFEntries entries

end

mutual

/-- Every number, at every depth, is finite. -/
def Finite : Param → Prop
  | number x => x.isFinite
  | bool _ | text _ => True
  | list items => FiniteItems items
  | map entries => FiniteEntries entries

/-- Every item is finite. -/
def FiniteItems : List Param → Prop
  | [] => True
  | p :: items => p.Finite ∧ FiniteItems items

/-- Every entry is finite. -/
def FiniteEntries : List (String × Param) → Prop
  | [] => True
  | (_, p) :: entries => p.Finite ∧ FiniteEntries entries

end

end Param

end StoryEngine
