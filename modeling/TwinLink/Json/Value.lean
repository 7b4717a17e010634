import TwinLink.Decimal.Shortest

/-! JSON values. The members of an object keep the order in which their names first came,
and a name that comes again replaces the value at its first place. Numbers without a
fraction and an exponent stay whole as far as 64 bits reach; all others are doubles. -/

namespace TwinLink.Json

open Decimal (Double)

inductive Number where
  | integer (n : Int)
  | float (x : Double)
  deriving DecidableEq, Repr

inductive Value where
  | null
  | bool (b : Bool)
  | number (n : Number)
  | string (s : String)
  | array (items : List Value)
  | object (members : List (String × Value))
  deriving Repr

/-- The members of an object. -/
abbrev Members := List (String × Value)

namespace Members

/-- The value under the name `name`. -/
def find? (name : String) : Members → Option Value
  | [] => none
  | m :: rest => if m.1 = name then some m.2 else find? name rest

/-- Puts a value under a name: at its place if it is there, at the end otherwise. -/
def insert (name : String) (value : Value) : Members → Members
  | [] => [(name, value)]
  | m :: rest => if m.1 = name then (name, value) :: rest else m :: insert name value rest

def names (members : Members) : List String := members.map Prod.fst

theorem find?_insert_self (name : String) (value : Value) (members : Members) :
    find? name (insert name value members) = some value := by
  induction members with
  | nil => simp [insert, find?]
  | cons m rest ih => by_cases h : m.1 = name <;> simp [insert, find?, h, ih]

theorem find?_insert_of_ne {name other : String} (h : other ≠ name) (value : Value)
    (members : Members) : find? other (insert name value members) = find? other members := by
  induction members with
  | nil => simp [insert, find?, Ne.symm h]
  | cons m rest ih =>
    by_cases hm : m.1 = name
    · simp [insert, find?, hm, Ne.symm h]
    · simp [insert, find?, hm, ih]

theorem mem_names_insert {name other : String} {value : Value} {members : Members} :
    other ∈ names (insert name value members) ↔ other = name ∨ other ∈ names members := by
  induction members with
  | nil => simp [insert, names]
  | cons m rest ih =>
    simp only [names] at ih
    by_cases hm : m.1 = name
    · simp [insert, names, hm]
    · simp only [insert, hm, if_false, names, List.map_cons, List.mem_cons, ih]
      constructor <;> rintro (h | h | h) <;> simp [h]

theorem nodup_names_insert {name : String} {value : Value} {members : Members}
    (h : (names members).Nodup) : (names (insert name value members)).Nodup := by
  induction members with
  | nil => simp [insert, names]
  | cons m rest ih =>
    simp only [names, List.map_cons, List.nodup_cons] at h ih
    by_cases hm : m.1 = name
    · subst hm
      simpa [insert, names] using h
    · simp only [insert, hm, if_false, names, List.map_cons, List.nodup_cons]
      refine ⟨fun hmem => ?_, ih h.2⟩
      rcases mem_names_insert.mp hmem with he | he
      · exact hm he
      · exact h.1 he

end Members

end TwinLink.Json
