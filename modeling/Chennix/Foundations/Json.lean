import Mathlib.Algebra.Group.Nat.Defs
import Mathlib.Data.List.Induction
import Mathlib.Tactic.Common

/-!
# JSON values

JSON values as a tree, with numbers of the three kinds a 64-bit implementation keeps apart, and
the lookups by which programs read them. An object lists its members by increasing key, so that
objects with the same members are equal whatever order they were built in.

Reading and writing text is left to a `Codec`: a program that goes through JSON text is stated
over any codec.

## Main definitions

* `Json`, `Json.Number` — the values
* `Json.get`, `Json.asStr`, `Json.asU64`, … — lookups, which answer nothing at the wrong shape
* `Json.ofMembers` — an object from its members
* `Json.Codec` — text and bytes to values and back

## Main results

* `Json.get_ofMembers` — a member of an object is the last one that was given for its key
-/

namespace Foundations

/-- Octets, as they come off the network. -/
abbrev Bytes : Type := List UInt8

inductive Json.Number
  | posInt (n : UInt64)
  /-- A negative integer. -/
  | negInt (n : Int64)
  | float (x : Float)
  deriving DecidableEq, Repr

inductive Json
  | null
  | bool (b : Bool)
  | number (n : Json.Number)
  | string (s : String)
  | array (elems : List Json)
  | object (members : List (String × Json))
  deriving Repr

namespace Json

instance : Inhabited Json := ⟨.null⟩

/-- An unsigned integer as a value. -/
def ofU64 (n : UInt64) : Json := .number (.posInt n)

/-- Set a member, keeping the keys increasing. -/
def insertMember (k : String) (v : Json) : List (String × Json) → List (String × Json)
  | [] => [(k, v)]
  | (k', v') :: rest =>
    if k < k' then (k, v) :: (k', v') :: rest
    else if k = k' then (k, v) :: rest
    else (k', v') :: insertMember k v rest

/-- The object with the given members. Where a key occurs twice the later member counts. -/
def ofMembers (members : List (String × Json)) : Json :=
  .object (members.foldl (fun ms kv => insertMember kv.1 kv.2 ms) [])

/-- A member that is there only if its value is. -/
def member? (k : String) (v : Option Json) : List (String × Json) := v.toList.map fun v => (k, v)

/-- The member of an object. -/
def get (v : Json) (k : String) : Option Json :=
  match v with
  | .object members => (members.find? fun kv => kv.1 == k).map Prod.snd
  | _ => none

def asStr : Json → Option String
  | .string s => some s
  | _ => none

def asArray : Json → Option (List Json)
  | .array elems => some elems
  | _ => none

def asBool : Json → Option Bool
  | .bool b => some b
  | _ => none

/-- A number that is an integer in the range of the type. -/
def asU64 : Json → Option UInt64
  | .number (.posInt n) => some n
  | _ => none

def asI64 : Json → Option Int64
  | .number (.posInt n) => if n.toNat < 2 ^ 63 then some n.toInt64 else none
  | .number (.negInt n) => some n
  | _ => none

def isNull : Json → Bool
  | .null => true
  | _ => false

/-- The member of an object, if it is a string. -/
def getStr (v : Json) (k : String) : Option String := (v.get k).bind asStr

/-- The member of an object, if it is an array. -/
def getArray (v : Json) (k : String) : Option (List Json) := (v.get k).bind asArray

/-- The member of an object, if it is an unsigned integer. -/
def getU64 (v : Json) (k : String) : Option UInt64 := (v.get k).bind asU64

/-- The member of an object, or another value. -/
def getD (v : Json) (k : String) (default : Json) : Json := (v.get k).getD default

/-- An insertion is read back at its own key and leaves the others alone. -/
theorem find?_insertMember (k : String) (v : Json) (members : List (String × Json)) (k' : String) :
    ((insertMember k v members).find? fun kv => kv.1 == k') =
      if k = k' then some (k, v) else members.find? fun kv => kv.1 == k' := by
  induction members with
  | nil => by_cases h : k = k' <;> simp [insertMember, h]
  | cons kv rest ih =>
    obtain ⟨k₁, v₁⟩ := kv
    rw [insertMember]
    by_cases h : k = k'
    · subst h
      rw [if_pos rfl] at ih ⊢
      by_cases hlt : k < k₁
      · simp [hlt]
      · by_cases heq : k = k₁
        · simp [heq]
        · simp [hlt, heq, Ne.symm heq, ih]
    · rw [if_neg h] at ih ⊢
      by_cases hlt : k < k₁
      · simp [hlt, h]
      · by_cases heq : k = k₁
        · subst heq; simp [h]
        · simp only [hlt, heq, if_false, List.find?_cons, ih]

/-- Of the members with a key the last one counts. -/
theorem get_ofMembers (members : List (String × Json)) (k : String) :
    (ofMembers members).get k = (members.reverse.find? fun kv => kv.1 == k).map Prod.snd := by
  show ((members.foldl (fun ms kv => insertMember kv.1 kv.2 ms) []).find? _).map _ = _
  induction members using List.reverseRecOn with
  | nil => rfl
  | append_singleton members kv ih =>
    rw [List.foldl_append, List.foldl_cons, List.foldl_nil, find?_insertMember,
      List.reverse_concat, List.find?_cons]
    by_cases h : kv.1 = k
    · rw [if_pos h, beq_iff_eq.mpr h]
    · rw [if_neg h, beq_eq_false_iff_ne.mpr h, ih]

@[simp] theorem get_ofMembers_nil (k : String) : (ofMembers []).get k = none := rfl

/-- Members that are given later count more. -/
theorem get_ofMembers_append (members members' : List (String × Json)) (k : String) :
    (ofMembers (members ++ members')).get k =
      ((ofMembers members').get k).or ((ofMembers members).get k) := by
  rw [get_ofMembers, get_ofMembers, get_ofMembers, List.reverse_append, List.find?_append]
  cases members'.reverse.find? fun kv => kv.1 == k <;> rfl

theorem get_ofMembers_cons (k k' : String) (v : Json) (members : List (String × Json)) :
    (ofMembers ((k', v) :: members)).get k =
      ((ofMembers members).get k).or (if k' = k then some v else none) := by
  rw [← List.singleton_append, get_ofMembers_append]
  congr 1
  rw [get_ofMembers]
  by_cases h : k' = k <;> simp [h]

theorem get_ofMembers_member? (k k' : String) (v : Option Json) :
    (ofMembers (member? k' v)).get k = if k' = k then v else none := by
  cases v with
  | none => exact (ite_self _).symm
  | some v =>
    show (ofMembers [(k', v)]).get k = _
    rw [get_ofMembers_cons, get_ofMembers_nil, Option.none_or]

/-- Members that are there under a condition. -/
theorem get_ofMembers_ite (k : String) (p : Prop) [Decidable p]
    (members members' : List (String × Json)) :
    (ofMembers (if p then members else members')).get k =
      if p then (ofMembers members).get k else (ofMembers members').get k :=
  apply_ite (fun members => (ofMembers members).get k) p members members'

theorem get_insertMember (members : List (String × Json)) (k k' : String) (v : Json) :
    (Json.object (insertMember k v members)).get k' =
      if k = k' then some v else (Json.object members).get k' := by
  rw [get, find?_insertMember]
  split <;> rfl

/-- A value with a member is an object. -/
theorem exists_object {v w : Json} {k : String} (h : v.get k = some w) :
    ∃ members, v = .object members := by
  cases v with
  | object members => exact ⟨members, rfl⟩
  | _ => cases h

theorem getU64_eq_some {v : Json} {k : String} {n : UInt64} :
    v.getU64 k = some n ↔ v.get k = some (ofU64 n) := by
  rw [getU64]
  cases v.get k with
  | none => simp
  | some w =>
    rw [Option.bind_some, Option.some_inj]
    constructor
    · intro h
      cases w with
      | number m =>
        cases m with
        | posInt m => rw [← Option.some.inj h]; rfl
        | _ => cases h
      | _ => cases h
    · rintro rfl
      rfl

@[simp] theorem null_get (k : String) : Json.null.get k = none := rfl

@[simp] theorem isNull_ofMembers (members : List (String × Json)) :
    (ofMembers members).isNull = false := rfl

/-- Text and bytes to values and back, as a JSON library offers it. -/
structure Codec where
  fromSlice : Bytes → Except String Json
  fromStr : String → Except String Json
  toStr : Json → Except String String
  toVec : Json → Except String Bytes
  /-- How a value is shown inside a text. -/
  display : Json → String
  /-- Writing a value never fails: it holds no map with other keys than strings. -/
  toVec_ok : ∀ v, ∃ bytes, toVec v = .ok bytes

/-- Reading undoes writing at this value. -/
def Codec.Recovers (codec : Codec) (v : Json) : Prop :=
  ∃ s, codec.toStr v = .ok s ∧ codec.fromStr s = .ok v

end Json

end Foundations
