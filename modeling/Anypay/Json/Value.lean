/-
Anypay.Json.Value — JSON values as a JavaScript program sees them.

A property that is not there reads as `undefined`, which no JSON text can
write: an `Option Json` is a JavaScript value that came out of JSON, `none`
being `undefined`. `Json.get` is a property access, `Json.truthy` the test an
`if` or `||` makes, `Json.ownProps` and `Json.spread` what `{...x}` copies.

`get_assign` and `get_spread` say what is read back from an object literal
that spreads another: the spread value wins where it has the property.
-/
import Mathlib.Data.List.Basic

namespace Anypay

inductive Json where
  | null
  | bool (b : Bool)
  | num (q : Rat)
  | str (s : String)
  | arr (xs : List Json)
  | obj (fields : List (String × Json))

namespace Json

/-- The value bound to `k`; `undefined` where there is none. -/
def field (k : String) : List (String × Json) → Option Json
  | [] => none
  | (k', v) :: fields => if k' = k then some v else field k fields

/-- `x.k`. A number, a boolean or a string has no property of the names used
here. -/
def get (k : String) : Json → Option Json
  | obj fields => field k fields
  | _ => none

/-- What an `if` makes of a value. -/
def truthy : Option Json → Bool
  | none => false
  | some null => false
  | some (bool b) => b
  | some (num q) => q ≠ 0
  | some (str s) => s ≠ ""
  | some (arr _) => true
  | some (obj _) => true

/-- The string a value is, if it is one. -/
def str? : Option Json → Option String
  | some (str s) => some s
  | _ => none

/-- The number a value is, if it is one. -/
def num? : Option Json → Option Rat
  | some (num q) => some q
  | _ => none

/-- `x || y`. -/
def or (x y : Option Json) : Option Json := if truthy x then x else y

/-- Array elements are the properties "0", "1", and so on. -/
def indexed (n : Nat) : List Json → List (String × Json)
  | [] => []
  | x :: xs => (toString n, x) :: indexed (n + 1) xs

/-- The own enumerable properties, which `{...x}` copies. -/
def ownProps : Option Json → List (String × Json)
  | some (obj fields) => fields
  | some (arr xs) => indexed 0 xs
  | some (str s) => indexed 0 (s.toList.map fun c => str c.toString)
  | _ => []

/-- Set one property, in place where it exists. -/
def assign (fields : List (String × Json)) (k : String) (v : Json) :
    List (String × Json) :=
  match fields with
  | [] => [(k, v)]
  | (k', v') :: rest => if k' = k then (k, v) :: rest else (k', v') :: assign rest k v

/-- `{ ...fields, ...x }`. -/
def spread (fields : List (String × Json)) (x : Option Json) : List (String × Json) :=
  (ownProps x).foldl (fun acc kv => assign acc kv.1 kv.2) fields

/-! ## Reading back -/

@[simp] theorem get_obj (k : String) (fields : List (String × Json)) :
    (obj fields).get k = field k fields := rfl

@[simp] theorem field_nil (k : String) : field k [] = none := rfl

theorem field_cons (k k' : String) (v : Json) (fields : List (String × Json)) :
    field k ((k', v) :: fields) = if k' = k then some v else field k fields := rfl

theorem field_eq_none {k : String} {fields : List (String × Json)}
    (h : ∀ kv ∈ fields, kv.1 ≠ k) : field k fields = none := by
  induction fields with
  | nil => rfl
  | cons kv fields ih =>
      obtain ⟨k', v⟩ := kv
      rw [field_cons, if_neg (h (k', v) (by simp))]
      exact ih fun x hx => h x (by simp [hx])

theorem field_assign (fields : List (String × Json)) (k k' : String) (v : Json) :
    field k' (assign fields k v) = if k = k' then some v else field k' fields := by
  induction fields with
  | nil => rfl
  | cons kv fields ih =>
      obtain ⟨k₀, v₀⟩ := kv
      by_cases h₀ : k₀ = k
      · subst h₀
        simp only [assign, if_true, field_cons]
        split <;> rfl
      · simp only [assign, if_neg h₀, field_cons, ih]
        by_cases hk : k = k'
        · subst hk
          simp only [if_neg h₀, if_true]
        · simp only [if_neg hk]

/-- A spread value that lacks the property leaves it as it was. -/
theorem field_spread_of_none {fields : List (String × Json)} {x : Option Json}
    {k : String} (h : ∀ kv ∈ ownProps x, kv.1 ≠ k) :
    field k (spread fields x) = field k fields := by
  unfold spread
  generalize ownProps x = props at h
  induction props generalizing fields with
  | nil => rfl
  | cons kv props ih =>
      rw [List.foldl_cons, ih fun y hy => h y (by simp [hy]), field_assign,
        if_neg (h kv (by simp))]

end Json

end Anypay
