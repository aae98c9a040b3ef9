/-
Anypay.Json.Schema — the part of the schema libraries (zod, Joi) that is used:
objects of required and optional fields, strings with or without a regular
expression, numbers, and Joi's strings, which are not empty unless that is
allowed, and numbers, which may come as text.

`Schema.parse` checks a value and STRIPS what an object schema does not name
(zod's default, Joi's `stripUnknown`): the result holds the declared fields and
nothing else. `parse_get_of_not_field` is that fact as a reader of the result
meets it: a property the schema does not name reads as `undefined` afterwards,
whatever the value held. A regular expression here is a literal text in which
a dot stands for any character; it is not anchored, so it is searched for.
-/
import Anypay.Json.Number

namespace Anypay

/-- What the dot of a regular expression does not match. -/
def lineTerminator (c : Char) : Bool :=
  c == '\n' || c == '\r' || c == Char.ofNat 0x2028 || c == Char.ofNat 0x2029

/-- The pattern matches at the head of the text. -/
def matchesAt : List Char → List Char → Bool
  | [], _ => true
  | _ :: _, [] => false
  | p :: ps, c :: cs => (if p = '.' then !lineTerminator c else p == c) && matchesAt ps cs

/-- `/pattern/.test(text)`. -/
def regexTest (pattern text : String) : Bool :=
  text.toList.tails.any (matchesAt pattern.toList)

inductive Schema where
  | string (pattern : Option String)
  | number
  /-- `Joi.string()`. -/
  | nonEmpty
  /-- `Joi.number()`. -/
  | numeric
  /-- A field is its name, whether it is optional, and its schema. -/
  | object (fields : List (String × Bool × Schema))

namespace Schema

/-- `Number.MAX_SAFE_INTEGER`; Joi refuses what is beyond. -/
def safeNumber (q : Rat) : Option Rat :=
  if -9007199254740991 ≤ q ∧ q ≤ 9007199254740991 then some q else none

/-- The number a text stands for, white space around it dropped. -/
def numericText (s : String) : Option Rat :=
  if s.toList.all numberSpace then none
  else (signed decimal (trimmed s)).bind safeNumber

mutual

/-- `schema.parse(x)`: the checked and stripped value, `none` for a thrown
ZodError. -/
def parse : Schema → Json → Option Json
  | string none, .str s => some (.str s)
  | string (some pattern), .str s => if regexTest pattern s then some (.str s) else none
  | number, .num q => some (.num q)
  | nonEmpty, .str s => if s = "" then none else some (.str s)
  | numeric, .num q => (safeNumber q).map .num
  | numeric, .str s => (numericText s).map .num
  | object fields, .obj props => (parseFields fields props).map .obj
  | _, _ => none

/-- The declared fields of an object, in the order they are declared. -/
def parseFields :
    List (String × Bool × Schema) → List (String × Json) → Option (List (String × Json))
  | [], _ => some []
  | (k, optional, schema) :: rest, props =>
      match Json.field k props with
      | none => if optional then parseFields rest props else none
      | some v =>
          match schema.parse v, parseFields rest props with
          | some v', some rest' => some ((k, v') :: rest')
          | _, _ => none

end

/-- The result has declared fields only. -/
theorem parseFields_keys {fields : List (String × Bool × Schema)}
    {props out : List (String × Json)} (h : parseFields fields props = some out) :
    ∀ kv ∈ out, kv.1 ∈ fields.map Prod.fst := by
  induction fields generalizing out with
  | nil =>
      simp only [parseFields, Option.some.injEq] at h
      subst h
      intro kv hkv
      cases hkv
  | cons f fields ih =>
      obtain ⟨k, optional, schema⟩ := f
      unfold parseFields at h
      intro kv hkv
      split at h
      · split at h
        · exact List.mem_cons_of_mem _ (ih h kv hkv)
        · cases h
      · split at h
        · rename_i v' rest' _ hrest
          obtain rfl := Option.some.inj h
          rcases List.mem_cons.mp hkv with rfl | hkv
          · exact List.mem_cons_self
          · exact List.mem_cons_of_mem _ (ih hrest kv hkv)
        · cases h

/-- A property the schema does not name is gone from what it accepts. -/
theorem parse_get_of_not_field {fields : List (String × Bool × Schema)} {x y : Json}
    {k : String} (hk : k ∉ fields.map Prod.fst) (h : (object fields).parse x = some y) :
    y.get k = none := by
  cases x with
  | obj props =>
      simp only [parse, Option.map_eq_some_iff] at h
      obtain ⟨out, hout, rfl⟩ := h
      refine Json.field_eq_none fun kv hkv he => hk ?_
      exact he ▸ parseFields_keys hout kv hkv
  | _ => simp [parse] at h

/-- A declared field that is there was checked by its own schema. -/
theorem parseFields_field {fields : List (String × Bool × Schema)}
    {props out : List (String × Json)} {k : String} {optional : Bool} {schema : Schema}
    {v : Json} (hk : fields.lookup k = some (optional, schema))
    (hv : Json.field k props = some v) (h : parseFields fields props = some out) :
    ∃ v', schema.parse v = some v' ∧ Json.field k out = some v' := by
  induction fields generalizing out with
  | nil => cases hk
  | cons f fields ih =>
      obtain ⟨k', optional', schema'⟩ := f
      unfold parseFields at h
      by_cases hkk : k' = k
      · subst hkk
        obtain rfl : schema' = schema := by
          simp only [List.lookup_cons_self, Option.some.injEq, Prod.mk.injEq] at hk
          exact hk.2
        rw [hv] at h
        dsimp only at h
        split at h
        · rename_i v' rest' hv' _
          obtain rfl := Option.some.inj h
          exact ⟨v', hv', by rw [Json.field_cons, if_pos rfl]⟩
        · cases h
      · have hk' : fields.lookup k = some (optional, schema) := by
          have hne : (k == k') = false := by simpa using Ne.symm hkk
          simpa [List.lookup_cons, hne] using hk
        split at h
        · split at h
          · exact ih hk' h
          · cases h
        · split at h
          · rename_i _ rest' _ hrest
            obtain rfl := Option.some.inj h
            rw [Json.field_cons, if_neg hkk]
            exact ih hk' hrest
          · cases h

theorem parse_get_of_field {fields : List (String × Bool × Schema)} {x y v : Json}
    {k : String} {optional : Bool} {schema : Schema}
    (hk : fields.lookup k = some (optional, schema)) (hv : x.get k = some v)
    (h : (object fields).parse x = some y) :
    ∃ v', schema.parse v = some v' ∧ y.get k = some v' := by
  cases x with
  | obj props =>
      simp only [parse, Option.map_eq_some_iff] at h
      obtain ⟨out, hout, rfl⟩ := h
      exact parseFields_field hk hv hout
  | _ => simp [parse] at h

example : regexTest "invoice.paid" "an invoice-paid event" = true := by decide

end Schema

end Anypay
