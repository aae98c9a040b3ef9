/-
Anypay.Db.Columns — JSON values written to typed columns.

Where a request body goes into a row unchecked, Prisma checks it: a value of
another type than its column, or a text longer than the column takes, is
refused and nothing is written. `undefined` leaves a column at its default,
`null` is a value of a nullable column.

`Json.text` is `String(x)`, which throws on an object whose `toString` is not a
function (no JSON value is one).
-/
import Anypay.Db.World
import Anypay.Json.Number

namespace Anypay

namespace Json

mutual

/-- `String(x)`. -/
def text : Json → Except Failure String
  | null => .ok "null"
  | bool b => .ok (if b then "true" else "false")
  | num q => .ok (numberText q)
  | str s => .ok s
  | arr xs => (texts xs).map (String.intercalate ",")
  | obj fields =>
      match field "toString" fields with
      | some _ => .error .typeError
      | none => .ok "[object Object]"

/-- The elements as `join` writes them: null is the empty text there. -/
def texts : List Json → Except Failure (List String)
  | [] => .ok []
  | null :: xs => (texts xs).map ("" :: ·)
  | x :: xs =>
      match text x, texts xs with
      | .ok s, .ok rest => .ok (s :: rest)
      | .error e, _ => .error e
      | _, .error e => .error e

end

end Json

/-! ## Writing -/

/-- A nullable `VarChar(255)`. -/
def textColumn (model : String) : Option Json → Except Failure (Option String)
  | none => .ok none
  | some .null => .ok none
  | some (.str s) => if s.length ≤ 255 then .ok (some s) else .error (.invalidValue model)
  | some _ => .error (.invalidValue model)

/-- A `VarChar(255)` with a default. -/
def textColumnOr (model : String) (default_ : Option String) (x : Option Json) :
    Except Failure (Option String) :=
  if x.isNone then .ok default_ else textColumn model x

/-- A nullable `Decimal`: a number, or a text that is one. -/
def decimalColumn (model : String) : Option Json → Except Failure (Option Rat)
  | none => .ok none
  | some .null => .ok none
  | some (.num q) => .ok (some q)
  | some (.str s) =>
      match signed decimal s.toList with
      | some q => .ok (some q)
      | none => .error (.invalidValue model)
  | some _ => .error (.invalidValue model)

/-- A nullable `Int`. -/
def intColumn (model : String) : Option Json → Except Failure (Option Int)
  | none => .ok none
  | some .null => .ok none
  | some (.num q) =>
      match asInt q with
      | some n => .ok (some n)
      | none => .error (.invalidValue model)
  | some _ => .error (.invalidValue model)

/-- A nullable `Json`: a plain null is refused. -/
def jsonColumn (model : String) : Option Json → Except Failure (Option Json)
  | none => .ok none
  | some .null => .error (.invalidValue model)
  | some x => .ok (some x)

/-! ## Selecting -/

/-- A `where` field on a nullable `Int` column: `undefined` matches every row. -/
def whereInt (model : String) (x : Option Json) :
    Except Failure (Option Int → Bool) :=
  match x with
  | none => .ok fun _ => true
  | some x =>
      match intColumn model (some x) with
      | .ok n => .ok fun column => column == n
      | .error e => .error e

end Anypay
