/-
Anypay.AccountUpdates — `PUT /account`: `updateAccount` of
`lib/accounts/index.ts`, `update` of `server/v0/handlers/accounts.ts`, and what
Prisma makes of the payload.

The route has no validation, the handler passes `request.payload` on, and
`updateAccount` makes all of it the `data` of `prisma.accounts.update`. So the
data can name any column of `model accounts`, the id included, and any of its
relations; what a relation is given is a nested write, whose own data can name
the columns and relations of the rows on the far side.

`readUpdate` is Prisma's check of such data against the schema's input types:
the columns with their types, `{ set: … }` and the arithmetic on numbers, each
nested operation with its parts, the relation one came by left out, and for a
linked account either the accounts' ids or the accounts themselves. What it
accepts is run as one transaction (`Data.update`). Two things it needs are
Prisma's own and a parameter, `Client`: which texts are dates, and which rows a
`where` matches.

The five models are those the relations of `model accounts` reach. The columns
`coordinates` and `position` are of an unsupported type, which no data can
name. Log lines are left out: the rows they write are read by nothing else.
-/
import Anypay.Relational.Writes
import Anypay.Db.Columns

namespace Anypay

open Relational

namespace Prisma

/-! ## The schema -/

inductive Model where
  | accounts
  | access_tokens
  | extended_public_keys
  | pair_tokens
  | LinkedAccounts
  deriving DecidableEq, Repr

inductive ColumnType where
  | int
  | text
  | boolean
  | decimal
  | json
  | dateTime
  deriving DecidableEq, Repr

structure Column where
  name : String
  type : ColumnType
  nullable : Bool := true
  default_ : Option Json := none

/-- The columns besides the id. -/
def Model.columns : Model → List Column
  | accounts => [
      { name := "uid", type := .text },
      { name := "email", type := .text },
      { name := "password_hash", type := .text },
      { name := "createdAt", type := .dateTime, nullable := false },
      { name := "updatedAt", type := .dateTime, nullable := false },
      { name := "webhook_url", type := .text },
      { name := "denomination", type := .text },
      { name := "is_admin", type := .boolean, default_ := some (.bool false) },
      { name := "business_name", type := .text },
      { name := "physical_address", type := .text },
      { name := "latitude", type := .text },
      { name := "longitude", type := .text },
      { name := "image_url", type := .text },
      { name := "tipjar_enabled", type := .boolean, default_ := some (.bool false) },
      { name := "allow_cashback_amount", type := .boolean, default_ := some (.bool false) },
      { name := "watch_address_webhook_url", type := .text },
      { name := "stub", type := .text },
      { name := "bank_account_id", type := .int },
      { name := "ach_enabled", type := .boolean, default_ := some (.bool false) },
      { name := "ambassador_id", type := .int },
      { name := "convert_to_bank", type := .boolean, default_ := some (.bool false) },
      { name := "email_valid", type := .text, default_ := some (.str "true") },
      { name := "google_place_id", type := .text },
      { name := "dash_text_enabled", type := .text, default_ := some (.str "false") },
      { name := "website_url", type := .text },
      { name := "city", type := .text },
      { name := "state", type := .text },
      { name := "country", type := .text },
      { name := "description", type := .text },
      { name := "ambassador_percent", type := .decimal, default_ := some (.num 0) },
      { name := "customer_pays_ambassador", type := .boolean, default_ := some (.bool true) },
      { name := "registration_geolocation", type := .json },
      { name := "registration_ip_address", type := .text },
      { name := "inserted_at", type := .dateTime },
      { name := "updated_at", type := .dateTime }]
  | access_tokens => [
      { name := "uid", type := .text },
      { name := "account_id", type := .int, nullable := false },
      { name := "createdAt", type := .dateTime, nullable := false },
      { name := "updatedAt", type := .dateTime, nullable := false },
      { name := "app_id", type := .int }]
  | extended_public_keys => [
      { name := "xpubkey", type := .text, nullable := false },
      { name := "nonce", type := .int, default_ := some (.num 0) },
      { name := "createdAt", type := .dateTime },
      { name := "updatedAt", type := .dateTime },
      { name := "account_id", type := .int, nullable := false },
      { name := "currency", type := .text }]
  | pair_tokens => [
      { name := "uid", type := .text },
      { name := "account_id", type := .int, nullable := false },
      { name := "createdAt", type := .dateTime, nullable := false },
      { name := "updatedAt", type := .dateTime, nullable := false },
      { name := "device_name", type := .text },
      { name := "access_token_id", type := .int }]
  | LinkedAccounts => [
      { name := "source", type := .int, nullable := false },
      { name := "target", type := .int, nullable := false },
      { name := "createdAt", type := .dateTime, nullable := false },
      { name := "updatedAt", type := .dateTime, nullable := false }]

def idColumn : Column := { name := "id", type := .int, nullable := false }

/-- A relation with the names of its two sides. -/
structure RelationField where
  /-- On the parent: the rows that refer to it. -/
  children : String
  /-- On the child: the row it refers to. -/
  parent : String
  rel : Relation Model

/-- `linkedAccountsAs…` do not say what happens on update, which is `Cascade`. -/
def relationFields : List RelationField := [
  { children := "access_tokens", parent := "accounts",
    rel := { parent := .accounts, child := .access_tokens, key := "account_id" } },
  { children := "extended_public_keys", parent := "accounts",
    rel := { parent := .accounts, child := .extended_public_keys, key := "account_id" } },
  { children := "pair_tokens", parent := "accounts",
    rel := { parent := .accounts, child := .pair_tokens, key := "account_id" } },
  { children := "linkedAccountsAsSource", parent := "source_account",
    rel := { parent := .accounts, child := .LinkedAccounts, key := "source", cascade := true } },
  { children := "linkedAccountsAsTarget", parent := "target_account",
    rel := { parent := .accounts, child := .LinkedAccounts, key := "target", cascade := true } }]

/-- A row of any of the models: its id and its other columns by name. -/
structure Row where
  id : Int
  columns : List (String × Json)

namespace Row

def get (name : String) (r : Row) : Json :=
  if name = "id" then .num r.id else (Json.field name r.columns).getD .null

def set (name : String) (v : Json) (r : Row) : Row :=
  if name = "id" then
    match v with
    | .num q => { r with id := q.num }
    | _ => r
  else { r with columns := Json.assign r.columns name v }

end Row

instance : Keyed Row where
  id := Row.id
  ref key r :=
    match Json.field key r.columns with
    | some (.num q) => some q.num
    | _ => none
  point key i r := { r with columns := Json.assign r.columns key (.num i) }
  id_point _ _ _ := rfl

/-- `accounts.email` is the unique column. -/
def clash (m : Model) (r r' : Row) : Bool :=
  match m, r.get "email", r'.get "email" with
  | .accounts, .str e, .str e' => e == e'
  | _, _, _ => false

def schema : Relational.Schema Model Row where
  relations := relationFields.map RelationField.rel
  blank m i := { id := i, columns := m.columns.map fun c => (c.name, c.default_.getD .null) }
  clash := clash

/-! ## Reading columns -/

/-- What the schema does not say. -/
structure Client where
  /-- Texts taken for a `DateTime`. -/
  isDate : String → Bool
  /-- The rows a `where` matches; `none` where it is refused. -/
  filter : Model → Json → Option (Row → Bool)

/-- `create` takes plain values only. -/
inductive Mode where
  | create
  | update
  deriving DecidableEq, Repr

variable (client : Client)

/-- A plain value of the column's type. -/
def Column.value (column : Column) (v : Json) : Option Json :=
  match column.type, v with
  | .json, .null => none
  | _, .null => if column.nullable then some .null else none
  | .int, .num q => (asInt q).map fun n => .num n
  | .text, .str s => if s.length ≤ 255 then some (.str s) else none
  | .boolean, .bool b => some (.bool b)
  | .decimal, .num q => some (.num q)
  | .decimal, .str s => (signed decimal s.toList).map .num
  | .json, v => some v
  | .dateTime, .str s => if client.isDate s then some (.str s) else none
  | _, _ => none

/-- What a column becomes, from what it is. -/
abbrev ColumnWrite := Json → Except WriteError Json

/-- The arithmetic of the database: null stays null, an integer has to fit. -/
def arithmetic (type : ColumnType) (f : Rat → Rat → Option Rat) (q : Rat) : ColumnWrite
  | .num x =>
      match f x q with
      | none => .error .invalid
      | some y =>
          if type = .int ∧ (asInt y).isNone then .error .invalid else .ok (.num y)
  | v => .ok v

/-- Division by zero fails; integers are divided towards zero. -/
def quotient (type : ColumnType) (x q : Rat) : Option Rat :=
  if q = 0 then none
  else if type = .int then some (x.num.tdiv q.num : Int)
  else some (x / q)

/-- `{ set: v }`, `{ increment: n }` and so on: one operation at a time. -/
def Column.operation (column : Column) (name : String) (v : Json) : Option ColumnWrite :=
  let number := column.type = .int ∨ column.type = .decimal
  match name, column.value client v with
  | "set", some v => some fun _ => .ok v
  | "increment", some (.num q) =>
      if number then some (arithmetic column.type (fun x y => some (x + y)) q) else none
  | "decrement", some (.num q) =>
      if number then some (arithmetic column.type (fun x y => some (x - y)) q) else none
  | "multiply", some (.num q) =>
      if number then some (arithmetic column.type (fun x y => some (x * y)) q) else none
  | "divide", some (.num q) =>
      if number then some (arithmetic column.type (quotient column.type) q) else none
  | _, _ => none

def Column.write (column : Column) (mode : Mode) (v : Json) : Option ColumnWrite :=
  match mode, column.type, v with
  | .update, .json, v => (column.value client v).map fun v _ => .ok v
  | .update, _, .obj [(name, v)] => column.operation client name v
  | _, _, v => (column.value client v).map fun v _ => .ok v

/-- One more column written, before the others. -/
def writing (column : Column) (w : ColumnWrite) (rest : Row → Except WriteError Row) (r : Row) :
    Except WriteError Row :=
  match w (r.get column.name) with
  | .error e => .error e
  | .ok v => rest (r.set column.name v)

/-! ## The fields of an input type -/

inductive Field where
  | column (column : Column)
  | many (rel : Relation Model)
  | one (rel : Relation Model)

/-- The relations one can go on by, having come by `via`. -/
def onward (via : Option (Relation Model)) : List RelationField :=
  relationFields.filter fun f => some f.rel ≠ via

/-- The foreign key that `via` fills in. -/
def filledIn (m : Model) (via : Option (Relation Model)) (name : String) : Bool :=
  match via with
  | none => false
  | some rel => decide (rel.child = m) && rel.key == name

/-- What a key of the data names. -/
def fieldOf (m : Model) (via : Option (Relation Model)) (key : String) : Option Field :=
  match (idColumn :: m.columns).find? fun c => c.name == key && !filledIn m via key with
  | some c => some (.column c)
  | none =>
      match (onward via).find? fun f => decide (f.rel.parent = m) && f.children == key with
      | some f => some (.many f.rel)
      | none =>
          match (onward via).find? fun f => decide (f.rel.child = m) && f.parent == key with
          | some f => some (.one f.rel)
          | none => none

def has (fields : List (String × Json)) (key : String) : Bool := fields.any fun f => f.1 == key

/-- Every column a new row needs is given, a foreign key by itself or by the
row it is to refer to. -/
def complete (m : Model) (via : Option (Relation Model)) (fields : List (String × Json)) : Bool :=
  m.columns.all fun c =>
    c.nullable || c.default_.isSome || filledIn m via c.name || has fields c.name ||
      (onward via).any fun f => decide (f.rel.child = m) && f.rel.key == c.name && has fields f.parent

/-- Rows referred to and ids do not go together. -/
def mixed (m : Model) (via : Option (Relation Model)) (fields : List (String × Json)) : Bool :=
  let ones := (onward via).filter fun f => decide (f.rel.child = m)
  (ones.any fun f => has fields f.parent) &&
    (has fields "id" || ones.any fun f => has fields f.rel.key)

def acceptable (m : Model) (via : Option (Relation Model)) (mode : Mode)
    (fields : List (String × Json)) : Bool :=
  (decide (mode = .update) || complete m via fields) && !mixed m via fields

/-! ## Reading nested writes -/

abbrev ColumnsWrite := Row → Except WriteError Row

/-- Which side of its relation a field is on. -/
inductive Side where
  | many
  | one
  deriving DecidableEq, Repr

def Side.far (side : Side) (rel : Relation Model) : Model :=
  match side with
  | .many => rel.child
  | .one => rel.parent

/-- The operations an input type has. -/
def offered (side : Side) (mode : Mode) (op : String) : Bool :=
  match side, mode with
  | .many, .create => ["create", "connectOrCreate", "createMany", "connect"].contains op
  | .many, .update =>
      ["create", "connectOrCreate", "upsert", "createMany", "set", "disconnect", "delete",
        "connect", "update", "updateMany", "deleteMany"].contains op
  | .one, .create => ["create", "connectOrCreate", "connect"].contains op
  | .one, .update => ["create", "connectOrCreate", "upsert", "connect", "update"].contains op

/-- A `where` that has to name one row: the id or the unique column is given. -/
def unique (m : Model) (where_ : Json) : Option (Row → Bool) :=
  match m, where_.get "id", where_.get "email" with
  | m, some (.num _), _ => client.filter m where_
  | .accounts, _, some (.str _) => client.filter .accounts where_
  | _, _, _ => none

/-- Data of columns only. -/
def readColumns (m : Model) (via : Option (Relation Model)) (mode : Mode) :
    List (String × Json) → Option ColumnsWrite
  | [] => some .ok
  | (key, v) :: fields =>
      match fieldOf m via key, readColumns m via mode fields with
      | some (.column c), some rest =>
          (c.write client mode v).map fun w => writing c w rest
      | _, _ => none

/-- The rows of a `createMany`: one, or a list. -/
def readRows (rel : Relation Model) (skipDuplicates : Bool) :
    List Json → Option (Writes Model Row)
  | [] => some .done
  | .obj fields :: rows =>
      if complete rel.child (some rel) fields then
        match readColumns client rel.child (some rel) .create fields,
            readRows rel skipDuplicates rows with
        | some columns, some rest => some (.next (.createRow skipDuplicates columns) rest)
        | _, _ => none
      else none
  | _ => none

/-- Whether only these keys are there. -/
def within (keys : List String) (fields : List (String × Json)) : Bool :=
  fields.all fun f => keys.contains f.1

/-- The operations without data of their own, and those on columns only. -/
def readFlat (side : Side) (rel : Relation Model) (op : String) (v : Json) :
    Option (Writes Model Row) :=
  let far := side.far rel
  let single := fun op : Op Model Row => Writes.next op .done
  match op with
  | "connect" => (unique client far v).map fun where_ => single (.connect where_)
  | "delete" => (unique client far v).map fun where_ => single (.delete where_)
  | "deleteMany" => (client.filter far v).map fun where_ => single (.deleteMany where_)
  | "updateMany" =>
      match v with
      | .obj fields =>
          match within ["where", "data"] fields, v.get "where", v.get "data" with
          | true, some where_, some (.obj data) =>
              match client.filter far where_, readColumns client far (some rel) .update data with
              | some where_, some columns => some (single (.updateMany where_ columns))
              | _, _ => none
          | _, _, _ => none
      | _ => none
  | "createMany" =>
      match v with
      | .obj fields =>
          let skipDuplicates : Option Bool :=
            match v.get "skipDuplicates" with
            | none => some false
            | some (.bool b) => some b
            | some _ => none
          match within ["data", "skipDuplicates"] fields, v.get "data", skipDuplicates with
          | true, some (.arr rows), some skip => readRows client rel skip rows
          | true, some row, some skip => readRows client rel skip [row]
          | _, _, _ => none
      | _ => none
  | _ => none

/-- A `set`: the rows that any of the entries names. -/
def readSet (far : Model) : List Json → Option (Row → Bool)
  | [] => some fun _ => false
  | v :: vs =>
      match unique client far v, readSet far vs with
      | some where_, some rest => some fun r => where_ r || rest r
      | _, _ => none

/-- The parts of an operation that has data. -/
structure Parts where
  where_ : Option Json := none
  data : Option (Data Model Row) := none
  update : Option (Data Model Row) := none
  create : Option (Data Model Row) := none

/-- The operation its parts make. To the one row a child refers to, a `where`
is a further test and may be left out. -/
def Parts.op (parts : Parts) (side : Side) (far : Model) (op : String) : Option (Op Model Row) :=
  let test : Option (Row → Bool) :=
    match side, parts.where_ with
    | .many, some where_ => unique client far where_
    | .one, some where_ => client.filter far where_
    | .many, none => none
    | .one, none => some fun _ => true
  match op, parts.data, parts.update, parts.create with
  | "update", some data, none, none => test.map fun where_ => .update where_ data
  | "upsert", none, some update, some create =>
      test.map fun where_ => .upsert where_ update create
  | "connectOrCreate", none, none, some create =>
      match parts.where_ with
      | none => none
      | some where_ => (unique client far where_).map fun where_ => .connectOrCreate where_ create
  | _, _, _, _ => none

def Writes.append : Writes Model Row → Writes Model Row → Writes Model Row
  | .done, later => later
  | .next op rest, later => .next op (append rest later)

/-- The data of an object whose fields were read. -/
def dataOf (ok : Bool) (fields : Option (ColumnsWrite × Nested Model Row)) :
    Option (Data Model Row) :=
  match ok, fields with
  | true, some (columns, nested) => some (.mk columns nested)
  | _, _ => none

mutual

/-- The fields of one row's data, column by column and relation by relation. -/
def readFields (m : Model) (via : Option (Relation Model)) (mode : Mode) :
    List (String × Json) → Option (ColumnsWrite × Nested Model Row)
  | [] => some (.ok, .done)
  | (key, v) :: fields =>
      match fieldOf m via key, readFields m via mode fields with
      | some (.column c), some (columns, nested) =>
          (c.write client mode v).map fun w => (writing c w columns, nested)
      | some (.many rel), some (columns, nested) =>
          (readNested .many rel mode v).map fun writes => (columns, .many rel writes nested)
      | some (.one rel), some (columns, nested) =>
          (readNested .one rel mode v).map fun writes => (columns, .one rel writes nested)
      | _, _ => none

/-- What a relation is given: an object of operations. -/
def readNested (side : Side) (rel : Relation Model) (mode : Mode) :
    Json → Option (Writes Model Row)
  | .obj ops => readOps side rel mode ops
  | _ => none

def readOps (side : Side) (rel : Relation Model) (mode : Mode) :
    List (String × Json) → Option (Writes Model Row)
  | [] => some .done
  | (op, .arr vs) :: ops =>
      if offered side mode op && decide (side = .many) then
        -- a foreign key that may not be null cannot be taken away
        match op, readOps side rel mode ops with
        | "disconnect", some rest => if vs.isEmpty then some rest else none
        | "set", some rest =>
            (readSet client (side.far rel) vs).map fun where_ => .next (.set where_) rest
        | op, some rest =>
            (readEach side rel op vs).map fun writes => Writes.append writes rest
        | _, none => none
      else none
  | (op, v) :: ops =>
      if offered side mode op then
        match op, readOps side rel mode ops with
        | "set", some rest =>
            (unique client (side.far rel) v).map fun where_ => .next (.set where_) rest
        | op, some rest => (readOp side rel op v).map fun writes => Writes.append writes rest
        | _, none => none
      else none

/-- A list of operations of one name. `createMany` takes no list. -/
def readEach (side : Side) (rel : Relation Model) (op : String) :
    List Json → Option (Writes Model Row)
  | [] => if op = "createMany" then none else some .done
  | v :: vs =>
      match readOp side rel op v, readEach side rel op vs with
      | some writes, some rest => some (Writes.append writes rest)
      | _, _ => none

def readOp (side : Side) (rel : Relation Model) (op : String) :
    Json → Option (Writes Model Row)
  | .obj fields =>
      let far := side.far rel
      match op with
      | "create" =>
          (dataOf (acceptable far (some rel) .create fields)
            (readFields far (some rel) .create fields)).map fun data =>
              .next (.create data) .done
      | "update" =>
          if side = .one ∧ !has fields "data" then
            (dataOf (acceptable far (some rel) .update fields)
              (readFields far (some rel) .update fields)).map fun data =>
                .next (.update (fun _ => true) data) .done
          else
            match readParts side rel fields with
            | some parts => (parts.op client side far op).map fun op => .next op .done
            | none => none
      | "upsert" | "connectOrCreate" =>
          match readParts side rel fields with
          | some parts => (parts.op client side far op).map fun op => .next op .done
          | none => none
      | _ => readFlat client side rel op (.obj fields)
  | _ => none

def readParts (side : Side) (rel : Relation Model) : List (String × Json) → Option Parts
  | [] => some {}
  | ("where", v) :: rest =>
      (readParts side rel rest).map fun parts => { parts with where_ := some v }
  | (part, .obj fields) :: rest =>
      let far := side.far rel
      match part, readParts side rel rest with
      | "data", some parts =>
          (dataOf (acceptable far (some rel) .update fields)
            (readFields far (some rel) .update fields)).map fun data =>
              { parts with data := some data }
      | "update", some parts =>
          (dataOf (acceptable far (some rel) .update fields)
            (readFields far (some rel) .update fields)).map fun data =>
              { parts with update := some data }
      | "create", some parts =>
          (dataOf (acceptable far (some rel) .create fields)
            (readFields far (some rel) .create fields)).map fun data =>
              { parts with create := some data }
      | _, _ => none
  | _ => none

end

/-- The `data` of `prisma.accounts.update`, if Prisma accepts it: an object,
or what `Object.assign` makes of a text, a number or a boolean. -/
def readUpdate (payload : Json) : Option (Data Model Row) :=
  match payload with
  | .arr _ => none
  | payload =>
      let fields := Json.ownProps (some payload)
      dataOf true (readFields client .accounts none .update fields)

/-- `prisma.accounts.update({ where: { id }, data })`. -/
def accountsUpdate (id : Int) (data : Json) : Run Model Row Unit :=
  match readUpdate client data with
  | none => Run.refuse .invalid
  | some data => data.update schema .accounts id

def failure : WriteError → Failure
  | .invalid => .invalidValue "accounts"
  | .notFound => .notFound "accounts"
  | .unique => .uniqueConstraint "accounts"
  | .foreignKey => .error "Foreign key constraint violated"
  | .required => .error "The change would violate a required relation"

end Prisma

open Prisma

/-! ## The handler -/

namespace Accounts

/-- What an update came to: the account as it was read back, or what was thrown
(which the handler answers with `badRequest`), and all that was written. -/
structure Updated where
  account : Except Failure Prisma.Row
  log : List (Change Model Prisma.Row)

/-- `updateAccount(account, payload)`. `Object.assign(null, {})` throws. The
update stands even where reading the row back fails. -/
def updateAccount (client : Client) (account : Int) (payload : Json)
    (db : Relational.Db Model Prisma.Row) : Updated :=
  match payload with
  | .null => { account := .error .typeError, log := [] }
  | payload =>
      match (accountsUpdate client account payload).exec db with
      | .error e => { account := .error (failure e), log := [] }
      | .ok (_, log) =>
          match (db.applyAll log).byId .accounts account with
          | none => { account := .error (.notFound "accounts"), log }
          | some updated => { account := .ok updated, log }

end Accounts

end Anypay
