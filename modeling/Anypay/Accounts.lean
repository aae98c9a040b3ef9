/-
Anypay.Accounts — registering an account and logging in to one
(`lib/accounts/registration.ts`, `lib/accounts/index.ts`, `create` of
`server/v0/handlers/accounts.ts`, `lib/account_login.ts`,
`server/auth/password.ts`).

Three functions write an account's e-mail and three read it. Each definition
has the source's name inside a namespace named after the file it is from.

`toLowerCase`, bcryptjs and geoip-lite are the platform's: a parameter.
-/
import Anypay.Webhooks

namespace Anypay

open Async Proc

/-- What the account code takes from its platform. -/
structure Platform where
  /-- `String.prototype.toLowerCase`. -/
  toLowerCase : String → String
  /-- `bcrypt.hash(password, 10)`, with the salt it draws. -/
  hash : String → String → String
  /-- `bcrypt.compare(password, hash)`. -/
  compare : String → String → Bool
  /-- `geoip.lookup(ip)`. -/
  lookup : String → Option Json := fun _ => none

/-- `compare` accepts exactly the password that was hashed, and a hash is not
empty. -/
structure Platform.Exact (platform : Platform) : Prop where
  compare_hash : ∀ salt p q : String,
    platform.compare q (platform.hash salt p) = true ↔ q = p
  hash_ne : ∀ salt p : String, platform.hash salt p ≠ ""

/-- The account's row with this e-mail. -/
def hasEmail (email : String) (r : Account) : Bool := r.email == some email

/-- `prisma.accounts.create({ data })`, the e-mail's column checked. -/
def storeAccount (email : String) (data : Account) : Task Account :=
  if email.length ≤ 255 then
    prisma.accounts.create fun now id =>
      { data with id, email := some email, createdAt := now, updatedAt := now }
  else throw (.invalidValue "accounts")

/-- `hash(password)`. -/
def hashPassword (platform : Platform) (password : String) : Task String :=
  ask fun c => .ok (platform.hash c.salt password)

/-- `compare(password, hash)`; it rejects a wrong password. -/
def comparePassword (platform : Platform) (password : String) (hash : Option String) :
    Except Failure Unit :=
  if platform.compare password (nullText hash) then .ok () else .error (.error "false")

/-! ## lib/accounts/registration.ts -/

namespace Registration

/-- `registerAccount({ email, password })`. -/
def registerAccount (platform : Platform) (email password : String) : Task Account := do
  let passwordHash ← hashPassword platform password
  match ← prisma.accounts.findFirst (hasEmail email) with
  | none => storeAccount email { id := 0, password_hash := some passwordHash }
  | some _ => reject ("account already registered with email " ++ email)

/-- `loginAccount({ email, password })`. -/
def loginAccount (platform : Platform) (email password : String) : Task Account := do
  let account ← prisma.accounts.findFirstOrThrow (hasEmail email)
  match nonEmpty account.password_hash with
  | none => reject "invalid login"
  | some hash =>
      match comparePassword platform password (some hash) with
      | .error _ => reject "invalid login"
      | .ok () => pure account

end Registration

/-! ## lib/accounts/index.ts -/

namespace Accounts

/-- `registerAccount(email, password)`. -/
def registerAccount (platform : Platform) (email password : String) : Task Account := do
  let passwordHash ← hashPassword platform password
  match ← prisma.accounts.findFirst (hasEmail email) with
  | some _ => reject ("account " ++ email ++ " already exists")
  | none => do
      let account ← storeAccount email
        { id := 0, password_hash := some passwordHash, denomination := some "USD" }
      let _ ← prisma.events.create fun now id =>
        { id, account_id := some account.id, type := "account.created",
          payload := .obj [("email", .str email), ("id", .ofNat account.id)],
          createdAt := now, updatedAt := now }
      pure account

end Accounts

/-! ## server/v0/handlers/accounts.ts -/

namespace AccountHandlers

/-- `create`. An error response counts as thrown. -/
def create (platform : Platform) (remoteAddress : String) (forwardedFor : Option String)
    (email password : String) : Task Account := do
  let passwordHash ← hashPassword platform password
  match ← prisma.accounts.findFirst (hasEmail email) with
  | some _ => reject "Account already exists"
  | none => do
      let account ← storeAccount email
        { id := 0, password_hash := some passwordHash,
          registration_ip_address := some remoteAddress }
      match platform.lookup ((nonEmpty forwardedFor).getD remoteAddress) with
      | none => pure account
      | some geoLocation => do
          let _ ← prisma.accounts.update account.id fun _ r =>
            { r with registration_geolocation := some geoLocation }
          prisma.accounts.findFirstOrThrow fun r => r.id == account.id

end AccountHandlers

/-! ## lib/account_login.ts and server/auth/password.ts -/

namespace AccountLogin

/-- `withEmailPassword(email, password)`. -/
def withEmailPassword (platform : Platform) (email password : String) :
    Task AccessToken := do
  let account ← prisma.accounts.findFirstOrThrow (hasEmail (platform.toLowerCase email))
  match comparePassword platform password account.password_hash with
  | .error _ => reject "invalid password"
  | .ok () => do
      let uid ← ask fun c => .ok c.uuid
      prisma.access_tokens.create fun now id =>
        { id, account_id := account.id, uid := some uid, createdAt := now, updatedAt := now }

end AccountLogin

namespace Password

/-- `validate(request, username, password, h)` of basic auth: the credentials, none
where they are not valid. -/
def validate (platform : Platform) (username password : String) :
    Task (Option (AccessToken × Account)) :=
  if username = "" ∨ password = "" then pure none
  else Proc.tryCatch (do
    match ← prisma.accounts.findFirst (hasEmail (platform.toLowerCase username)) with
    | none => pure none
    | some account => do
        let accessToken ← AccountLogin.withEmailPassword platform username password
        pure (some (accessToken, account))) fun _ => pure none

end Password

/-! ## The registration paths -/

/-- The ways to register; the handler's has the addresses of its request. -/
inductive RegistrationPath where
  | registration
  | accounts
  | handler (remoteAddress : String) (forwardedFor : Option String)

/-- Register an e-mail. -/
def register (platform : Platform) : RegistrationPath → String → String → Task Account
  | .registration => Registration.registerAccount platform
  | .accounts => Accounts.registerAccount platform
  | .handler remoteAddress forwardedFor =>
      AccountHandlers.create platform remoteAddress forwardedFor

end Anypay
