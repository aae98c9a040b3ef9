/-
Anypay.Sessions — how a caller comes by a credential and is let in with it
(`lib/access_tokens.ts`, `lib/apps.ts`, `lib/apikeys.ts`, `lib/jwt.ts`, `lib/auth.ts`,
`server/auth`, `initializers/prometheus.ts`, and the handlers that hand credentials out).

There are two kinds. An access token is a row: basic auth looks its uid up, and with it the
account and, for the token of an app, the app. A JWT is signed over an account's id, for
whoever registers or logs in, after a row was stored for the same account.

The wallet bot keeps a token of its own (`findOrCreateWalletBot`, `getAccessToken` of
`apps/wallet-bot/index.ts`). jsonwebtoken with the server's keys is a parameter. The table
of logins, the sudo password and what a handler returns besides credentials are left out,
and so is `PUT /account`, whose payload can name any relation (`Anypay.AccountUpdates`).
-/
import Anypay.Passwords
import Anypay.Refunds
import Anypay.WalletBots

namespace Anypay

open Async Proc

namespace Sessions

/-! ## lib/jwt.ts and lib/auth.ts -/

/-- What a token says: an account's id and the uid of its access token, or `admin`. -/
structure TokenPayload where
  account_id : Option Int := none
  uid : Option String := none
  admin : Bool := false
  deriving DecidableEq

/-- `jsonwebtoken`, with the server's keys, issuer, subject and audience. -/
structure Jwt where
  /-- `sign(payload, privateKey, { expiresIn })`, at a moment. -/
  sign : TokenPayload → String → Time → String
  /-- `verify(token, publicKey)`, at a moment; none is a throw. -/
  verify : String → Time → Option TokenPayload

/-- `generateAccountToken({ account_id, uid })`. -/
def generateAccountToken (jwt : Jwt) (account_id : Int) (uid : String) : Task String :=
  ask fun c => .ok (jwt.sign { account_id := some account_id, uid := some uid } "30d" c.now)

/-- `generateAdminToken()`. -/
def generateAdminToken (jwt : Jwt) : Task String :=
  ask fun c => .ok (jwt.sign { admin := true } "12h" c.now)

/-- `verifyToken(token)`. -/
def verifyToken (jwt : Jwt) (token : String) : Task TokenPayload :=
  ask fun c =>
    match jwt.verify token c.now with
    | some decoded => .ok decoded
    | none => .error (.error "jwt")

/-- `authorizeAccount(token)`; an admin token has no account's id, and a `where` with an
undefined id asks for nothing. -/
def authorizeAccount (jwt : Jwt) (token : String) : Task Account := do
  let verified ← verifyToken jwt token
  prisma.accounts.findFirstOrThrow fun r =>
    verified.account_id.isNone || some (r.id : Int) == verified.account_id

/-! ## lib/access_tokens.ts, lib/apps.ts and lib/apikeys.ts -/

/-- `prisma.access_tokens.create({ data })` with a new uid. -/
def createToken (account_id : Int) (app_id : Option Int) : Task AccessToken := do
  let uid ← ask fun c => .ok c.uuid
  prisma.access_tokens.create fun now id =>
    { id, account_id, app_id, uid := some uid, createdAt := now, updatedAt := now }

/-- `ensureAccessToken(account)`. -/
def ensureAccessToken (account : Account) : Task AccessToken := createToken account.id none

/-- `createAppToken(id)`. -/
def createAppToken (id : Int) : Task AccessToken := do
  let app ← prisma.apps.findFirstOrThrow fun r => (r.id : Int) == id
  match ← prisma.access_tokens.findFirst fun r => r.app_id == some (app.id : Int) with
  | some token => pure token
  | none => createToken app.account_id (some app.id)

/-- `getMerchantApiKey(account_id)`. -/
def getMerchantApiKey (account_id : Int) : Task String := do
  match ← prisma.access_tokens.findFirst fun r => r.account_id == account_id with
  | some accessToken => pure (nullText accessToken.uid)
  | none => do
      let accessToken ← createToken account_id none
      pure (nullText accessToken.uid)

/-- A matching token no other matching one is earlier than. -/
def earliestToken (where_ : AccessToken → Bool) : Task (Option AccessToken) :=
  Proc.query fun c w => .ok (w.accessTokens.pick (fun r => where_ r &&
    w.accessTokens.rows.all fun x => !where_ x || decide (r.createdAt ≤ x.createdAt)) c.row)

/-- `getPlatformApiKey(account_id)`: an app is created at every call. -/
def getPlatformApiKey (account_id : Int) : Task String := do
  let app ← createApp account_id "platform"
  match ← earliestToken fun r =>
      r.account_id == account_id && r.app_id == some (app.id : Int) with
  | some accessToken => pure (nullText accessToken.uid)
  | none => do
      let accessToken ← createAppToken app.id
      pure (nullText accessToken.uid)

/-! ## server/auth -/

/-- The token with this uid. -/
def hasUid (uid : String) (r : AccessToken) : Bool := r.uid == some uid

/-- `validateToken(request, username, password)`: the token and the account it puts on the
request, none where they are not valid. -/
def validateToken (username : String) : Task (Option (AccessToken × Account)) :=
  if username = "" then pure none
  else do
    match ← prisma.access_tokens.findFirst (hasUid username) with
    | none => pure none
    | some accessToken => do
        let account ← prisma.accounts.findFirstOrThrow fun r =>
          (r.id : Int) == accessToken.account_id
        pure (some (accessToken, account))

/-- `validateAppToken(request, username, password)`, with the app as well. -/
def validateAppToken (username : String) : Task (Option (AccessToken × App × Account)) :=
  if username = "" then pure none
  else do
    match ← prisma.access_tokens.findFirst (hasUid username) with
    | none => pure none
    | some accessToken =>
        match orUndefined accessToken.app_id with
        | none => pure none
        | some app_id => do
            let app ← prisma.apps.findFirstOrThrow fun r => (r.id : Int) == app_id
            let account ← prisma.accounts.findFirstOrThrow fun r =>
              (r.id : Int) == accessToken.account_id
            pure (some (accessToken, app, account))

/-- The app the metrics are read with belongs to account 0. -/
def isMetricsApp (r : App) : Bool := r.name == "prometheus" && r.account_id == 0

/-- `auth(request, username, password)` of `server/auth/prometheus.ts`. -/
def prometheusAuth (platform : Platform) (username password : String) :
    Task (Option AccessToken) :=
  if platform.toLowerCase username ≠ "prometheus" then pure none
  else do
    match ← prisma.apps.findFirst isMetricsApp with
    | none => pure none
    | some prometheusApp =>
        if password = "" then pure none
        else Proc.tryCatch (prisma.access_tokens.findFirst fun r =>
          hasUid password r && r.app_id == some (prometheusApp.id : Int)) fun _ => pure none

/-! ## The handlers -/

/-- `geolocateAccountFromRequest(account, request)`, which nobody waits for. -/
def geolocateAccountFromRequest (location : Option Json) (remoteAddress : String)
    (account_id : Nat) : Task Unit := do
  location.elim (pure ()) fun _ =>
    discard (prisma.accounts.update account_id fun _ r =>
      { r with registration_geolocation := location })
  discard (prisma.accounts.update account_id fun _ r =>
    { r with registration_ip_address := some remoteAddress })

/-- The end of a registration and of a login: a token, and a JWT over it. -/
def startSession (jwt : Jwt) (account : Account) : Task (Account × String) := do
  let accessToken ← ensureAccessToken account
  let token ← generateAccountToken jwt account.id (nullText accessToken.uid)
  pure (account, token)

/-- `create` of `v1/handlers/account_registrations.ts`. -/
def createRegistration (platform : Platform) (jwt : Jwt) (email password : String) :
    Task (Account × String) := do
  let account ← Registration.registerAccount platform email password
  startSession jwt account

/-- `create` of `v1/handlers/account_logins.ts`. -/
def createLogin (platform : Platform) (jwt : Jwt) (email password : String) :
    Task (Account × String) := do
  let account ← Registration.loginAccount platform email password
  startSession jwt account

/-- `create` of `v0/handlers/access_tokens.ts`, behind the password. -/
def createAccessToken (platform : Platform) (username password : String) :
    Task (Option String × Int) := do
  match ← Password.validate platform username password with
  | none => reject "unauthorized"
  | some (token, _) => pure (token.uid, token.account_id)

/-- A handler behind `auth: "token"`. -/
def withToken {α : Type} (username : String) (handler : Account → Task α) : Task α := do
  match ← validateToken username with
  | none => reject "unauthorized"
  | some (_, account) => handler account

/-- A handler behind `auth: "jwt"`. -/
def withJwt {α : Type} (jwt : Jwt) (token : String) (handler : Account → Task α) : Task α := do
  let account ← authorizeAccount jwt token
  handler account

/-- `index` of `v0/handlers/api_keys.ts`. -/
def apiKeys (account : Account) : Task (String × String) := do
  let merchant_api_key ← getMerchantApiKey account.id
  let platform_api_key ← getPlatformApiKey account.id
  pure (merchant_api_key, platform_api_key)

/-- `index` of `v1/handlers/access_keys.ts`. -/
def accessKeys (account : Account) : Task String := getMerchantApiKey account.id

/-! ## The wallet bot -/

/-- The app of an account's wallet bot. -/
def isBotApp (account : Account) (r : App) : Bool :=
  r.account_id == (account.id : Int) && r.name == WalletBot.appName

/-- `findOrCreateWalletBot(account)`. -/
def findOrCreateWalletBot (account : Account) : Task (WalletBot × App) := do
  match ← prisma.walletBots.findFirst fun r => r.account_id == some (account.id : Int) with
  | some existingBot => do
      let app ← prisma.apps.findFirstOrThrow (isBotApp account)
      pure (existingBot, app)
  | none => do
      let app ← createApp account.id WalletBot.appName
      let walletBot ← prisma.walletBots.create fun _ id =>
        { id, account_id := some (account.id : Int), app_id := some (app.id : Int) }
      pure (walletBot, app)

/-- `getAccessToken(walletBot)`. -/
def getAccessToken (walletBot : WalletBot) : Task AccessToken := do
  let account_id := walletBot.account_id.getD 0
  match ← prisma.access_tokens.findFirst fun r =>
      r.account_id == account_id && r.app_id == walletBot.app_id with
  | some record => pure record
  | none => createToken account_id walletBot.app_id

/-- `GET /v1/api/apps/wallet-bot`, as far as its token goes. -/
def showWalletBot (account : Account) : Task (Option String) := do
  let (walletBot, _) ← findOrCreateWalletBot account
  let accessToken ← getAccessToken walletBot
  pure accessToken.uid

/-! ## initializers/prometheus.ts -/

/-- What `initialize()` tries next: an app of the account, new ones with a token. -/
def initializeApp (account : Account) : Task Unit := do
  match ← prisma.apps.findFirst fun r =>
      r.name == "prometheus" && r.account_id == (account.id : Int) with
  | some _ => pure ()
  | none => do
      let app ← createApp account.id "prometheus"
      discard (createToken account.id (some app.id))

/-- `initialize()`: an account for the metrics, its app and the app's token. -/
def initializePrometheus : Task Unit := do
  let account ← match ← prisma.accounts.findFirst (hasEmail "prometheus") with
    | some account => pure account
    | none => prisma.accounts.create fun now id =>
        { id, email := some "prometheus", createdAt := now, updatedAt := now }
  detached (initializeApp account)

/-! ## The calls -/

/-- What hands out, or reads, a credential. -/
inductive Call where
  | register (email password : String)
  | login (email password : String)
  | createAccessToken (username password : String)
  | apiKeys (username : String)
  | createApp (username name : String)
  | accessKeys (token : String)
  | walletBot (token : String)
  /-- One of the other ways to register, which start no session. -/
  | signUp (path : RegistrationPath) (email password : String)
  | geolocate (location : Option Json) (remoteAddress : String) (account_id : Nat)
  /-- The app of a refund; that of an invoice without an account is account 0's. -/
  | refundApp (account_id : Option Int)
  | resetPassword (email : String)
  | claimPassword (uid password : String)
  | initializePrometheus

/-- What a call runs. -/
def program (platform : Platform) (jwt : Jwt) : Call → Task Unit
  | .register email password => discard (createRegistration platform jwt email password)
  | .login email password => discard (createLogin platform jwt email password)
  | .createAccessToken username password =>
      discard (Sessions.createAccessToken platform username password)
  | .apiKeys username => discard (withToken username Sessions.apiKeys)
  | .createApp username name =>
      discard (withToken username fun account => Anypay.createApp account.id name)
  | .accessKeys token => discard (withJwt jwt token Sessions.accessKeys)
  | .walletBot token => discard (withJwt jwt token showWalletBot)
  | .signUp path email password => discard (Anypay.register platform path email password)
  | .geolocate location remoteAddress account_id =>
      geolocateAccountFromRequest location remoteAddress account_id
  | .refundApp account_id => discard (Anypay.createApp (account_id.getD 0) "@refunds")
  | .resetPassword email => Passwords.create email
  | .claimPassword uid password => discard (Passwords.claim platform uid password)
  | .initializePrometheus => Sessions.initializePrometheus

/-- The calls under way. -/
abbrev Calls := Pool World Answer Failure Call

end Sessions

end Anypay
