/-
Anypay.Passwords — resetting a forgotten password (`lib/password.ts`,
`lib/password_reset.ts`, `reset` and `claim` of `server/v0/handlers/passwords.ts`,
`create` of `server/v1/handlers/password_resets.ts`).

A request stores a reset with a new uid and the e-mail; whoever knows the uid claims
it with a new password. The e-mail that would carry the uid is commented out.
`createPasswordReset`, which nothing calls, is left out.
-/
import Anypay.Accounts

namespace Anypay

open Async Proc

namespace Passwords

/-! ## lib/password.ts and lib/password_reset.ts -/

/-- `resetPassword(accountId, newPassword)`. -/
def resetPassword (platform : Platform) (accountId : Nat) (newPassword : String) :
    Task Bool := do
  let passwordHash ← hashPassword platform newPassword
  let _ ← prisma.accounts.update accountId fun _ r =>
    { r with password_hash := some passwordHash }
  pure true

/-- `resetPasswordByEmail(email, newPassword)`. -/
def resetPasswordByEmail (platform : Platform) (email newPassword : String) : Task Bool := do
  let account ← prisma.accounts.findFirstOrThrow (hasEmail email)
  resetPassword platform account.id newPassword

/-- `sendPasswordResetEmail(email)`: its whole body is a comment. -/
def sendPasswordResetEmail (_ : String) : Task Unit := pure ()

/-- `passwordResetEmail(email)`. -/
def passwordResetEmail (email : String) : Task PasswordReset := do
  let uid ← ask fun c => .ok c.uuid
  let record ← prisma.password_resets.create fun now id =>
    { id, uid, email := some email, createdAt := now, updatedAt := now }
  sendPasswordResetEmail email
  pure record

/-! ## The handlers -/

/-- `reset` of the v0 handlers. -/
def reset (email : String) : Task Unit := sendPasswordResetEmail email

/-- `create` of the v1 handlers. -/
def create (email : String) : Task Unit := discard (passwordResetEmail email)

/-- `claim`: whether it says it succeeded. Neither does it read whether the row was
claimed nor does it write that it is. -/
def claim (platform : Platform) (uid password : String) : Task Bool := do
  match ← prisma.password_resets.findFirst fun r => r.uid == uid with
  | none => pure false
  | some passwordReset => do
      let _ ← resetPasswordByEmail platform (nullText passwordReset.email) password
      pure true

end Passwords

end Anypay
