/-
Anypay.Addresses — a merchant's addresses (`lib/core.ts`, `lib/addresses.ts`,
`destroy` of `server/v0/handlers/addresses.ts`).

An account has an address for a currency on a chain. Locking it is meant to
keep it as it is. Six functions write address rows; nothing in the database
makes a row unique or looks at `locked`.
-/
import Anypay.Plugins

namespace Anypay

open Async Proc

namespace Addresses

/-- `AddressChangeSet`, what the functions read of it. -/
structure AddressChangeSet where
  account_id : Int
  currency : String
  chain : String
  address : String
  paymail : Option String := none
  view_key : Option String := none

/-- `where: { account_id, currency, chain }`. -/
def held (account_id : Int) (currency chain : String) (r : Address) : Bool :=
  r.account_id == some account_id && r.currency == currency && r.chain == chain

/-- `if (address.locked)`. -/
def isLocked (r : Address) : Bool := r.locked == some true

/-- `core.setAddress(changeset)`. A paymail or view key that is not given leaves the
column of an existing row as it is. -/
def setAddress (env : Env) (changeset : AddressChangeSet) : Task Address := do
  let plugin ← Proc.ofExcept (find env changeset.currency changeset.chain)
  let paymail :=
    if '@' ∈ changeset.address.toList then some changeset.address else changeset.paymail
  let address ← ask (plugin.transformAddress changeset.address)
  let isValid ← ask (plugin.validateAddress address)
  if !isValid then reject ("invalid " ++ changeset.currency ++ " address")
  else do
    match ← prisma.addresses.findFirst
        (held changeset.account_id changeset.currency changeset.chain) with
    | some r =>
        if isLocked r then reject (changeset.currency ++ " address locked")
        else prisma.addresses.update r.id fun _ r =>
          { r with
            value := some address
            paymail := paymail.or r.paymail
            view_key := changeset.view_key.or r.view_key
            note := none }
    | none => prisma.addresses.create fun now id =>
        { id, account_id := some changeset.account_id, currency := changeset.currency,
          chain := changeset.chain, value := some address, view_key := changeset.view_key,
          paymail, updatedAt := now, createdAt := now }

/-- `core.unsetAddress(changeset)`: looked up by the currency alone. -/
def unsetAddress (changeset : AddressChangeSet) : Task Unit := do
  let address ← prisma.addresses.findFirstOrThrow fun r =>
    r.account_id == some changeset.account_id && r.currency == changeset.currency
  if isLocked address then reject (changeset.currency ++ " address locked")
  else do
    let _ ← prisma.addresses.delete address.id
    pure ()

/-- `lockAddress({ account_id, currency, chain })`. -/
def lockAddress (account_id : Int) (currency chain : String) : Task Address := do
  let address ← prisma.addresses.findFirstOrThrow (held account_id currency chain)
  prisma.addresses.update address.id fun _ r => { r with locked := some true }

/-- `unlockAddress({ account_id, currency, chain })`. -/
def unlockAddress (account_id : Int) (currency chain : String) : Task Address := do
  let address ← prisma.addresses.findFirstOrThrow (held account_id currency chain)
  prisma.addresses.update address.id fun _ r => { r with locked := some false }

/-- `removeAddress({ account, currency, chain })`. -/
def removeAddress (account_id : Int) (currency chain : String) : Task Unit := do
  let record ← prisma.addresses.findFirstOrThrow (held account_id currency chain)
  let _ ← prisma.addresses.delete record.id
  pure ()

/-- `destroy` of the v0 API: the currency is taken for the chain too. -/
def destroy (account_id : Int) (currency : String) : Task Unit := do
  let address ← prisma.addresses.findFirstOrThrow (held account_id currency currency)
  let _ ← prisma.addresses.delete address.id
  pure ()

/-- A call of one of the six. -/
inductive AddressCall where
  | setAddress (changeset : AddressChangeSet)
  | unsetAddress (changeset : AddressChangeSet)
  | lockAddress (account_id : Int) (currency chain : String)
  | unlockAddress (account_id : Int) (currency chain : String)
  | removeAddress (account_id : Int) (currency chain : String)
  | destroy (account_id : Int) (currency : String)

/-- What a call runs. -/
def handle (env : Env) : AddressCall → Task Unit
  | .setAddress changeset => do
      let _ ← setAddress env changeset
      pure ()
  | .unsetAddress changeset => unsetAddress changeset
  | .lockAddress account_id currency chain => do
      let _ ← lockAddress account_id currency chain
      pure ()
  | .unlockAddress account_id currency chain => do
      let _ ← unlockAddress account_id currency chain
      pure ()
  | .removeAddress account_id currency chain => removeAddress account_id currency chain
  | .destroy account_id currency => destroy account_id currency

/-- The call sets or deletes an address. -/
def AddressCall.writesAddress : AddressCall → Bool
  | .lockAddress .. => false
  | .unlockAddress .. => false
  | _ => true

/-- The call does so without a look at `locked`. -/
def AddressCall.unchecked : AddressCall → Bool
  | .removeAddress .. => true
  | .destroy .. => true
  | _ => false

end Addresses

end Anypay
