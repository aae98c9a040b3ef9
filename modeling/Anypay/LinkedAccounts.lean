/-
Anypay.LinkedAccounts — accounts that let others see their payments
(`lib/linked_accounts.ts`, `v1/handlers/linked_accounts.ts`).

A link goes from its SOURCE, whose payments are seen, to its TARGET, who sees them. The
source makes it and names the target's e-mail; either of the two takes it back, by the id in
the path. The e-mail may be missing from the payload: Prisma drops an undefined condition,
and any account will do.

What a link is good for, `linkedAccountPaymentsIndex`, is in `Anypay.AccountReads`. The list
of links, and what the handlers answer and log, are left out.
-/
import Anypay.AccountReads

namespace Anypay

open Async Proc

namespace LinkedAccounts

/-! ## The id in the path -/

/-- The digits a text begins with. -/
def leading (base : Nat) (cs : List Char) : Option Nat :=
  digits base (cs.takeWhile fun c => (digitIn base c).isSome)

def unsigned : List Char → Option Nat
  | '0' :: 'x' :: cs | '0' :: 'X' :: cs => leading 16 cs
  | cs => leading 10 cs

/-- `parseInt(text)`; none is NaN. -/
def parseInt (text : String) : Option Int :=
  match text.toList.dropWhile numberSpace with
  | '-' :: cs => (unsigned cs).map fun n => -(n : Int)
  | '+' :: cs => (unsigned cs).map fun n => (n : Int)
  | cs => (unsigned cs).map fun n => (n : Int)

/-- The id Prisma is asked for; it refuses NaN and what is no 32-bit integer. -/
def rowId (id : String) : Except Failure Int :=
  match (parseInt id).bind fun n => asInt n with
  | some n => .ok n
  | none => .error (.invalidValue "LinkedAccounts")

/-! ## lib/linked_accounts.ts -/

/-- `where: { email }`; undefined matches every row. -/
def named (email : Option String) (r : Account) : Bool :=
  email.isNone || r.email == email

def isPair (source target : Int) (r : LinkedAccount) : Bool :=
  r.source == source && r.target == target

/-- `linkAccount(account, { email })`. -/
def linkAccount (account : Account) (email : Option String) : Task LinkedAccount := do
  let target ← prisma.accounts.findFirstOrThrow (named email)
  match ← prisma.linkedAccounts.findFirst (isPair account.id target.id) with
  | some record => pure record
  | none => prisma.linkedAccounts.create fun now id =>
      { id, source := account.id, target := target.id, createdAt := now, updatedAt := now }

/-- `unlinkAccount(account, { id })`. -/
def unlinkAccount (account : Account) (id : String) : Task Unit := do
  let id ← Proc.ofExcept (rowId id)
  match ← prisma.linkedAccounts.findFirst fun r => (r.id : Int) == id with
  | none => pure ()
  | some link =>
      if link.target = account.id ∨ link.source = account.id then
        discard (prisma.linkedAccounts.delete link.id)
      else pure ()

/-! ## The requests -/

inductive Call where
  | link (account : Account) (email : Option String)
  | unlink (account : Account) (id : String)
  | payments (account : Account) (account_id : Json) (limit offset : Option Json)

def program : Call → Task Unit
  | .link account email => discard (linkAccount account email)
  | .unlink account id => unlinkAccount account id
  | .payments account account_id limit offset =>
      discard (AccountReads.linkedAccountPaymentsIndex account account_id limit offset)

/-- The requests under way. -/
abbrev Calls := Pool World Answer Failure Call

end LinkedAccounts

end Anypay
