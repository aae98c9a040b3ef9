/-
Anypay.Blocks — a new block is announced.

Two ways in. `lib/blockcypher.ts`: the pages of the block are fetched one by one,
500 transactions each, and every stored payment among them goes to
`confirmTransaction`. `lib/blockbook.ts` over `packages/blockbook`: a message with
the block's hash, then the list of its transactions, then a handler.

What the code says and does are two things here. The update that marks a payment
in `confirmTransaction` is not awaited, and Prisma sends nothing before somebody
awaits: it has no step in the model. A page WITHOUT a list asks Prisma for
`{ in: undefined }`, which is every payment there is. The blockbook client asks
for one fixed block whatever was announced, and its handler logs a confirmation
and stores nothing.
-/
import Anypay.Actors

namespace Anypay

open Async Proc

/-! ## blockcypher -/

namespace blockcypher

/-- `{ txid: { in: txids } }`: no list is no constraint. -/
def listed (txids : Option (List String)) (payment : Payment) : Bool :=
  match txids with
  | none => true
  | some txids => txids.contains payment.txid

/-- One page: every stored payment in it, one after the other. -/
def confirmPage (data : BlockPage) : Task (List Payment) := do
  let payments ← prisma.payments.findMany (listed data.txids)
  mapAll payments fun payment =>
    confirmTransaction payment (some
      { confirmation_hash := data.hash, confirmation_height := data.height,
        confirmation_date := data.time })

/-- The loop `while (!newTransactions || newTransactions.length > 0)`. It has no
bound; with the pages a run may still ask for, `none` says it has not ended. -/
def confirmPages (hash : String) : Nat → Nat → Option (List String) → List Payment →
    Task (Option (List Payment))
  | _, _, some [], confirmed => pure (some confirmed)
  | 0, _, _, _ => pure none
  | pages + 1, offset, _, confirmed => do
      let data ← ask fun c => c.blockPage hash offset
      let updated ← confirmPage data
      confirmPages hash pages (offset + 500) data.txids (confirmed ++ updated)

/-- `confirmTransactionsFromBlock(hash)`, as far as this many pages. -/
def confirmTransactionsFromBlock (hash : String) (pages : Nat) :
    Task (Option (List Payment)) :=
  confirmPages hash pages 0 none []

end blockcypher

/-! ## blockbook -/

namespace blockbook

/-- `BlockNotification`. -/
structure BlockNotification where
  hash : String
  height : Nat

/-- The block of the URL that `getBlockTxids` asks. -/
def fixedBlock : String := "000000000000000000000a8a35d8f999099f5d7a3acc0b76dc04c27de6489583"

/-- `getBlockTxids(hash)`. The hash is not used. -/
def getBlockTxids (_hash : String) : Task (List String) :=
  ask fun c => c.blockTxids fixedBlock

/-- The listener of 'blockTxids': a confirmation found is logged, an error too. -/
def onBlockTxids (env : Env) (txids : List String) : Task Unit := do
  let payments ← prisma.payments.findMany fun r =>
    txids.contains r.txid && r.confirmation_hash == none
  forEach payments fun payment => detached do
    let _ ← getConfirmation env payment.txid (nullText payment.chain) payment.currency

/-- `processBlock(block)`: nobody awaits the listener. -/
def processBlock (env : Env) (block : BlockNotification) : Task Unit := do
  let txids ← getBlockTxids block.hash
  detached (onBlockTxids env txids)

/-- `handleMessage(message)`, by the message's data. -/
def handleMessage (env : Env) : Option BlockNotification → Task Unit
  | none => pure ()
  | some block => if block.hash = "" then pure () else processBlock env block

end blockbook

end Anypay
