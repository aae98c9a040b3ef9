/-
Anypay.Db.World — the state every request of the server shares, and the steps
that touch it.

A `World` is the database, the messages published so far, the webhook bodies
posted so far and the calls that were made but not awaited (`Job`s, which run
whenever they run). A `Task` is an async function over it: `Proc` with an
`Answer` from outside at every step.

The steps are Prisma's. A query without an order returns ANY matching row: the
answer picks one. `findFirstOrThrow` throws where nothing matches, `update`
where there is no such row or the unique column is taken.

`settlements` is a history variable: no function of the server has or reads
it. The step that brings an invoice to a paid status records there which
transaction did it, so that a property of whole runs can speak of it.
-/
import Anypay.Async.Pool
import Anypay.Db.Rows

namespace Anypay

open Store Async

/-! ## What comes from a chain -/

/-- `Transaction`: what a client submits as a payment. -/
structure Transaction where
  txhex : String
  txid : Option String := none
  txkey : Option String := none
  deriving DecidableEq

/-- `Confirmation`: a block that holds a transaction. -/
structure Confirmation where
  confirmation_hash : String
  confirmation_height : Nat
  confirmation_date : Time
  confirmations : Option Int := none
  deriving DecidableEq

/-- `TransactionReceipt` of an EVM chain, the fields that are read. The block
number stands for something only where there is a block hash. -/
structure TransactionReceipt where
  status : Bool
  transactionHash : String
  blockHash : Option String := none
  blockNumber : Nat := 0
  deriving DecidableEq

/-- Call data as ethers and the nodes write it: `0x`, then hexadecimal digits. -/
structure Calldata where
  text : String
  hex : ∀ c ∈ text.toList.drop 2, (digitIn 16 c).isSome = true
  deriving DecidableEq

/-- No call data. -/
def Calldata.empty : Calldata where
  text := "0x"
  hex := by simp

/-- A transaction as an EVM node returns it: its canonical hash, the contract
or address called, the value and the call data. -/
structure ChainTransaction where
  hash : String
  to_ : Option String := none
  value : Nat := 0
  input : Calldata := .empty
  deriving DecidableEq

/-- `BroadcastTxResult`. A provider may leave the id out. -/
structure BroadcastTxResult where
  txid : Option String := none
  success : Bool := true
  deriving DecidableEq

/-- A page of a block, as blockcypher answers: up to 500 of its transactions.
The list is left out of the answer for a block that is not known yet. -/
structure BlockPage where
  txids : Option (List String) := none
  time : Time := 0
  height : Nat := 0
  hash : String := ""

/-! ## Failures, answers, jobs -/

/-- What a rejected promise carries. -/
inductive Failure where
  /-- `throw new Error(message)`, or a third party's error. -/
  | error (message : String)
  /-- `findFirstOrThrow` or `update` without a row. -/
  | notFound (model : String)
  /-- Prisma error P2002. -/
  | uniqueConstraint (model : String)
  /-- Prisma refuses a value of the wrong type. -/
  | invalidValue (model : String)
  /-- A ZodError. -/
  | zod
  /-- A property of `undefined` or `null`, a constructor that is not there. -/
  | typeError
  deriving DecidableEq

/-- The providers a transaction is broadcast to. -/
inductive Provider where
  | blockchair
  | blockcypher
  | chainSo
  | bitcoind
  | nownodes
  | taal
  | whatsonchain
  | insight
  | mempool
  | solana
  | xrpl
  | web3
  | monero
  deriving DecidableEq

/-- What comes back from a provider: nothing, which is also what the HTTP client
makes of a status outside 2xx, or a status and a body. -/
inductive Reply where
  | failed
  | response (status : Nat) (body : Json)

/-- What the world outside decides at one step. -/
structure Answer where
  /-- Which matching row a query without an order returns. -/
  row : Nat := 0
  now : Time := 0
  /-- `shortid.generate()`. -/
  shortid : String := ""
  /-- `uuid.v4()`, and the salt a password is hashed with. -/
  uuid : String := ""
  salt : String := ""
  /-- A chain library or provider asked to verify, broadcast or parse. -/
  verified : Except Failure Bool := .ok true
  broadcast : Except Failure BroadcastTxResult := .ok {}
  /-- What each provider makes of a raw transaction sent to it. -/
  reply : String → Provider → Reply := fun _ _ => .failed
  parsed : Except Failure (List String) := .ok []
  confirmation : Except Failure (Option Confirmation) := .ok none
  /-- `web3.eth.getTransaction` of a chain and `web3.eth.getTransactionReceipt`. -/
  chainTransaction : Nat → String → Option ChainTransaction := fun _ _ => none
  receipt : String → Option TransactionReceipt := fun _ => none
  /-- Timestamp of a block, number of the latest one. -/
  blockTimestamp : Nat := 0
  latestBlock : Nat := 0
  /-- The address the first input of an invoice's transaction was paid to, as
  blockchair decodes that transaction and the one before. -/
  inputAddress : Except Failure String := .error .typeError
  /-- Blockcypher's page of a block from an offset on, and the transactions of a
  block as blockbook lists them. -/
  blockPage : String → Nat → Except Failure BlockPage := fun _ _ => .ok {}
  blockTxids : String → Except Failure (List String) := fun _ => .ok []
  /-- The recommended fee rate of a level, as fetched last. -/
  feeRate : String → Nat := fun _ => 1
  /-- The message broker asked for a queue. -/
  assertQueue : Except Failure Unit := .ok ()
  /-- An HTTP POST: status and body of the reply, or the error's message. -/
  post : Except String (Nat × String) := .ok (200, "")

/-- A call whose promise nobody awaits. -/
inductive Job where
  | createAndSendWebhook (topic : String) (payload : Json)
  | sendWebhook (webhook : Webhook)
  | sendWebhookForInvoice (uid type : String)
  | createWebhookForInvoice (invoice : Invoice)
  | createPaymentSubmission (submission : Time → Nat → PaymentSubmission)
  /-- `receiptListener.once('receipt', …)` after a raw transaction was sent. -/
  | onReceipt (txid : String)
  /-- The rest of `broadcastTx` after it resolved for a transaction hash. -/
  | lookUpReceipt (txid : String)
  | handleTransactionReceipt (receipt : TransactionReceipt)
  | revertPayment (txid : String)

/-- The invoice (by its row), the chain and the submitted transaction that
brought it to 'confirming' or 'paid'. -/
structure Settlement where
  invoice : Nat
  uid : String
  chain : String
  currency : String
  transaction : Transaction
  status : InvoiceStatus
  deriving DecidableEq

/-! ## The world -/

structure World where
  invoices : Table Invoice := .empty
  payments : Table Payment := .empty
  paymentOptions : Table PaymentOption := .empty
  paymentRequests : Table PaymentRequest := .empty
  paymentSubmissions : Table PaymentSubmission := .empty
  refunds : Table Refund := .empty
  evmTransactionReceipts : Table EvmTransactionReceipt := .empty
  webhooks : Table Webhook := .empty
  webhookAttempts : Table WebhookAttempt := .empty
  appWebhooks : Table AppWebhook := .empty
  accountWebhooks : Table AccountWebhook := .empty
  apps : Table App := .empty
  accounts : Table Account := .empty
  passwordResets : Table PasswordReset := .empty
  accessTokens : Table AccessToken := .empty
  linkedAccounts : Table LinkedAccount := .empty
  addresses : Table Address := .empty
  events : Table EventRecord := .empty
  invoiceNotes : Table InvoiceNote := .empty
  walletBots : Table WalletBot := .empty
  addressBalanceUpdates : Table AddressBalanceUpdate := .empty
  prices : Table Price := .empty
  /-- Routing key and body of every message published. -/
  published : List (String × Json) := []
  /-- URL and body of every webhook posted. -/
  posts : List (String × Json) := []
  jobs : List Job := []
  settlements : List Settlement := []

/-- An async function of the server. -/
abbrev Task (α : Type) := Proc World Answer Failure α

/-- A call that is made and not awaited. -/
def spawn (j : Job) : Task Unit :=
  Proc.step fun _ w => (.ok (), { w with jobs := w.jobs ++ [j] })

/-- A message goes out. -/
def publish (routingKey : String) (body : Json) : Task Unit :=
  Proc.step fun _ w => (.ok (), { w with published := w.published ++ [(routingKey, body)] })

/-- Ask the world outside; nothing is read or written here. -/
def ask {α : Type} (f : Answer → Except Failure α) : Task α :=
  Proc.query fun c _ => f c

/-- `throw new Error(message)`. -/
def reject {α : Type} (message : String) : Task α := throw (.error message)

/-! ## Prisma -/

/-- A matching row no other matching row is later than. -/
def latest {α : Type} (createdAt : α → Time) (where_ : α → Bool) (rows : List α) (r : α) :
    Bool :=
  where_ r && rows.all fun x => !where_ x || decide (createdAt x ≤ createdAt r)

/-- What `take` and `skip` leave of the rows; a negative `take` counts from the end. -/
def page {α : Type} (take : Int) (skip : Nat) (rows : List α) : List α :=
  if 0 ≤ take then (rows.drop skip).take take.toNat
  else ((rows.reverse.drop skip).take take.natAbs).reverse

/-- `prisma.<model>`: one table of the world. -/
structure Delegate (α : Type) [Record α] where
  model : String
  get : World → Table α
  put : World → Table α → World

namespace Delegate

variable {α : Type} [Record α] (d : Delegate α)

def failure (d : Delegate α) : TableError → Failure
  | .notFound => .notFound d.model
  | .unique => .uniqueConstraint d.model

def findMany (where_ : α → Bool) : Task (List α) :=
  Proc.query fun _ w => .ok ((d.get w).select where_)

def findFirst (where_ : α → Bool) : Task (Option α) :=
  Proc.query fun c w => .ok ((d.get w).pick where_ c.row)

def findFirstOrThrow (where_ : α → Bool) : Task α :=
  Proc.query fun c w =>
    match (d.get w).pick where_ c.row with
    | some r => .ok r
    | none => .error (.notFound d.model)

/-- One of the latest of the matching rows. -/
def readLatest (createdAt : α → Time) (where_ : α → Bool) (c : Answer) (w : World) :
    Except Failure α :=
  match (d.get w).pick (latest createdAt where_ (d.get w).rows) c.row with
  | some r => .ok r
  | none => .error (.notFound d.model)

/-- `findFirstOrThrow` with `orderBy: { createdAt: 'desc' }`. -/
def findLatestOrThrow (createdAt : α → Time) (where_ : α → Bool) : Task α :=
  Proc.query (d.readLatest createdAt where_)

/-- `findMany` with `take` and `skip`; a negative `skip` is refused. -/
def findPage (where_ : α → Bool) (take skip : Int) : Task (List α) :=
  Proc.query fun _ w =>
    if skip < 0 then .error (.invalidValue d.model)
    else .ok (page take skip.toNat ((d.get w).select where_))

/-- The outcome of a write, and the world after it. -/
def commit (w : World) : Except TableError (α × Table α) → Except Failure α × World
  | .ok (r, t) => (.ok r, d.put w t)
  | .error e => (.error (d.failure e), w)

/-- `create({ data })`. The row is built from the moment and its new id. -/
def create (mk : Time → Nat → α) (hid : ∀ t n, Record.id (mk t n) = n := by intros; rfl) :
    Task α :=
  Proc.step fun c w => d.commit w ((d.get w).insert? (mk c.now) (hid c.now))

/-- `update({ where: { id: i }, data })`. -/
def update (i : Nat) (f : Time → α → α)
    (hid : ∀ t r, Record.id (f t r) = Record.id r := by intros; rfl) : Task α :=
  Proc.step fun c w => d.commit w ((d.get w).update? i (f c.now) (hid c.now))

/-- `delete({ where: { id: i } })`. -/
def delete (i : Nat) : Task α :=
  Proc.step fun _ w => d.commit w ((d.get w).delete? i)

end Delegate

namespace prisma

def invoices : Delegate Invoice :=
  ⟨"invoices", World.invoices, fun w t => { w with invoices := t }⟩

def payments : Delegate Payment :=
  ⟨"payments", World.payments, fun w t => { w with payments := t }⟩

def payment_options : Delegate PaymentOption :=
  ⟨"payment_options", World.paymentOptions, fun w t => { w with paymentOptions := t }⟩

def paymentRequests : Delegate PaymentRequest :=
  ⟨"PaymentRequests", World.paymentRequests, fun w t => { w with paymentRequests := t }⟩

def paymentSubmissions : Delegate PaymentSubmission :=
  ⟨"PaymentSubmissions", World.paymentSubmissions,
    fun w t => { w with paymentSubmissions := t }⟩

def refunds : Delegate Refund :=
  ⟨"Refunds", World.refunds, fun w t => { w with refunds := t }⟩

def evmTransactionReceipts : Delegate EvmTransactionReceipt :=
  ⟨"EvmTransactionReceipts", World.evmTransactionReceipts,
    fun w t => { w with evmTransactionReceipts := t }⟩

def webhooks : Delegate Webhook :=
  ⟨"Webhooks", World.webhooks, fun w t => { w with webhooks := t }⟩

def webhookAttempts : Delegate WebhookAttempt :=
  ⟨"WebhookAttempts", World.webhookAttempts, fun w t => { w with webhookAttempts := t }⟩

def appWebhooks : Delegate AppWebhook :=
  ⟨"AppWebhooks", World.appWebhooks, fun w t => { w with appWebhooks := t }⟩

def accountWebhooks : Delegate AccountWebhook :=
  ⟨"AccountWebhooks", World.accountWebhooks, fun w t => { w with accountWebhooks := t }⟩

def apps : Delegate App := ⟨"Apps", World.apps, fun w t => { w with apps := t }⟩

def accounts : Delegate Account :=
  ⟨"accounts", World.accounts, fun w t => { w with accounts := t }⟩

def password_resets : Delegate PasswordReset :=
  ⟨"password_resets", World.passwordResets, fun w t => { w with passwordResets := t }⟩

def access_tokens : Delegate AccessToken :=
  ⟨"access_tokens", World.accessTokens, fun w t => { w with accessTokens := t }⟩

def linkedAccounts : Delegate LinkedAccount :=
  ⟨"LinkedAccounts", World.linkedAccounts, fun w t => { w with linkedAccounts := t }⟩

def addresses : Delegate Address :=
  ⟨"addresses", World.addresses, fun w t => { w with addresses := t }⟩

def events : Delegate EventRecord :=
  ⟨"events", World.events, fun w t => { w with events := t }⟩

def invoice_notes : Delegate InvoiceNote :=
  ⟨"invoice_notes", World.invoiceNotes, fun w t => { w with invoiceNotes := t }⟩

def walletBots : Delegate WalletBot :=
  ⟨"WalletBots", World.walletBots, fun w t => { w with walletBots := t }⟩

def addressBalanceUpdates : Delegate AddressBalanceUpdate :=
  ⟨"AddressBalanceUpdates", World.addressBalanceUpdates,
    fun w t => { w with addressBalanceUpdates := t }⟩

def prices : Delegate Price := ⟨"prices", World.prices, fun w t => { w with prices := t }⟩

end prisma

end Anypay
