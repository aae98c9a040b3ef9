/-
Anypay.UnsignedTheorems — whether the check before signing and the one after agree.

`checkUnsigned_utxo`: on a UTXO chain the plugin looks at the FIRST transaction
only, and there it is the check of the submission. `checkUnsigned_account`: on
the EVM chains, for their tokens and on XRP it reads the transaction through a
bitcore library that is not there, and throws. `agrees_iff` puts the two into
one condition.
-/
import Anypay.Db.Rules
import Anypay.Unsigned

namespace Anypay

open Async Proc

namespace Unsigned

/-- The chains a transaction pays on with outputs. -/
def utxoChains : List String := ["BTC", "BSV", "BCH", "DASH", "LTC", "DOGE", "FB"]

/-- The EVM chains, where the tokens are too, and XRP. -/
def accountChains : List String := ["ETH", "MATIC", "AVAX", "XRP"]

section Check

variable {libraries : ChainLibraries} {entry : String × Plugin} {option : PaymentOption}

/-- On a UTXO chain the first transaction decides, as it would if submitted. -/
theorem checkUnsigned_utxo (h : entry ∈ plugins libraries)
    (hchain : utxoChains.contains entry.2.chain = true) (transaction : Transaction)
    (rest : List Transaction) (c : Answer) :
    entry.2.checkUnsigned libraries option (transaction :: rest) =
      entry.2.verifyPayment option transaction c := by
  simp only [plugins, List.mem_cons, List.not_mem_nil, or_false] at h
  rcases h with rfl | rfl | rfl | rfl | rfl | rfl | rfl | rfl | rfl | rfl | rfl | rfl | rfl |
    rfl | rfl | rfl | rfl | rfl | rfl | rfl | rfl | rfl
  all_goals first
    | rfl
    | exact absurd hchain Bool.false_ne_true

/-- Without a bitcore library nothing can be read. -/
theorem checkUnsigned_account (h : entry ∈ plugins libraries)
    (hchain : accountChains.contains entry.2.chain = true) (transaction : Transaction)
    (rest : List Transaction) :
    entry.2.checkUnsigned libraries option (transaction :: rest) = .error .typeError := by
  simp only [plugins, List.mem_cons, List.not_mem_nil, or_false] at h
  rcases h with rfl | rfl | rfl | rfl | rfl | rfl | rfl | rfl | rfl | rfl | rfl | rfl | rfl |
    rfl | rfl | rfl | rfl | rfl | rfl | rfl | rfl | rfl
  all_goals first
    | rfl
    | exact absurd hchain Bool.false_ne_true

end Check

/-! ## The request -/

/-- The request for an option of an invoice. -/
def asking (invoice : Invoice) (option : PaymentOption) (transactions : List Transaction) :
    SubmitPaymentRequest where
  invoice_uid := invoice.uid
  currency := option.currency
  chain := some option.chain
  transactions := transactions

/-- The rows the request names, the first two steps of a run find them. -/
structure Named (o : Nat → Answer) (w : World) (invoice : Invoice) (option : PaymentOption) :
    Prop where
  findsInvoice : w.invoices.pick (fun r => r.uid == invoice.uid) (o 0).row = some invoice
  findsOption : w.paymentOptions.pick (fun r => r.invoice_uid == invoice.uid &&
    r.currency == option.currency && r.chain == option.chain) (o 1).row = some option

/-- The submission's own verification accepts every transaction; `a` are the
answers it gets. -/
def Verified (plugin : Plugin) (option : PaymentOption) (transactions : List Transaction)
    (a : Nat → Answer) : Prop :=
  ∀ i transaction, transactions[i]? = some transaction →
    plugin.verifyPayment option transaction (a i) = .ok true

/-- What `verifyUnsigned` tells the wallet. -/
def Accepts (env : Env) (libraries : ChainLibraries) (payment : SubmitPaymentRequest)
    (o : Nat → Answer) (w : World) : Prop :=
  ∃ texts, ((verifyUnsigned env libraries payment).exec o w).1 = .ok texts

section Request

variable {libraries : ChainLibraries} {env : Env} {o : Nat → Answer} {w : World}
  {invoice : Invoice} {option : PaymentOption} {plugin : Plugin}
  {transactions : List Transaction}

theorem accepts_iff (hnamed : Named o w invoice option)
    (hfind : find env option.currency option.chain = .ok plugin) :
    Accepts env libraries (asking invoice option transactions) o w ↔
      invoice.cancelled = false ∧
        plugin.checkUnsigned libraries option transactions = .ok true := by
  have hinvoice : (prisma.invoices.get w).pick (fun r => r.uid == invoice.uid) (o 0).row =
      some invoice := hnamed.findsInvoice
  have hoption : (prisma.payment_options.get w).pick (fun r => r.invoice_uid == invoice.uid &&
      r.currency == option.currency && r.chain == option.chain) (tail o 0).row = some option :=
    hnamed.findsOption
  unfold Accepts verifyUnsigned asking
  simp only [chainText, Option.getD_some, bind_eq]
  rw [Delegate.exec_findFirstOrThrow_bind, hinvoice]
  simp only
  cases hcancelled : invoice.cancelled with
  | true =>
      simp only [if_true]
      constructor
      · rintro ⟨texts, h⟩
        cases h
      · rintro ⟨h, -⟩
        cases h
  | false =>
      simp only [Bool.false_eq_true, if_false, true_and]
      rw [Delegate.exec_findFirstOrThrow_bind, hoption]
      simp only
      rw [hfind, exec_ofExcept_bind]
      simp only
      rw [exec_ofExcept_bind]
      cases hcheck : plugin.checkUnsigned libraries option transactions with
      | error e => simp
      | ok valid =>
          cases valid with
          | true =>
              simp only [if_true, iff_true]
              exact ⟨_, rfl⟩
          | false =>
              constructor
              · rintro ⟨texts, h⟩
                cases h
              · intro h
                cases h

/-- Where the check looks at the first transaction, that one must speak for all;
where it always throws, the submission must refuse one too. -/
def Fits (plugin : Plugin) (invoice : Invoice) (option : PaymentOption)
    (transactions : List Transaction) (a : Nat → Answer) : Prop :=
  if invoice.cancelled = false ∧ utxoChains.contains plugin.chain = true then
    (∀ transaction, transactions[0]? = some transaction →
        plugin.verifyPayment option transaction (a 0) = .ok true) →
      Verified plugin option transactions a
  else ¬ Verified plugin option transactions a

end Request

/-! ## The two checks -/

/-- **Before signing as after**: the wallet is told that its transactions are valid
just where the submission accepts every one of them, if and only if the condition
`Fits` is met. -/
theorem agrees_iff {libraries : ChainLibraries} {env : Env}
    (henv : env.plugins = plugins libraries) {o : Nat → Answer} {w : World} {invoice : Invoice}
    {option : PaymentOption} (hnamed : Named o w invoice option)
    {plugin : Plugin}
    (hfind : find env option.currency option.chain = .ok plugin)
    (hchain : (utxoChains ++ accountChains).contains plugin.chain = true)
    {transactions : List Transaction} (hne : transactions ≠ []) (a : Nat → Answer) :
    (Accepts env libraries (asking invoice option transactions) o w ↔
        Verified plugin option transactions a) ↔
      Fits plugin invoice option transactions a := by
  have hmem := mem_of_find hfind
  rw [henv] at hmem
  obtain ⟨transaction, rest, rfl⟩ := List.exists_cons_of_ne_nil hne
  rw [accepts_iff hnamed hfind]
  unfold Fits
  by_cases hlooks : invoice.cancelled = false ∧ utxoChains.contains plugin.chain = true
  · rw [if_pos hlooks]
    have hfirst : plugin.checkUnsigned libraries option (transaction :: rest) =
        plugin.verifyPayment option transaction (a 0) :=
      checkUnsigned_utxo hmem hlooks.2 transaction rest (a 0)
    rw [hfirst]
    constructor
    · intro h hok
      exact h.mp ⟨hlooks.1, hok transaction rfl⟩
    · intro h
      constructor
      · rintro ⟨-, hok⟩
        apply h
        rintro _ ⟨⟩
        exact hok
      · intro hverified
        exact ⟨hlooks.1, hverified 0 transaction rfl⟩
  · rw [if_neg hlooks]
    have hrefused : ¬ (invoice.cancelled = false ∧
        plugin.checkUnsigned libraries option (transaction :: rest) = .ok true) := by
      rintro ⟨hcancelled, hok⟩
      have haccount : accountChains.contains plugin.chain = true := by
        rw [List.contains_iff_mem, List.mem_append] at hchain
        rcases hchain with hutxo | haccount
        · exact absurd ⟨hcancelled, List.contains_iff_mem.mpr hutxo⟩ hlooks
        · exact List.contains_iff_mem.mpr haccount
      rw [checkUnsigned_account hmem haccount transaction rest] at hok
      cases hok
    constructor
    · intro h hverified
      exact hrefused (h.mpr hverified)
    · intro h
      exact ⟨fun haccepts => absurd haccepts hrefused, fun hverified => absurd hverified h⟩

/-! ## One transaction that pays, and one that does not -/

/-- An invoice of 1000 satoshis. -/
def thousandSatoshis : PaymentOption where
  id := 1
  invoice_uid := "a"
  currency := "BSV"
  chain := "BSV"
  outputs := some [{ address := "1", amount := some 1000 }]

def unpaidBsv : Invoice where
  id := 1
  uid := "a"
  status := .unpaid

/-- A library for which the transaction "paying" pays it, and every other nothing. -/
def readings : ChainLibraries where
  bitcore := fun _ txhex => some
    { hash := txhex,
      outputs := if txhex = "paying" then [some { address := "1", amount := 1000 }] else [] }

def bsv : Env where
  plugins := plugins readings

def asked : World where
  invoices := .single unpaidBsv
  paymentOptions := .single thousandSatoshis

theorem asked_named : Named (fun _ => {}) asked unpaidBsv thousandSatoshis where
  findsInvoice := rfl
  findsOption := rfl

/-- The wallet is told that the transaction that pays is valid. -/
theorem agrees_paying :
    Accepts bsv readings (asking unpaidBsv thousandSatoshis [{ txhex := "paying" }]) (fun _ => {})
        asked ↔
      Verified (UTXO.plugin readings "BSV") thousandSatoshis [{ txhex := "paying" }]
        fun _ => {} := by
  apply (agrees_iff rfl asked_named rfl (by decide) (by simp) fun _ => {}).mpr
  have hfits : unpaidBsv.cancelled = false ∧
      utxoChains.contains (UTXO.plugin readings "BSV").chain = true := ⟨rfl, rfl⟩
  rw [Fits, if_pos hfits]
  intro hfirst i transaction hi
  cases i with
  | zero => exact hfirst transaction hi
  | succ i => cases hi

/-- It is told so of a list whose second transaction pays nothing. -/
theorem second_unread :
    ¬ ∀ (libraries : ChainLibraries) (env : Env), env.plugins = plugins libraries →
      ∀ (o : Nat → Answer) (w : World) (invoice : Invoice) (option : PaymentOption)
        (plugin : Plugin) (transactions : List Transaction) (a : Nat → Answer),
        Named o w invoice option → invoice.status = .unpaid →
        find env option.currency option.chain = .ok plugin →
        (utxoChains ++ accountChains).contains plugin.chain = true → transactions ≠ [] →
        (Accepts env libraries (asking invoice option transactions) o w ↔
          Verified plugin option transactions a) := by
  intro h
  have hagrees := h readings bsv rfl (fun _ => {}) asked unpaidBsv thousandSatoshis
    (UTXO.plugin readings "BSV") [{ txhex := "paying" }, { txhex := "nothing" }] (fun _ => {})
    asked_named rfl rfl (by decide) (by simp)
  have haccepts : Accepts bsv readings (asking unpaidBsv thousandSatoshis
      [{ txhex := "paying" }, { txhex := "nothing" }]) (fun _ => {}) asked := ⟨_, rfl⟩
  have hsecond := hagrees.mp haccepts 1 { txhex := "nothing" } rfl
  have hrefused : ((UTXO.plugin readings "BSV").verifyPayment thousandSatoshis
      { txhex := "nothing" } {}).isOk = false := by decide +kernel
  rw [hsecond] at hrefused
  cases hrefused

end Unsigned

end Anypay
