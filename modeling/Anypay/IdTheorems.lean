/-
Anypay.IdTheorems — under which id a submitted transaction is stored.

The id of the payment row, and the invoice's hash, is the one the CLIENT gave
where it gave one; the transaction that was verified and broadcast has no say in
it. Only without a client's id does the code work one out, by the length of the
text or by parsing the transaction once more.

`Files` says what a stretch of a run stored; `wp_submitPayment_files` follows it
through a whole submission, and `stored_iff` compares the ids stored with those
of the transactions, plugin by plugin.
-/
import Anypay.SettleTheorems
import Anypay.RecordTheorems

namespace Anypay

open Store Async Proc

namespace Ids

open Submission (announcedHash afterBroadcast)
open Recording (Kind)

/-! ## What is stored -/

/-- The payment row was there before, with this txid and transaction. -/
def OldPayment (s : World) (p : Payment) : Prop :=
  ∃ q ∈ s.payments.rows, q.id = p.id ∧ q.txid = p.txid ∧ q.txhex = p.txhex

/-- The invoice row had the hash before. -/
def OldHash (s : World) (r : Invoice) (hash : String) : Prop :=
  ∃ q ∈ s.invoices.rows, q.id = r.id ∧ q.hash = some hash

/-- From `s` to `t`, `P` holds of the transaction and txid of every payment row
that is new, `H` of every hash an invoice got. -/
structure Files (P : Option String → String → Prop) (H : String → Prop) (s t : World) :
    Prop where
  payments : ∀ p ∈ t.payments.rows, OldPayment s p ∨ P p.txhex p.txid
  hashes : ∀ r ∈ t.invoices.rows, ∀ hash, r.hash = some hash → OldHash s r hash ∨ H hash

section Files

variable {P : Option String → String → Prop} {H : String → Prop} {s t u : World}

theorem files_of_same (hpayments : t.payments = s.payments) (hinvoices : t.invoices = s.invoices) :
    Files P H s t where
  payments := by
    intro p hp
    rw [hpayments] at hp
    exact .inl ⟨p, hp, rfl, rfl, rfl⟩
  hashes := by
    intro r hr hash hhash
    rw [hinvoices] at hr
    exact .inl ⟨r, hr, rfl, hhash⟩

theorem Files.refl (s : World) : Files P H s s := files_of_same rfl rfl

theorem Files.trans (h : Files P H s t) (h' : Files P H t u) : Files P H s u where
  payments := by
    intro p hp
    rcases h'.payments p hp with ⟨q, hq, hid, htxid, htxhex⟩ | hnew
    · rcases h.payments q hq with ⟨q', hq', hid', htxid', htxhex'⟩ | hnew
      · exact .inl ⟨q', hq', hid'.trans hid, htxid'.trans htxid, htxhex'.trans htxhex⟩
      · rw [htxid, htxhex] at hnew
        exact .inr hnew
    · exact .inr hnew
  hashes := by
    intro r hr hash hhash
    rcases h'.hashes r hr hash hhash with ⟨q, hq, hid, hqhash⟩ | hnew
    · rcases h.hashes q hq hash hqhash with ⟨q', hq', hid', hhash'⟩ | hnew
      · exact .inl ⟨q', hq', hid'.trans hid, hhash'⟩
      · exact .inr hnew
    · exact .inr hnew

/-- Rows of payments and invoices, which the calls around leave alone. -/
def filed (w : World) : Table Payment × Table Invoice := (w.payments, w.invoices)

theorem files_of_filed (h : filed t = filed s) : Files P H s t :=
  files_of_same (congrArg Prod.fst h) (congrArg Prod.snd h)

theorem always_of_keeps {α : Type} {p : Task α} (h : p.Keeps filed) :
    p.Always (Files P H) fun _ => True :=
  always_mono h (fun _ _ hsame => files_of_filed hsame) fun _ _ => trivial

/-- Writing a hash into one invoice. -/
theorem files_of_patch {i : Nat} {f : Invoice → Invoice} {hash : String}
    (hf : ∀ r, (f r).id = r.id ∧ (f r).hash = some hash) (hH : H hash)
    (hrows : t.invoices.rows = Table.patch i f s.invoices.rows)
    (hpayments : t.payments = s.payments) : Files P H s t where
  payments := by
    intro p hp
    rw [hpayments] at hp
    exact .inl ⟨p, hp, rfl, rfl, rfl⟩
  hashes := by
    intro r hr hash' hhash'
    rw [hrows] at hr
    obtain ⟨q, hq, rfl⟩ := List.mem_map.mp hr
    by_cases hid : Record.id q = i
    · rw [if_pos hid] at hhash'
      rw [(hf q).2] at hhash'
      obtain rfl := Option.some.inj hhash'
      exact .inr hH
    · rw [if_neg hid] at hhash' ⊢
      exact .inl ⟨q, hq, rfl, hhash'⟩

theorem always_updateHash {i : Nat} {f : Time → Invoice → Invoice}
    {hid : ∀ t r, Record.id (f t r) = Record.id r} {hash : String}
    (hf : ∀ now r, (f now r).hash = some hash) (hH : H hash) :
    (prisma.invoices.update i f hid).Always (Files P H) fun _ => True := by
  apply always_step
  · intro c s
    cases h : (prisma.invoices.get s).update? i (f c.now) (hid c.now) with
    | ok q =>
        obtain ⟨r, tb⟩ := q
        obtain ⟨-, -, -, -, hrows, -, -⟩ := Table.update?_ok h
        exact files_of_patch (fun x => ⟨hid c.now x, hf c.now x⟩) hH hrows rfl
    | error e => exact .refl s
  · intro _ _ _ _
    trivial

theorem always_settleInvoice {invoice : Invoice} {option : PaymentOption}
    {transaction : Transaction} {status : InvoiceStatus} {f : Time → Invoice → Invoice}
    {hid : ∀ t r, Record.id (f t r) = Record.id r} {hash : String}
    (hf : ∀ now r, (f now r).hash = some hash) (hH : H hash) :
    (settleInvoice invoice option transaction status f hid).Always (Files P H)
      fun _ => True := by
  apply always_step
  · intro c s
    cases h : s.invoices.update? invoice.id (f c.now) (hid c.now) with
    | ok q =>
        obtain ⟨r, tb⟩ := q
        obtain ⟨-, -, -, -, hrows, -, -⟩ := Table.update?_ok h
        exact files_of_patch (fun x => ⟨hid c.now x, hf c.now x⟩) hH hrows rfl
    | error e => exact .refl s
  · intro _ _ _ _
    trivial

theorem always_createPayment {mk : Time → Nat → Payment} {hid : ∀ t n, Record.id (mk t n) = n}
    (hP : ∀ now n, P (mk now n).txhex (mk now n).txid) :
    (prisma.payments.create mk hid).Always (Files P H) fun _ => True := by
  apply always_step
  · intro c s
    cases h : (prisma.payments.get s).insert? (mk c.now) (hid c.now) with
    | ok q =>
        obtain ⟨r, tb⟩ := q
        obtain ⟨-, hrows, -⟩ := Table.insert?_ok h
        constructor
        · intro p hp
          change p ∈ tb.rows at hp
          rw [hrows] at hp
          rcases List.mem_append.mp hp with hold | hnew
          · exact .inl ⟨p, hold, rfl, rfl, rfl⟩
          · rw [List.mem_singleton.mp hnew]
            exact .inr (hP _ _)
        · intro r hr hash hhash
          exact .inl ⟨r, hr, rfl, hhash⟩
    | error e => exact .refl s
  · intro _ _ _ _
    trivial

/-- The wallet is written beside the id. -/
theorem always_updateWallet (i : Nat) (wallet : String) :
    (prisma.payments.update i fun _ r => { r with wallet := some wallet }).Always (Files P H)
      fun _ => True := by
  apply always_step
  · intro c s
    cases h : (prisma.payments.get s).update? i (fun r => { r with wallet := some wallet })
        (fun _ => rfl) with
    | ok q =>
        obtain ⟨r, tb⟩ := q
        obtain ⟨-, -, -, -, hrows, -, -⟩ := Table.update?_ok h
        constructor
        · intro p hp
          change p ∈ tb.rows at hp
          rw [hrows] at hp
          obtain ⟨q, hq, rfl⟩ := List.mem_map.mp hp
          left
          by_cases hid : Record.id q = i
          · rw [if_pos hid]
            exact ⟨q, hq, rfl, rfl, rfl⟩
          · rw [if_neg hid]
            exact ⟨q, hq, rfl, rfl, rfl⟩
        · intro r hr hash hhash
          exact .inl ⟨r, hr, rfl, hhash⟩
    | error e => exact .refl s
  · intro _ _ _ _
    trivial

/-! ## completePayment and handleUnconfirmedPayment -/

variable {env : Env} {option : PaymentOption} {transaction : Transaction}

theorem always_paymentTxid {R : World → World → Prop} (hrefl : ∀ s, R s s) :
    (paymentTxid env option (orElse (some option.chain) option.currency) transaction).Always R
      (StoredId env option transaction) := by
  unfold paymentTxid StoredId
  cases nonEmpty transaction.txid with
  | some given => exact rfl
  | none =>
      by_cases hlen : transaction.txhex.length = 66
      · simp only [if_pos hlen]
        exact rfl
      · simp only [if_neg hlen, bind_eq]
        apply always_bind (P := fun plugin => find env option.currency
          (orElse (some option.chain) option.currency) = .ok plugin)
        · exact always_ofExcept fun _ h => h
        · intro plugin hplugin
          apply always_bind (P := fun ids => ∃ c, plugin.parsePayments transaction c = .ok ids)
          · exact always_step (fun _ s => hrefl s) fun c _ _ h => ⟨c, h⟩
          · rintro ids ⟨c, hids⟩
            cases ids with
            | nil => exact trivial
            | cons txid rest => exact ⟨plugin, c, rest, hplugin, hids⟩

theorem always_completePayment {confirming : Bool}
    (hP : ∀ txid, StoredId env option transaction txid → P (some transaction.txhex) txid)
    (hH : ∀ txid, StoredId env option transaction txid → H txid) :
    (completePayment env option transaction confirming).Always (Files P H) fun _ => True := by
  unfold completePayment
  simp only [bind_eq, pure_eq]
  apply always_bind (always_paymentTxid Files.refl)
  intro txid htxid
  apply always_bind (always_of_keeps keeps_query)
  intro invoice _
  apply always_bind (always_createPayment fun _ _ => hP txid htxid)
  intro p _
  apply always_bind (always_settleInvoice (fun _ _ => rfl) (hH txid htxid))
  intro _ _
  apply always_of_keeps
  apply keeps_bind keeps_query
  intro _
  apply keeps_bind (keeps_detached (keeps_publishEvent _ _))
  intro _
  exact keeps_bind (keeps_spawn _ fun _ => rfl) fun _ => trivial

theorem always_handleUnconfirmedPayment
    (hP : ∀ txid, UnconfirmedId env option transaction txid → P (some transaction.txhex) txid)
    (hH : ∀ txid, UnconfirmedId env option transaction txid → H txid) :
    (handleUnconfirmedPayment env option transaction).Always (Files P H) fun _ => True := by
  unfold handleUnconfirmedPayment
  simp only [bind_eq, pure_eq]
  apply always_bind (P := fun tx => decodeTransaction env option.chain transaction.txhex = .ok tx)
  · exact always_ofExcept fun _ h => h
  intro tx htx
  have htxid : UnconfirmedId env option transaction ((nonEmpty transaction.txid).getD tx.hash) :=
    ⟨tx, htx, rfl⟩
  apply always_bind (always_of_keeps keeps_query)
  intro invoice _
  apply always_bind (always_createPayment fun _ _ => hP _ htxid)
  intro p _
  apply always_bind (always_settleInvoice (fun _ _ => rfl) (hH _ htxid))
  intro _ _
  apply always_of_keeps
  exact keeps_bind (keeps_publish _ _ fun _ _ => rfl) fun _ => trivial

theorem always_settleTransaction {invoice : Invoice}
    (hP : ∀ txid, PaysUnder env option transaction txid → P (some transaction.txhex) txid)
    (hH : ∀ txid, PaysUnder env option transaction txid → H txid) :
    (settleTransaction env invoice option transaction).Always (Files P H) fun _ => True := by
  unfold settleTransaction
  unfold PaysUnder at hP hH
  split
  · rename_i hwaits
    simp only [if_pos hwaits] at hP hH
    simp only [bind_eq, pure_eq]
    apply always_bind (always_handleUnconfirmedPayment hP hH)
    intro p _
    exact always_of_keeps (keeps_bind (keeps_spawn _ fun _ => rfl) fun _ => trivial)
  · rename_i hwaits
    simp only [if_neg hwaits] at hP hH
    split
    · exact always_completePayment hP hH
    · exact always_completePayment hP hH

/-! ## submitPayment -/

/-- The transaction passed the verification and was broadcast with this result;
`A` are the answers there were. -/
structure Submitted (A : Answer → Prop) (plugin : Plugin) (option : PaymentOption)
    (transaction : Transaction) (result : BroadcastTxResult) : Prop where
  verified : ∃ c, A c ∧ plugin.verifyPayment option transaction c = .ok true
  sent : ∃ c jobs, A c ∧ plugin.broadcastTx transaction c = .ok (result, jobs)

/-- Being stored under an id, for a transaction as the broadcast left it. -/
structure Stores (A : Answer → Prop) (env : Env) (plugin : Plugin) (option : PaymentOption)
    (transaction : Transaction) (P : Option String → String → Prop) (H : String → Prop) :
    Prop where
  announced : ∀ result hash, Submitted A plugin option transaction result →
    announcedHash option result = some hash → H hash
  payment : ∀ result txid, Submitted A plugin option transaction result →
    PaysUnder env option (afterBroadcast option transaction result) txid →
    P (some transaction.txhex) txid
  hash : ∀ result txid, Submitted A plugin option transaction result →
    PaysUnder env option (afterBroadcast option transaction result) txid → H txid

variable {A : Answer → Prop} {plugin : Plugin}

theorem txhex_afterBroadcast (option : PaymentOption) (transaction : Transaction)
    (result : BroadcastTxResult) :
    (afterBroadcast option transaction result).txhex = transaction.txhex := by
  unfold afterBroadcast
  split <;> rfl

theorem always_announce {invoice : Invoice} {result : BroadcastTxResult}
    (hH : ∀ hash, announcedHash option result = some hash → H hash) :
    (Recording.announce invoice option transaction result).Always (Files P H)
      fun transaction' => transaction' = afterBroadcast option transaction result := by
  unfold Recording.announce
  cases hhash : announcedHash option result with
  | none => exact rfl
  | some hash =>
      apply always_bind (always_updateHash (fun _ _ => rfl) (hH hash hhash))
      intro _ _
      exact rfl

theorem wp_broadcastTx_files {E : Failure → World → Prop} (s : World) (herr : ∀ e, E e s) :
    (broadcastTx plugin transaction).wp A
      (fun result t => Files P H s t ∧
        ∃ c jobs, A c ∧ plugin.broadcastTx transaction c = .ok (result, jobs)) E s :=
  wp_broadcastTx_sent
    (fun _ _ ht hsent => ⟨files_of_same ht.payments ht.invoices, hsent⟩) herr

/-- One round of the loop. -/
theorem wp_submitTransaction_files {payment : SubmitPaymentRequest} {invoice : Invoice}
    (hstores : Stores A env plugin option transaction P H) (s : World) :
    (submitTransaction env payment invoice option plugin transaction).wp A
      (fun _ t => Files P H s t) (fun _ t => Files P H s t) s := by
  unfold submitTransaction
  simp only [bind_eq, pure_eq]
  rw [wp_bind]
  apply wp_ask
  swap
  · exact fun _ => .refl s
  intro c hc verified hverified
  split
  · exact .refl s
  rename_i hpassed
  rw [Bool.not_eq_false] at hpassed
  subst hpassed
  rw [wp_bind, Recording.broadcastTransaction_eq, wp_bind]
  refine wp_mono (fun result t ht => ?_) (fun _ _ h => h)
    (wp_broadcastTx_files (P := P) (H := H) s fun _ => .refl s)
  obtain ⟨hfiles, hsent⟩ := ht
  have hsubmitted : Submitted A plugin option transaction result :=
    ⟨⟨c, hc, hverified⟩, hsent⟩
  have hsettle : (settleTransaction env invoice option
      (afterBroadcast option transaction result)).Always (Files P H) fun _ => True := by
    apply always_settleTransaction
    · intro txid htxid
      rw [txhex_afterBroadcast]
      exact hstores.payment result txid hsubmitted htxid
    · intro txid htxid
      exact hstores.hash result txid hsubmitted htxid
  rw [← wp_bind]
  refine wp_mono (fun _ u hu => hfiles.trans hu.1) (fun _ u hu => hfiles.trans hu)
    (wp_of_always (P := fun _ => True) Files.refl Files.trans ?_ t)
  apply always_bind (always_announce fun hash => hstores.announced result hash hsubmitted)
  rintro _ rfl
  apply always_bind hsettle
  intro p _
  split
  · exact trivial
  · exact always_bind (always_updateWallet _ _) fun _ _ => trivial

theorem wp_submitPayment_files {payment : SubmitPaymentRequest} {s : World}
    (hstores : ∀ invoice option plugin, Accepted env payment s invoice option plugin →
      ∀ transaction ∈ payment.transactions, Stores A env plugin option transaction P H) :
    (submitPayment env payment).wp A (fun _ t => Files P H s t) (fun _ t => Files P H s t)
      s := by
  have hrefl : Files P H s s := .refl s
  unfold submitPayment findPaymentOption
  simp only [bind_eq, pure_eq]
  rw [wp_bind]
  refine Delegate.wp_findFirstOrThrow (fun invoice hinvoice hw => ?_) fun _ => hrefl
  split
  · exact hrefl
  rename_i hunpaid
  rw [wp_bind]
  refine Delegate.wp_findFirst (fun option hoption ho => ?_) fun _ => hrefl
  rw [wp_bind]
  refine wp_ofExcept (fun plugin hplugin => ?_) fun _ _ => hrefl
  simp only [Bool.and_eq_true, beq_iff_eq] at ho hw
  have haccepted : Accepted env payment s invoice option plugin :=
    ⟨hinvoice, hw, not_not.mp hunpaid, hoption, ho.1.1, ho.1.2, ho.2, hplugin⟩
  rw [wp_bind]
  apply wp_forEach (I := Files P H s)
  · intro transaction htransaction t ht
    have hstores' := hstores invoice option plugin haccepted transaction htransaction
    exact wp_mono (fun _ u hu => ht.trans hu) (fun _ u hu => ht.trans hu)
      (wp_submitTransaction_files hstores' t)
  · exact hrefl

end Files

/-! ## The id of a transaction -/

section Kinds

variable {libraries : ChainLibraries} {ids : String → String → Option String} {env : Env}
  {option : PaymentOption} {transaction : Transaction} {result : BroadcastTxResult}

/-- The id of the transaction that is verified and broadcast: what the chain's
library makes of the text; of a token transfer submitted by its hash, that hash
as the nodes write it. `ids` are the ids of the chains whose library only reads
outputs. -/
def idOf (libraries : ChainLibraries) (ids : String → String → Option String)
    (transaction : Transaction) : Kind → Option String
  | .utxo currency => (libraries.bitcore currency transaction.txhex).map BitcoreTransaction.hash
  | .btc => (libraries.bitcoinjs.fromHex transaction.txhex).map BitcoreTransaction.hash
  | .fb => (libraries.bitcoinjs.fromHex transaction.txhex).map BitcoreTransaction.hash
  | .evm plugin =>
      match libraries.parseTransaction transaction.txhex with
      | some tx => tx.hash
      | none =>
          if plugin.token.isSome then
            some (toLowerCase (orElse transaction.txid transaction.txhex))
          else none
  | .xrp => ids "XRP" transaction.txhex
  | .sol => ids "SOL" transaction.txhex
  | .tokenOfSolana _ _ => ids "SOL" transaction.txhex
  | .xlm => ids "XLM" transaction.txhex
  | .xmr => ids "XMR" transaction.txhex

/-- The kinds of the registry. -/
def kinds : List (String × Kind) :=
  [("BTC", .btc), ("BSV", .utxo "BSV"), ("BCH", .utxo "BCH"), ("DASH", .utxo "DASH"),
   ("LTC", .utxo "LTC"), ("DOGE", .utxo "DOGE"), ("AVAX", .evm AVAX), ("ETH", .evm ETH),
   ("SOL", .sol), ("XRP", .xrp), ("XLM", .xlm), ("XMR", .xmr), ("MATIC", .evm MATIC),
   ("USDC.AVAX", .evm USDC_AVAX), ("USDC.MATIC", .evm USDC_MATIC),
   ("USDC.ETH", .evm USDC_ETH),
   ("USDC.SOL", .tokenOfSolana "USDC" "EPjFWdd5AufqSSqeM2qN1xzybapC8G4wEGGkZwyTDt1v"),
   ("USDT.AVAX", .evm USDT_AVAX), ("USDT.MATIC", .evm USDT_MATIC),
   ("USDT.ETH", .evm USDT_ETH),
   ("USDT.SOL", .tokenOfSolana "USDT" "Es9vMFrzaCERmJfrF4H2FYD4KCoNkY11McCe8BenwNYB"),
   ("FB", .fb)]

def kindOf (currency chain : String) : Option Kind := kinds.lookup (pluginKey currency chain)

theorem plugins_eq (libraries : ChainLibraries) :
    plugins libraries = kinds.map fun entry => (entry.1, entry.2.plugin libraries) := rfl

theorem lookup_map {α β : Type} (l : List (String × α)) (f : α → β) (k : String) :
    (l.map fun entry => (entry.1, f entry.2)).lookup k = (l.lookup k).map f := by
  induction l with
  | nil => rfl
  | cons entry l ih =>
      rw [List.map_cons, List.lookup_cons, List.lookup_cons]
      cases k == entry.1 with
      | true => rfl
      | false => exact ih

theorem find_kind (henv : env.plugins = plugins libraries) {currency chain : String}
    {plugin : Plugin} (h : find env currency chain = .ok plugin) :
    ∃ kind, kindOf currency chain = some kind ∧ plugin = kind.plugin libraries := by
  unfold find at h
  rw [henv, plugins_eq, lookup_map] at h
  unfold kindOf
  cases hkind : kinds.lookup (pluginKey currency chain) with
  | none =>
      rw [hkind] at h
      cases h
  | some kind =>
      rw [hkind] at h
      exact ⟨kind, rfl, (Except.ok.inj h).symm⟩

/-- Parsing finds the id: an EVM transaction has one where it is signed, and what
XRP takes for one is the signature. -/
def RightParsed (libraries : ChainLibraries) (ids : String → String → Option String)
    (transaction : Transaction) : Kind → Prop
  | .evm _ => ((libraries.parseTransaction transaction.txhex).bind
      EthersTransaction.hash).isSome = true
  | .xrp => (libraries.xrpl transaction.txhex).bind XrplTransaction.TxnSignature =
      ids "XRP" transaction.txhex
  | _ => True

/-- The id the code arrives at is the right one: the client's, or on XRP the
ledger's, where there is one; else the one it works out. -/
def RightId (libraries : ChainLibraries) (ids : String → String → Option String) (env : Env)
    (option : PaymentOption) (transaction : Transaction) (result : BroadcastTxResult)
    (kind : Kind) : Prop :=
  match nonEmpty (afterBroadcast option transaction result).txid with
  | some given => idOf libraries ids transaction kind = some given
  | none =>
      if option.currency = "BTC" ∧ env.requireBtcConfirmations = true then True
      else if transaction.txhex.length = 66 then
        idOf libraries ids transaction kind = some transaction.txhex
      else RightParsed libraries ids transaction kind

/-- A currency and chain as an option has them. -/
theorem orElse_chain {payment : SubmitPaymentRequest}
    (hcurrency : option.currency = payment.currency)
    (hchain : option.chain = orElse payment.chain payment.currency) :
    orElse (some option.chain) option.currency = orElse payment.chain payment.currency := by
  rw [hchain, hcurrency]
  unfold orElse
  cases payment.chain with
  | none => simp
  | some chain => by_cases hc : chain = "" <;> simp [hc]

/-- The id parsed out of a transaction is its own, except on XRP. -/
theorem idOf_parsed {kind : Kind} {txid : String}
    (h : kind.paymentIn libraries transaction.txhex = some txid) :
    idOf libraries ids transaction kind = some txid ↔
      RightParsed libraries ids transaction kind := by
  unfold RightParsed
  have hutxo (decoded : Option BitcoreTransaction) (hd : decoded.bind Recording.utxoPayment =
      some txid) : decoded.map BitcoreTransaction.hash = some txid := by
    cases decoded with
    | none => cases hd
    | some tx =>
        simp only [Option.bind_some, Recording.utxoPayment] at hd
        split at hd
        · exact hd
        · cases hd
  cases kind with
  | utxo currency => exact iff_true_intro (hutxo _ h)
  | btc => exact iff_true_intro (hutxo _ h)
  | fb => exact iff_true_intro (hutxo _ h)
  | evm plugin =>
      simp only [Kind.paymentIn] at h
      simp only [idOf]
      cases hparse : libraries.parseTransaction transaction.txhex with
      | none =>
          rw [hparse] at h
          cases h
      | some tx =>
          rw [hparse, Option.bind_some] at h
          rw [Option.bind_some]
          split at h
          · cases hhash : tx.hash with
            | none => simp [hhash]
            | some hash =>
                rw [hhash, Option.getD_some] at h
                rw [← h]
                simp [hhash]
          · cases h
  | xrp =>
      simp only [Kind.paymentIn] at h
      simp only [idOf]
      split at h
      · cases h
      · cases hdecode : libraries.xrpl transaction.txhex with
        | none =>
            rw [hdecode] at h
            cases h
        | some decoded =>
            rw [hdecode, Option.bind_some] at h
            rw [Option.bind_some]
            split at h
            · rw [h]
              exact eq_comm
            · cases h
  | sol => cases h
  | tokenOfSolana currency token => cases h
  | xlm => cases h
  | xmr => cases h

/-- Two libraries read Bitcoin transactions, under one id. -/
def SameIds (libraries : ChainLibraries) : Prop :=
  ∀ txhex tx tx', libraries.bitcore "BTC" txhex = some tx →
    libraries.bitcoinjs.fromHex txhex = some tx' → tx.hash = tx'.hash

/-- The option, and the plugin it is paid through. -/
structure Offered (env : Env) (libraries : ChainLibraries) (payment : SubmitPaymentRequest)
    (option : PaymentOption) (kind : Kind) : Prop where
  currency : option.currency = payment.currency
  chain : option.chain = orElse payment.chain payment.currency
  registered : kindOf payment.currency (orElse payment.chain payment.currency) = some kind
  plugin : find env payment.currency (orElse payment.chain payment.currency) =
    .ok (kind.plugin libraries)

theorem find_btc (henv : env.plugins = plugins libraries) :
    find env "BTC" "BTC" = .ok (BTC.plugin libraries) := by
  unfold find
  rw [henv]
  rfl

/-- What has to wait for confirmations is Bitcoin. -/
theorem Offered.btc (henv : env.plugins = plugins libraries) {payment : SubmitPaymentRequest}
    {kind : Kind} (h : Offered env libraries payment option kind)
    (hbtc : option.currency = "BTC") : option.chain = "BTC" ∧ kind = .btc := by
  have hfind := h.plugin
  have hkind := h.registered
  rw [← h.chain, ← h.currency, hbtc] at hfind hkind
  have hchain := chain_of_find henv (find_btc henv) hfind
  rw [hchain] at hkind
  exact ⟨hchain, (Option.some.inj hkind).symm⟩

/-- Bitcore's id of a Bitcoin transaction that was verified. -/
theorem idOf_waiting (hsame : SameIds libraries) {A : Answer → Prop} {tx : BitcoreTransaction}
    (h : Submitted A (Kind.plugin libraries .btc) option transaction result)
    (htx : libraries.bitcore "BTC" transaction.txhex = some tx) :
    idOf libraries ids transaction .btc = some tx.hash := by
  obtain ⟨c, -, hverified⟩ := h.verified
  change BTC.validateUnsignedTx libraries.bitcoinjs option [transaction] = _ at hverified
  simp only [BTC.validateUnsignedTx, Bitcoinjs.parsePayments] at hverified
  cases hjs : libraries.bitcoinjs.fromHex transaction.txhex with
  | none =>
      rw [hjs] at hverified
      cases hverified
  | some tx' =>
      unfold idOf
      rw [hjs, hsame _ tx tx' htx hjs]
      rfl

/-- The id that is stored is the transaction's just where `RightId` holds. -/
theorem idOf_stored (henv : env.plugins = plugins libraries) (hsame : SameIds libraries)
    {A : Answer → Prop} {payment : SubmitPaymentRequest} {kind : Kind} {txid : String}
    (hoffered : Offered env libraries payment option kind)
    (hsubmitted : Submitted A (kind.plugin libraries) option transaction result)
    (hpays : PaysUnder env option (afterBroadcast option transaction result) txid) :
    idOf libraries ids transaction kind = some txid ↔
      RightId libraries ids env option transaction result kind := by
  unfold PaysUnder UnconfirmedId StoredId at hpays
  rw [txhex_afterBroadcast] at hpays
  unfold RightId
  cases hgiven : nonEmpty (afterBroadcast option transaction result).txid with
  | some given =>
      rw [hgiven] at hpays
      have htxid : txid = given := by
        split at hpays
        · obtain ⟨tx, -, he⟩ := hpays
          exact he
        · exact hpays
      rw [htxid]
  | none =>
      rw [hgiven] at hpays
      simp only
      split
      · rename_i hwaits
        rw [if_pos hwaits] at hpays
        obtain ⟨tx, htx, htxid⟩ := hpays
        obtain ⟨hchain, rfl⟩ := hoffered.btc henv hwaits.1
        have hbitcore : libraries.bitcore "BTC" transaction.txhex = some tx := by
          unfold decodeTransaction at htx
          rw [hchain, find_btc henv] at htx
          simp only [BTC.plugin, bitcorePlugin] at htx
          split at htx
          · rename_i tx' hdecode
            rw [hdecode, Except.ok.inj htx]
          · cases htx
        rw [Option.getD_none] at htxid
        rw [htxid]
        exact iff_true_intro (idOf_waiting hsame hsubmitted hbitcore)
      · rename_i hwaits
        rw [if_neg hwaits] at hpays
        split
        · rename_i hlen
          simp only [if_pos hlen] at hpays
          rw [hpays]
        · rename_i hlen
          simp only [if_neg hlen] at hpays
          obtain ⟨plugin, c, rest, hfind, hparse⟩ := hpays
          rw [orElse_chain hoffered.currency hoffered.chain, hoffered.currency, hoffered.plugin]
            at hfind
          obtain rfl := Except.ok.inj hfind
          have hfirst := @Recording.Kind.parsePayments_first libraries kind
            (afterBroadcast option transaction result) c
          rw [hparse, txhex_afterBroadcast] at hfirst
          exact idOf_parsed hfirst.symm

end Kinds

/-! ## Every submission -/

/-- One of the submitted transactions went out through the plugin of the option. -/
structure Went (env : Env) (libraries : ChainLibraries) (payment : SubmitPaymentRequest)
    (o : Nat → Answer) (option : PaymentOption) (kind : Kind) (transaction : Transaction)
    (result : BroadcastTxResult) : Prop where
  mem : transaction ∈ payment.transactions
  offered : Offered env libraries payment option kind
  submitted : Submitted (fun c => ∃ n, c = o n) (kind.plugin libraries) option transaction result

/-- Every id a run stored was stored for a transaction that went out, and `Good`
says how it fits that transaction. On SOL and XRP the broadcast has an invoice's
hash written by itself. -/
def StoredAs (env : Env) (libraries : ChainLibraries) (payment : SubmitPaymentRequest)
    (o : Nat → Answer) (w : World)
    (Good : PaymentOption → Kind → Transaction → BroadcastTxResult → String → Prop) : Prop :=
  Files
    (fun txhex txid => ∃ option kind transaction result,
      Went env libraries payment o option kind transaction result ∧
        txhex = some transaction.txhex ∧ Good option kind transaction result txid)
    (fun hash => ∃ option kind transaction result,
      Went env libraries payment o option kind transaction result ∧
        (announcedHash option result = some hash ∨ Good option kind transaction result hash))
    w ((submitPayment env payment).exec o w).2

/-- **Under its own id**: whatever a submission stores, it stores for a transaction
that was verified and broadcast; and the id is that transaction's just where
`RightId` holds. -/
theorem stored_iff {libraries : ChainLibraries} (ids : String → String → Option String)
    {env : Env} (henv : env.plugins = plugins libraries) (hsame : SameIds libraries)
    (payment : SubmitPaymentRequest) (o : Nat → Answer) (w : World) :
    StoredAs env libraries payment o w fun option kind transaction result txid =>
      (idOf libraries ids transaction kind = some txid ↔
        RightId libraries ids env option transaction result kind) := by
  unfold StoredAs
  apply wp_exec_state (A := fun c => ∃ n, c = o n)
  swap
  · intro n
    exact ⟨n, rfl⟩
  apply wp_submitPayment_files
  intro invoice option plugin haccepted transaction hmem
  obtain ⟨kind, hkind, rfl⟩ := find_kind henv haccepted.plugin
  have hoffered : Offered env libraries payment option kind :=
    ⟨haccepted.currency, haccepted.chain, hkind, haccepted.plugin⟩
  constructor
  · intro result hash hsubmitted hhash
    exact ⟨option, kind, transaction, result, ⟨hmem, hoffered, hsubmitted⟩, .inl hhash⟩
  · intro result txid hsubmitted hpays
    exact ⟨option, kind, transaction, result, ⟨hmem, hoffered, hsubmitted⟩, rfl,
      idOf_stored henv hsame hoffered hsubmitted hpays⟩
  · intro result txid hsubmitted hpays
    exact ⟨option, kind, transaction, result, ⟨hmem, hoffered, hsubmitted⟩,
      .inr (idOf_stored henv hsame hoffered hsubmitted hpays)⟩

/-- A library for which every text is a transaction that pays, under the hash "h". -/
def reading : ChainLibraries where
  bitcore := fun _ _ => some { hash := "h", outputs := [some { address := "1", amount := 1000 }] }

def till : Env where
  plugins := plugins reading

/-- An unpaid invoice of 1000 satoshis. -/
def open_ : World where
  invoices := .single { id := 1, uid := "a", status := .unpaid }
  paymentOptions := .single
    { id := 1, invoice_uid := "a", currency := "BSV", chain := "BSV",
      outputs := some [{ address := "1", amount := some 1000 }] }

/-- One transaction, under the id the client gives. -/
def paid (txid : Option String) : SubmitPaymentRequest where
  currency := "BSV"
  invoice_uid := "a"
  transactions := [{ txhex := "00", txid }]

theorem sameIds_reading : SameIds reading := by
  intro _ _ _ _ h
  cases h

/-- Without a client's id the payment is stored under its own. -/
theorem stored_own :
    ((submitPayment till (paid none)).exec (fun _ => {}) open_).2.payments.rows.map
        Payment.txid = ["h"] ∧
      StoredAs till reading (paid none) (fun _ => {}) open_
        fun option kind transaction result txid =>
          (idOf reading (fun _ _ => none) transaction kind = some txid ↔
            RightId reading (fun _ _ => none) till option transaction result kind) :=
  ⟨by decide +kernel, stored_iff _ rfl sameIds_reading _ _ _⟩

/-- With one, under that. -/
theorem stored_wrong :
    ¬ ∀ (libraries : ChainLibraries) (ids : String → String → Option String) (env : Env),
      env.plugins = plugins libraries → SameIds libraries →
      ∀ (payment : SubmitPaymentRequest) (o : Nat → Answer) (w : World),
        StoredAs env libraries payment o w fun _ kind transaction _ txid =>
          idOf libraries ids transaction kind = some txid := by
  intro h
  have hstored := h reading (fun _ _ => none) till rfl sameIds_reading
    (paid (some "other")) (fun _ => {}) open_
  have hrow : ∃ p ∈ ((submitPayment till (paid (some "other"))).exec (fun _ => {})
      open_).2.payments.rows, p.txid = "other" := by decide +kernel
  obtain ⟨p, hp, htxid⟩ := hrow
  rcases hstored.payments p hp with ⟨q, hq, -⟩ | ⟨option, kind, transaction, result, hwent, -, hid⟩
  · cases hq
  · obtain rfl : kind = .utxo "BSV" := (Option.some.inj hwent.offered.registered).symm
    rw [htxid] at hid
    change some "h" = some "other" at hid
    exact absurd hid (by decide)

end Ids

end Anypay
