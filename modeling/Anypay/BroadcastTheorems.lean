/-
Anypay.BroadcastTheorems — a transaction nobody accepted.

`Provider.notices` says which replies a client turns into a rejection. The
callers only look at whether `broadcastTx` throws, so a payment is turned down
just where EVERY provider's client noticed (`turnedDown_iff`): one client that
is content with a refusal lets the submission go on, and one whose promise never
settles leaves the caller waiting.
-/
import Anypay.Chains.Broadcast
import Anypay.SettleTheorems

namespace Anypay.Broadcast

open Store Async Proc

/-! ## What the clients notice -/

/-- The property of a value that an access does not throw for. -/
def present : Option Json → Bool
  | none | some .null => false
  | _ => true

/-- A reply the client rejects. -/
def Provider.notices : Provider → Reply → Bool
  | .mempool, _ | .web3, _ => false
  | _, .failed => true
  | .blockchair, .response _ body | .nownodes, .response _ body => !present (some body)
  | .blockcypher, .response _ body => !present (body.get "tx")
  | .chainSo, .response status body => status ≠ 200 || !present (body.get "data")
  | .bitcoind, .response status body | .insight, .response status body =>
      status ≠ 200 || !present (some body)
  | .taal, .response status _ => status > 300
  | .whatsonchain, _ | .solana, _ => false
  | .xrpl, .response _ body =>
      match body.get "result" with
      | none => true
      | some result =>
          Json.str? (result.get "engine_result") ≠ some "tesSUCCESS" ||
            !present (result.get "tx_json")
  | .monero, .response _ body =>
      !present (some body) || Json.truthy (body.get "sanity_check_failed") ||
        Json.truthy (body.get "double_spend") || Json.truthy (body.get "too_big") ||
        Json.str? (body.get "status") = some "Failed"

/-- An `await` of the promise throws. -/
def throws {α : Type} : Promise α → Bool
  | .rejected _ => true
  | _ => false

@[simp] theorem throw_isOk {α : Type} (e : Failure) :
    (throw e : Except Failure α).isOk = false := rfl

@[simp] theorem pure_isOk {α : Type} (a : α) : (pure a : Except Failure α).isOk = true := rfl

@[simp] theorem readProperty_isOk (k : String) (v : Option Json) :
    (readProperty k v).isOk = present v := by
  rcases v with _ | v
  · rfl
  · cases v <;> rfl

@[simp] theorem readProperty_bind_isOk {α : Type} (k : String) (v : Option Json)
    (f : Option Json → Except Failure α) : (readProperty k v >>= f).isOk =
      (present v && (f (v.bind (Json.get k))).isOk) := by
  rcases v with _ | v
  · rfl
  · cases v <;> rfl

theorem present_get (k : String) (v : Json) :
    (present (some v) && present (v.get k)) = present (v.get k) := by
  cases v <;> simp [present, Json.get]

theorem fromBody_throws {txid : Json → Except Failure (Option Json)} {status : Nat}
    {body : Json} : throws (fromBody txid (.response status body)) = !(txid body).isOk := by
  simp only [fromBody]
  cases txid body <;> rfl

theorem fromBody200_throws {txid : Json → Except Failure (Option Json)} {status : Nat}
    {body : Json} : throws (fromBody200 txid (.response status body)) =
      (status ≠ 200 || !(txid body).isOk) := by
  by_cases h : status = 200
  · simp only [fromBody200, h, ne_eq, not_true, if_false, fromBody_throws, decide_false,
      Bool.false_or]
  · simp [fromBody200, h, throws]

theorem xrp_throws (status : Nat) (body : Json) :
    throws (XRP.submit (.response status body)) =
      Provider.notices .xrpl (.response status body) := by
  rw [XRP.submit, fromBody_throws, readProperty_bind_isOk, Option.bind_some]
  cases hresult : body.get "result" with
  | none => cases body <;> simp [hresult, Provider.notices, present]
  | some result =>
      have hbody : present (some body) = true := by
        cases body <;> simp_all [present, Json.get]
      simp only [hbody, Bool.true_and, readProperty_bind_isOk, Option.bind_some,
        Provider.notices, hresult]
      by_cases hengine : Json.str? (result.get "engine_result") = some "tesSUCCESS"
      · have hthere : present (some result) = true := by
          cases result <;> simp_all [present, Json.get, Json.str?]
        simp [hengine, hthere]
      · simp only [if_neg hengine]
        simp [hengine]

theorem xmr_throws (transaction : Transaction) (status : Nat) (body : Json) :
    throws (XMR.send transaction (.response status body)) =
      Provider.notices .monero (.response status body) := by
  rw [XMR.send, fromBody_throws, readProperty_bind_isOk, Option.bind_some]
  simp only [Provider.notices, Bool.not_and]
  by_cases hsanity : Json.truthy (body.get "sanity_check_failed") = true
  · simp [hsanity]
  by_cases hdouble : Json.truthy (body.get "double_spend") = true
  · simp [hsanity, hdouble]
  by_cases hbig : Json.truthy (body.get "too_big") = true
  · simp [hsanity, hdouble, hbig]
  by_cases hstatus : Json.str? (body.get "status") = some "Failed"
  · simp [hsanity, hdouble, hbig, hstatus]
  · simp [hsanity, hdouble, hbig, hstatus]

/-- The replies a client rejects are those it notices. -/
theorem client_throws (provider : Provider) (transaction : Transaction) (reply : Reply) :
    throws (provider.client transaction reply) = Provider.notices provider reply := by
  cases reply with
  | failed =>
      cases provider with
      | web3 =>
          simp only [Provider.client, EVM.send]
          split <;> rfl
      | _ => rfl
  | response status body =>
      cases provider with
      | blockchair =>
          rw [Provider.client, blockchair.publish, fromBody_throws, readProperty_isOk]
          rfl
      | nownodes =>
          rw [Provider.client, nownodes.broadcastTx, fromBody_throws, readProperty_isOk]
          rfl
      | blockcypher =>
          rw [Provider.client, blockcypher.publish, fromBody_throws, readProperty_bind_isOk,
            readProperty_isOk, Option.bind_some, present_get]
          rfl
      | chainSo =>
          rw [Provider.client, chain_so.broadcastTx, fromBody200_throws, readProperty_bind_isOk,
            readProperty_isOk, Option.bind_some, present_get]
          rfl
      | bitcoind =>
          rw [Provider.client, bitcoind_rpc.broadcastTx, fromBody200_throws, readProperty_isOk]
          rfl
      | insight =>
          rw [Provider.client, insight.broadcastTx, fromBody200_throws, readProperty_isOk]
          rfl
      | taal =>
          simp only [Provider.client, taal.broadcastTransaction, Provider.notices]
          split <;> simp_all [throws]
      | whatsonchain => rfl
      | solana => rfl
      | mempool => rfl
      | xrpl => exact xrp_throws status body
      | web3 =>
          simp only [Provider.client, EVM.send]
          split <;> rfl
      | monero => exact xmr_throws transaction status body

theorem oneSuccess_throws {α : Type} (promises : List (Promise α)) :
    throws (oneSuccess promises) = promises.all throws := by
  induction promises with
  | nil => rfl
  | cons promise promises ih =>
      cases promise with
      | fulfilled a => rfl
      | rejected e =>
          rw [oneSuccess, ih]
          rfl
      | pending =>
          rw [oneSuccess]
          split <;> rfl

theorem toExcept_error {α : Type} {promise : Promise α} (h : throws promise = true) :
    ∃ e, promise.toExcept = .error e := by
  cases promise with
  | rejected e => exact ⟨e, rfl⟩
  | fulfilled a => cases h
  | pending => cases h

/-! ## What the callers record -/

/-- The payments recorded for a raw transaction. -/
def recordedFor (txhex : String) (w : World) : List Nat :=
  (w.payments.rows.filter fun p => p.txhex == some txhex).map Payment.id

section Keeps

variable {env : Env} {option : PaymentOption} {transaction : Transaction} {txhex : String}

theorem keeps_recordedFor_create {mk : Time → Nat → Payment}
    {hid : ∀ t n, Record.id (mk t n) = n} (h : ∀ now n, (mk now n).txhex ≠ some txhex) :
    (prisma.payments.create mk hid).Keeps (recordedFor txhex) := by
  refine keeps_step fun c w => ?_
  cases hins : w.payments.insert? (mk c.now) (hid c.now) with
  | ok p =>
      obtain ⟨-, hrows, -⟩ := Table.insert?_ok hins
      simp [prisma.payments, Delegate.commit, hins, recordedFor, hrows, h]
  | error e => simp only [prisma.payments, Delegate.commit, hins]

theorem keeps_recordedFor_update {i : Nat} {f : Time → Payment → Payment}
    {hid : ∀ t r, Record.id (f t r) = Record.id r}
    (h : ∀ now r, (f now r).txhex = r.txhex ∧ (f now r).id = r.id) :
    (prisma.payments.update i f hid).Keeps (recordedFor txhex) := by
  refine keeps_step fun c w => ?_
  cases hup : w.payments.update? i (f c.now) (hid c.now) with
  | ok p =>
      obtain ⟨-, -, -, -, hrows, -⟩ := Table.update?_ok hup
      simp only [prisma.payments, Delegate.commit, hup, recordedFor, hrows]
      exact Table.map_filter_patch fun r _ _ => ⟨by rw [(h c.now r).1], fun _ => (h c.now r).2⟩
  | error e => simp only [prisma.payments, Delegate.commit, hup]

theorem keeps_recordedFor_settleInvoice {invoice : Invoice} {status : InvoiceStatus}
    {f : Time → Invoice → Invoice} {hid : ∀ t r, Record.id (f t r) = Record.id r} :
    (settleInvoice invoice option transaction status f hid).Keeps (recordedFor txhex) := by
  refine keeps_step fun c w => ?_
  cases h : w.invoices.update? invoice.id (f c.now) (hid c.now) with
  | ok q => simp only [prisma.invoices, Delegate.commit, recordedFor]
  | error e => rfl

theorem keeps_recordedFor_broadcastTx (plugin : Plugin) (transaction : Transaction) :
    (broadcastTx plugin transaction).Keeps (recordedFor txhex) := by
  refine keeps_step fun c w => ?_
  cases plugin.broadcastTx transaction c <;> rfl

theorem keeps_recordedFor_completePayment {confirming : Bool} (h : transaction.txhex ≠ txhex) :
    (completePayment env option transaction confirming).Keeps (recordedFor txhex) := by
  unfold completePayment
  simp only [bind_eq, pure_eq]
  refine keeps_bind (keeps_paymentTxid env option _ transaction) fun txid => ?_
  refine keeps_bind keeps_query fun invoice => ?_
  refine keeps_bind (keeps_recordedFor_create fun _ _ => by simpa using h) fun record => ?_
  refine keeps_bind keeps_recordedFor_settleInvoice fun _ => ?_
  refine keeps_bind keeps_query fun invoice => ?_
  refine keeps_bind (keeps_detached (keeps_publishEvent _ _)) fun _ => ?_
  exact keeps_bind (keeps_spawn _ fun _ => rfl) fun _ => trivial

theorem keeps_recordedFor_handleUnconfirmedPayment (h : transaction.txhex ≠ txhex) :
    (handleUnconfirmedPayment env option transaction).Keeps (recordedFor txhex) := by
  unfold handleUnconfirmedPayment
  simp only [bind_eq, pure_eq]
  refine keeps_bind (keeps_ofExcept _) fun tx => ?_
  refine keeps_bind keeps_query fun invoice => ?_
  refine keeps_bind (keeps_recordedFor_create fun _ _ => by simpa using h) fun record => ?_
  refine keeps_bind keeps_recordedFor_settleInvoice fun _ => ?_
  exact keeps_bind (keeps_publish _ _ fun _ _ => rfl) fun _ => trivial

theorem keeps_recordedFor_settleTransaction {invoice : Invoice} (h : transaction.txhex ≠ txhex) :
    (settleTransaction env invoice option transaction).Keeps (recordedFor txhex) := by
  unfold settleTransaction
  simp only [bind_eq, pure_eq]
  split
  · refine keeps_bind (keeps_recordedFor_handleUnconfirmedPayment h) fun record => ?_
    exact keeps_bind (keeps_spawn _ fun _ => rfl) fun _ => trivial
  · split <;> exact keeps_recordedFor_completePayment h

theorem keeps_recordedFor_updateInvoice {i : Nat} {f : Time → Invoice → Invoice}
    {hid : ∀ t r, Record.id (f t r) = Record.id r} :
    (prisma.invoices.update i f hid).Keeps (recordedFor txhex) :=
  Delegate.keeps_update fun _ _ => rfl

theorem keeps_recordedFor_broadcastTransaction {plugin : Plugin} {invoice : Invoice} :
    (broadcastTransaction plugin invoice option transaction).Keeps (recordedFor txhex) := by
  have hsend : (broadcastTx plugin transaction).Keeps (recordedFor txhex) :=
    keeps_recordedFor_broadcastTx plugin transaction
  unfold broadcastTransaction
  simp only [bind_eq, pure_eq]
  split
  · refine keeps_bind hsend fun _ => ?_
    exact keeps_bind keeps_recordedFor_updateInvoice fun _ => trivial
  · split
    · refine keeps_bind hsend fun _ => ?_
      exact keeps_bind keeps_recordedFor_updateInvoice fun _ => trivial
    · exact keeps_bind hsend fun _ => trivial

end Keeps

/-! ## The callers -/

/-- A plugin that broadcasts as the plugin of a registry key does. -/
def BroadcastsAs (settings : BroadcastSettings) (key : String) (plugin : Plugin) : Prop :=
  ∀ transaction c, (plugin.broadcastTx transaction c).map Prod.fst =
    (chainBroadcastTx settings key transaction (c.reply transaction.txhex)).toExcept

section Callers

variable {settings : BroadcastSettings} {key : String} {plugin : Plugin}
  {replies : Provider → Reply} {txhex : String} {A : Answer → Prop}

/-- Every provider's client rejects the reply it gets. -/
def AllNoticed (settings : BroadcastSettings) (key : String) (replies : Provider → Reply) :
    Prop :=
  ∀ provider ∈ broadcastProviders settings key,
    Provider.notices provider (replies provider) = true

theorem chainBroadcastTx_throws (transaction : Transaction) :
    throws (chainBroadcastTx settings key transaction replies) = true ↔
      AllNoticed settings key replies := by
  rw [chainBroadcastTx, oneSuccess_throws, List.all_map, List.all_eq_true]
  exact forall₂_congr fun provider _ => by
    rw [Function.comp_apply, client_throws]

/-- The broadcast of such a transaction throws. -/
theorem wp_broadcastTx_noticed (hplugin : BroadcastsAs settings key plugin)
    (hnoticed : AllNoticed settings key replies)
    (hA : ∀ c, A c → c.reply txhex = replies) {transaction : Transaction}
    (htx : transaction.txhex = txhex) {E : Failure → World → Prop} {s : World}
    (hE : ∀ e, E e s) : (broadcastTx plugin transaction).wp A (fun _ _ => False) E s := by
  have hthrows : ∀ c, A c → ∃ e, plugin.broadcastTx transaction c = .error e := by
    intro c hc
    have hmap := hplugin transaction c
    rw [htx, hA c hc] at hmap
    obtain ⟨e, he⟩ := toExcept_error ((chainBroadcastTx_throws transaction).mpr hnoticed)
    rw [he] at hmap
    cases hb : plugin.broadcastTx transaction c with
    | ok x =>
        rw [hb] at hmap
        cases hmap
    | error e' => exact ⟨e', rfl⟩
  refine wp_step (fun c hc a ha => ?_) fun c e he => ?_
  · obtain ⟨e, hb⟩ := hthrows c hc
    rw [hb] at ha
    cases ha
  · cases hb : plugin.broadcastTx transaction c with
    | ok x =>
        rw [hb] at he
        cases he
    | error e' => exact hE e

theorem wp_broadcastTransaction_noticed (hplugin : BroadcastsAs settings key plugin)
    (hnoticed : AllNoticed settings key replies)
    (hA : ∀ c, A c → c.reply txhex = replies) {invoice : Invoice} {option : PaymentOption}
    {transaction : Transaction} (htx : transaction.txhex = txhex)
    {E : Failure → World → Prop} {s : World} (hE : ∀ e, E e s) :
    (broadcastTransaction plugin invoice option transaction).wp A (fun _ _ => False) E s := by
  have hsend := wp_broadcastTx_noticed hplugin hnoticed hA htx hE
  unfold broadcastTransaction
  simp only [bind_eq, pure_eq]
  split
  · rw [wp_bind]
    exact wp_mono (fun _ _ h => h.elim) (fun _ _ h => h) hsend
  · split <;>
    · rw [wp_bind]
      exact wp_mono (fun _ _ h => h.elim) (fun _ _ h => h) hsend

variable {env : Env} {I : World → Prop}

/-- A round with a transaction nobody accepted throws. -/
theorem wp_submitTransaction_noticed (hplugin : BroadcastsAs settings key plugin)
    (hnoticed : AllNoticed settings key replies)
    (hA : ∀ c, A c → c.reply txhex = replies) {payment : SubmitPaymentRequest}
    {invoice : Invoice} {option : PaymentOption} {transaction : Transaction}
    (htx : transaction.txhex = txhex) {E : Failure → World → Prop} {s : World}
    (hE : ∀ e, E e s) : (submitTransaction env payment invoice option plugin transaction).wp A
      (fun _ _ => False) E s := by
  unfold submitTransaction
  simp only [bind_eq, pure_eq]
  rw [wp_bind]
  refine wp_ask (fun c _ verified _ => ?_) fun e => hE e
  split
  · exact hE _
  · rw [wp_bind]
    exact wp_mono (fun _ _ h => h.elim) (fun _ _ h => h)
      (wp_broadcastTransaction_noticed hplugin hnoticed hA htx hE)

/-- A round with another transaction records nothing for this one. -/
theorem wp_submitTransaction_other {payment : SubmitPaymentRequest} {invoice : Invoice}
    {option : PaymentOption} {transaction : Transaction} {ids : List Nat}
    (h : transaction.txhex ≠ txhex) {s : World} (hs : recordedFor txhex s = ids) :
    (submitTransaction env payment invoice option plugin transaction).wp A
      (fun _ t => recordedFor txhex t = ids) (fun _ t => recordedFor txhex t = ids) s := by
  unfold submitTransaction
  simp only [bind_eq, pure_eq]
  rw [wp_bind]
  refine wp_ask (fun c _ verified _ => ?_) fun _ => hs
  split
  · exact hs
  rw [wp_bind]
  refine wp_mono (fun transaction' t ht => ?_) (fun _ t ht => ?_) wp_broadcastTransaction
  swap
  · rw [recordedFor, ht.payments]
    exact hs
  obtain ⟨hannounced, htx⟩ := ht
  have hother : transaction'.txhex ≠ txhex := by
    rcases htx with rfl | ⟨-, txid, rfl⟩ <;> exact h
  have ht : recordedFor txhex t = ids := by
    rw [recordedFor, hannounced.payments]
    exact hs
  rw [wp_bind]
  refine wp_of_keeps (keeps_recordedFor_settleTransaction hother) (fun p u hu => ?_)
    fun _ u hu => hu.trans ht
  cases nonEmpty payment.wallet with
  | none => exact hu.trans ht
  | some wallet =>
      rw [wp_bind]
      have hkeeps : (prisma.payments.update p.id fun _ r =>
          { r with wallet := some wallet }).Keeps (recordedFor txhex) :=
        keeps_recordedFor_update fun _ _ => ⟨rfl, rfl⟩
      exact wp_of_keeps hkeeps (fun _ v hv => hv.trans (hu.trans ht))
        fun _ v hv => hv.trans (hu.trans ht)

/-- A submission with a transaction nobody accepted. -/
theorem wp_submitPayment_noticed (hplugin : BroadcastsAs settings key plugin)
    (hnoticed : AllNoticed settings key replies)
    (hA : ∀ c, A c → c.reply txhex = replies) {payment : SubmitPaymentRequest}
    (hfind : find env payment.currency (orElse payment.chain payment.currency) = .ok plugin)
    (hmem : ∃ transaction ∈ payment.transactions, transaction.txhex = txhex) {s : World} :
    (submitPayment env payment).wp A (fun _ _ => False)
      (fun _ t => recordedFor txhex t = recordedFor txhex s) s := by
  unfold submitPayment
  simp only [bind_eq, pure_eq]
  rw [wp_bind]
  refine Delegate.wp_findFirstOrThrow (fun invoice _ _ => ?_) fun _ => rfl
  split
  · exact rfl
  rw [wp_bind]
  refine Delegate.wp_findFirst (fun option _ _ => ?_) fun _ => rfl
  simp only [hfind]
  rw [wp_bind]
  refine wp_ofExcept (fun p hp => ?_) fun _ hp => nomatch hp
  obtain rfl := Except.ok.inj hp
  rw [wp_bind]
  refine wp_mono (fun _ t ht => ?_) (fun _ _ h => h) (wp_forEach_until
    (P := fun transaction => transaction.txhex = txhex)
    (fun x _ hx t ht => wp_submitTransaction_other hx ht)
    (fun x _ hx t ht => wp_submitTransaction_noticed hplugin hnoticed hA hx fun _ => ht) rfl)
  obtain ⟨transaction, htx, hhex⟩ := hmem
  exact ht.2 transaction htx hhex

/-- A BIP70 payment with a transaction nobody accepted. -/
theorem wp_bip70Payment_noticed (hplugin : BroadcastsAs settings key plugin)
    (hnoticed : AllNoticed settings key replies)
    (hA : ∀ c, A c → c.reply txhex = replies) {uid code : String} {transactions : List String}
    (hfind : find env code code = .ok plugin) (hmem : txhex ∈ transactions) {s : World} :
    (bip70Payment env uid code transactions).wp A (fun _ _ => False)
      (fun _ t => recordedFor txhex t = recordedFor txhex s) s := by
  unfold bip70Payment
  simp only [bind_eq, hfind]
  rw [wp_bind]
  refine wp_ofExcept (fun p hp => ?_) fun _ hp => nomatch hp
  obtain rfl := Except.ok.inj hp
  rw [wp_bind]
  refine Delegate.wp_findFirstOrThrow (fun option _ _ => ?_) fun _ => rfl
  rw [wp_bind]
  refine Delegate.wp_findFirstOrThrow (fun invoice _ _ => ?_) fun _ => rfl
  split
  · exact rfl
  rw [wp_bind]
  refine wp_of_keeps (keeps_forEach fun _ _ => keeps_spawn _ fun _ => rfl)
    (fun _ t ht => ?_) fun _ t ht => ht
  refine wp_mono (fun _ u hu => hu.2 txhex hmem rfl) (fun _ _ h => h) (wp_forEach_until
    (P := fun x => x = txhex) (I := fun u => recordedFor txhex u = recordedFor txhex s)
    (fun x _ hx u hu => ?_) (fun x _ hx u hu => ?_) ht)
  · have hkeeps : (bip70Transaction env plugin option x).Keeps (recordedFor txhex) := by
      unfold bip70Transaction
      simp only [bind_eq, pure_eq]
      refine keeps_bind (keeps_ofExcept _) fun _ => ?_
      refine keeps_bind (keeps_recordedFor_broadcastTx _ _) fun _ => ?_
      exact keeps_bind (keeps_recordedFor_completePayment hx) fun _ => trivial
    exact wp_of_keeps hkeeps (fun _ v hv => hv.trans hu) fun _ v hv => hv.trans hu
  · unfold bip70Transaction
    simp only [bind_eq, pure_eq]
    rw [wp_bind]
    refine wp_ofExcept (fun _ _ => ?_) fun _ _ => hu
    rw [wp_bind]
    exact wp_mono (fun _ _ h => h.elim) (fun _ _ h => h)
      (wp_broadcastTx_noticed hplugin hnoticed hA hx fun _ => hu)

end Callers

/-! ## Turned down -/

/-- A call that throws, and has recorded nothing for the transaction. -/
def TurnedDown {α : Type} (txhex : String) (w : World) (x : Except Failure α × World) : Prop :=
  (∃ e, x.1 = .error e) ∧ recordedFor txhex x.2 = recordedFor txhex w

/-- Where the providers of a registry key answer a raw transaction with these
replies, a submission or a BIP70 payment that contains it rejects, without a
payment for it. A caller that awaits a promise which never settles does not
reject. -/
structure TurnsDown (settings : BroadcastSettings) (key : String)
    (replies : Provider → Reply) (txhex : String) : Prop where
  settles : ∀ transaction : Transaction, transaction.txhex = txhex →
    chainBroadcastTx settings key transaction replies ≠ .pending
  submitPayment : ∀ env plugin payment o w, BroadcastsAs settings key plugin →
    find env payment.currency (orElse payment.chain payment.currency) = .ok plugin →
    (∃ transaction ∈ payment.transactions, transaction.txhex = txhex) →
    (∀ n, (o n).reply txhex = replies) →
    TurnedDown txhex w ((submitPayment env payment).exec o w)
  bip70 : ∀ env plugin uid code transactions o w, BroadcastsAs settings key plugin →
    find env code code = .ok plugin → txhex ∈ transactions →
    (∀ n, (o n).reply txhex = replies) →
    TurnedDown txhex w ((bip70Payment env uid code transactions).exec o w)

theorem TurnedDown.of_wp {α : Type} {p : Task α} {A : Answer → Prop} {txhex : String}
    {o : Nat → Answer} {w : World}
    (h : p.wp A (fun _ _ => False) (fun _ t => recordedFor txhex t = recordedFor txhex w) w)
    (ho : ∀ n, A (o n)) : TurnedDown txhex w (p.exec o w) := by
  have hexec := wp_exec h ho
  cases hx : (p.exec o w).1 with
  | ok a =>
      rw [hx] at hexec
      exact hexec.elim
  | error e =>
      rw [hx] at hexec
      exact ⟨⟨e, hx⟩, hexec⟩

/-- A plugin that broadcasts as a registry key says. -/
def relay (settings : BroadcastSettings) (key : String) : Plugin where
  currency := "X"
  chain := "X"
  decimals := 8
  verifyPayment := fun _ _ _ => .ok true
  broadcastTx := fun transaction c =>
    (chainBroadcastTx settings key transaction (c.reply transaction.txhex)).toExcept.map
      fun result => (result, [])

theorem broadcastsAs_relay (settings : BroadcastSettings) (key : String) :
    BroadcastsAs settings key (relay settings key) := by
  intro transaction c
  simp only [relay]
  cases (chainBroadcastTx settings key transaction (c.reply transaction.txhex)).toExcept <;> rfl

/-- One unpaid invoice with one option. -/
def unpaid : World where
  invoices := .single { id := 0, uid := "i", status := .unpaid }
  paymentOptions := .single { id := 0, invoice_uid := "i", currency := "X", chain := "X" }

/-- A submission of one transaction for it. -/
def single (txhex : String) : SubmitPaymentRequest where
  currency := "X"
  invoice_uid := "i"
  transactions := [{ txhex, txid := some "t" }]

/-- A broadcast that is fulfilled. -/
theorem wp_relay_fulfilled {settings : BroadcastSettings} {key : String}
    {transaction : Transaction} {replies : Provider → Reply} {result : BroadcastTxResult}
    (h : chainBroadcastTx settings key transaction replies = .fulfilled result) {s : World} :
    (broadcastTx (relay settings key) transaction).wp
      (fun c => c.reply transaction.txhex = replies) (fun _ t => SameTables s t)
      (fun _ _ => False) s := by
  intro c hc
  have hsend : (relay settings key).broadcastTx transaction c = .ok (result, []) := by
    simp only [relay, hc, h]
    rfl
  simp only [hsend]
  exact ⟨rfl, rfl, rfl, rfl, rfl⟩

/-- A payment for the transaction is there. -/
theorem recordedFor_ne {txhex : String} {p : Payment} {rows : List Payment} {s : World}
    (hrows : s.payments.rows = rows ++ [p]) (hp : p.txhex = some txhex) :
    recordedFor txhex s ≠ [] := by
  simp [recordedFor, hrows, hp]

/-- A payment that got as far as `completePayment` is recorded. -/
theorem wp_completePayment_recorded {env : Env} {option : PaymentOption}
    {transaction : Transaction} {confirming : Bool} {A : Answer → Prop} {s : World}
    (htxid : nonEmpty transaction.txid = some "t")
    (hinv : ∃ r ∈ s.invoices.rows, r.uid = option.invoice_uid) :
    (completePayment env option transaction confirming).wp A (fun _ _ => True)
      (fun _ t => recordedFor transaction.txhex t ≠ []) s := by
  unfold completePayment paymentTxid
  simp only [bind_eq, pure_eq, htxid, done_bind]
  rw [wp_bind]
  refine Delegate.wp_findFirstOrThrow (fun r hr hw => ?_) fun hno => ?_
  swap
  · obtain ⟨r, hr, huid⟩ := hinv
    have hne := hno r hr
    simp [huid] at hne
  refine wp_create_settle hr (by simpa using hw) (fun _ _ => ⟨rfl, rfl, rfl, rfl⟩)
    (fun now x => ⟨rfl, rfl, rfl, rfl, rfl, ?_, rfl, fun h => (by cases h),
      fun h => (by cases h)⟩)
    (fun p u _ hrecorded _ _ => ?_) fun e t p hrows _ hhex _ _ => recordedFor_ne hrows hhex
  · cases confirming <;> simp
  · have hthere : recordedFor transaction.txhex u ≠ [] :=
      recordedFor_ne hrecorded.payments hrecorded.txhex
    rw [wp_bind]
    refine Delegate.wp_findFirstOrThrow (fun invoice _ _ => ?_) fun _ => hthere
    rw [wp_bind]
    have hevent : ∀ key e, (publishEvent key e).Keeps World.ledger := fun key e =>
      keeps_publishEvent key e
    refine wp_detached (hevent _ _) fun v _ => ?_
    rw [wp_bind]
    exact wp_spawn trivial

/-- It leaves a payment, whatever comes after it. -/
theorem wp_single_fulfilled {settings : BroadcastSettings} {key txhex : String}
    {replies : Provider → Reply} {result : BroadcastTxResult}
    (h : chainBroadcastTx settings key { txhex, txid := some "t" } replies =
      .fulfilled result) :
    (submitPayment { plugins := [("X", relay settings key)] } (single txhex)).wp
      (fun c => c.reply txhex = replies) (fun _ _ => True)
      (fun _ t => recordedFor txhex t ≠ []) unpaid := by
  unfold submitPayment findPaymentOption
  simp only [bind_eq, pure_eq]
  rw [wp_bind]
  refine Delegate.wp_findFirstOrThrow (fun invoice hinv _ => ?_) fun hno => ?_
  swap
  · exact absurd (hno _ (List.mem_singleton_self _)) (by simp [single])
  obtain rfl := List.mem_singleton.mp hinv
  rw [if_neg (by decide), wp_bind]
  refine Delegate.wp_findFirst (fun option hoption _ => ?_) fun hno => ?_
  swap
  · exact absurd (hno _ (List.mem_singleton_self _)) (by simp [single, orElse])
  obtain rfl := List.mem_singleton.mp hoption
  rw [wp_bind]
  refine wp_ofExcept (fun plugin hplugin => ?_) fun e he => ?_
  swap
  · cases he
  obtain rfl := Except.ok.inj hplugin
  simp only [single, forEach, submitTransaction, bind_eq, pure_eq, wp_bind]
  refine wp_query (fun c _ verified hverified => ?_) fun c e he => ?_
  swap
  · cases he
  obtain rfl := Except.ok.inj hverified
  simp only [Bool.true_eq_false, if_false, wp_bind]
  rw [broadcastTransaction, if_neg (by decide), if_neg (by decide), bind_eq, wp_bind]
  refine wp_mono (fun _ t ht => ?_) (fun _ _ h => h.elim) (wp_relay_fulfilled h)
  change (settleTransaction _ _ _ _).wp _ _ _ t
  rw [settleTransaction, if_neg (by simp), if_neg (by decide)]
  have hinv : ∃ r ∈ t.invoices.rows, r.uid = "i" := by
    rw [ht.invoices]
    exact ⟨_, List.mem_singleton_self _, rfl⟩
  have hrecorded : ∀ option : PaymentOption, option.invoice_uid = "i" →
      (completePayment { plugins := [("X", relay settings key)] } option
        { txhex, txid := some "t" } false).wp (fun c => c.reply txhex = replies)
        (fun _ _ => True) (fun _ t => recordedFor txhex t ≠ []) t := by
    intro option huid
    have hid : nonEmpty ({ txhex, txid := some "t" } : Transaction).txid = some "t" := rfl
    exact wp_completePayment_recorded hid (huid ▸ hinv)
  exact wp_mono (fun _ _ _ => trivial) (fun _ _ h => h) (hrecorded _ rfl)

/-- A transaction is turned down just where every client notices the reply of
its provider. -/
theorem turnedDown_iff (settings : BroadcastSettings) (key : String)
    (replies : Provider → Reply) (txhex : String) :
    TurnsDown settings key replies txhex ↔ ∀ provider ∈ broadcastProviders settings key,
      Provider.notices provider (replies provider) = true := by
  constructor
  · intro h
    refine (chainBroadcastTx_throws { txhex, txid := some "t" }).mp ?_
    cases hb : chainBroadcastTx settings key { txhex, txid := some "t" } replies with
    | rejected e => rfl
    | pending => exact absurd hb (h.settles _ rfl)
    | fulfilled result =>
        obtain ⟨⟨e, he⟩, hnone⟩ := h.submitPayment { plugins := [("X", relay settings key)] } _
          (single txhex) (fun _ => { reply := fun _ => replies }) unpaid
          (broadcastsAs_relay settings key) rfl ⟨_, List.mem_singleton_self _, rfl⟩ fun _ => rfl
        have hrun := wp_exec (wp_single_fulfilled hb)
          (o := fun _ => { reply := fun _ => replies }) fun _ => rfl
        rw [he] at hrun
        exact absurd hnone hrun
  · intro h
    refine ⟨fun transaction _ hpending => ?_, ?_, ?_⟩
    · have hthrows := (chainBroadcastTx_throws transaction).mpr h
      rw [hpending] at hthrows
      cases hthrows
    · intro env plugin payment o w hplugin hfind hmem ho
      exact .of_wp (A := fun c => c.reply txhex = replies)
        (wp_submitPayment_noticed hplugin h (fun _ hc => hc) hfind hmem) ho
    · intro env plugin uid code transactions o w hplugin hfind hmem ho
      exact .of_wp (A := fun c => c.reply txhex = replies)
        (wp_bip70Payment_noticed hplugin h (fun _ hc => hc) hfind hmem) ho

/-! ## Refusals nobody noticed -/

/-- The only provider of FB cannot be reached. -/
def unreachable : Provider → Reply := fun _ => .failed

/-- nownodes answers with status 200, an error and no result. -/
def rpcError : Provider → Reply := fun _ =>
  .response 200 (.obj [("result", .null), ("error", .obj [("code", .num (-26))])])

def btc : BroadcastSettings where
  nownodesEnabled := true

def run (settings : BroadcastSettings) (key : String) (replies : Provider → Reply) :
    Except Failure (List String) × World :=
  (submitPayment { plugins := [("X", relay settings key)] } (single "00")).exec
    (fun _ => { reply := fun _ => replies }) unpaid

theorem refusal_settles :
    ((run {} "FB" unreachable).1.isOk = true ∧ (run {} "FB" unreachable).2.payments.rows.length = 1 ∧
      (run {} "FB" unreachable).2.invoices.rows.map Invoice.status = [.paid]) ∧
    ((run btc "BTC" rpcError).1.isOk = true ∧
      (run btc "BTC" rpcError).2.payments.rows.length = 1 ∧
      (run btc "BTC" rpcError).2.invoices.rows.map Invoice.status = [.paid]) ∧
    ¬ TurnsDown {} "FB" unreachable "00" ∧ ¬ TurnsDown btc "BTC" rpcError "00" := by
  have hfb : (run {} "FB" unreachable).1.isOk = true := by decide +kernel
  have hbtc : (run btc "BTC" rpcError).1.isOk = true := by decide +kernel
  have hrun : ∀ settings key replies, (run settings key replies).1.isOk = true →
      ¬ TurnsDown settings key replies "00" := by
    intro settings key replies hok h
    obtain ⟨⟨e, he⟩, -⟩ := h.submitPayment { plugins := [("X", relay settings key)] } _
      (single "00") (fun _ => { reply := fun _ => replies }) unpaid
      (broadcastsAs_relay settings key) rfl ⟨_, List.mem_singleton_self _, rfl⟩ fun _ => rfl
    rw [run, he] at hok
    cases hok
  exact ⟨⟨hfb, by decide +kernel, by decide +kernel⟩, ⟨hbtc, by decide +kernel, by decide +kernel⟩,
    hrun _ _ _ hfb, hrun _ _ _ hbtc⟩

end Anypay.Broadcast
