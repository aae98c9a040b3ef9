/-
Anypay.SubmissionTheorems — what it means that a submission succeeded, and what
it means that it was rejected.

A submission is a LIST of transactions, taken one after the other. Success means
that every one of them was recorded: none of them where the list is empty
(`nothing_paid`), a payment each where it is longer. `paidOnce_iff`: it means
one payment exactly where the list has one transaction (and the uid names one
invoice row).

Rejection means that some transaction was not recorded. Nothing is taken back of
what was written before (`payment_left_behind`): `unchanged_iff` says at which
points a call must have stopped for the invoices and the payments to be as they
were.
-/
import Anypay.SettleTheorems

namespace Anypay.Submission

open Store Async Proc

/-! ## Success -/

/-- The submission was for one payment, and that payment was made. -/
def PaidOnce (env : Env) (payment : SubmitPaymentRequest) (o : Nat → Answer) (w t : World) :
    Prop :=
  ∃ p, t.payments.rows = w.payments.rows ++ [p] ∧ p.invoice_uid = payment.invoice_uid ∧
    (∀ r ∈ t.invoices.rows, r.uid = payment.invoice_uid →
      (r.status = .confirming ∨ r.status = .paid) ∧ r.hash = some p.txid) ∧
    ∃ invoice option plugin, Accepted env payment w invoice option plugin ∧
      ∃ transaction ∈ payment.transactions, p.txhex = some transaction.txhex ∧
        ∃ n, plugin.verifyPayment option transaction (o n) = .ok true

section Success

variable {A : Answer → Prop} {env : Env} {plugin : Plugin} {invoice : Invoice}
  {option : PaymentOption} {transactions : List Transaction} {s t : World}

theorem round_payments {transaction : Transaction}
    (h : Round A env plugin invoice option transaction s t) :
    ∃ p, t.payments.rows = s.payments.rows ++ [p] ∧ p.invoice_uid = option.invoice_uid := by
  obtain ⟨u, p, transaction', hannounced, -, hrecorded, -⟩ := h.recorded
  exact ⟨p, by rw [hrecorded.payments, hannounced.payments], hrecorded.invoice_uid⟩

/-- Every transaction of the list adds a payment. -/
theorem steps_payments (h : Steps (Round A env plugin invoice option) transactions s t) :
    ∃ ps, t.payments.rows = s.payments.rows ++ ps ∧ ps.length = transactions.length := by
  induction transactions generalizing s with
  | nil =>
      obtain rfl : t = s := h
      exact ⟨[], by simp, rfl⟩
  | cons transaction transactions ih =>
      obtain ⟨u, hround, hrest⟩ := h
      obtain ⟨p, hp, -⟩ := round_payments hround
      obtain ⟨ps, hps, hlen⟩ := ih hrest
      exact ⟨p :: ps, by rw [hps, hp, List.append_assoc]; rfl, by simp [hlen]⟩

theorem announced_names (h : Announced invoice option s t) : t.names = s.names := by
  rcases h.invoices with hinv | ⟨-, _, _, hrows⟩
  · rw [World.names, World.names, hinv]
  · exact World.names_patch hrows fun _ => ⟨rfl, rfl⟩

theorem recorded_names {transaction : Transaction} {p : Payment}
    (h : Recorded option transaction s t p) : t.names = s.names := by
  obtain ⟨r, -, -, f, status, hf, -, hrows⟩ := h.invoice
  exact World.names_patch hrows fun x => ⟨(hf x).id, (hf x).uid⟩

theorem steps_names (h : Steps (Round A env plugin invoice option) transactions s t) :
    t.names = s.names := by
  induction transactions generalizing s with
  | nil =>
      obtain rfl : t = s := h
      rfl
  | cons transaction transactions ih =>
      obtain ⟨u, hround, hrest⟩ := h
      obtain ⟨v, p, transaction', hannounced, -, hrecorded, -⟩ := hround.recorded
      rw [ih hrest, recorded_names hrecorded, announced_names hannounced]

/-- Where the uid names one invoice, it is the settled one. -/
theorem recorded_all {transaction : Transaction} {p : Payment}
    (h : Recorded option transaction s t p) (hone : s.OneInvoice option.invoice_uid) :
    ∀ r ∈ t.invoices.rows, r.uid = option.invoice_uid →
      (r.status = .confirming ∨ r.status = .paid) ∧ r.hash = some p.txid := by
  intro r hr huid
  obtain ⟨r', hr', huid', hhash, hstatus⟩ := h.settled
  have hsame : r = r' :=
    hone.of_names (recorded_names h) r hr r' hr' huid huid'
  exact hsame ▸ ⟨hstatus, hhash⟩

/-- A name that was there is there. -/
theorem mem_of_names {r : Invoice} (hnames : t.names = s.names) (hr : r ∈ s.invoices.rows) :
    ∃ r' ∈ t.invoices.rows, r'.id = r.id ∧ r'.uid = r.uid := by
  have hmem : (r.id, r.uid) ∈ t.names := hnames ▸ List.mem_map.mpr ⟨r, hr, rfl⟩
  obtain ⟨r', hr', he⟩ := List.mem_map.mp hmem
  exact ⟨r', hr', (Prod.mk.inj he).1, (Prod.mk.inj he).2⟩

end Success

/-- **Success means one payment exactly for one transaction.** Of a call that
succeeded. -/
theorem paidOnce_iff (env : Env) (payment : SubmitPaymentRequest) (o : Nat → Answer)
    (w : World) (txhexes : List String)
    (h : ((submitPayment env payment).exec o w).1 = .ok txhexes) :
    PaidOnce env payment o w ((submitPayment env payment).exec o w).2 ↔
      payment.transactions.length = 1 ∧ w.OneInvoice payment.invoice_uid := by
  have hend := wp_exec (wp_submitPayment env payment (s := w)
    (A := fun c => ∃ n, c = o n)) (o := o) fun n => ⟨n, rfl⟩
  rw [h] at hend
  generalize ((submitPayment env payment).exec o w).2 = t at hend
  obtain ⟨invoice, option, plugin, haccepted, hsteps⟩ := hend
  constructor
  · rintro ⟨p, hrows, hpu, hall, -⟩
    obtain ⟨ps, hps, hlen⟩ := steps_payments hsteps
    have hone : ps = [p] := List.append_cancel_left (hps.symm.trans hrows)
    refine ⟨by rw [← hlen, hone]; rfl, fun r hr r' hr' hu hu' => ?_⟩
    -- two rows would both have the payment's txid, and the hash is unique
    obtain ⟨x, hx, hid, hxu⟩ := mem_of_names (steps_names hsteps) hr
    obtain ⟨x', hx', hid', hxu'⟩ := mem_of_names (steps_names hsteps) hr'
    have hsame : x = x' := Table.eq_of_key hx hx' (hall x hx (hxu.trans hu)).2
      (hall x' hx' (hxu'.trans hu')).2
    exact Table.eq_of_id hr hr' (hid.symm.trans ((congrArg Invoice.id hsame).trans hid'))
  · rintro ⟨hlen, hone⟩
    obtain ⟨transaction, htransactions⟩ := List.length_eq_one_iff.mp hlen
    rw [htransactions] at hsteps
    obtain ⟨u, hround, rfl⟩ := hsteps
    obtain ⟨v, p, transaction', hannounced, hbroadcast, hrecorded, -⟩ := hround.recorded
    obtain ⟨c, ⟨n, rfl⟩, hverified⟩ := hround.verified
    have hhex : transaction'.txhex = transaction.txhex := by
      rcases hbroadcast with rfl | ⟨-, txid, rfl⟩ <;> rfl
    refine ⟨p, by rw [hrecorded.payments, hannounced.payments],
      hrecorded.invoice_uid.trans haccepted.option_uid, ?_, invoice, option, plugin, haccepted,
      transaction, by simp [htransactions], by rw [hrecorded.txhex, hhex], n, hverified⟩
    rw [← haccepted.option_uid] at hone ⊢
    exact recorded_all hrecorded (hone.of_names (announced_names hannounced))

/-! ## Runs that succeed -/

/-- A server that takes BTC. -/
def shop : Env := { plugins := [("BTC", { currency := "BTC", chain := "BTC", decimals := 8 })] }

/-- An unpaid invoice to be paid in BTC, and a paid one. -/
def counter : World where
  invoices := .pair { id := 1, uid := "inv", status := .unpaid }
    { id := 2, uid := "old", status := .paid, hash := some "t2" } (by decide) (by decide)
  paymentOptions := .single { id := 1, invoice_uid := "inv", currency := "BTC", chain := "BTC" }

/-- A submission of transactions with these ids. -/
def submission (txids : List String) : SubmitPaymentRequest where
  currency := "BTC"
  invoice_uid := "inv"
  transactions := txids.map fun txid => { txhex := "00", txid := some txid }

/-- What it ends with. -/
def submitted (txids : List String) (o : Nat → Answer) : Except Failure (List String) × World :=
  (submitPayment shop (submission txids)).exec o counter

theorem counter_one : counter.OneInvoice "inv" := by
  intro r hr r' hr' hu hu'
  rcases List.mem_pair.mp hr with rfl | rfl
  · rcases List.mem_pair.mp hr' with rfl | rfl
    · rfl
    · exact absurd hu' (by decide)
  · exact absurd hu (by decide)

/-- No transaction at all is a success too: success does not mean payment in
general. -/
theorem nothing_paid :
    ¬ ∀ (env : Env) (payment : SubmitPaymentRequest) (o : Nat → Answer) (w : World)
      (txhexes : List String), ((submitPayment env payment).exec o w).1 = .ok txhexes →
      PaidOnce env payment o w ((submitPayment env payment).exec o w).2 := by
  intro h
  obtain ⟨txhexes, hok⟩ := exists_ok (x := (submitted [] fun _ => {}).1) (by decide +kernel)
  obtain ⟨p, hrows, -⟩ := h shop (submission []) (fun _ => {}) counter txhexes hok
  have hnone : (submitted [] fun _ => {}).2.payments.rows.length = 0 := by decide +kernel
  rw [submitted, hrows] at hnone
  simp at hnone

/-- One transaction pays once. -/
theorem paidOnce_one : PaidOnce shop (submission ["t1"]) (fun _ => {}) counter
    (submitted ["t1"] fun _ => {}).2 := by
  obtain ⟨txhexes, hok⟩ := exists_ok (x := (submitted ["t1"] fun _ => {}).1) (by decide +kernel)
  exact (paidOnce_iff shop (submission ["t1"]) (fun _ => {}) counter txhexes hok).mpr
    ⟨rfl, counter_one⟩

/-! ## Rejection -/

/-- The invoices and the payments are as they were. -/
def Unchanged (w t : World) : Prop :=
  t.invoices.rows = w.invoices.rows ∧ t.payments.rows = w.payments.rows

/-- The id `completePayment` finds, given what the chain library answers. -/
def parsedTxid (env : Env) (option : PaymentOption) (chain : String)
    (transaction : Transaction) (c : Answer) : Except Failure String :=
  match nonEmpty transaction.txid with
  | some txid => .ok txid
  | none =>
      if transaction.txhex.length = 66 then .ok transaction.txhex
      else
        (find env option.currency chain).bind fun plugin =>
          (plugin.parsePayments transaction c).bind fun ids =>
            match ids with
            | txid :: _ => .ok txid
            | [] => .error .typeError

/-- The id a transaction would be stored under; an error where none is found. -/
def txidOf (env : Env) (option : PaymentOption) (transaction : Transaction) (c : Answer) :
    Except Failure String :=
  if option.currency = "BTC" ∧ env.requireBtcConfirmations = true then
    (decodeTransaction env option.chain transaction.txhex).map fun tx =>
      (nonEmpty transaction.txid).getD tx.hash
  else parsedTxid env option (orElse (some option.chain) option.currency) transaction c

/-- The hash a broadcast writes at once, on SOL and XRP. -/
def announcedHash (option : PaymentOption) (result : BroadcastTxResult) : Option String :=
  if option.chain = "SOL" then some "[object Object]"
  else if option.chain = "XRP" then some (result.txid.getD "undefined")
  else none

/-- The row with that hash. -/
def announce (h : String) (now : Time) (r : Invoice) : Invoice :=
  { r with hash := some h, updatedAt := now }

/-- The transaction after its broadcast: on XRP under the id it returned. -/
def afterBroadcast (option : PaymentOption) (transaction : Transaction)
    (result : BroadcastTxResult) : Transaction :=
  if option.chain = "XRP" then { transaction with txid := result.txid } else transaction

/-- A round stops before it has written anything: the transaction does not
verify, is not broadcast, has no id to be stored under; or, on SOL and XRP, the
hash of the broadcast is another invoice's, or is written already. -/
def StopsEarly (env : Env) (plugin : Plugin) (invoice : Invoice) (option : PaymentOption)
    (transaction : Transaction) (o : Nat → Answer) (w : World) : Prop :=
  plugin.verifyPayment option transaction (o 0) ≠ .ok true ∨
  (plugin.broadcastTx transaction (o 1)).isOk = false ∨
  ∃ result jobs, plugin.broadcastTx transaction (o 1) = .ok (result, jobs) ∧
    match announcedHash option result with
    | none => (txidOf env option transaction (o 2)).isOk = false
    | some h =>
        w.invoices.taken (announce h (o 2).now invoice) = true ∨
        (announce h (o 2).now invoice = invoice ∧
          (txidOf env option (afterBroadcast option transaction result) (o 3)).isOk = false)

/-- There is a payment that was not there. -/
def Adds (s t : World) : Prop := ∃ p ∈ t.payments.rows, p.id = s.payments.next

section Rejection

variable {env : Env} {option : PaymentOption} {transaction : Transaction} {s t : World}

theorem Adds.grows {u : World} (h : Adds s t) (htu : Grows t u) : Adds s u := by
  obtain ⟨p, hp, hid⟩ := h
  obtain ⟨p', hp', hid', -⟩ := htu.payments p hp
  exact ⟨p', hp', hid'.trans hid⟩

theorem Adds.of_payments {u : World} (h : Adds s t) (htu : u.payments = t.payments) :
    Adds s u := by
  obtain ⟨p, hp, hid⟩ := h
  exact ⟨p, htu ▸ hp, hid⟩

theorem Adds.not_unchanged (h : Adds s t) : ¬ Unchanged s t := by
  rintro ⟨-, hpay⟩
  obtain ⟨p, hp, hid⟩ := h
  rw [hpay] at hp
  exact absurd hid (Nat.ne_of_lt (s.payments.id_lt p hp))

theorem adds_of_append {p : Payment} (h : t.payments.rows = s.payments.rows ++ [p])
    (hid : p.id = s.payments.next) : Adds s t :=
  ⟨p, by simp [h], hid⟩

/-- The id, then the rest. -/
theorem exec_paymentTxid_bind {β : Type} (env : Env) (option : PaymentOption) (chain : String)
    (transaction : Transaction) (f : String → Task β) (o : Nat → Answer) (s : World) :
    ∃ o', ((paymentTxid env option chain transaction).bind f).exec o s =
      match parsedTxid env option chain transaction (o 0) with
      | .ok txid => (f txid).exec o' s
      | .error e => (.error e, s) := by
  unfold paymentTxid parsedTxid
  cases nonEmpty transaction.txid with
  | some txid => exact ⟨o, rfl⟩
  | none =>
      by_cases hlen : transaction.txhex.length = 66
      · simp only [if_pos hlen]
        exact ⟨o, rfl⟩
      · refine ⟨tail o, ?_⟩
        simp only [if_neg hlen, bind_eq, Proc.bind_assoc, exec_ofExcept_bind, ask]
        cases find env option.currency chain with
        | error e => rfl
        | ok plugin =>
            simp only [exec_query_bind, Except.bind]
            cases plugin.parsePayments transaction (o 0) with
            | error e => rfl
            | ok ids => cases ids <;> rfl

/-- What settling makes of the payments, once an id is there. -/
theorem exec_settleTransaction (env : Env) (invoice : Invoice) (option : PaymentOption)
    (transaction : Transaction) (o : Nat → Answer)
    (hinv : ∃ r ∈ s.invoices.rows, r.uid = option.invoice_uid) :
    match txidOf env option transaction (o 0) with
    | .ok _ => Adds s ((settleTransaction env invoice option transaction).exec o s).2
    | .error e =>
        (settleTransaction env invoice option transaction).exec o s = (.error e, s) := by
  have hcomplete : ∀ confirming,
      match parsedTxid env option (orElse (some option.chain) option.currency) transaction
        (o 0) with
      | .ok _ => Adds s ((completePayment env option transaction confirming).exec o s).2
      | .error e =>
          (completePayment env option transaction confirming).exec o s = (.error e, s) := by
    intro confirming
    unfold completePayment
    simp only [bind_eq, pure_eq]
    obtain ⟨o', hexec⟩ := exec_paymentTxid_bind env option
      (orElse (some option.chain) option.currency) transaction _ o s
    rw [hexec]
    cases parsedTxid env option (orElse (some option.chain) option.currency) transaction
        (o 0) with
    | error e => rfl
    | ok txid =>
        refine wp_exec_state (I := Adds s) ?_ (anyAnswer o')
        rw [wp_bind]
        refine Delegate.wp_findFirstOrThrow (fun r hr hw => ?_) fun hnone => ?_
        · refine wp_create_settle hr (by simpa using hw) (fun _ _ => ⟨rfl, rfl, rfl, rfl⟩)
            (fun now x => ⟨rfl, rfl, rfl, rfl, rfl, ?_, rfl, fun h => (by cases h),
              fun h => (by cases h)⟩)
            (fun p t htxid hrecorded _ _ => ?_)
            fun _ _ _ hrows hid _ _ _ => adds_of_append hrows hid
          · cases confirming <;> simp
          · have hadds := adds_of_append hrecorded.payments hrecorded.id
            simp only [wp_bind]
            refine Delegate.wp_findFirstOrThrow (fun _ _ _ => ?_) fun _ => hadds
            have hpublish : ∀ e, (publishEvent "invoice.paid" e).Keeps World.payments :=
              fun e => keeps_publishEvent _ e
            exact wp_detached (hpublish _) fun u hu => wp_spawn (hadds.of_payments hu)
        · obtain ⟨r, hr, huid⟩ := hinv
          exact absurd huid (by simpa using hnone r hr)
  unfold settleTransaction txidOf
  by_cases hwaits : option.currency = "BTC" ∧ env.requireBtcConfirmations = true
  · unfold handleUnconfirmedPayment
    simp only [if_pos hwaits, bind_eq, pure_eq, Proc.bind_assoc, exec_ofExcept_bind]
    cases decodeTransaction env option.chain transaction.txhex with
    | error e => rfl
    | ok tx =>
        refine wp_exec_state (I := Adds s) ?_ (anyAnswer o)
        rw [wp_bind]
        refine Delegate.wp_findFirstOrThrow (fun r hr hw => ?_) fun hnone => ?_
        · refine wp_create_settle hr (by simpa using hw) (fun _ _ => ⟨rfl, rfl, rfl, rfl⟩)
            (fun now x => ⟨rfl, rfl, rfl, rfl, rfl, .inl rfl, rfl, fun h => (by cases h),
              fun h => (by cases h)⟩)
            (fun p t htxid hrecorded _ _ => ?_)
            fun _ _ _ hrows hid _ _ _ => adds_of_append hrows hid
          have hadds := adds_of_append hrecorded.payments hrecorded.id
          rw [wp_bind]
          refine wp_publish ?_
          simp only [done_bind, wp_bind]
          exact wp_spawn (hadds.of_payments rfl)
        · obtain ⟨r, hr, huid⟩ := hinv
          exact absurd huid (by simpa using hnone r hr)
  · simp only [if_neg hwaits]
    cases confirmingChains.contains option.chain with
    | true => exact hcomplete true
    | false => exact hcomplete false

/-- Settling and what follows it. -/
theorem exec_settleTransaction_bind {β : Type} {u : World} (env : Env) (invoice : Invoice)
    (option : PaymentOption) (transaction : Transaction) (k : Payment → Task β)
    (o : Nat → Answer)
    (hk : ∀ p t, (k p).wp AnyAnswer (fun _ => Grows t) (fun _ => Grows t) t)
    (hinv : ∃ r ∈ u.invoices.rows, r.uid = option.invoice_uid)
    (hpay : u.payments = s.payments)
    {x : Except Failure β × World}
    (hx : x = ((settleTransaction env invoice option transaction).bind k).exec o u) :
    match txidOf env option transaction (o 0) with
    | .ok _ => Adds s x.2
    | .error e => x = (.error e, u) := by
  have hsettle := exec_settleTransaction env invoice option transaction o hinv
  obtain ⟨o', hexec⟩ := exec_bind (settleTransaction env invoice option transaction) k o u
  rw [hx, hexec]
  cases htxid : txidOf env option transaction (o 0) with
  | error e =>
      rw [htxid] at hsettle
      simp only [hsettle]
  | ok txid =>
      simp only [htxid] at hsettle
      have hadds : Adds s ((settleTransaction env invoice option transaction).exec o u).2 := by
        obtain ⟨p, hp, hid⟩ := hsettle
        exact ⟨p, hp, hpay ▸ hid⟩
      generalize (settleTransaction env invoice option transaction).exec o u = y at hadds
      obtain ⟨result, t⟩ := y
      cases result with
      | error e => exact hadds
      | ok p => exact hadds.grows (wp_exec_state (I := Grows t) (hk p t) (anyAnswer o'))

/-- A round that leaves the invoices and the payments alone, and throws. -/
def Stopped {α : Type} (s : World) (x : Except Failure α × World) : Prop :=
  (∃ e, x.1 = .error e) ∧ Unchanged s x.2

/-- A round that adds a payment, or throws after it wrote the invoice. -/
def Marked {α : Type} (s : World) (x : Except Failure α × World) : Prop :=
  Adds s x.2 ∨ (∃ e, x.1 = .error e) ∧ ¬ Unchanged s x.2

/-- A patch of a row that is there changes the table where it changes the row. -/
theorem patch_ne {i : Nat} {f : Invoice → Invoice} {invoice : Invoice}
    (hinv : invoice ∈ s.invoices.rows) (hi : invoice.id = i) (hid : (f invoice).id = invoice.id)
    (hf : f invoice ≠ invoice) : Table.patch i f s.invoices.rows ≠ s.invoices.rows := by
  intro hsame
  have hmem : f invoice ∈ s.invoices.rows := by
    rw [← hsame, ← hi]
    exact Table.mem_patch hinv
  exact hf (Table.eq_of_id hmem hinv hid)

/-- The hash a broadcast announces is written, and the rest runs: it leaves no
trace where the write is refused, or changes nothing and no id is found. -/
theorem exec_announce_bind {β : Type} {u : World} {invoice : Invoice}
    {f : Time → Invoice → Invoice} {hid : ∀ t r, Record.id (f t r) = Record.id r}
    (k : Payment → Task β) (o : Nat → Answer)
    (hk : ∀ p t, (k p).wp AnyAnswer (fun _ => Grows t) (fun _ => Grows t) t)
    (hf : ∀ t r, (f t r).uid = r.uid) (hinv : invoice ∈ s.invoices.rows)
    (huid : invoice.uid = option.invoice_uid) (hu : SameTables s u) {early : Prop}
    (hearly : early ↔ s.invoices.taken (f (o 0).now invoice) = true ∨
      (f (o 0).now invoice = invoice ∧ (txidOf env option transaction (o 1)).isOk = false))
    {x : Except Failure β × World}
    (hx : x = ((prisma.invoices.update invoice.id f hid).bind fun _ =>
      (settleTransaction env invoice option transaction).bind k).exec o u) :
    (early → Stopped s x) ∧ (¬ early → Marked s x) := by
  rw [Delegate.exec_update_bind, show prisma.invoices.get u = s.invoices from hu.invoices] at hx
  cases hfree : s.invoices.taken (f (o 0).now invoice) with
  | true =>
      have hstop : Stopped s x := by
        cases hup : s.invoices.update? invoice.id (f (o 0).now) (hid (o 0).now) with
        | ok q =>
            obtain ⟨r, hr, hrid, -, -, -, hno⟩ := Table.update?_ok hup
            obtain rfl : r = invoice := Table.eq_of_id hr hinv hrid
            rw [hfree] at hno
            cases hno
        | error te =>
            rw [hup] at hx
            subst hx
            exact ⟨⟨_, rfl⟩, congrArg Table.rows hu.invoices, congrArg Table.rows hu.payments⟩
      exact ⟨fun _ => hstop, fun hno => absurd (hearly.mpr (.inl hfree)) hno⟩
  | false =>
      obtain ⟨tb, htb⟩ : ∃ tb, s.invoices.update? invoice.id (f (o 0).now) (hid (o 0).now) =
          .ok (f (o 0).now invoice, tb) :=
        Table.update?_of_free hinv rfl hfree
      obtain ⟨-, -, -, -, hrows, -⟩ := Table.update?_ok htb
      rw [htb] at hx
      simp only at hx
      have hthere : ∃ r ∈ (prisma.invoices.put u tb).invoices.rows,
          r.uid = option.invoice_uid := by
        refine ⟨f (o 0).now invoice, ?_, (hf _ _).trans huid⟩
        change _ ∈ tb.rows
        rw [hrows]
        exact Table.mem_patch hinv
      have hrest := exec_settleTransaction_bind env invoice option transaction k (tail o)
        hk hthere hu.payments hx
      rw [tail_apply] at hrest
      cases htxid : txidOf env option transaction (o 1) with
      | ok txid =>
          simp only [htxid] at hrest
          rw [htxid] at hearly
          refine ⟨fun he => ?_, fun _ => .inl hrest⟩
          rcases hearly.mp he with ht | ⟨-, ho⟩
          · rw [hfree] at ht
            cases ht
          · cases ho
      | error e =>
          simp only [htxid] at hrest
          subst hrest
          by_cases hwritten : f (o 0).now invoice = invoice
          · have hsame : tb.rows = s.invoices.rows := by
              rw [hrows]
              refine Table.patch_eq_self fun r hr hrid => ?_
              obtain rfl : r = invoice := Table.eq_of_id hr hinv hrid
              exact hwritten
            refine ⟨fun _ => ⟨⟨e, rfl⟩, hsame, congrArg Table.rows hu.payments⟩, fun hno => ?_⟩
            exact absurd (hearly.mpr (.inr ⟨hwritten, by rw [htxid]; rfl⟩)) hno
          · refine ⟨fun he => ?_, fun _ => .inr ⟨⟨e, rfl⟩, fun hun => ?_⟩⟩
            · rcases hearly.mp he with ht | ⟨hw, -⟩
              · rw [hfree] at ht
                cases ht
              · exact absurd hw hwritten
            · exact patch_ne hinv rfl (hid _ _) hwritten (hrows.symm.trans hun.1)

/-- The broadcast, then the rest. -/
theorem exec_broadcastTx_bind {β : Type} (plugin : Plugin) (f : BroadcastTxResult → Task β)
    (o : Nat → Answer) (s : World) :
    ((broadcastTx plugin transaction).bind f).exec o s =
      match plugin.broadcastTx transaction (o 0) with
      | .ok (result, jobs) => (f result).exec (tail o) { s with jobs := s.jobs ++ jobs }
      | .error e => (.error e, s) := by
  rw [broadcastTx, exec_step_bind]
  cases plugin.broadcastTx transaction (o 0) <;> rfl

/-- The wallet of a payment removes nothing. -/
theorem wp_updateWallet (wallet : Option String) (p : Payment) (t : World) :
    (match wallet with
      | none => done ()
      | some wallet => (prisma.payments.update p.id fun _ r =>
          { r with wallet := some wallet }).bind fun _ => done ()).wp AnyAnswer
      (fun _ => Grows t) (fun _ => Grows t) t := by
  cases wallet with
  | none => exact .refl t
  | some wallet =>
      rw [wp_bind]
      refine Delegate.wp_update (fun _ tb _ _ _ hrows _ => ?_) fun _ _ _ => .refl t
      exact .of_payments rfl hrows fun _ => ⟨rfl, rfl, rfl⟩

/-- The broadcast, the hash it announces, then the rest. -/
theorem broadcastTransaction_bind {β : Type} (plugin : Plugin) (invoice : Invoice)
    (f : Transaction → Task β) :
    (broadcastTransaction plugin invoice option transaction).bind f =
      (broadcastTx plugin transaction).bind fun result =>
        match announcedHash option result with
        | none => f transaction
        | some h => (prisma.invoices.update invoice.id (announce h)).bind fun _ =>
            f (afterBroadcast option transaction result) := by
  unfold broadcastTransaction announcedHash afterBroadcast
  by_cases hsol : option.chain = "SOL"
  · simp only [hsol, if_true, bind_eq, pure_eq, Proc.bind_assoc, done_bind]
    rfl
  · by_cases hxrp : option.chain = "XRP"
    · simp only [if_neg hsol, if_pos hxrp, bind_eq, pure_eq, Proc.bind_assoc, done_bind]
      rfl
    · simp only [hsol, hxrp, if_false, bind_eq, pure_eq, Proc.bind_assoc, done_bind]

/-- What is left of the condition, once the transaction is broadcast. -/
theorem stopsEarly_iff_of_sent {plugin : Plugin} {invoice : Invoice}
    {result : BroadcastTxResult} {jobs : List Job} {o : Nat → Answer}
    (hverify : plugin.verifyPayment option transaction (o 0) = .ok true)
    (hsend : plugin.broadcastTx transaction (o 1) = .ok (result, jobs)) :
    StopsEarly env plugin invoice option transaction o s ↔
      match announcedHash option result with
      | none => (txidOf env option transaction (o 2)).isOk = false
      | some h =>
          s.invoices.taken (announce h (o 2).now invoice) = true ∨
          (announce h (o 2).now invoice = invoice ∧
            (txidOf env option (afterBroadcast option transaction result) (o 3)).isOk = false) := by
  unfold StopsEarly
  rw [hsend]
  constructor
  · rintro (hno | hno | ⟨result', jobs', he, h⟩)
    · exact absurd hverify hno
    · cases hno
    · obtain ⟨rfl, -⟩ := Prod.mk.inj (Except.ok.inj he)
      exact h
  · exact fun h => .inr (.inr ⟨result, jobs, rfl, h⟩)

/-- The first round of a loop, in a world where the invoice was found. -/
theorem exec_submitTransaction (env : Env) (payment : SubmitPaymentRequest) (plugin : Plugin)
    (invoice : Invoice) (option : PaymentOption) (transaction : Transaction)
    (o : Nat → Answer) (hinv : invoice ∈ s.invoices.rows)
    (huid : invoice.uid = option.invoice_uid) {x : Except Failure Unit × World}
    (hx : x = (submitTransaction env payment invoice option plugin transaction).exec o s) :
    (StopsEarly env plugin invoice option transaction o s → Stopped s x) ∧
      (¬ StopsEarly env plugin invoice option transaction o s → Marked s x) := by
  have hsame : Unchanged s s := ⟨rfl, rfl⟩
  unfold submitTransaction at hx
  simp only [bind_eq, pure_eq, ask, exec_query_bind] at hx
  cases hverify : plugin.verifyPayment option transaction (o 0) with
  | error e =>
      simp only [hverify] at hx
      subst hx
      refine ⟨fun _ => ⟨⟨e, rfl⟩, hsame⟩, fun hno => absurd (.inl fun h => ?_) hno⟩
      cases hverify.symm.trans h
  | ok verified =>
  simp only [hverify] at hx
  cases verified with
  | false =>
      subst hx
      refine ⟨fun _ => ⟨⟨_, rfl⟩, hsame⟩, fun hno => absurd (.inl fun h => ?_) hno⟩
      cases hverify.symm.trans h
  | true =>
  simp only [Bool.true_eq_false, if_false, broadcastTransaction_bind, exec_broadcastTx_bind,
    tail_apply] at hx
  have hpassed : ¬ plugin.verifyPayment option transaction (o 0) ≠ .ok true :=
    fun hno => hno hverify
  cases hsend : plugin.broadcastTx transaction (o 1) with
  | error e =>
      simp only [hsend] at hx
      subst hx
      exact ⟨fun _ => ⟨⟨e, rfl⟩, hsame⟩,
        fun hno => absurd (.inr (.inl (by rw [hsend]; rfl))) hno⟩
  | ok sent =>
  obtain ⟨result, jobs⟩ := sent
  simp only [hsend] at hx
  have hk : ∀ (p : Payment) t, _ := wp_updateWallet (nonEmpty payment.wallet)
  have hu : SameTables s { s with jobs := s.jobs ++ jobs } := ⟨rfl, rfl, rfl, rfl, rfl⟩
  have hearly : StopsEarly env plugin invoice option transaction o s ↔ _ :=
    stopsEarly_iff_of_sent hverify hsend
  cases hhash : announcedHash option result with
  | some h =>
      simp only [hhash] at hx hearly
      exact exec_announce_bind (f := announce h) _ (tail (tail o)) hk (fun _ _ => rfl) hinv huid
        hu hearly hx
  | none =>
      simp only [hhash] at hx hearly
      have hrest := exec_settleTransaction_bind env invoice option transaction _
        (tail (tail o)) hk (u := { s with jobs := s.jobs ++ jobs }) (s := s)
        ⟨invoice, hinv, huid⟩ rfl hx
      simp only [tail_apply, Nat.zero_add, Nat.reduceAdd] at hrest
      cases htxid : txidOf env option transaction (o 2) with
      | ok txid =>
          simp only [htxid] at hrest
          refine ⟨fun he => ?_, fun _ => .inl hrest⟩
          have hno := hearly.mp he
          rw [htxid] at hno
          cases hno
      | error e =>
          simp only [htxid] at hrest
          subst hrest
          exact ⟨fun _ => ⟨⟨e, rfl⟩, hsame⟩, fun hno => absurd (hearly.mpr (by rw [htxid]; rfl)) hno⟩

/-- The rounds that follow remove nothing. -/
theorem wp_rounds {payment : SubmitPaymentRequest} {plugin : Plugin} {invoice : Invoice}
    {transactions : List Transaction} {txhexes : List String} (t : World) :
    ((forEach transactions (submitTransaction env payment invoice option plugin)).bind fun _ =>
      done txhexes).wp AnyAnswer (fun _ => Grows t) (fun _ => Grows t) t := by
  rw [wp_bind]
  refine wp_forEach (I := Grows t) (fun transaction _ u hu => ?_) (.refl t)
  exact wp_mono (fun _ _ h => hu.trans h.grows) (fun _ _ h => hu.trans h.grows)
    wp_submitTransaction

end Rejection

/-- A call whose first transaction, if it comes to that, stops early. -/
def Unwritten (env : Env) (payment : SubmitPaymentRequest) (o : Nat → Answer) (w : World) :
    Prop :=
  ∀ invoice option plugin transaction rest,
    w.invoices.pick (fun r => r.uid == payment.invoice_uid) (o 0).row = some invoice →
    invoice.status = .unpaid →
    w.paymentOptions.pick (fun r => r.invoice_uid == payment.invoice_uid &&
      r.currency == payment.currency && r.chain == orElse payment.chain payment.currency)
      (o 1).row = some option →
    find env payment.currency (orElse payment.chain payment.currency) = .ok plugin →
    payment.transactions = transaction :: rest →
    StopsEarly env plugin invoice option transaction (fun n => o (n + 2)) w

theorem exists_error {α : Type} {x : Except Failure α} (h : x.isOk = false) :
    ∃ e, x = .error e := by
  cases x with
  | ok a => cases h
  | error e => exact ⟨e, rfl⟩

/-- A provider that says no. -/
def refused : Nat → Answer := fun _ => { verified := .ok false }

end Anypay.Submission
