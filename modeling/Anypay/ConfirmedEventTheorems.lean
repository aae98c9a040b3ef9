/-
Anypay.ConfirmedEventTheorems — what `confirmPayment` does after its writes.

The payment is marked confirmed and the invoice paid before the event is built,
and the event carries the status the invoice was READ with. The schema of
`payment.confirmed` asks for `paid`, so a payment whose invoice was 'confirming'
— the ordinary case — is confirmed, and then the call rejects: no webhook is
written, and as the payment now has a confirmation hash no later call writes one
(`never_told`). Where the invoice already was 'paid' the event passes, and the
webhooks are right where every subscription queried for is the event's own
(`resolves_iff`).
-/
import Anypay.Confirmations
import Anypay.WebhookTheorems

namespace Anypay

open Store Async Proc Subscriptions

namespace Confirming

/-! ## What is promised -/

/-- The payment as a confirmation leaves it. -/
def confirmed (payment : Payment) (confirmation : Confirmation) : Payment :=
  { payment with
    confirmation_hash := some confirmation.confirmation_hash
    confirmation_height := some confirmation.confirmation_height
    confirmation_date := some confirmation.confirmation_date
    status := .confirmed }

/-- The payload `confirmPayment` builds from the invoice it read. -/
def payload (payment : Payment) (confirmation : Confirmation) (invoice : Invoice) : Json :=
  (paymentConfirmed invoice (confirmed payment confirmation) confirmation).toJson

/-- One webhook for each subscription of the app and of the account the event is
about. -/
def owed (event validated : Json) (w : World) : List Message :=
  ((topicApps "payment.confirmed" w).filter (ownApp event)).map (appMessage validated) ++
    (w.accountWebhooks.rows.filter (ownAccount event)).map (accountMessage validated)

/-- The call resolves with the confirmed payment, its payload passes the schema,
and the webhook rows it adds are those owed. -/
structure Resolves (payment : Payment) (confirmation : Confirmation) (invoice : Invoice)
    (o : Nat → Answer) (w : World) : Prop where
  resolves : ((confirmPayment payment confirmation).exec o w).1 =
    .ok (confirmed payment confirmation)
  told : ∃ validated rows,
    PaymentConfirmedEvent.parse (payload payment confirmation invoice) = some validated ∧
    ((confirmPayment payment confirmation).exec o w).2.webhooks.rows =
      w.webhooks.rows ++ rows ∧
    rows.map message = owed (payload payment confirmation invoice) validated w

/-- A subscriber's id is the id an invoice names, zero being none. -/
def Names (id : String) (x : Option Int) : Prop :=
  ∃ n, orUndefined x = some n ∧ columnId id = .ok n

/-! ## The payload -/

variable {payment : Payment} {confirmation : Confirmation} {invoice : Invoice}
  {o : Nat → Answer} {w : World}

/-- Everything but the status of the invoice always passes. -/
theorem payload_passes : (PaymentConfirmedEvent.parse
    (payload payment confirmation invoice)).isSome =
      regexTest "paid" invoice.status.toString := by
  have htopic : regexTest "payment.confirmed" "payment.confirmed" = true := by decide +kernel
  have hstatus : regexTest "confirmed" "confirmed" = true := by decide +kernel
  cases hpaid : regexTest "paid" invoice.status.toString <;>
    cases haccount : orUndefined invoice.account_id <;>
    cases happ : orUndefined invoice.app_id <;>
    simp [payload, paymentConfirmed, Event.toJson, optionalId, haccount, happ, confirmed,
      PaymentStatus.toString, PaymentConfirmedEvent, eventSchema, matching, paymentField,
      Schema.parse, Schema.parseFields, Json.field, Json.ofInt, Json.ofNat, htopic, hstatus,
      hpaid]

theorem payload_fails (h : invoice.status = .confirming) :
    PaymentConfirmedEvent.parse (payload payment confirmation invoice) = none := by
  have hpaid : regexTest "paid" invoice.status.toString = false := by
    rw [h]
    decide +kernel
  exact Option.not_isSome_iff_eq_none.mp (by rw [payload_passes, hpaid]; simp)

theorem exists_validated (h : invoice.status = .paid) :
    ∃ validated, PaymentConfirmedEvent.parse (payload payment confirmation invoice) =
      some validated := by
  have hpaid : regexTest "paid" invoice.status.toString = true := by
    rw [h]
    decide +kernel
  exact Option.isSome_iff_exists.mp (payload_passes.trans hpaid)

theorem isOwn_iff {id : String} {x : Option Int} :
    isOwn id ((orUndefined x).map Json.ofInt) = true ↔ Names id x := by
  unfold isOwn idOf Names
  cases hid : columnId id with
  | error e => simp [Except.toOption]
  | ok m =>
      cases hx : orUndefined x with
      | none => simp [Except.toOption]
      | some n => simp [Except.toOption, Json.ofInt, eq_comm]

/-- The event is an app's where the invoice names the app. -/
theorem ownApp_iff {s : AppWebhook} :
    ownApp (payload payment confirmation invoice) s = true ↔
      Names s.app_id invoice.app_id := by
  have hid : eventId "app_id" (payload payment confirmation invoice) =
      (orUndefined invoice.app_id).map Json.ofInt := by
    cases haccount : orUndefined invoice.account_id <;>
      cases happ : orUndefined invoice.app_id <;>
      simp [eventId, payload, paymentConfirmed, Event.toJson, optionalId, haccount, happ,
        Json.field]
  rw [ownApp, hid, isOwn_iff]

theorem ownAccount_iff {s : AccountWebhook} :
    ownAccount (payload payment confirmation invoice) s = true ↔
      Names s.account_id invoice.account_id := by
  have hid : eventId "account_id" (payload payment confirmation invoice) =
      (orUndefined invoice.account_id).map Json.ofInt := by
    cases haccount : orUndefined invoice.account_id <;>
      cases happ : orUndefined invoice.app_id <;>
      simp [eventId, payload, paymentConfirmed, Event.toJson, optionalId, haccount, happ,
        Json.field]
  rw [ownAccount, hid, isOwn_iff]

/-! ## The run -/

/-- The world the event is sent in: both rows are written. -/
structure Marked (payment : Payment) (confirmation : Confirmation) (invoice : Invoice)
    (w u : World) : Prop where
  payment : confirmed payment confirmation ∈ u.payments.rows
  invoice : { invoice with status := .paid } ∈ u.invoices.rows
  webhooks : u.webhooks = w.webhooks
  appWebhooks : u.appWebhooks = w.appWebhooks
  accountWebhooks : u.accountWebhooks = w.accountWebhooks

/-- Up to the webhooks nothing fails, and both rows are marked. -/
theorem exec_confirmPayment (hrow : payment ∈ w.payments.rows)
    (hnone : nonEmpty payment.confirmation_hash = none)
    (hinvoice : w.invoices.pick (fun r => r.uid == payment.invoice_uid) (o 2).row =
      some invoice) :
    ∃ u, Marked payment confirmation invoice w u ∧
      (confirmPayment payment confirmation).exec o w =
        ((createAndSendWebhook "payment.confirmed" (payload payment confirmation invoice)).bind
          fun _ => done (confirmed payment confirmation)).exec (fun n => o (n + 5)) u := by
  have hmarked : ∃ t, w.payments.update? payment.id (confirmed · confirmation) (fun _ => rfl) =
      .ok (confirmed payment confirmation, t) := Table.update?_of_key_eq hrow rfl rfl
  obtain ⟨t, ht⟩ := hmarked
  obtain ⟨r, hr, hri, hfr, hrows, -, -⟩ := Table.update?_ok ht
  have hmem : confirmed payment confirmation ∈ t.rows := by
    rw [hrows, hfr, ← hri]
    exact Table.mem_patch hr
  have hread : t.pick (fun x => x.id == payment.id) (o 1).row =
      some (confirmed payment confirmation) := by
    cases hp : t.pick (fun x => x.id == payment.id) (o 1).row with
    | some x =>
        obtain ⟨hx, hxi⟩ := Table.pick_some hp
        exact congrArg some (Table.eq_of_id hx hmem (eq_of_beq hxi))
    | none => simpa [confirmed] using Table.pick_none.mp hp _ hmem
  have hin := (Table.pick_some hinvoice).1
  have hsettled : ∃ v, w.invoices.update? invoice.id (fun r => { r with status := .paid })
      (fun _ => rfl) = .ok ({ invoice with status := .paid }, v) :=
    Table.update?_of_key_eq hin rfl rfl
  obtain ⟨v, hv⟩ := hsettled
  obtain ⟨x, hx, hxi, hfx, hvrows, -, -⟩ := Table.update?_ok hv
  have hpaid : { invoice with status := .paid } ∈ v.rows := by
    rw [hvrows, hfx, ← hxi]
    exact Table.mem_patch hx
  refine ⟨{ w with payments := t, invoices := v,
                   published := w.published ++
                     [("payment.confirmed", (confirmed payment confirmation).toJson)] },
    ⟨hmem, hpaid, rfl, rfl, rfl⟩, ?_⟩
  rw [confirmPayment, if_neg (by simp [hnone])]
  refine (Delegate.exec_updated_bind (r := confirmed payment confirmation) (t := t)
    (by exact ht)).trans ?_
  refine (Delegate.exec_found_bind (r := confirmed payment confirmation)
    (by exact hread)).trans ?_
  refine (Delegate.exec_found_bind (r := invoice) (by exact hinvoice)).trans ?_
  refine (Delegate.exec_updated_bind (r := { invoice with status := .paid }) (t := v)
    (by exact hv)).trans ?_
  rfl

/-- Where every id is a number, every subscription queried for is served. -/
theorem messages_of_everyId {topic : String} {validated : Json}
    (h : everyId topic w = true) : messages topic validated w =
      (topicApps topic w).map (appMessage validated) ++
        w.accountWebhooks.rows.map (accountMessage validated) := by
  rw [everyId, Bool.and_eq_true] at h
  obtain ⟨happs, haccounts⟩ := h
  have hreached : reachedApps topic w = topicApps topic w :=
    List.takeWhile_eq_self_iff.mpr fun s hs => List.all_eq_true.mp happs s hs
  have hreached' : reachedAccounts topic w = w.accountWebhooks.rows := by
    rw [reachedAccounts, if_pos happs, reached, List.takeWhile_eq_self_iff]
    exact fun s hs => List.all_eq_true.mp haccounts s hs
  rw [messages, hreached, hreached']

/-- The call that finds the event invalid. -/
theorem exec_invalid (hrow : payment ∈ w.payments.rows)
    (hnone : nonEmpty payment.confirmation_hash = none)
    (hinvoice : w.invoices.pick (fun r => r.uid == payment.invoice_uid) (o 2).row =
      some invoice)
    (hfails : PaymentConfirmedEvent.parse (payload payment confirmation invoice) = none) :
    ((confirmPayment payment confirmation).exec o w).1 = .error .zod := by
  obtain ⟨u, -, hexec⟩ := @exec_confirmPayment payment confirmation invoice o w hrow hnone hinvoice
  have hlook : webhookSchemas.lookup "payment.confirmed" = some PaymentConfirmedEvent := rfl
  rw [hexec, createAndSendWebhook, hlook]
  simp only [hfails]
  rfl

/-- The call that finds it valid: it ends with the webhooks of every
subscription queried for, or at the first whose id is no number. -/
theorem exec_valid {validated : Json} (hrow : payment ∈ w.payments.rows)
    (hnone : nonEmpty payment.confirmation_hash = none)
    (hinvoice : w.invoices.pick (fun r => r.uid == payment.invoice_uid) (o 2).row =
      some invoice)
    (hpasses : PaymentConfirmedEvent.parse (payload payment confirmation invoice) =
      some validated) :
    match ((confirmPayment payment confirmation).exec o w).1 with
    | .ok p => p = confirmed payment confirmation ∧ everyId "payment.confirmed" w = true ∧
        ∃ rows, ((confirmPayment payment confirmation).exec o w).2.webhooks.rows =
            w.webhooks.rows ++ rows ∧
          rows.map message = messages "payment.confirmed" validated w
    | .error _ => everyId "payment.confirmed" w = false := by
  obtain ⟨u, hu, hexec⟩ := @exec_confirmPayment payment confirmation invoice o w hrow hnone hinvoice
  have happs : topicApps "payment.confirmed" u = topicApps "payment.confirmed" w := by
    rw [topicApps, topicApps, hu.appWebhooks]
  have hid : everyId "payment.confirmed" u = everyId "payment.confirmed" w := by
    rw [everyId, everyId, happs, hu.accountWebhooks]
  have hmessages : messages "payment.confirmed" validated u =
      messages "payment.confirmed" validated w := by
    rw [messages, messages, reachedApps, reachedApps, reachedAccounts, reachedAccounts, happs,
      hu.accountWebhooks]
  have hwp : ((createAndSendWebhook "payment.confirmed"
      (payload payment confirmation invoice)).bind
        fun _ => done (confirmed payment confirmation)).wp AnyAnswer
      (fun p t => p = confirmed payment confirmation ∧ everyId "payment.confirmed" w = true ∧
        ∃ rows, t.webhooks.rows = w.webhooks.rows ++ rows ∧
          rows.map message = messages "payment.confirmed" validated w)
      (fun _ _ => everyId "payment.confirmed" w = false) u := by
    have hlook : webhookSchemas.lookup "payment.confirmed" = some PaymentConfirmedEvent := rfl
    rw [wp_bind]
    refine wp_mono (fun _ t ht => ?_) (fun _ t ht => ?_)
      (wp_createAndSendWebhook hlook hpasses)
    · obtain ⟨⟨rows, hrows, -, hsent⟩, hevery⟩ := ht
      rw [hu.webhooks] at hrows
      exact ⟨rfl, hid.symm.trans hevery, rows, hrows, hsent.trans hmessages⟩
    · exact hid.symm.trans ht.2
  rw [hexec]
  have hend := wp_exec hwp (anyAnswer fun n => o (n + 5))
  generalize Proc.exec _ _ u = ended at hend ⊢
  obtain ⟨result, t⟩ := ended
  cases result <;> exact hend

/-! ## When the call keeps its promise -/

/-- A list of subscriptions is all own where as many are left of it. -/
theorem own_of_length {α : Type} (l : List α) (own : α → Bool)
    (h : l.length = (l.filter own).length) : ∀ s ∈ l, own s = true :=
  List.filter_eq_self.mp (List.filter_sublist.eq_of_length h.symm)

/-- **When the confirmed event is told.** For a stored payment without a
confirmation hash, the invoice the call reads being confirming or paid: the call
resolves, its payload passes and its webhooks are those owed exactly where the
invoice was ALREADY paid and every subscription queried for (of any app to the
topic, of any account) names the invoice's own app or account. -/
theorem resolves_iff (payment : Payment) (confirmation : Confirmation) (invoice : Invoice)
    (o : Nat → Answer) (w : World) (hrow : payment ∈ w.payments.rows)
    (hnone : nonEmpty payment.confirmation_hash = none)
    (hinvoice : w.invoices.pick (fun r => r.uid == payment.invoice_uid) (o 2).row =
      some invoice)
    (hstatus : invoice.status = .confirming ∨ invoice.status = .paid) :
    Resolves payment confirmation invoice o w ↔
      invoice.status = .paid ∧
      (∀ s ∈ w.appWebhooks.rows, s.topics.contains "payment.confirmed" = true →
        Names s.app_id invoice.app_id) ∧
      ∀ s ∈ w.accountWebhooks.rows, Names s.account_id invoice.account_id := by
  rcases hstatus with hconfirming | hpaid
  · have hfails := @payload_fails payment confirmation invoice hconfirming
    have hthrows := exec_invalid hrow hnone hinvoice hfails
    constructor
    · intro h
      rw [h.resolves] at hthrows
      cases hthrows
    · rintro ⟨hpaid, -⟩
      rw [hconfirming] at hpaid
      cases hpaid
  · obtain ⟨validated, hpasses⟩ :=
      @exists_validated payment confirmation invoice hpaid
    have hrun := exec_valid hrow hnone hinvoice hpasses
    constructor
    · intro h
      obtain ⟨validated', rows, hparse, hrows, hsent⟩ := h.told
      obtain rfl : validated' = validated := Option.some.inj (hparse.symm.trans hpasses)
      rw [h.resolves] at hrun
      obtain ⟨-, hevery, rows', hrows', hsent'⟩ := hrun
      obtain rfl : rows = rows' := List.append_cancel_left (hrows.symm.trans hrows')
      have hlen := congrArg List.length (hsent.symm.trans hsent')
      rw [messages_of_everyId hevery, owed] at hlen
      simp only [List.length_append, List.length_map] at hlen
      have happs := List.length_filter_le (ownApp (payload payment confirmation invoice))
        (topicApps "payment.confirmed" w)
      have haccounts := List.length_filter_le
        (ownAccount (payload payment confirmation invoice)) w.accountWebhooks.rows
      have hownApps := own_of_length (topicApps "payment.confirmed" w)
        (ownApp (payload payment confirmation invoice)) (by omega)
      have hownAccounts := own_of_length w.accountWebhooks.rows
        (ownAccount (payload payment confirmation invoice)) (by omega)
      refine ⟨hpaid, fun s hs htopic => ?_, fun s hs => ?_⟩
      · exact ownApp_iff.mp (hownApps s (Table.mem_select.mpr ⟨hs, htopic⟩))
      · exact ownAccount_iff.mp (hownAccounts s hs)
    · rintro ⟨-, happs, haccounts⟩
      have hownApps : ∀ s ∈ topicApps "payment.confirmed" w,
          ownApp (payload payment confirmation invoice) s = true := by
        intro s hs
        obtain ⟨hmem, htopic⟩ := Table.mem_select.mp hs
        exact ownApp_iff.mpr (happs s hmem htopic)
      have hownAccounts : ∀ s ∈ w.accountWebhooks.rows,
          ownAccount (payload payment confirmation invoice) s = true :=
        fun s hs => ownAccount_iff.mpr (haccounts s hs)
      have hevery : everyId "payment.confirmed" w = true := by
        rw [everyId, Bool.and_eq_true, List.all_eq_true, List.all_eq_true]
        exact ⟨fun s hs => isOk_of_isOwn (hownApps s hs),
          fun s hs => isOk_of_isOwn (hownAccounts s hs)⟩
      cases hresult : ((confirmPayment payment confirmation).exec o w).1 with
      | error e =>
          rw [hresult] at hrun
          rw [hevery] at hrun
          cases hrun
      | ok p =>
          rw [hresult] at hrun
          obtain ⟨rfl, -, rows, hrows, hsent⟩ := hrun
          refine ⟨hresult, validated, rows, hpasses, hrows, ?_⟩
          rw [hsent, messages_of_everyId hevery, owed, List.filter_eq_self.mpr hownApps,
            List.filter_eq_self.mpr hownAccounts]

/-! ## The ordinary confirmation -/

/-- A payment the network has not confirmed yet. -/
def sent : Payment :=
  { id := 1, txid := "t1", currency := "BTC", chain := some "BTC", invoice_uid := "inv" }

def block : Confirmation :=
  { confirmation_hash := "b1", confirmation_height := 7, confirmation_date := 0 }

/-- The invoice it pays. -/
def invoiced (status : InvoiceStatus) : Invoice :=
  { id := 1, uid := "inv", status, hash := some "t1", app_id := some 1 }

/-- The invoice, its payment, and the app's own subscription. -/
def shop (status : InvoiceStatus) : World :=
  { invoices := .single (invoiced status)
    payments := .single sent
    appWebhooks := .single
      { id := 1, app_id := "1", url := "https://app", topics := ["payment.confirmed"] } }

theorem shop_reads (status : InvoiceStatus) :
    (shop status).invoices.pick (fun r => r.uid == sent.invoice_uid) 0 =
      some (invoiced status) := by
  simp [Table.pick, Table.select, shop, Table.single, invoiced, sent]

/-- The invoice was confirming: the payment is confirmed, the call rejects. -/
theorem never_told :
    ¬ ∀ (payment : Payment) (confirmation : Confirmation) (invoice : Invoice)
      (o : Nat → Answer) (w : World), payment ∈ w.payments.rows →
      nonEmpty payment.confirmation_hash = none →
      w.invoices.pick (fun r => r.uid == payment.invoice_uid) (o 2).row = some invoice →
      (invoice.status = .confirming ∨ invoice.status = .paid) →
      Resolves payment confirmation invoice o w := by
  intro h
  have hresolves := (h sent block (invoiced .confirming) (fun _ => {}) (shop .confirming)
    (List.mem_singleton.mpr rfl) rfl (shop_reads .confirming) (.inl rfl)).resolves
  rw [exec_invalid (List.mem_singleton.mpr rfl) rfl (shop_reads .confirming)
    (payload_fails rfl)] at hresolves
  cases hresolves

/-- The invoice was paid, by an earlier confirmation: the app is told. -/
theorem told_when_paid :
    Resolves sent block (invoiced .paid) (fun _ => {}) (shop .paid) := by
  refine (resolves_iff sent block (invoiced .paid) (fun _ => {}) (shop .paid)
    (List.mem_singleton.mpr rfl) rfl (shop_reads .paid) (.inr rfl)).mpr
    ⟨rfl, fun s hs _ => ?_, ?_⟩
  · obtain rfl := List.mem_singleton.mp hs
    exact ⟨1, rfl, by decide +kernel⟩
  · intro s hs
    cases hs

end Confirming

end Anypay
