/-
Anypay.ConfirmerTheorems — how often one payment is confirmed.

Several functions confirm payments: the tick of `startConfirmingTransactions`, the
command, `getConfirmationForTxid`, `confirmInvoice`, and `confirmPaymentByTxid`
from the handler of EVM receipts. They all end in `confirmPayment`, whose check
looks at a copy of the row, read before the chain was asked. Between that and the
write any number of others may have confirmed the payment (`confirmed_twice`).

`confirmed_once`: where the confirmers of a payment take turns, and blocks have
names, the block of a payment is never replaced, one event is sent for it and one
batch of webhooks written, whatever confirmers of other payments run beside.
-/
import Anypay.Async.Exclusive
import Anypay.ConfirmedEventTheorems
import Anypay.LedgerTheorems

namespace Anypay

open Store Async Proc Subscriptions

namespace Confirmers

/-! ## Calls -/

inductive Call where
  | confirmTransactionsTick
  | confirmPaymentsCommand (chain currency : String)
  | getConfirmationForTxid (txid : String)
  | confirmPaymentByTxid (txid : String) (confirmation : Confirmation)
  | handleTransactionReceipt (receipt : TransactionReceipt)
  | confirmInvoice (uid : String)

def code (env : Env) : Call → Task Unit
  | .confirmTransactionsTick => confirmTransactionsTick env
  | .confirmPaymentsCommand chain currency => confirmPaymentsCommand env chain currency
  | .getConfirmationForTxid txid => discard (getConfirmationForTxid env txid)
  | .confirmPaymentByTxid txid confirmation =>
      discard (confirmPaymentByTxid txid confirmation)
  | .handleTransactionReceipt receipt => handleTransactionReceipt receipt
  | .confirmInvoice uid => discard (confirmInvoice env uid)

abbrev Calls := Pool World Answer Failure Call

/-- The calls that may confirm the payment: those that go through a list, and those
for its transaction. -/
def concerns (P : Payment) (w : World) : Call → Prop
  | .confirmTransactionsTick | .confirmPaymentsCommand _ _ => True
  | .getConfirmationForTxid txid | .confirmPaymentByTxid txid _ => txid = P.txid
  | .handleTransactionReceipt receipt => receipt.transactionHash = P.txid
  | .confirmInvoice uid => ∃ r ∈ w.invoices.rows, r.uid = uid ∧ r.hash = some P.txid

/-- The block a call was given has a name. -/
def Named : Call → Prop
  | .confirmPaymentByTxid _ confirmation => confirmation.confirmation_hash ≠ ""
  | .handleTransactionReceipt receipt => receipt.blockHash ≠ some ""
  | _ => True

/-- So has every block a plugin finds. -/
def FindsNamed (env : Env) (c : Answer) : Prop :=
  ∀ currency chain plugin, find env currency chain = .ok plugin →
    ∀ txid confirmation, plugin.getConfirmation txid c = .ok (some confirmation) →
      confirmation.confirmation_hash ≠ ""

/-- Any calls, in any order. -/
def anyOrder (env : Env) (_ : Calls) : Move Answer Call → Prop
  | .start call => Named call
  | .run _ c => FindsNamed env c

/-- The confirmers of the payment take turns. -/
def takingTurns (env : Env) (P : Payment) (w : World) (p : Calls) : Move Answer Call → Prop
  | .start call => Named call ∧ (concerns P w call → p.Idle (concerns P w))
  | .run _ c => FindsNamed env c

/-! ## What is seen of a payment -/

/-- The confirmation fields of a payment. -/
structure Block where
  hash : Option String
  height : Option Nat
  date : Option Time
  deriving DecidableEq

def blockOf (r : Payment) : Block :=
  ⟨r.confirmation_hash, r.confirmation_height, r.confirmation_date⟩

/-- A message on 'payment.confirmed' with the row of the payment. -/
def tells (P : Payment) (m : String × Json) : Bool :=
  m.1 == "payment.confirmed" && Json.num? (m.2.get "id") == some (P.id : Rat)

/-- A field two levels inside an event's payload. -/
def within (outer inner : String) (event : Json) : Option Json :=
  ((event.get "payload").bind fun payload => payload.get outer).bind fun o => o.get inner

/-- The event is about the payment: its transaction, its invoice. -/
def names (P : Payment) (event : Json) : Bool :=
  Json.str? (within "payment" "txid" event) == some P.txid &&
    Json.str? (within "invoice" "uid" event) == some P.invoice_uid

/-- A webhook row that tells of the payment's confirmation. -/
def isFor (P : Payment) (webhook : Webhook) : Bool :=
  webhook.type == some "payment.confirmed" && names P webhook.payload

/-- To whom a webhook goes: the URL, and the app or the account. -/
abbrev Recipient := Option String × Option Int × Option Int

def recipient (webhook : Webhook) : Recipient :=
  (webhook.url, webhook.app_id, webhook.account_id)

def appRecipient (s : AppWebhook) : Recipient := (some s.url, idOf s.app_id, none)

def accountRecipient (s : AccountWebhook) : Recipient := (some s.url, none, idOf s.account_id)

/-- One batch: one webhook for each subscription queried for. -/
def recipients (w : World) : List Recipient :=
  (topicApps "payment.confirmed" w).map appRecipient ++
    w.accountWebhooks.rows.map accountRecipient

structure View where
  row : Option Payment
  told : Nat
  batch : List Recipient

def view (P : Payment) (w : World) : View where
  row := w.payments.byId P.id
  told := w.published.countP (tells P)
  batch := (w.webhooks.rows.filter (isFor P)).map recipient

def View.block (v : View) : Option Block := v.row.map blockOf

/-- A block is recorded where it has a name: what `confirmPayment` checks. -/
def View.recorded (v : View) : Bool := v.block.any fun b => (nonEmpty b.hash).isSome

/-! ## What is promised -/

/-- At every moment: one event at most, and one batch at most, perhaps not all of it
yet. -/
structure View.Busy (owed : List Recipient) (v : View) : Prop where
  told : v.told ≤ 1
  batch : v.batch <+: owed

/-- While no confirmer is under way: nobody was told of a block that is not
recorded. -/
def View.AtRest (v : View) : Prop := v.recorded = false → v.told = 0 ∧ v.batch = []

/-- From one state to a later one: a recorded block stays. -/
structure Once (P : Payment) (s t : World) : Prop where
  kept : (view P s).recorded = true → (view P t).block = (view P s).block
  told : (view P t).told ≤ 1
  batch : (view P t).batch <+: recipients t

/-- The payment is a row, the only one of its transaction and invoice. -/
structure Alone (P : Payment) (w : World) : Prop where
  mem : P ∈ w.payments.rows
  only : ∀ r ∈ w.payments.rows, r.txid = P.txid → r.invoice_uid = P.invoice_uid → r.id = P.id

/-! ## The contract -/

/-- What no confirmer changes: which transactions invoices and payments name, and who
has subscribed. -/
def fixed (w : World) : List (String × Option String) × List (Nat × String × String) ×
    Table AppWebhook × Table AccountWebhook :=
  (w.invoices.rows.map fun r => (r.uid, r.hash),
    w.payments.rows.map fun r => (r.id, r.txid, r.invoice_uid),
    w.appWebhooks, w.accountWebhooks)

theorem recipients_of_fixed {s t : World} (h : fixed t = fixed s) :
    recipients t = recipients s := by
  simp only [fixed, Prod.mk.injEq] at h
  obtain ⟨-, -, happs, haccounts⟩ := h
  rw [recipients, recipients, topicApps, topicApps, happs, haccounts]

/-- Who is outside leaves the payment alone; who is inside records a block only where
none is, and finds the payment as it left it. -/
def contract (env : Env) (P : Payment) : Contract World Answer Bool where
  answers _ _ c := FindsNamed env c
  rely g s t := fixed t = fixed s ∧ (g = true → view P t = view P s)
  guar g s t g' := g' = g ∧ fixed t = fixed s ∧ (g = false → view P t = view P s) ∧
    ((view P s).Busy (recipients s) → (view P t).Busy (recipients s)) ∧
    ((view P s).recorded = true → (view P t).block = (view P s).block)
  guar_refl _ _ := ⟨rfl, rfl, fun _ => rfl, id, fun _ => rfl⟩
  rely_refl _ _ := ⟨rfl, fun _ => rfl⟩
  rely_trans h h' := ⟨h'.1.trans h.1, fun hg => (h'.2 hg).trans (h.2 hg)⟩

variable {env : Env} {P : Payment} {w s t u : World} {g : Bool} {v : View}

/-- Seen from a state, the calls keep what is promised. -/
theorem exclusive (env : Env) (P : Payment) (w s : World) :
    Pool.Exclusive (contract env P)
      (fun t => fixed t = fixed w ∧ Once P s t) fun t => (view P t).AtRest where
  same h := h.1
  keep h hs := by
    obtain ⟨-, hfixed, -, hbusy, hkept⟩ := h
    obtain ⟨hw, honce⟩ := hs
    obtain ⟨htold, hbatch⟩ := hbusy ⟨honce.told, honce.batch⟩
    refine ⟨hfixed.trans hw, fun hrec => ?_, htold, ?_⟩
    · have hblock := honce.kept hrec
      have hrec' := hrec
      rw [View.recorded, ← hblock] at hrec'
      exact (hkept hrec').trans hblock
    · rw [recipients_of_fixed hfixed]
      exact hbatch
  rest h hs := by
    obtain ⟨-, -, hview, -⟩ := h
    rw [hview rfl]
    exact hs
  outside h := ⟨h.2.1, fun hg => nomatch hg⟩
  inside h := ⟨h.2.1, fun _ => h.2.2.1 rfl⟩

/-! ## What a call knows of the payment -/

/-- Who is inside sees the payment like this; who is outside need not know. -/
structure Sees (P : Payment) (w : World) (g : Bool) (v : View) (t : World) : Prop where
  fixed : fixed t = fixed w
  view : g = true → view P t = v

theorem Sees.stable (h : Sees P w g v s) (hst : (contract env P).rely g s t) :
    Sees P w g v t :=
  ⟨hst.1.trans h.fixed, fun hg => (hst.2 hg).trans (h.view hg)⟩

theorem Sees.leaves (h : Sees P w g v t) (hrest : g = true → v.AtRest) :
    Pool.Leaves (fun w => (Confirmers.view P w).AtRest) g t := by
  intro hg
  rw [h.view hg]
  exact hrest hg

theorem exists_payment {r : Payment} (hfixed : fixed t = fixed w) (hr : r ∈ t.payments.rows) :
    ∃ r₀ ∈ w.payments.rows, r₀.id = r.id ∧ r₀.txid = r.txid ∧
      r₀.invoice_uid = r.invoice_uid := by
  simp only [fixed, Prod.mk.injEq] at hfixed
  have hmem : (r.id, r.txid, r.invoice_uid) ∈
      w.payments.rows.map fun r => (r.id, r.txid, r.invoice_uid) := by
    rw [← hfixed.2.1]
    exact List.mem_map.mpr ⟨r, hr, rfl⟩
  obtain ⟨r₀, hr₀, he⟩ := List.mem_map.mp hmem
  simp only [Prod.mk.injEq] at he
  exact ⟨r₀, hr₀, he.1, he.2.1, he.2.2⟩

/-- A row is the payment's where it is of its transaction and invoice. -/
theorem Alone.iff {r : Payment} (h : Alone P w) (hfixed : fixed t = fixed w)
    (hr : r ∈ t.payments.rows) :
    r.id = P.id ↔ r.txid = P.txid ∧ r.invoice_uid = P.invoice_uid := by
  obtain ⟨r₀, hr₀, hid, htxid, huid⟩ := exists_payment hfixed hr
  rw [← hid, ← htxid, ← huid]
  constructor
  · intro hi
    obtain rfl : r₀ = P := Table.eq_of_id hr₀ h.mem hi
    exact ⟨rfl, rfl⟩
  · rintro ⟨htxid, huid⟩
    exact h.only r₀ hr₀ htxid huid

theorem exists_invoice {r : Invoice} (hfixed : fixed t = fixed w) (hr : r ∈ t.invoices.rows) :
    ∃ r₀ ∈ w.invoices.rows, r₀.uid = r.uid ∧ r₀.hash = r.hash := by
  simp only [fixed, Prod.mk.injEq] at hfixed
  have hmem : (r.uid, r.hash) ∈ w.invoices.rows.map fun r => (r.uid, r.hash) := by
    rw [← hfixed.1]
    exact List.mem_map.mpr ⟨r, hr, rfl⟩
  obtain ⟨r₀, hr₀, he⟩ := List.mem_map.mp hmem
  simp only [Prod.mk.injEq] at he
  exact ⟨r₀, hr₀, he.1, he.2⟩

/-- Steps that show no difference. -/
def frame (P : Payment) (w : World) := (fixed w, view P w)

theorem silent_of_frame (h : frame P t = frame P s) :
    (contract env P).guar g s t g ∧ (contract env P).rely g s t := by
  simp only [frame, Prod.mk.injEq] at h
  obtain ⟨hfixed, hview⟩ := h
  exact ⟨⟨rfl, hfixed, fun _ => hview, fun hb => hview ▸ hb, fun _ => hview ▸ rfl⟩,
    hfixed, fun _ => hview⟩

theorem meets_silent_bind {α β : Type} {R : β → Bool → World → Prop}
    {E : Failure → Bool → World → Prop} {p : Task α} {f : α → Task β}
    (hp : p.Keeps (frame P)) (hs : Sees P w g v s)
    (hok : ∀ t a, Sees P w g v t → (f a).Meets (contract env P) R E g t)
    (herr : ∀ t e, Sees P w g v t → E e g t) :
    (p.bind f).Meets (contract env P) R E g s :=
  meets_keeps_bind hp (fun _ _ h => silent_of_frame h)
    (fun t hst a => hok t a (hs.stable hst)) fun t hst e => herr t e (hs.stable hst)

/-! ## The steps of a confirmation -/

/-- How far the confirmation of row `i` has come: if it is another's nothing shows. -/
structure Progress (P : Payment) (i : Nat) (v v' : View) (told : Nat)
    (batch : List Recipient) : Prop where
  other : i ≠ P.id → v' = v
  own : i = P.id → v'.recorded = true ∧ v'.told = told ∧ v'.batch = batch

theorem fixed_payments {tb : Table Payment} {i : Nat} {f : Payment → Payment}
    (hrows : tb.rows = Table.patch i f t.payments.rows)
    (hf : ∀ x, (f x).id = x.id ∧ (f x).txid = x.txid ∧ (f x).invoice_uid = x.invoice_uid) :
    fixed { t with payments := tb } = fixed t := by
  have hlabels : tb.rows.map (fun r => (r.id, r.txid, r.invoice_uid)) =
      t.payments.rows.map fun r => (r.id, r.txid, r.invoice_uid) := by
    rw [hrows]
    refine List.map_map.trans (List.map_congr_left fun r _ => ?_)
    simp only [Function.comp]
    split
    · simp [hf r]
    · rfl
  simp only [fixed, hlabels]

section Steps

variable {β : Type} {R : β → Bool → World → Prop} {E : Failure → Bool → World → Prop}
  {Q : Payment} {confirmation : Confirmation}

/-- The block is recorded. -/
theorem meets_record_bind {k : Payment → Task β} (hs : Sees P w g v s)
    (hown : Q.id = P.id → g = true ∧ v.row = some Q)
    (hnone : nonEmpty Q.confirmation_hash = none)
    (hnamed : confirmation.confirmation_hash ≠ "") (hrest : g = true → v.AtRest)
    (hk : ∀ t v' r, Progress P Q.id v v' 0 [] → Sees P w g v' t →
      (k r).Meets (contract env P) R E g t)
    (herr : ∀ t e, Sees P w g v t → E e g t) :
    ((prisma.payments.update Q.id fun _ r =>
      { r with confirmation_hash := some confirmation.confirmation_hash,
               confirmation_height := some confirmation.confirmation_height,
               confirmation_date := some confirmation.confirmation_date,
               status := .confirmed }).bind k).Meets (contract env P) R E g s := by
  refine Delegate.meets_update_bind (fun t hst now tb r hr hi hrows _ => ?_)
    fun t hst _ _ _ u htu => herr u _ ((hs.stable hst).stable htu)
  have ht := hs.stable hst
  have hfixed : fixed (prisma.payments.put t tb) = fixed t :=
    fixed_payments hrows fun _ => ⟨rfl, rfl, rfl⟩
  have hrow : tb.byId P.id = (t.payments.byId P.id).map fun r =>
      if P.id = Q.id then Confirming.confirmed r confirmation else r :=
    Table.byId_patch (f := fun r => Confirming.confirmed r confirmation) (fun _ => rfl) hrows
      P.id
  by_cases hid : Q.id = P.id
  · obtain ⟨rfl, hQ⟩ := hown hid
    have hview := ht.view rfl
    have hbyId : t.payments.byId P.id = some Q := by
      rw [← hQ, ← hview]
      rfl
    have hview' : view P (prisma.payments.put t tb) =
        { v with row := some (Confirming.confirmed Q confirmation) } := by
      rw [← hview, view, view]
      simp [prisma.payments, hrow, hbyId, hid]
    have hunrecorded : v.recorded = false := by
      simp [View.recorded, View.block, hQ, blockOf, hnone]
    obtain ⟨htold, hbatch⟩ := hrest rfl hunrecorded
    have hrecorded : View.recorded
        { v with row := some (Confirming.confirmed Q confirmation) } = true := by
      simp [View.recorded, View.block, blockOf, Confirming.confirmed, nonEmpty, hnamed]
    refine ⟨true, ⟨rfl, hfixed, fun hg => (by cases hg), fun hb => ?_, fun hrec => ?_⟩,
      hk _ { v with row := some (Confirming.confirmed Q confirmation) } _
        ⟨fun hne => absurd hid hne, fun _ => ⟨hrecorded, htold, hbatch⟩⟩
        ⟨hfixed.trans ht.fixed, fun _ => hview'⟩⟩
    · rw [hview']
      rw [hview] at hb
      exact ⟨hb.told, hb.batch⟩
    · rw [hview, hunrecorded] at hrec
      cases hrec
  · have hview' : view P (prisma.payments.put t tb) = view P t := by
      rw [view, view]
      simp [prisma.payments, hrow, Ne.symm hid]
    obtain ⟨hguar, hrely⟩ := @silent_of_frame env P t (prisma.payments.put t tb) g
      (by rw [frame, frame, hfixed, hview'])
    exact ⟨g, hguar, hk _ v _ ⟨fun _ => rfl, fun he => absurd he hid⟩ (ht.stable hrely)⟩

/-! ### Telling -/

theorem tells_row {r : Payment} :
    tells P ("payment.confirmed", r.toJson) = true ↔ r.id = P.id := by
  have hget : Json.num? (r.toJson.get "id") = some (r.id : Rat) := by
    simp [Payment.toJson, Json.field_cons, Json.ofNat, Json.num?]
  simp [tells, hget]

/-- The event goes out. -/
theorem meets_tell_bind {r : Payment} {v₀ : View} {k : Unit → Task β} (hs : Sees P w g v s)
    (hown : r.id = P.id → g = true) (hp : Progress P r.id v₀ v 0 [])
    (hk : ∀ t v', Progress P r.id v₀ v' 1 [] → Sees P w g v' t →
      (k ()).Meets (contract env P) R E g t) :
    ((publish "payment.confirmed" r.toJson).bind k).Meets (contract env P) R E g s := by
  intro t hst c _
  have ht := hs.stable hst
  let t' : World := { t with published := t.published ++ [("payment.confirmed", r.toJson)] }
  have hsent : view P t' = { view P t with
      told := (view P t).told + if tells P ("payment.confirmed", r.toJson) then 1 else 0 } := by
    simp [view, t', List.countP_append, List.countP_singleton]
  by_cases hid : r.id = P.id
  · obtain rfl := hown hid
    obtain ⟨hrec, hzero, hnil⟩ := hp.own hid
    have hview := ht.view rfl
    have hview' : view P t' = { v with told := 1 } := by
      rw [hsent, if_pos (tells_row.mpr hid), hview, hzero]
    refine ⟨true, ⟨rfl, rfl, fun hg => (nomatch hg), fun hb => ?_, fun _ => rfl⟩,
      hk t' { v with told := 1 } ⟨fun hne => absurd hid hne, fun _ => ⟨hrec, rfl, hnil⟩⟩
        ⟨ht.fixed, fun _ => hview'⟩⟩
    change (view P t').Busy _
    rw [hview']
    rw [hview] at hb
    exact ⟨le_refl 1, hb.batch⟩
  · have hview' : view P t' = view P t := by
      rw [hsent, if_neg fun he => hid (tells_row.mp he), Nat.add_zero]
    obtain ⟨hguar, hrely⟩ := @silent_of_frame env P t t' g (by rw [frame, frame, hview']; rfl)
    exact ⟨g, hguar, hk t' v ⟨hp.other, fun he => absurd he hid⟩ (ht.stable hrely)⟩

/-- A webhook is written down. -/
theorem meets_write_bind {i : Nat} {v₀ : View} {made : List Recipient} {whom : Recipient}
    {mk : Time → Nat → Webhook} {k : Webhook → Task β}
    (hid : ∀ now n, Record.id (mk now n) = n) (hs : Sees P w g v s) (hown : i = P.id → g = true)
    (hfor : ∀ now n, isFor P (mk now n) = true ↔ i = P.id)
    (hto : ∀ now n, recipient (mk now n) = whom) (hp : Progress P i v₀ v 1 made)
    (howed : made ++ [whom] <+: recipients w)
    (hk : ∀ t v' webhook, Progress P i v₀ v' 1 (made ++ [whom]) → Sees P w g v' t →
      (k webhook).Meets (contract env P) R E g t)
    (herr : ∀ t e, Sees P w g v t → E e g t) :
    ((prisma.webhooks.create mk hid).bind k).Meets (contract env P) R E g s := by
  refine Delegate.meets_create_bind (fun t hst now tb hrows => ?_)
    fun t hst => herr t _ (hs.stable hst)
  have ht := hs.stable hst
  have hrows' : tb.rows = t.webhooks.rows ++ [mk now t.webhooks.next] := hrows
  have hsent : view P (prisma.webhooks.put t tb) = { view P t with
      batch := (view P t).batch ++
        if isFor P (mk now t.webhooks.next) then [whom] else [] } := by
    simp only [view, prisma.webhooks, hrows', List.filter_append, List.map_append]
    by_cases hf : isFor P (mk now t.webhooks.next) = true <;> simp [hf, hto]
  by_cases hi : i = P.id
  · obtain rfl := hown hi
    obtain ⟨hrec, htold, hmade⟩ := hp.own hi
    have hview := ht.view rfl
    have hview' : view P (prisma.webhooks.put t tb) = { v with batch := made ++ [whom] } := by
      rw [hsent, if_pos ((hfor _ _).mpr hi), hview, hmade]
    refine ⟨true, ⟨rfl, rfl, fun hg => (nomatch hg), fun hb => ?_, fun _ => rfl⟩,
      hk _ { v with batch := made ++ [whom] } _
        ⟨fun hne => absurd hi hne, fun _ => ⟨hrec, htold, rfl⟩⟩ ⟨ht.fixed, fun _ => hview'⟩⟩
    rw [hview', recipients_of_fixed ht.fixed]
    rw [hview] at hb
    exact ⟨hb.told, howed⟩
  · have hview' : view P (prisma.webhooks.put t tb) = view P t := by
      rw [hsent, if_neg fun he => hi ((hfor _ _).mp he), List.append_nil]
    obtain ⟨hguar, hrely⟩ := @silent_of_frame env P t (prisma.webhooks.put t tb) g
      (by rw [frame, frame, hview']; rfl)
    exact ⟨g, hguar, hk _ v _ ⟨hp.other, fun he => absurd he hi⟩ (ht.stable hrely)⟩

end Steps

/-- How a confirmation of row `i` ends: nothing shows, or the block is recorded. -/
structure Ended (P : Payment) (w : World) (i : Nat) (v₀ : View) (g g' : Bool) (t : World) :
    Prop where
  same : g' = g
  seen : ∃ v, Sees P w g v t ∧ (i ≠ P.id → v = v₀) ∧ (v = v₀ ∨ v.recorded = true)

section Batch

variable {i : Nat} {v₀ : View} {made : List Recipient}

theorem Progress.ended {told : Nat} (hp : Progress P i v₀ v told made)
    (hs : Sees P w g v t) : Ended P w i v₀ g g t := by
  refine ⟨rfl, v, hs, hp.other, ?_⟩
  by_cases hi : i = P.id
  · exact .inr (hp.own hi).1
  · exact .inl (hp.other hi)

theorem Sees.ended (hs : Sees P w g v t) : Ended P w i v g g t :=
  ⟨rfl, v, hs, fun _ => rfl, .inl rfl⟩

theorem keeps_spawn_frame (j : Job) : (spawn j).Keeps (frame P) := keeps_spawn j fun _ => rfl

/-- The loop over the subscriptions writes them one webhook each, or stops. -/
theorem meets_deliverAll {α : Type} {key : α → String} (to_ : α → Recipient)
    {mk : α → Int → Time → Nat → Webhook} {hid : ∀ a n now x, Record.id (mk a n now x) = x}
    (hown : i = P.id → g = true)
    (hfor : ∀ a n now x, isFor P (mk a n now x) = true ↔ i = P.id)
    (hto : ∀ a n, columnId (key a) = .ok n → ∀ now x, recipient (mk a n now x) = to_ a)
    (subs : List α) (hs : Sees P w g v s) (hp : Progress P i v₀ v 1 made)
    (howed : made ++ subs.map to_ <+: recipients w) :
    (forEach subs fun a => (Proc.ofExcept (columnId (key a)) : Task Int).bind fun n =>
        (prisma.webhooks.create (mk a n) (hid a n)).bind fun webhook =>
          spawn (.sendWebhook webhook)).Meets (contract env P)
      (fun _ g' t => g' = g ∧ ∃ v', Progress P i v₀ v' 1 (made ++ subs.map to_) ∧
        Sees P w g v' t)
      (fun _ => Ended P w i v₀ g) g s := by
  induction subs generalizing made v s with
  | nil =>
      intro t hst
      rw [List.map_nil, List.append_nil]
      exact ⟨rfl, v, hp, hs.stable hst⟩
  | cons a subs ih =>
      rw [forEach]
      refine meets_bind ?_
      cases hcolumn : columnId (key a) with
      | error e => exact fun t hst => hp.ended (hs.stable hst)
      | ok n =>
          have hsplit : made ++ (a :: subs).map to_ = made ++ [to_ a] ++ subs.map to_ := by simp
          rw [hsplit] at howed ⊢
          refine meets_write_bind (hid a n) hs hown (hfor a n) (hto a n hcolumn) hp
            ((List.prefix_append _ _).trans howed) (fun t v' webhook hp' ht => ?_)
            fun t e ht => hp.ended ht
          rw [← Proc.bind_done (spawn _)]
          exact meets_silent_bind (keeps_spawn_frame _) ht
            (fun u _ hu x hux => ih (hu.stable hux) hp' howed) fun u _ hu => hp'.ended hu

/-- What passes the schema names the same payment and invoice. -/
theorem names_validated {invoice : Invoice} {r : Payment} {confirmation : Confirmation}
    {validated : Json}
    (h : PaymentConfirmedEvent.parse (paymentConfirmed invoice r confirmation).toJson =
      some validated) :
    names P validated = true ↔ r.txid = P.txid ∧ invoice.uid = P.invoice_uid := by
  have hevent : ∃ payload, (paymentConfirmed invoice r confirmation).toJson.get "payload" =
      some payload ∧ (∃ payment, payload.get "payment" = some payment ∧
        payment.get "txid" = some (.str r.txid)) ∧
      ∃ row, payload.get "invoice" = some row ∧ row.get "uid" = some (.str invoice.uid) := by
    cases haccount : orUndefined invoice.account_id <;>
      cases happ : orUndefined invoice.app_id <;>
      simp [paymentConfirmed, Event.toJson, optionalId, haccount, happ, Json.field]
  obtain ⟨payload, hpayload, ⟨payment, hpayment, htxid⟩, row, hrow, huid⟩ := hevent
  obtain ⟨payload', hparse, hpayload'⟩ :=
    Schema.parse_get_of_field (k := "payload") rfl hpayload h
  obtain ⟨payment', hparse₁, hpayment'⟩ :=
    Schema.parse_get_of_field (k := "payment") rfl hpayment hparse
  obtain ⟨txid', htext, htxid'⟩ := Schema.parse_get_of_field (k := "txid") rfl htxid hparse₁
  obtain ⟨row', hparse₂, hrow'⟩ := Schema.parse_get_of_field (k := "invoice") rfl hrow hparse
  obtain ⟨uid', htext₂, huid'⟩ := Schema.parse_get_of_field (k := "uid") rfl huid hparse₂
  obtain rfl := Option.some.inj htext
  obtain rfl := Option.some.inj htext₂
  have hfields : within "payment" "txid" validated = some (.str r.txid) ∧
      within "invoice" "uid" validated = some (.str invoice.uid) := by
    simp [within, hpayload', hpayment', htxid', hrow', huid']
  simp [names, hfields, Json.str?]

/-- One batch of webhooks. -/
theorem meets_sendBatch {invoice : Invoice} {r : Payment} {confirmation : Confirmation}
    (hown : i = P.id → g = true)
    (hnames : r.txid = P.txid ∧ invoice.uid = P.invoice_uid ↔ i = P.id)
    (hs : Sees P w g v s) (hp : Progress P i v₀ v 1 []) :
    (createAndSendWebhook "payment.confirmed"
      (paymentConfirmed invoice r confirmation).toJson).Meets (contract env P)
        (fun _ => Ended P w i v₀ g) (fun _ => Ended P w i v₀ g) g s := by
  have hlook : webhookSchemas.lookup "payment.confirmed" = some PaymentConfirmedEvent := rfl
  cases hparse : PaymentConfirmedEvent.parse (paymentConfirmed invoice r confirmation).toJson with
  | none =>
      simp only [createAndSendWebhook, hlook, hparse]
      exact fun t hst => hp.ended (hs.stable hst)
  | some validated =>
      have happ := validated_get_id hlook hparse (.inl rfl)
      have haccount := validated_get_id hlook hparse (.inr rfl)
      have hfor : names P validated = true ↔ i = P.id := (names_validated hparse).trans hnames
      simp only [createAndSendWebhook, hlook, hparse, findAppWebhooks, findAccountWebhooks, happ,
        haccount, whereField, bind_eq, Proc.ofExcept, done_bind, Bool.true_and]
      refine Delegate.meets_findMany_bind fun t hst => ?_
      have ht := hs.stable hst
      refine Delegate.meets_findMany_bind fun u htu => ?_
      have hu := ht.stable htu
      have howed : (topicApps "payment.confirmed" t).map appRecipient ++
          u.accountWebhooks.rows.map accountRecipient = recipients w := by
        have hfixed := ht.fixed
        have hfixed' := hu.fixed
        simp only [fixed, Prod.mk.injEq] at hfixed hfixed'
        rw [recipients, topicApps, topicApps, hfixed.2.2.1, hfixed'.2.2.2]
      refine meets_bind (meets_mono (fun _ g' x hx => ?_) (fun _ _ _ h => h)
        (meets_deliverAll appRecipient hown (fun a n now x => ?_)
          (fun a n hn now x => ?_) (topicApps "payment.confirmed" t) hu hp ?_))
      · obtain ⟨rfl, v', hp', hx⟩ := hx
        refine meets_mono (fun _ g'' y hy => ?_) (fun _ _ _ h => h)
          (meets_deliverAll accountRecipient hown (fun a n now x => ?_)
            (fun a n hn now x => ?_) (u.accountWebhooks.select fun _ => true) hx hp' ?_)
        · obtain ⟨rfl, v'', hp'', hy⟩ := hy
          exact hp''.ended hy
        · simp [isFor, hfor]
        · simp [recipient, accountRecipient, idOf, hn, Except.toOption]
        · simp only [Table.select_true, List.nil_append, howed, List.prefix_rfl]
      · simp [isFor, hfor]
      · simp [recipient, appRecipient, idOf, hn, Except.toOption]
      · rw [List.nil_append, ← howed]
        exact List.prefix_append _ _

end Batch

theorem fixed_invoices {tb : Table Invoice} {i : Nat} {f : Invoice → Invoice}
    (hrows : tb.rows = Table.patch i f t.invoices.rows)
    (hf : ∀ x, (f x).uid = x.uid ∧ (f x).hash = x.hash) :
    fixed { t with invoices := tb } = fixed t := by
  have hlabels : tb.rows.map (fun r => (r.uid, r.hash)) =
      t.invoices.rows.map fun r => (r.uid, r.hash) := by
    rw [hrows]
    refine List.map_map.trans (List.map_congr_left fun r _ => ?_)
    simp only [Function.comp]
    split
    · simp [hf r]
    · rfl
  simp only [fixed, hlabels]

/-- That the invoice is paid shows no difference here. -/
theorem keeps_paid (i : Nat) :
    (prisma.invoices.update i fun _ r => { r with status := .paid }).Keeps (frame P) := by
  refine keeps_step fun c w => ?_
  cases hupdate : w.invoices.update? i (fun r => { r with status := .paid }) (fun _ => rfl) with
  | error e =>
      show frame P (prisma.invoices.commit w (w.invoices.update? i _ _)).2 = _
      rw [hupdate]
      rfl
  | ok q =>
      obtain ⟨row, tb⟩ := q
      obtain ⟨-, -, -, -, hrows, -, -⟩ := Table.update?_ok hupdate
      show frame P (prisma.invoices.commit w (w.invoices.update? i _ _)).2 = _
      rw [hupdate]
      show (fixed { w with invoices := tb }, view P w) = _
      rw [fixed_invoices hrows fun _ => ⟨rfl, rfl⟩]
      rfl

/-- `confirmPayment`, of the payment or of another. -/
theorem meets_confirmPayment {Q : Payment} {confirmation : Confirmation} (hP : Alone P w)
    (hown : Q.id = P.id → g = true ∧ v.row = some Q)
    (hnamed : confirmation.confirmation_hash ≠ "") (hs : Sees P w g v s)
    (hrest : g = true → v.AtRest) :
    (confirmPayment Q confirmation).Meets (contract env P) (fun _ => Ended P w Q.id v g)
      (fun _ => Ended P w Q.id v g) g s := by
  unfold confirmPayment
  split
  · exact fun t hst => (hs.stable hst).ended
  · rename_i hnone
    have hnone : nonEmpty Q.confirmation_hash = none := by simpa using hnone
    simp only [bind_eq, pure_eq]
    refine meets_record_bind hs hown hnone hnamed hrest (fun t v₁ _ hp ht => ?_)
      fun t _ ht => ht.ended
    refine Delegate.meets_findFirstOrThrow_bind (fun u htu r hr hid => ?_)
      fun u htu _ x hux => hp.ended ((ht.stable htu).stable hux)
    have hu := ht.stable htu
    have hid : r.id = Q.id := eq_of_beq hid
    refine Delegate.meets_findFirstOrThrow_bind (fun x hux invoice hinvoice huid => ?_)
      fun x hux _ y hxy => hp.ended ((hu.stable hux).stable hxy)
    have huid : invoice.uid = r.invoice_uid := eq_of_beq huid
    have hnames : r.txid = P.txid ∧ invoice.uid = P.invoice_uid ↔ Q.id = P.id := by
      rw [huid, ← hid]
      exact (hP.iff hu.fixed hr).symm
    refine meets_silent_bind (keeps_paid _) (hu.stable hux) (fun y _ hy => ?_)
      fun y _ hy => hp.ended hy
    have hp₁ : Progress P r.id v v₁ 0 [] := hid ▸ hp
    refine meets_tell_bind hy (fun he => (hown (hid ▸ he)).1) hp₁
      fun z v₂ hp₂ hz => ?_
    rw [hid] at hp₂
    refine meets_bind (meets_mono (fun _ g' a ha => ?_) (fun _ _ _ h => h)
      (meets_sendBatch (fun he => (hown he).1) hnames hz hp₂))
    obtain ⟨rfl, v', ha, hother, hend⟩ := ha
    exact fun b hab => ⟨rfl, v', ha.stable hab, hother, hend⟩

/-! ## The confirmers -/

/-- How a confirmer leaves the payment. -/
structure Finished (P : Payment) (w : World) (g g' : Bool) (t : World) : Prop where
  same : g' = g
  seen : ∃ v, Sees P w g v t ∧ (g = true → v.AtRest)

theorem Finished.stable {g' : Bool} (h : Finished P w g g' s)
    (hst : (contract env P).rely g' s t) : Finished P w g g' t := by
  obtain ⟨rfl, v, hs, hrest⟩ := h
  exact ⟨rfl, v, hs.stable hst, hrest⟩

theorem Finished.leaves {g' : Bool} (h : Finished P w g g' t) :
    Pool.Leaves (fun t => (view P t).AtRest) g' t := by
  obtain ⟨rfl, v, ht, hrest⟩ := h
  exact ht.leaves hrest

theorem Sees.finished (hs : Sees P w g v t) (hrest : g = true → v.AtRest) :
    Finished P w g g t := ⟨rfl, v, hs, hrest⟩

theorem View.atRest_of_recorded (h : v.recorded = true) : v.AtRest := by
  intro hno
  rw [h] at hno
  cases hno

theorem Ended.finished {i : Nat} {g' : Bool} (h : Ended P w i v g g' t)
    (hrest : g = true → v.AtRest) : Finished P w g g' t := by
  obtain ⟨hsame, v', ht, -, hend⟩ := h
  refine ⟨hsame, v', ht, fun hg => ?_⟩
  rcases hend with rfl | hrec
  · exact hrest hg
  · exact View.atRest_of_recorded hrec

/-- A look at the chain: nothing shows, and a block that is found has a name. -/
def LooksUp (env : Env) (P : Payment) (w : World) (g : Bool)
    (lookUp : Task (Option Confirmation)) : Prop :=
  ∀ v s, Sees P w g v s → lookUp.Meets (contract env P)
    (fun found g' t => g' = g ∧ Sees P w g v t ∧
      ∀ confirmation, found = some confirmation → confirmation.confirmation_hash ≠ "")
    (fun _ g' t => g' = g ∧ Sees P w g v t) g s

theorem looksUp_ask {currency chain : String} {plugin : Plugin}
    (hfind : find env currency chain = .ok plugin) (txid : String) :
    LooksUp env P w g (ask (plugin.getConfirmation txid)) := by
  intro v s hs
  refine meets_step fun t hst c hc => ⟨g, (contract env P).guar_refl g t, ?_, ?_⟩
  · intro found hfound u htu
    refine ⟨rfl, (hs.stable hst).stable htu, fun confirmation hsome => ?_⟩
    subst hsome
    exact hc currency chain plugin hfind txid confirmation hfound
  · exact fun _ _ u htu => ⟨rfl, (hs.stable hst).stable htu⟩

theorem looksUp_getConfirmation (txid chain currency : String) :
    LooksUp env P w g (getConfirmation env txid chain currency) := by
  intro v s hs
  unfold getConfirmation
  cases hfind : find env currency chain with
  | error e => exact fun t hst => ⟨rfl, hs.stable hst⟩
  | ok plugin => exact looksUp_ask hfind txid v s hs

/-- One payment of a list. -/
theorem meets_confirmIfFound {Q : Payment} {lookUp : Task (Option Confirmation)}
    {E : Failure → Bool → World → Prop} (hP : Alone P w) (hlook : LooksUp env P w g lookUp)
    (hown : Q.id = P.id → g = true ∧ v.row = some Q) (hs : Sees P w g v s)
    (hrest : g = true → v.AtRest) :
    (confirmIfFound Q lookUp).Meets (contract env P) (fun _ => Ended P w Q.id v g) E g s := by
  have hcaught : ∀ g' t, Ended P w Q.id v g g' t → (done () : Task Unit).Meets (contract env P)
      (fun _ => Ended P w Q.id v g) E g' t := by
    rintro g' t ⟨rfl, v', ht, hother, hend⟩ u htu
    exact ⟨rfl, v', ht.stable htu, hother, hend⟩
  refine meets_tryCatch (meets_bind (meets_mono (fun found g' t ht => ?_) (fun _ g' t ht => ?_)
    (hlook v s hs)))
  · obtain ⟨rfl, ht, hnamed⟩ := ht
    cases found with
    | none => exact fun u htu => (ht.stable htu).ended
    | some confirmation =>
        exact meets_bind (meets_mono (fun _ g'' u hu => hcaught g'' u hu)
          (fun _ g'' u hu => hcaught g'' u hu)
          (meets_confirmPayment hP hown (hnamed confirmation rfl) ht hrest))
  · obtain ⟨rfl, ht⟩ := ht
    exact hcaught _ t ht.ended

/-- A list of payments, one after the other: the copy of the payment is its row up to
its turn, and comes once. -/
theorem meets_confirmAll {lookUp : Payment → Task (Option Confirmation)}
    {E : Failure → Bool → World → Prop} (hP : Alone P w)
    (hlook : ∀ Q, LooksUp env P w g (lookUp Q)) (payments : List Payment)
    (hnodup : (payments.map Record.id).Nodup)
    (hown : ∀ Q ∈ payments, Q.id = P.id → g = true ∧ v.row = some Q) (hs : Sees P w g v s)
    (hrest : g = true → v.AtRest) :
    (forEach payments fun Q => confirmIfFound Q (lookUp Q)).Meets (contract env P)
      (fun _ => Finished P w g) E g s := by
  induction payments generalizing v s with
  | nil => exact fun t hst => (hs.stable hst).finished hrest
  | cons Q payments ih =>
      rw [List.map_cons, List.nodup_cons] at hnodup
      rw [forEach]
      refine meets_bind (meets_mono (fun _ g' t ht => ?_) (fun _ _ _ h => h)
        (meets_confirmIfFound hP (hlook Q) (hown Q (by simp)) hs hrest))
      obtain ⟨rfl, v', ht, hother, hend⟩ := ht
      have hrest' : g' = true → v'.AtRest := by
        intro hg
        rcases hend with rfl | hrec
        · exact hrest hg
        · exact View.atRest_of_recorded hrec
      refine ih hnodup.2 (fun Q' hQ' hid => ?_) ht hrest'
      have hne : Q.id ≠ P.id := by
        intro he
        exact hnodup.1 (List.mem_map.mpr ⟨Q', hQ', hid.trans he.symm⟩)
      rw [hother hne]
      exact hown Q' (by simp [hQ']) hid

/-- A row that was just read is what is seen of the payment. -/
theorem Sees.own {Q : Payment} (ht : Sees P w g v t) (hQ : Q ∈ t.payments.rows)
    (hg : Q.id = P.id → g = true) : Q.id = P.id → g = true ∧ v.row = some Q := by
  intro hid
  refine ⟨hg hid, ?_⟩
  rw [← ht.view (hg hid)]
  exact Table.byId_some.mpr ⟨hQ, hid⟩

/-- The tick: it may confirm the payment, so it is inside. -/
theorem meets_tick {E : Failure → Bool → World → Prop} (hP : Alone P w)
    (hs : Sees P w true v s) (hrest : v.AtRest) :
    (confirmTransactionsTick env).Meets (contract env P) (fun _ => Finished P w true) E true
      s := by
  refine meets_query_bind (fun t hst c _ payments hfound => ?_) fun _ _ _ _ he => nomatch he
  obtain rfl := Except.ok.inj hfound
  have ht := hs.stable hst
  have hperm := List.perm_insertionSort (fun a b : Payment => b.createdAt ≤ a.createdAt)
    (t.payments.select fun r =>
      r.status == .confirming && decide (c.now ≤ r.createdAt + sevenDays))
  refine meets_confirmAll hP (fun Q => looksUp_getConfirmation _ _ _) _ ?_ (fun Q hQ => ?_) ht
    fun _ => hrest
  · exact ((hperm.map Record.id).nodup_iff).mpr
      (t.payments.id_nodup.sublist (List.filter_sublist.map Record.id))
  · exact ht.own (Table.mem_select.mp (hperm.mem_iff.mp hQ)).1 fun _ => rfl

theorem meets_command {chain currency : String} (hP : Alone P w) (hs : Sees P w true v s)
    (hrest : v.AtRest) :
    (confirmPaymentsCommand env chain currency).Meets (contract env P)
      (fun _ => Finished P w true) (fun _ => Finished P w true) true s := by
  unfold confirmPaymentsCommand
  cases hfind : find env currency chain with
  | error e => exact fun t hst => (hs.stable hst).finished fun _ => hrest
  | ok plugin =>
      refine Delegate.meets_findMany_bind fun t hst => ?_
      have ht := hs.stable hst
      refine meets_confirmAll hP (fun Q => looksUp_ask hfind Q.txid) _ ?_ (fun Q hQ => ?_) ht
        fun _ => hrest
      · exact t.payments.id_nodup.sublist (List.filter_sublist.map Record.id)
      · exact ht.own (Table.mem_select.mp hQ).1 fun _ => rfl

/-- A row of a transaction is the payment's only if the transaction is. -/
theorem Sees.inside {Q : Payment} {txid : String} (hP : Alone P w) (ht : Sees P w g v t)
    (hQ : Q ∈ t.payments.rows) (htxid : (Q.txid == txid) = true) (hg : txid = P.txid → g = true) :
    Q.id = P.id → g = true ∧ v.row = some Q :=
  ht.own hQ fun hid => hg ((eq_of_beq htxid).symm.trans ((hP.iff ht.fixed hQ).mp hid).1)

theorem meets_confirmPaymentByTxid {txid : String} {confirmation : Confirmation}
    (hP : Alone P w) (hg : txid = P.txid → g = true)
    (hnamed : confirmation.confirmation_hash ≠ "") (hs : Sees P w g v s)
    (hrest : g = true → v.AtRest) :
    (confirmPaymentByTxid txid confirmation).Meets (contract env P) (fun _ => Finished P w g)
      (fun _ => Finished P w g) g s := by
  refine Delegate.meets_findFirstOrThrow_bind (fun t hst Q hQ htxid => ?_)
    fun t hst _ u htu => ((hs.stable hst).stable htu).finished hrest
  have ht := hs.stable hst
  exact meets_mono (fun _ _ _ h => h.finished hrest) (fun _ _ _ h => h.finished hrest)
    (meets_confirmPayment hP (ht.inside hP hQ htxid hg) hnamed ht hrest)

theorem meets_getConfirmationForTxid {txid : String} (hP : Alone P w)
    (hg : txid = P.txid → g = true) (hs : Sees P w g v s) (hrest : g = true → v.AtRest) :
    (getConfirmationForTxid env txid).Meets (contract env P) (fun _ => Finished P w g)
      (fun _ => Finished P w g) g s := by
  refine Delegate.meets_findFirst_bind (fun t hst Q hQ htxid => ?_)
    fun t hst _ u htu => ((hs.stable hst).stable htu).finished hrest
  have ht := hs.stable hst
  have hown := ht.inside hP hQ htxid hg
  refine meets_bind (meets_mono (fun found g' u hu => ?_) (fun _ g' u hu => ?_)
    (looksUp_getConfirmation txid (nullText Q.chain) Q.currency v t ht))
  · obtain ⟨rfl, hu, hnamed⟩ := hu
    cases found with
    | none => exact fun x hux => (hu.stable hux).finished hrest
    | some confirmation =>
        refine meets_bind (meets_mono (fun _ _ x hx => ?_) (fun _ _ _ h => h.finished hrest)
          (meets_confirmPayment hP hown (hnamed confirmation rfl) hu hrest))
        exact fun y hxy => (hx.finished hrest).stable hxy
  · obtain ⟨rfl, hu⟩ := hu
    exact hu.finished hrest

theorem meets_handleTransactionReceipt {receipt : TransactionReceipt} (hP : Alone P w)
    (hg : receipt.transactionHash = P.txid → g = true) (hnamed : receipt.blockHash ≠ some "")
    (hs : Sees P w g v s) (hrest : g = true → v.AtRest) :
    (handleTransactionReceipt receipt).Meets (contract env P) (fun _ => Finished P w g)
      (fun _ => Finished P w g) g s := by
  unfold handleTransactionReceipt
  split
  · rw [← Proc.bind_done (spawn _)]
    exact meets_silent_bind (keeps_spawn_frame _) hs
      (fun t _ ht u htu => (ht.stable htu).finished hrest) fun t _ ht => ht.finished hrest
  · have hhash : receipt.blockHash.getD "undefined" ≠ "" := by
      cases hblock : receipt.blockHash with
      | none => decide
      | some hash => exact fun he => hnamed (hblock.trans (congrArg some he))
    refine meets_silent_bind keeps_query hs (fun t timestamp ht => ?_)
      fun t _ ht => ht.finished hrest
    refine meets_bind (meets_mono (fun _ g' u hu => ?_) (fun _ _ _ h => h)
      (meets_confirmPaymentByTxid hP hg hhash ht hrest))
    obtain ⟨rfl, v', hu, hrest'⟩ := hu
    refine Delegate.meets_findFirst_bind
      (fun x hux _ _ _ y hxy => ((hu.stable hux).stable hxy).finished hrest')
      fun x hux _ => ?_
    refine meets_silent_bind (Delegate.keeps_create fun _ _ => rfl) (hu.stable hux)
      (fun y _ hy z hyz => (hy.stable hyz).finished hrest') fun y _ hy => hy.finished hrest'

theorem meets_confirmInvoice {uid : String} (hP : Alone P w)
    (hg : (∃ r ∈ w.invoices.rows, r.uid = uid ∧ r.hash = some P.txid) → g = true)
    (hs : Sees P w g v s) (hrest : g = true → v.AtRest) :
    (confirmInvoice env uid).Meets (contract env P) (fun _ => Finished P w g)
      (fun _ => Finished P w g) g s := by
  refine meets_tryCatch (meets_mono (fun _ _ _ h => h) (fun _ g' t (ht : Finished P w g g' t) u
    htu => ht.stable htu) ?_)
  refine Delegate.meets_findFirstOrThrow_bind (fun t hst r hr huid => ?_)
    fun t hst _ u htu => ((hs.stable hst).stable htu).finished hrest
  have ht := hs.stable hst
  refine Delegate.meets_findFirst_bind (fun u htu Q hQ _ => ?_)
    fun u htu _ x hux => ((ht.stable htu).stable hux).finished hrest
  have hu := ht.stable htu
  dsimp only
  split
  · exact fun x hux => (hu.stable hux).finished hrest
  · split
    · rename_i txid _ hhash
      have hg' : txid = P.txid → g = true := by
        rintro rfl
        obtain ⟨r₀, hr₀, huid₀, hhash₀⟩ := exists_invoice ht.fixed hr
        refine hg ⟨r₀, hr₀, huid₀.trans (eq_of_beq huid), hhash₀.trans ?_⟩
        exact (Option.filter_eq_some_iff.mp hhash).1
      refine meets_bind (meets_mono (fun found g' x hx => ?_) (fun _ g' x hx => ?_)
        (looksUp_getConfirmation txid (nullText Q.chain) Q.currency v u hu))
      · obtain ⟨rfl, hx, hnamed⟩ := hx
        cases found with
        | none => exact fun y hxy => (hx.stable hxy).finished hrest
        | some confirmation =>
            refine meets_bind (meets_mono (fun _ _ y hy => ?_) (fun _ _ _ h => h)
              (meets_confirmPaymentByTxid hP hg' (hnamed confirmation rfl) hx hrest))
            exact fun z hyz => hy.stable hyz
      · obtain ⟨rfl, hx⟩ := hx
        exact hx.finished hrest
    · exact fun x hux => (hu.stable hux).finished hrest

/-! ## Any number of confirmers -/

theorem meets_discarded {α : Type} {p : Task α} (h : p.Meets (contract env P)
    (fun _ => Finished P w g) (fun _ => Finished P w g) g s) :
    (discard p : Task Unit).Meets (contract env P) (fun _ => Finished P w g)
      (fun _ => Finished P w g) g s := by
  refine meets_bind (meets_mono (fun _ g' t ht => ?_) (fun _ _ _ h => h) h)
  exact fun u htu => ht.stable htu

/-- A call that may confirm the payment, or may not. -/
theorem meets_code {call : Call} (hP : Alone P w) (hnamed : Named call)
    (hg : concerns P w call → g = true) (hs : Sees P w g v s) (hrest : g = true → v.AtRest) :
    (code env call).Meets (contract env P) (fun _ => Finished P w g) (fun _ => Finished P w g)
      g s := by
  cases call with
  | confirmTransactionsTick =>
      obtain rfl := hg trivial
      exact meets_tick hP hs (hrest rfl)
  | confirmPaymentsCommand chain currency =>
      obtain rfl := hg trivial
      exact meets_command hP hs (hrest rfl)
  | getConfirmationForTxid txid =>
      exact meets_discarded (meets_getConfirmationForTxid hP hg hs hrest)
  | confirmPaymentByTxid txid confirmation =>
      exact meets_discarded (meets_confirmPaymentByTxid hP hg hnamed hs hrest)
  | handleTransactionReceipt receipt =>
      exact meets_handleTransactionReceipt hP hg hnamed hs hrest
  | confirmInvoice uid => exact meets_discarded (meets_confirmInvoice hP hg hs hrest)

/-- Turns are kept, and with them what is promised of the time since `s`. -/
theorem turns_reaches {p q : Calls} (hP : Alone P w)
    (hp : ∃ gs, Pool.Turns (contract env P) (fun t => fixed t = fixed w ∧ Once P s t)
      (fun t => (view P t).AtRest) (concerns P w) p gs)
    (h : Pool.Reaches (code env) (takingTurns env P w) p q) :
    ∃ gs, Pool.Turns (contract env P) (fun t => fixed t = fixed w ∧ Once P s t)
      (fun t => (view P t).AtRest) (concerns P w) q gs := by
  have hleaves : ∀ {g : Bool} {call : Call} {t : World}, (code env call).Meets
      (contract env P) (fun _ => Finished P w g) (fun _ => Finished P w g) g t →
      (code env call).Meets (contract env P)
        (fun _ => Pool.Leaves fun t => (view P t).AtRest)
        (fun _ => Pool.Leaves fun t => (view P t).AtRest) g t := fun h =>
    meets_mono (fun _ _ _ ht => ht.leaves) (fun _ _ _ ht => ht.leaves) h
  refine Pool.Turns.reaches (exclusive env P w s) (fun p call hbusy hm hkind => ?_)
    (fun p call hbusy hm hkind => ?_) (fun _ _ _ hm _ => hm) hp h
  · exact ⟨hm.2 hkind, fun hrest => hleaves (meets_code hP hm.1 (fun _ => rfl)
      ⟨hbusy.1, fun _ => rfl⟩ fun _ => hrest)⟩
  · exact hleaves (meets_code (v := view P p.state) hP hm.1 (fun hc => absurd hc hkind)
      ⟨hbusy.1, fun hg => nomatch hg⟩ fun hg => nomatch hg)

/-- **One confirmation.** Where the confirmers of a payment take turns and every block
has a name: a recorded block is never replaced, one event at most is sent for the
payment, and one batch of webhooks at most is written. -/
theorem confirmed_once (env : Env) (P : Payment) (w : World) (hP : Alone P w)
    (hbusy : (view P w).Busy (recipients w)) (hrest : (view P w).AtRest) (p q : Calls)
    (hp : Pool.Reaches (code env) (takingTurns env P w) (Pool.init w) p)
    (hq : Pool.Reaches (code env) (takingTurns env P w) p q) : Once P p.state q.state := by
  obtain ⟨gs, hturns⟩ := turns_reaches (s := w) hP
    ⟨[], Pool.Turns.init ⟨rfl, fun _ => rfl, hbusy.told, hbusy.batch⟩ hrest⟩ hp
  obtain ⟨hfixed, honce⟩ := hturns.busy
  obtain ⟨gs', hturns'⟩ := turns_reaches (s := p.state) hP
    ⟨gs, hturns.with_busy ⟨hfixed, fun _ => rfl, honce.told, honce.batch⟩⟩ hq
  exact hturns'.busy.2

/-! ## Two confirmers of one payment -/

/-- A server of one coin. -/
def bitcoin : Env :=
  { plugins := [("BTC", { currency := "BTC", chain := "BTC", decimals := 8 })] }

/-- The chain answers with a block of this name. -/
def finds (hash : String) : Answer :=
  { confirmation := .ok (some
      { confirmation_hash := hash, confirmation_height := 7, confirmation_date := 0 }) }

theorem findsNamed {hash : String} (h : hash ≠ "") : FindsNamed bitcoin (finds hash) := by
  intro currency chain plugin hfind txid confirmation hfound
  have hmem := mem_of_find hfind
  simp only [bitcoin, List.mem_singleton, Prod.mk.injEq] at hmem
  obtain ⟨-, rfl⟩ := hmem
  obtain rfl := Option.some.inj (Except.ok.inj hfound)
  exact h

theorem sent_alone (status : InvoiceStatus) : Alone Confirming.sent (Confirming.shop status) where
  mem := List.mem_singleton.mpr rfl
  only r hr _ _ := by rw [List.mem_singleton.mp hr]

theorem shop_busy (status : InvoiceStatus) :
    (view Confirming.sent (Confirming.shop status)).Busy
      (recipients (Confirming.shop status)) := ⟨Nat.zero_le 1, List.nil_prefix⟩

theorem shop_atRest (status : InvoiceStatus) :
    (view Confirming.sent (Confirming.shop status)).AtRest := fun _ => ⟨rfl, rfl⟩

/-- The block of the payment is this one, and so many events were sent for it, and so
many webhooks written. -/
def shows (hash : String) (told batch : Nat) (p : Calls) : Bool :=
  (view Confirming.sent p.state).block == some ⟨some hash, some 7, some 0⟩ &&
    (view Confirming.sent p.state).told == told &&
    (view Confirming.sent p.state).batch.length == batch

/-- A confirmer reads the payment, then a second one; the first goes on to its end. -/
def bothRead : List (Move Answer Call) :=
  [.start (.getConfirmationForTxid "t1"), .start (.getConfirmationForTxid "t1"),
    .run 0 (finds "b1"), .run 1 (finds "b1")] ++ Pool.steps 0 6 (finds "b1")

/-- Two confirmers read the payment before one of them wrote: the second replaces the
block the first recorded, and sends a second event. -/
theorem confirmed_twice :
    ¬ ∀ (env : Env) (P : Payment) (w : World) (p q : Calls), Alone P w →
      (view P w).Busy (recipients w) → (view P w).AtRest →
      Pool.Reaches (code env) (anyOrder env) (Pool.init w) p →
      Pool.Reaches (code env) (anyOrder env) p q → Once P p.state q.state := by
  intro h
  have hnamed : FindsNamed bitcoin (finds "b1") := findsNamed (by decide)
  have hfirst : Pool.Admitted (code bitcoin) (anyOrder bitcoin) bothRead
      (Pool.init (Confirming.shop .confirming)) := by
    refine Pool.admitted_all (fun m hm p => ?_) _
    simp only [bothRead, Pool.steps, List.mem_append, List.mem_cons, List.not_mem_nil, or_false,
      List.mem_replicate] at hm
    rcases hm with (rfl | rfl | rfl | rfl) | ⟨-, rfl⟩
    · exact trivial
    · exact trivial
    all_goals exact hnamed
  obtain ⟨p, hp, hthen⟩ := Pool.exists_reaches (fun p => shows "b1" 1 0 p &&
    (Pool.run (code bitcoin) (Pool.steps 1 6 (finds "b2")) p).any (shows "b2" 2 0))
    hfirst (by decide +kernel)
  rw [Bool.and_eq_true] at hthen
  obtain ⟨q, hq, hshows⟩ := @Pool.exists_reaches _ _ _ _ (code bitcoin) (anyOrder bitcoin)
    _ p _ (Pool.admitted_all (fun m hm p => by
      obtain rfl := List.eq_of_mem_replicate hm
      exact findsNamed (by decide)) p) hthen.2
  have honce := h bitcoin Confirming.sent (Confirming.shop .confirming) p q (sent_alone _)
    (shop_busy _) (shop_atRest _) hp hq
  have htold := honce.told
  simp only [shows, Bool.and_eq_true, beq_iff_eq] at hshows
  omega

/-- No call is under way. -/
def allEnded (p : Calls) : Bool := p.threads.all fun th => !th.2.running

theorem idle_of_allEnded {p : Calls} {kind : Call → Prop} (h : allEnded p = true) :
    p.Idle kind := by
  intro th hth hrun
  have hended := List.all_eq_true.mp h th hth
  rw [hrun] at hended
  cases hended

/-- A confirmer that starts where none is under way, and some of its steps. -/
theorem admitted_turn {P : Payment} {w : World} {hash : String} {i n : Nat} {p : Calls}
    (call : Call) (hne : hash ≠ "") (hnamed : Named call) (hidle : p.Idle (concerns P w)) :
    Pool.Admitted (code bitcoin) (takingTurns bitcoin P w)
      (.start call :: Pool.steps i n (finds hash)) p := by
  refine ⟨⟨hnamed, fun _ => hidle⟩, fun q _ => Pool.admitted_all (fun m hm p => ?_) q⟩
  obtain rfl := List.eq_of_mem_replicate hm
  exact findsNamed hne

/-- Confirmers in turn: the second finds the payment confirmed, though the chain has
another block by now. -/
theorem confirmed_in_turn : ∃ p q : Calls,
    Pool.Reaches (code bitcoin) (takingTurns bitcoin Confirming.sent (Confirming.shop .paid))
      (Pool.init (Confirming.shop .paid)) p ∧
    Pool.Reaches (code bitcoin) (takingTurns bitcoin Confirming.sent (Confirming.shop .paid))
      p q ∧
    shows "b1" 1 1 p = true ∧ shows "b1" 1 1 q = true ∧ Once Confirming.sent p.state q.state := by
  have hidle : (Pool.init (Confirming.shop .paid) : Calls).Idle
      (concerns Confirming.sent (Confirming.shop .paid)) := fun _ hth => nomatch hth
  obtain ⟨p, hp, hthen⟩ := Pool.exists_reaches (fun p => shows "b1" 1 1 p && allEnded p &&
    (Pool.run (code bitcoin)
      (.start (.getConfirmationForTxid "t1") :: Pool.steps 1 2 (finds "b2")) p).any
        (shows "b1" 1 1))
    (@admitted_turn _ _ "b1" 0 11 _ (.getConfirmationForTxid "t1") (by decide) trivial hidle)
    (by decide +kernel)
  simp only [Bool.and_eq_true] at hthen
  obtain ⟨⟨hshows, hended⟩, hthen⟩ := hthen
  obtain ⟨q, hq, hshows'⟩ := Pool.exists_reaches _
    (admitted_turn (.getConfirmationForTxid "t1") (by decide) trivial
      (idle_of_allEnded hended)) hthen
  exact ⟨p, q, hp, hq, hshows, hshows', confirmed_once bitcoin Confirming.sent
    (Confirming.shop .paid) (sent_alone _) (shop_busy _) (shop_atRest _) p q hp hq⟩

end Confirmers

end Anypay
