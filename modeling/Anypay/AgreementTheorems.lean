/-
Anypay.AgreementTheorems — an invoice and its payments, one call after the other.

Creating, paying, confirming and reverting write the same few columns of two tables, each
of them a part. `Agrees` says what the columns of an invoice say of its payments, and
`agreed_kept` that every call keeps it that

* reverts nothing: `revertPayment` gives back the status and the hash, and leaves
  `complete`, `paidAt` and `completed_at` as the payment wrote them (`wp_revertPayment_disagrees`);
* does not store a payment under an id another invoice has for its hash: the payment row
  is made before the invoice refuses the id;
* on SOL and XRP, where the hash is written ahead of the payment, finds an id to store;
* does not confirm a payment of an invoice that is not being paid.

`But uid` is the state within a payment: all other invoices agree with theirs.
-/
import Anypay.Async.Machine
import Anypay.IdTheorems
import Anypay.InvoiceTheorems

namespace Anypay.Agreement

open Store Async Proc Machine
open Submission (parsedTxid txidOf announcedHash afterBroadcast)
open Ids (Submitted)

/-! ## Agreement -/

/-- The columns of an invoice say what its payments are. -/
structure Agrees (w : World) (r : Invoice) : Prop where
  unpaid : r.status = .unpaid → r.hash = none ∧ r.complete = false ∧ r.paidAt = none ∧
    r.completed_at = none ∧
      ∀ p ∈ w.payments.rows, p.invoice_uid = r.uid → p.status = .failed
  settled : r.status = .confirming ∨ r.status = .paid → r.complete = true ∧
    ∃ p ∈ w.payments.rows, p.invoice_uid = r.uid ∧ p.status ≠ .failed ∧ r.hash = some p.txid

def AllAgree (w : World) : Prop := ∀ r ∈ w.invoices.rows, Agrees w r

/-- All invoices agree, and no uid is that of two. -/
structure Agreed (w : World) : Prop where
  agree : AllAgree w
  one : ∀ uid, w.OneInvoice uid

/-- All invoices but that of the uid agree. -/
structure But (uid : String) (w : World) : Prop where
  agree : ∀ r ∈ w.invoices.rows, r.uid ≠ uid → Agrees w r
  one : ∀ uid, w.OneInvoice uid

/-! ## The calls -/

/-- A call, with what it finds out on its way, or anything that leaves invoices and
payments alone. -/
inductive Event where
  | createInvoice (params : List (String × Json)) (o : Nat → Answer)
  | submitPayment (payment : SubmitPaymentRequest) (o : Nat → Answer)
  | handleUnconfirmedPayment (option : PaymentOption) (transaction : Transaction)
      (o : Nat → Answer)
  | completePayment (option : PaymentOption) (transaction : Transaction) (confirming : Bool)
      (o : Nat → Answer)
  | confirmPayment (payment : Payment) (confirmation : Confirmation) (o : Nat → Answer)
  | revertPayment (txid : String) (o : Nat → Answer)
  | elsewhere (w : World)

/-- The world after a call. -/
def after (env : Env) (w : World) : Event → World
  | .createInvoice params o => ((createInvoice env params).exec o w).2
  | .submitPayment payment o => ((submitPayment env payment).exec o w).2
  | .handleUnconfirmedPayment option transaction o =>
      ((handleUnconfirmedPayment env option transaction).exec o w).2
  | .completePayment option transaction confirming o =>
      ((completePayment env option transaction confirming).exec o w).2
  | .confirmPayment payment confirmation o => ((confirmPayment payment confirmation).exec o w).2
  | .revertPayment txid o => ((revertPayment txid).exec o w).2
  | .elsewhere v => { v with invoices := w.invoices, payments := w.payments }

def step (env : Env) (w : World) (e : Event) : Option World := some (after env w e)

/-! ## What keeps them in agreement -/

/-- The answers of a call. -/
def Of (o : Nat → Answer) (c : Answer) : Prop := ∃ n, c = o n

/-- The uid is nobody's. -/
def NewUid (w : World) (uid : String) : Prop :=
  (∀ r ∈ w.invoices.rows, r.uid ≠ uid) ∧ ∀ p ∈ w.payments.rows, p.invoice_uid ≠ uid

def Unpaid (w : World) (uid : String) : Prop :=
  ∃ r ∈ w.invoices.rows, r.uid = uid ∧ r.status = .unpaid

/-- No other invoice has the hash. -/
def NotTaken (w : World) (uid hash : String) : Prop :=
  ∀ r ∈ w.invoices.rows, r.uid ≠ uid → r.hash ≠ some hash

section Conditions

variable (A : Answer → Prop) (ids : Answer → Except Failure String)

/-- No id the payment may be stored under is another invoice's. -/
def Clear (w : World) (uid : String) : Prop :=
  ∀ c, A c → ∀ txid, ids c = .ok txid → NotTaken w uid txid

/-- An id is always found. -/
def Told : Prop := ∀ c, A c → ∃ txid, ids c = .ok txid

end Conditions

/-- The id `handleUnconfirmedPayment` stores. -/
def unconfirmedTxid (env : Env) (option : PaymentOption) (transaction : Transaction)
    (_ : Answer) : Except Failure String :=
  (decodeTransaction env option.chain transaction.txhex).map fun tx =>
    (nonEmpty transaction.txid).getD tx.hash

/-- The id `completePayment` stores. -/
def completeTxid (env : Env) (option : PaymentOption) (transaction : Transaction) :
    Answer → Except Failure String :=
  parsedTxid env option (orElse (some option.chain) option.currency) transaction

/-- A transaction that was broadcast can be stored: where its hash is announced it is, and
otherwise, if the invoice is unpaid, no other invoice has its id. -/
def StorableAs (A : Answer → Prop) (env : Env) (option : PaymentOption)
    (transaction : Transaction) (result : BroadcastTxResult) (w : World) (uid : String) :
    Prop :=
  match announcedHash option result with
  | none => Unpaid w uid →
      Clear A (txidOf env option (afterBroadcast option transaction result)) w uid
  | some hash => NotTaken w uid hash →
      Clear A (txidOf env option (afterBroadcast option transaction result)) w uid ∧
        Told A (txidOf env option (afterBroadcast option transaction result))

def Storable (A : Answer → Prop) (env : Env) (plugin : Plugin) (option : PaymentOption)
    (transaction : Transaction) (w : World) (uid : String) : Prop :=
  ∀ result, Submitted A plugin option transaction result →
    StorableAs A env option transaction result w uid

/-- A call keeps the agreement. -/
def Sound (env : Env) (w : World) : Event → Prop
  | .createInvoice _ o => ∀ n, NewUid w (o n).shortid
  | .submitPayment payment o => ∀ invoice option plugin,
      Accepted env payment w invoice option plugin →
      ∀ transaction ∈ payment.transactions,
        (payment.transactions.head? = some transaction ∨
          option.chain = "SOL" ∨ option.chain = "XRP") →
        Storable (Of o) env plugin option transaction w payment.invoice_uid
  | .handleUnconfirmedPayment option transaction o => Unpaid w option.invoice_uid →
      Clear (Of o) (unconfirmedTxid env option transaction) w option.invoice_uid
  | .completePayment option transaction _ o => Unpaid w option.invoice_uid →
      Clear (Of o) (completeTxid env option transaction) w option.invoice_uid
  | .confirmPayment payment _ _ => nonEmpty payment.confirmation_hash = none →
      ∀ p ∈ w.payments.rows, p.id = payment.id →
        ∀ r ∈ w.invoices.rows, r.uid = p.invoice_uid → r.status = .confirming ∨ r.status = .paid
  | .revertPayment txid _ =>
      (∀ r ∈ w.invoices.rows, r.hash ≠ some txid) ∨ ∀ p ∈ w.payments.rows, p.txid ≠ txid
  | .elsewhere _ => True

/-! ## The tables -/

section Tables

variable {s t u : World} {uid : String}

theorem Agrees.of_payments {r : Invoice} (h : Agrees s r) (ht : t.payments = s.payments) :
    Agrees t r := by
  constructor
  · rw [ht]
    exact h.unpaid
  · rw [ht]
    exact h.settled

/-- One payment more, of another invoice or of one that is not unpaid. -/
theorem Agrees.more {r : Invoice} {p : Payment} (h : Agrees s r)
    (ht : t.payments.rows = s.payments.rows ++ [p])
    (hother : p.invoice_uid ≠ r.uid ∨ r.status ≠ .unpaid) : Agrees t r := by
  constructor
  · intro hunpaid
    obtain ⟨hhash, hcomplete, hpaidAt, hcompleted, hfailed⟩ := h.unpaid hunpaid
    refine ⟨hhash, hcomplete, hpaidAt, hcompleted, fun q hq hqu => ?_⟩
    rw [ht] at hq
    rcases List.mem_append.mp hq with hq | hq
    · exact hfailed q hq hqu
    · rw [List.mem_singleton.mp hq] at hqu
      exact absurd hqu (hother.resolve_right fun hne => hne hunpaid)
  · intro hsettled
    obtain ⟨hcomplete, q, hq, hqu⟩ := h.settled hsettled
    refine ⟨hcomplete, q, ?_, hqu⟩
    rw [ht]
    exact List.mem_append_left _ hq

theorem Agreed.of_same (h : Agreed s) (hinvoices : t.invoices = s.invoices)
    (hpayments : t.payments = s.payments) : Agreed t := by
  constructor
  · intro r hr
    rw [hinvoices] at hr
    exact (h.agree r hr).of_payments hpayments
  · intro uid r hr r' hr'
    rw [hinvoices] at hr hr'
    exact h.one uid r hr r' hr'

theorem Agreed.but (h : Agreed s) (uid : String) : But uid s where
  agree r hr _ := h.agree r hr
  one := h.one

theorem But.agreed (h : But uid s) (hrow : ∀ r ∈ s.invoices.rows, r.uid = uid → Agrees s r) :
    Agreed s where
  agree r hr := by
    by_cases hu : r.uid = uid
    · exact hrow r hr hu
    · exact h.agree r hr hu
  one := h.one

/-- The other invoices are what they were. -/
def SameOthers (uid : String) (s t : World) : Prop :=
  ∀ r : Invoice, r.uid ≠ uid → (r ∈ t.invoices.rows ↔ r ∈ s.invoices.rows)

theorem SameOthers.trans (h : SameOthers uid s t) (h' : SameOthers uid t u) :
    SameOthers uid s u := fun r hr => (h' r hr).trans (h r hr)

theorem SameOthers.notTaken_iff {hash : String} (h : SameOthers uid s t) :
    NotTaken t uid hash ↔ NotTaken s uid hash := by
  constructor
  · intro htaken r hr hu
    exact htaken r ((h r hu).mpr hr) hu
  · intro htaken r hr hu
    exact htaken r ((h r hu).mp hr) hu

theorem SameOthers.clear_iff {A : Answer → Prop} {ids : Answer → Except Failure String}
    (h : SameOthers uid s t) : Clear A ids t uid ↔ Clear A ids s uid := by
  simp only [Clear, h.notTaken_iff]

/-- The row of the uid is changed. -/
theorem sameOthers_of_patch {row : Invoice} (hrow : row ∈ s.invoices.rows)
    (huid : row.uid = uid) {f : Invoice → Invoice} (hf : (f row).uid = row.uid)
    (hrows : t.invoices.rows = Table.patch row.id f s.invoices.rows) : SameOthers uid s t := by
  intro r hu
  rw [hrows]
  constructor
  · intro hr
    obtain ⟨x, hx, hxr⟩ := List.mem_map.mp hr
    split at hxr
    · rename_i hid
      obtain rfl : x = row := Table.eq_of_id hx hrow hid
      rw [← hxr, hf, huid] at hu
      exact absurd rfl hu
    · rw [← hxr]
      exact hx
  · intro hr
    refine Table.mem_patch_of_ne hr fun hid => hu ?_
    rw [show r = row from Table.eq_of_id hr hrow hid, huid]

/-- The invoice of the uid was settled. -/
structure Paid (uid : String) (s t : World) : Prop where
  agreed : Agreed t
  others : SameOthers uid s t
  settled : ¬ Unpaid t uid
  names : t.names = s.names

theorem Paid.of_same (h : Paid uid s t) (hinvoices : u.invoices = t.invoices)
    (hpayments : u.payments = t.payments) : Paid uid s u where
  agreed := h.agreed.of_same hinvoices hpayments
  others := by
    rw [SameOthers, hinvoices]
    exact h.others
  settled := by
    rw [Unpaid, hinvoices]
    exact h.settled
  names := by
    rw [World.names, hinvoices]
    exact h.names

theorem Paid.after (h : Paid uid t u) (hothers : SameOthers uid s t)
    (hnames : t.names = s.names) : Paid uid s u where
  agreed := h.agreed
  others := hothers.trans h.others
  settled := h.settled
  names := h.names.trans hnames

/-- A payment of the invoice is there, and the invoice was settled by it. -/
theorem But.settle (h : But uid s) {row : Invoice} (hrow : row ∈ s.invoices.rows)
    (huid : row.uid = uid) {p : Payment} (hp : t.payments.rows = s.payments.rows ++ [p])
    (hpu : p.invoice_uid = uid) (hstatus : p.status = .confirming) {f : Invoice → Invoice}
    {status : InvoiceStatus} (hf : ∀ x, Settled p.txid status x (f x))
    (hrows : t.invoices.rows = Table.patch row.id f s.invoices.rows) : Paid uid s t := by
  have hnames : t.names = s.names := World.names_patch hrows fun x => ⟨(hf x).id, (hf x).uid⟩
  have hothers := sameOthers_of_patch hrow huid (hf row).uid hrows
  -- a row of `t` is another invoice's, or the settled one
  have hcases : ∀ r ∈ t.invoices.rows, (r ∈ s.invoices.rows ∧ r.uid ≠ uid) ∨
      (r.uid = uid ∧ ∃ x, Settled p.txid status x r) := by
    intro r hr
    rw [hrows] at hr
    obtain ⟨x, hx, rfl⟩ := List.mem_map.mp hr
    split
    · rename_i hid
      obtain rfl : x = row := Table.eq_of_id hx hrow hid
      exact .inr ⟨(hf x).uid.trans huid, x, hf x⟩
    · rename_i hid
      refine .inl ⟨hx, fun hu => hid ?_⟩
      rw [h.one uid x hx row hrow hu huid]
      rfl
  refine ⟨⟨fun r hr => ?_, fun uid' => (h.one uid').of_names hnames⟩, hothers, ?_, hnames⟩
  · rcases hcases r hr with ⟨hold, hu⟩ | ⟨hu, x, hsettled⟩
    · exact (h.agree r hold hu).more hp (.inl fun hpr => hu (hpr.symm.trans hpu))
    · constructor
      · intro hunpaid
        have hpays := hsettled.pays
        rw [← hsettled.status_eq, hunpaid] at hpays
        simp at hpays
      · refine fun _ => ⟨hsettled.complete, p, ?_, hpu.trans hu.symm, ?_, hsettled.hash⟩
        · rw [hp]
          simp
        · rw [hstatus]
          decide
  · rintro ⟨r, hr, hu, hunpaid⟩
    rcases hcases r hr with ⟨-, hne⟩ | ⟨-, x, hsettled⟩
    · exact hne hu
    · have hpays := hsettled.pays
      rw [← hsettled.status_eq, hunpaid] at hpays
      simp at hpays

/-- A payment was left behind of an invoice that is not unpaid. -/
theorem Agreed.leftBehind (h : Agreed s) (hunpaid : ¬ Unpaid s uid) {p : Payment}
    (hinvoices : t.invoices = s.invoices) (hp : t.payments.rows = s.payments.rows ++ [p])
    (hpu : p.invoice_uid = uid) : Agreed t := by
  constructor
  · intro r hr
    rw [hinvoices] at hr
    refine (h.agree r hr).more hp ?_
    by_cases hu : r.uid = uid
    · exact .inr fun hstatus => hunpaid ⟨r, hr, hu, hstatus⟩
    · exact .inl fun hpr => hu (hpr.symm.trans hpu)
  · intro uid' r hr r' hr'
    rw [hinvoices] at hr hr'
    exact h.one uid' r hr r' hr'

/-- A payment row is changed: not its status, or that of a payment whose invoice is not
unpaid, to one that is not failed. -/
theorem Agreed.patchPayment (h : Agreed s) {i : Nat} {f : Payment → Payment}
    (hinvoices : t.invoices = s.invoices)
    (hrows : t.payments.rows = Table.patch i f s.payments.rows)
    (hf : ∀ p, (f p).txid = p.txid ∧ (f p).invoice_uid = p.invoice_uid)
    (hstatus : ∀ p ∈ s.payments.rows, p.id = i → (f p).status = p.status ∨
      ((f p).status ≠ .failed ∧ ¬ Unpaid s p.invoice_uid)) : Agreed t := by
  constructor
  · intro r hr
    rw [hinvoices] at hr
    constructor
    · intro hunpaid
      obtain ⟨hhash, hcomplete, hpaidAt, hcompleted, hfailed⟩ := (h.agree r hr).unpaid hunpaid
      refine ⟨hhash, hcomplete, hpaidAt, hcompleted, fun q hq hqu => ?_⟩
      rw [hrows] at hq
      obtain ⟨p, hp, rfl⟩ := List.mem_map.mp hq
      split at hqu
      · rename_i hid
        rw [if_pos hid]
        rw [(hf p).2] at hqu
        rcases hstatus p hp hid with hsame | ⟨-, hnot⟩
        · exact hsame.trans (hfailed p hp hqu)
        · exact absurd ⟨r, hr, hqu.symm, hunpaid⟩ hnot
      · rename_i hid
        rw [if_neg hid]
        exact hfailed p hp hqu
    · intro hsettled
      obtain ⟨hcomplete, p, hp, hpu, hne, hhash⟩ := (h.agree r hr).settled hsettled
      refine ⟨hcomplete, if Record.id p = i then f p else p, ?_, ?_⟩
      · rw [hrows]
        exact List.mem_map.mpr ⟨p, hp, rfl⟩
      split
      · rename_i hid
        rw [(hf p).1, (hf p).2]
        refine ⟨hpu, ?_, hhash⟩
        rcases hstatus p hp hid with hsame | ⟨hne', -⟩
        · rw [hsame]
          exact hne
        · exact hne'
      · exact ⟨hpu, hne, hhash⟩
  · intro uid' r hr r' hr'
    rw [hinvoices] at hr hr'
    exact h.one uid' r hr r' hr'

end Tables

/-! ## Paying -/

section Paying

variable {A : Answer → Prop} {ids : Answer → Except Failure String} {env : Env}
  {option : PaymentOption} {transaction : Transaction} {plugin : Plugin} {invoice : Invoice}
  {s t : World} {uid : String}

/-- A payment that throws leaves agreement behind, or none does. -/
def Ready (A : Answer → Prop) (ids : Answer → Except Failure String) (w : World)
    (uid : String) : Prop :=
  (Agreed w ∧ (Unpaid w uid → Clear A ids w uid)) ∨
    (Clear A ids w uid ∧ Told A ids ∧ ∃ r ∈ w.invoices.rows, r.uid = uid)

/-- Where there is no id nothing was written yet. -/
theorem Ready.of_error (h : Ready A ids s uid) {c : Answer} {e : Failure} (hc : A c)
    (he : ids c = .error e) : Agreed s := by
  rcases h with ⟨hagreed, -⟩ | ⟨-, htold, -⟩
  · exact hagreed
  · obtain ⟨txid, htxid⟩ := htold c hc
    rw [he] at htxid
    cases htxid

theorem Ready.of_nobody (h : Ready A ids s uid) (hnone : ∀ r ∈ s.invoices.rows, r.uid ≠ uid) :
    Agreed s := by
  rcases h with ⟨hagreed, -⟩ | ⟨-, -, r, hr, hu⟩
  · exact hagreed
  · exact absurd hu (hnone r hr)

/-- The part both functions share. -/
theorem wp_create_settle {β : Type} {row : Invoice} {txid : String} {status : InvoiceStatus}
    {mk : Time → Nat → Payment} {hmkid : ∀ t n, Record.id (mk t n) = n}
    {f : Time → Invoice → Invoice} {hid : ∀ t r, Record.id (f t r) = Record.id r}
    {k : Payment → Task β} {Q : β → World → Prop} {E : Failure → World → Prop}
    (hbut : But uid s) (hready : Ready A ids s uid) (hids : ∃ c, A c ∧ ids c = .ok txid)
    (hrow : row ∈ s.invoices.rows) (huid : row.uid = uid)
    (hmk : ∀ now n, (mk now n).txid = txid ∧ (mk now n).invoice_uid = uid ∧
      (mk now n).status = .confirming)
    (hf : ∀ now x, Settled txid status x (f now x))
    (hk : ∀ p t, Paid uid s t → (k p).wp A Q E t) (herr : ∀ e t, Agreed t → E e t) :
    ((prisma.payments.create mk hmkid).bind fun p =>
      (settleInvoice row option transaction status f hid).bind fun _ => k p).wp A Q E s := by
  rw [wp_bind]
  refine Delegate.wp_create (fun now tb hp _ => ?_) fun _ herr => ?_
  swap
  · obtain ⟨_, _, _, hne⟩ := herr
    exact absurd rfl hne
  obtain ⟨htxid, hpu, hstatus⟩ := hmk now s.payments.next
  rw [wp_bind]
  refine wp_settleInvoice (fun now' tb' r _ hrid hrows _ _ => ?_) fun now' te hte => ?_
  · exact hk _ _ (hbut.settle hrow huid hp hpu hstatus (fun x => htxid ▸ hf now' x) hrows)
  -- the id is another invoice's, which is no harm to an invoice that is not unpaid
  have hnot : ¬ Clear A ids s uid := by
    intro hclear
    obtain ⟨c, hc, hok⟩ := hids
    rcases Table.update?_error hte with ⟨-, hnone⟩ | ⟨-, r, _, _, x, hx, hne, hkey, -⟩
    · exact absurd rfl (hnone row hrow)
    · have hxu : x.uid ≠ uid := by
        intro hxu
        rw [hbut.one uid x hx row hrow hxu huid] at hne
        exact hne rfl
      exact hclear c hc txid hok x hx hxu (hkey.trans (hf now' r).hash)
  rcases hready with ⟨hagreed, hclear⟩ | ⟨hclear, -⟩
  · exact herr _ _ (hagreed.leftBehind (fun hunpaid => hnot (hclear hunpaid)) rfl hp hpu)
  · exact absurd hclear hnot

theorem wp_paymentTxid_at (hA : ∃ c, A c) (chain : String) :
    (paymentTxid env option chain transaction).wp A
      (fun txid t => t = s ∧ ∃ c, A c ∧ parsedTxid env option chain transaction c = .ok txid)
      (fun _ t => t = s ∧ ∃ c e, A c ∧ parsedTxid env option chain transaction c = .error e)
      s := by
  obtain ⟨c₀, hc₀⟩ := hA
  unfold paymentTxid parsedTxid
  cases nonEmpty transaction.txid with
  | some txid => exact ⟨rfl, c₀, hc₀, rfl⟩
  | none =>
      by_cases hlen : transaction.txhex.length = 66
      · simp only [if_pos hlen]
        exact ⟨rfl, c₀, hc₀, rfl⟩
      · simp only [if_neg hlen, bind_eq]
        cases find env option.currency chain with
        | error e => exact ⟨rfl, c₀, e, hc₀, rfl⟩
        | ok plugin =>
            show ((ask (plugin.parsePayments transaction)).bind _).wp A _ _ s
            rw [wp_bind]
            refine wp_query_cases (fun c hc found hfound => ?_) fun c hc e he => ?_
            · cases found with
              | nil => exact ⟨rfl, c, .typeError, hc, by simp [Except.bind, hfound]⟩
              | cons txid rest => exact ⟨rfl, c, hc, by simp [Except.bind, hfound]⟩
            · exact ⟨rfl, c, e, hc, by simp [Except.bind, he]⟩

theorem wp_completePayment_agreed (hA : ∃ c, A c) {confirming : Bool}
    (hbut : But option.invoice_uid s)
    (hready : Ready A (completeTxid env option transaction) s option.invoice_uid) :
    (completePayment env option transaction confirming).wp A
      (fun _ t => Paid option.invoice_uid s t) (fun _ t => Agreed t) s := by
  unfold completePayment
  simp only [bind_eq, pure_eq]
  rw [wp_bind]
  refine wp_mono (fun txid t ht => ?_) (fun _ t ht => ?_) (wp_paymentTxid_at hA _)
  swap
  · obtain ⟨rfl, c, e, hc, he⟩ := ht
    exact hready.of_error hc he
  obtain ⟨rfl, hids⟩ := ht
  rw [wp_bind]
  refine Delegate.wp_findFirstOrThrow (fun row hrow hw => ?_) fun hnone => ?_
  swap
  · exact hready.of_nobody fun r hr => by simpa using hnone r hr
  refine wp_create_settle hbut hready hids hrow (by simpa using hw) (fun _ _ => ⟨rfl, rfl, rfl⟩)
    (fun now x => ⟨rfl, rfl, rfl, rfl, rfl, ?_, rfl, fun h => (by cases h),
      fun h => (by cases h)⟩)
    (fun p u hpaid => ?_) fun _ _ h => h
  · cases confirming <;> simp
  rw [wp_bind]
  refine Delegate.wp_findFirstOrThrow (fun r' _ _ => ?_) fun _ => hpaid.agreed
  rw [wp_bind]
  have hpublish : ∀ e, (publishEvent "invoice.paid" e).Keeps Ids.filed :=
    fun e => keeps_publishEvent _ e
  refine wp_detached (hpublish _) fun v hv => ?_
  rw [wp_bind]
  obtain ⟨hpayments, hinvoices⟩ := Prod.mk.inj hv
  exact wp_spawn (hpaid.of_same hinvoices hpayments)

theorem wp_handleUnconfirmedPayment_agreed (hA : ∃ c, A c) (hbut : But option.invoice_uid s)
    (hready : Ready A (unconfirmedTxid env option transaction) s option.invoice_uid) :
    (handleUnconfirmedPayment env option transaction).wp A
      (fun _ t => Paid option.invoice_uid s t) (fun _ t => Agreed t) s := by
  obtain ⟨c₀, hc₀⟩ := hA
  unfold handleUnconfirmedPayment
  simp only [bind_eq, pure_eq]
  rw [wp_bind]
  refine wp_ofExcept (fun tx htx => ?_) fun e he => ?_
  swap
  · exact hready.of_error hc₀ (by simp only [unconfirmedTxid, he]; rfl)
  rw [wp_bind]
  refine Delegate.wp_findFirstOrThrow (fun row hrow hw => ?_) fun hnone => ?_
  swap
  · exact hready.of_nobody fun r hr => by simpa using hnone r hr
  have hids : ∃ c, A c ∧ unconfirmedTxid env option transaction c =
      .ok ((nonEmpty transaction.txid).getD tx.hash) :=
    ⟨c₀, hc₀, by simp only [unconfirmedTxid, htx]; rfl⟩
  refine wp_create_settle hbut hready hids hrow (by simpa using hw) (fun _ _ => ⟨rfl, rfl, rfl⟩)
    (fun now x => ⟨rfl, rfl, rfl, rfl, rfl, .inl rfl, rfl, fun h => (by cases h),
      fun h => (by cases h)⟩)
    (fun p u hpaid => ?_) fun _ _ h => h
  rw [wp_bind]
  exact wp_publish (hpaid.of_same rfl rfl)

theorem wp_settleTransaction_agreed (hA : ∃ c, A c) (hbut : But option.invoice_uid s)
    (hready : Ready A (txidOf env option transaction) s option.invoice_uid) :
    (settleTransaction env invoice option transaction).wp A
      (fun _ t => Paid option.invoice_uid s t) (fun _ t => Agreed t) s := by
  unfold settleTransaction
  by_cases hwaits : option.currency = "BTC" ∧ env.requireBtcConfirmations = true
  · rw [if_pos hwaits]
    have hids : txidOf env option transaction = unconfirmedTxid env option transaction := by
      funext c
      simp only [txidOf, if_pos hwaits, unconfirmedTxid]
    rw [hids] at hready
    simp only [bind_eq, pure_eq]
    rw [wp_bind]
    refine wp_mono (fun p t ht => ?_) (fun _ _ h => h)
      (wp_handleUnconfirmedPayment_agreed hA hbut hready)
    rw [wp_bind]
    exact wp_spawn (ht.of_same rfl rfl)
  · rw [if_neg hwaits]
    have hids : txidOf env option transaction = completeTxid env option transaction := by
      funext c
      simp only [txidOf, if_neg hwaits, completeTxid]
    rw [hids] at hready
    split
    · exact wp_completePayment_agreed hA hbut hready
    · exact wp_completePayment_agreed hA hbut hready

/-- The hash is written ahead of the payment, and the invoice no longer agrees. -/
theorem wp_announce_agreed {result : BroadcastTxResult} (hs : Agreed s)
    (hinvoice : HasInvoice invoice.id uid s)
    (hstorable : StorableAs A env option transaction result s uid) :
    (Recording.announce invoice option transaction result).wp A
      (fun transaction' t => transaction' = afterBroadcast option transaction result ∧
        But uid t ∧ Ready A (txidOf env option transaction') t uid ∧ SameOthers uid s t ∧
          t.names = s.names) (fun _ t => Agreed t) s := by
  unfold Recording.announce
  unfold StorableAs at hstorable
  cases hhash : announcedHash option result with
  | none =>
      rw [hhash] at hstorable
      exact ⟨rfl, hs.but uid, .inl ⟨hs, hstorable⟩, fun _ _ => Iff.rfl, rfl⟩
  | some hash =>
      rw [hhash] at hstorable
      obtain ⟨row, hrow, hid, huid⟩ := hinvoice
      rw [wp_bind]
      refine Delegate.wp_update_free (fun now tb r hr hrid hrows hfree => ?_) fun _ _ _ => hs
      obtain rfl : r = row := Table.eq_of_id hr hrow (hrid.trans hid.symm)
      have hrows : tb.rows =
          Table.patch r.id (fun r => { r with hash := some hash, updatedAt := now })
            s.invoices.rows := by
        rw [hid]
        exact hrows
      have hothers : SameOthers uid s { s with invoices := tb } :=
        sameOthers_of_patch hr huid rfl hrows
      have hnames : ({ s with invoices := tb } : World).names = s.names :=
        World.names_patch hrows fun _ => ⟨rfl, rfl⟩
      have htaken : NotTaken s uid hash := by
        intro x hx hxu hxhash
        have hne : Record.id x ≠ Record.id r := by
          intro hxr
          rw [Table.eq_of_id hx hr hxr] at hxu
          exact hxu huid
        have htaken : s.invoices.taken { r with hash := some hash, updatedAt := now } = true :=
          Table.taken_iff.mpr ⟨x, hx, hne, hxhash, nofun⟩
        exact absurd (htaken.symm.trans hfree) (by decide)
      obtain ⟨hclear, htold⟩ := hstorable htaken
      refine ⟨rfl, ⟨fun x hx hxu => ?_, fun uid' => (hs.one uid').of_names hnames⟩, .inr ⟨?_,
        htold, ?_⟩, hothers, hnames⟩
      · exact (hs.agree x ((hothers x hxu).mp hx)).of_payments rfl
      · exact hothers.clear_iff.mpr hclear
      · refine ⟨{ r with hash := some hash, updatedAt := now }, (show _ ∈ tb.rows from ?_), huid⟩
        rw [hrows]
        exact Table.mem_patch
          (f := fun r : Invoice => { r with hash := some hash, updatedAt := now }) hr

/-- One round of the loop. -/
theorem wp_submitTransaction_agreed (hA : ∃ c, A c) {payment : SubmitPaymentRequest}
    (hs : Agreed s) (hinvoice : HasInvoice invoice.id option.invoice_uid s)
    (hstorable : Storable A env plugin option transaction s option.invoice_uid) :
    (submitTransaction env payment invoice option plugin transaction).wp A
      (fun _ t => Paid option.invoice_uid s t) (fun _ t => Agreed t) s := by
  unfold submitTransaction
  simp only [bind_eq, pure_eq]
  rw [wp_bind]
  refine wp_ask (fun c hc verified hverified => ?_) fun _ => hs
  split
  · exact hs
  rename_i hpassed
  rw [Bool.not_eq_false] at hpassed
  subst hpassed
  rw [wp_bind, Recording.broadcastTransaction_eq, wp_bind]
  refine wp_broadcastTx_sent (fun result t ht hsent => ?_) fun _ => hs
  have hothers : SameOthers option.invoice_uid s t := fun r _ => by rw [ht.invoices]
  have hnames : t.names = s.names := by rw [World.names, ht.invoices, World.names]
  have hstorable' : StorableAs A env option transaction result t option.invoice_uid := by
    have hafter := hstorable result ⟨⟨c, hc, hverified⟩, hsent⟩
    unfold StorableAs at hafter ⊢
    simp only [hothers.notTaken_iff, hothers.clear_iff, Unpaid, ht.invoices] at hafter ⊢
    exact hafter
  have hinvoice' : HasInvoice invoice.id option.invoice_uid t := by
    rw [HasInvoice, ht.invoices]
    exact hinvoice
  refine wp_mono (fun transaction' u hu => ?_) (fun _ _ h => h)
    (wp_announce_agreed (hs.of_same ht.invoices ht.payments) hinvoice' hstorable')
  obtain ⟨-, hbut, hready, hothers', hnames'⟩ := hu
  rw [wp_bind]
  refine wp_mono (fun p v hv => ?_) (fun _ _ h => h) (wp_settleTransaction_agreed hA hbut hready)
  have hpaid : Paid option.invoice_uid s v :=
    hv.after (hothers.trans hothers') (hnames'.trans hnames)
  split
  · exact hpaid
  · rw [wp_bind]
    refine Delegate.wp_update (fun now tb r _ _ hrows _ => ?_) fun _ _ _ => hpaid.agreed
    refine ⟨?_, hpaid.others, hpaid.settled, hpaid.names⟩
    exact hpaid.agreed.patchPayment rfl hrows (fun _ => ⟨rfl, rfl⟩) fun _ _ _ => .inl rfl

theorem wp_submitPayment_agreed (hA : ∃ c, A c) {payment : SubmitPaymentRequest}
    (hs : Agreed s) (hstorable : ∀ invoice option plugin,
      Accepted env payment s invoice option plugin → ∀ transaction ∈ payment.transactions,
        (payment.transactions.head? = some transaction ∨
          option.chain = "SOL" ∨ option.chain = "XRP") →
        Storable A env plugin option transaction s payment.invoice_uid) :
    (submitPayment env payment).wp A (fun _ t => Agreed t) (fun _ t => Agreed t) s := by
  unfold submitPayment findPaymentOption
  simp only [bind_eq, pure_eq]
  rw [wp_bind]
  refine Delegate.wp_findFirstOrThrow (fun invoice hinvoice hw => ?_) fun _ => hs
  split
  · exact hs
  rename_i hunpaid
  rw [wp_bind]
  refine Delegate.wp_findFirst (fun option hoption ho => ?_) fun _ => hs
  rw [wp_bind]
  refine wp_ofExcept (fun plugin hplugin => ?_) fun _ _ => hs
  simp only [Bool.and_eq_true, beq_iff_eq] at ho hw
  have haccepted : Accepted env payment s invoice option plugin :=
    ⟨hinvoice, hw, not_not.mp hunpaid, hoption, ho.1.1, ho.1.2, ho.2, hplugin⟩
  have hround := hstorable invoice option plugin haccepted
  rw [← haccepted.option_uid] at hround
  rw [wp_bind]
  cases htransactions : payment.transactions with
  | nil => exact hs
  | cons transaction rest =>
      rw [htransactions] at hround
      simp only [forEach, wp_bind]
      have hnamed : HasInvoice invoice.id option.invoice_uid s :=
        ⟨invoice, hinvoice, rfl, hw.trans ho.1.1.symm⟩
      refine wp_mono (fun _ t ht => ?_) (fun _ _ h => h) (wp_submitTransaction_agreed hA hs hnamed
        (hround transaction (by simp) (.inl rfl)))
      refine wp_mono (fun _ u hu => hu.agreed) (fun _ _ h => h)
        (wp_forEach (I := fun t => Paid option.invoice_uid s t) (fun x hx t ht => ?_) ht)
      -- the invoice is settled by now: only what is announced ahead can do harm
      have hstill : Storable A env plugin option x t option.invoice_uid := by
        intro result hsubmitted
        unfold StorableAs
        cases hhash : announcedHash option result with
        | none => exact fun hunpaid => absurd hunpaid ht.settled
        | some hash =>
            have hchain : option.chain = "SOL" ∨ option.chain = "XRP" := by
              unfold announcedHash at hhash
              by_cases hsol : option.chain = "SOL"
              · exact .inl hsol
              · by_cases hxrp : option.chain = "XRP"
                · exact .inr hxrp
                · simp [hsol, hxrp] at hhash
            have hafter := hround x (by simp [hx]) (.inr hchain) result hsubmitted
            unfold StorableAs at hafter
            rw [hhash] at hafter
            simpa only [ht.others.notTaken_iff, ht.others.clear_iff] using hafter
      have hnamed' : HasInvoice invoice.id option.invoice_uid t := by
        obtain ⟨r, hr, hid, hu⟩ := Submission.mem_of_names ht.names hinvoice
        exact ⟨r, hr, hid, hu.trans (hw.trans ho.1.1.symm)⟩
      refine wp_mono (fun _ u hu => hu.after ht.others ht.names) (fun _ _ h => h)
        (wp_submitTransaction_agreed hA ht.agreed hnamed' hstill)

end Paying

/-! ## The other calls -/

section Steps

variable {A : Answer → Prop} {env : Env} {s t : World}

/-- An invoice more, of a uid that is nobody's. -/
theorem Agreed.issue (h : Agreed s) {invoice : Invoice} (hpayable : Payable invoice)
    (hnew : NewUid s invoice.uid) (hrows : t.invoices.rows = s.invoices.rows ++ [invoice])
    (hpayments : t.payments = s.payments) : Agreed t := by
  have hcases : ∀ r ∈ t.invoices.rows, r ∈ s.invoices.rows ∨ r = invoice := by
    intro r hr
    rw [hrows] at hr
    rcases List.mem_append.mp hr with hold | hlast
    · exact .inl hold
    · exact .inr (List.mem_singleton.mp hlast)
  constructor
  · intro r hr
    rcases hcases r hr with hold | rfl
    · exact (h.agree r hold).of_payments hpayments
    constructor
    · refine fun _ => ⟨hpayable.hash, hpayable.complete, hpayable.paidAt,
        hpayable.completed_at, fun p hp hpu => ?_⟩
      rw [hpayments] at hp
      exact absurd hpu (hnew.2 p hp)
    · intro hsettled
      rw [hpayable.status] at hsettled
      simp at hsettled
  · intro uid r hr r' hr' hu hu'
    rcases hcases r hr with hold | rfl
    · rcases hcases r' hr' with hold' | rfl
      · exact h.one uid r hold r' hold' hu hu'
      · exact absurd (hu.trans hu'.symm) (hnew.1 r hold)
    · rcases hcases r' hr' with hold' | rfl
      · exact absurd (hu'.trans hu.symm) (hnew.1 r' hold')
      · rfl

theorem wp_createInvoice_agreed (hs : Agreed s) {params : List (String × Json)}
    (hnew : ∀ c, A c → NewUid s c.shortid) :
    (createInvoice env params).wp A (fun _ t => Agreed t) (fun _ t => Agreed t) s := by
  refine wp_mono (fun invoice t ht => ?_) (fun _ t ht => ?_) (wp_createInvoice env params)
  · obtain ⟨c, _, _, hc, huid, hissued⟩ := ht
    refine hs.issue hissued.columns.payable ?_ hissued.invoices hissued.payments
    rw [huid]
    exact hnew c hc
  · rw [ht]
    exact hs

/-- An invoice that is being paid is paid. -/
theorem Agreed.pay (h : Agreed s) {row : Invoice} (hrow : row ∈ s.invoices.rows)
    (hstatus : row.status = .confirming ∨ row.status = .paid)
    (hrows : t.invoices.rows =
      Table.patch row.id (fun r => { r with status := .paid }) s.invoices.rows)
    (hpayments : t.payments = s.payments) : Agreed t := by
  constructor
  · intro r hr
    rw [hrows] at hr
    obtain ⟨x, hx, rfl⟩ := List.mem_map.mp hr
    split
    · rename_i hid
      obtain rfl : x = row := Table.eq_of_id hx hrow hid
      refine ⟨nofun, fun _ => ?_⟩
      rw [hpayments]
      exact (h.agree x hx).settled hstatus
    · exact (h.agree x hx).of_payments hpayments
  · intro uid
    exact (h.one uid).of_names (World.names_patch hrows fun _ => ⟨rfl, rfl⟩)

theorem wp_confirmPayment_agreed (hs : Agreed s) {payment : Payment}
    {confirmation : Confirmation} (hpaid : nonEmpty payment.confirmation_hash = none →
      ∀ p ∈ s.payments.rows, p.id = payment.id →
        ∀ r ∈ s.invoices.rows, r.uid = p.invoice_uid →
          r.status = .confirming ∨ r.status = .paid) :
    (confirmPayment payment confirmation).wp A (fun _ t => Agreed t) (fun _ t => Agreed t)
      s := by
  unfold confirmPayment
  simp only [bind_eq, pure_eq]
  split
  · exact hs
  rename_i hblockless
  replace hpaid := hpaid (by simpa using hblockless)
  rw [wp_bind]
  refine Delegate.wp_update (fun now tb p hp hid hrows _ => ?_) fun _ _ _ => hs
  have hsettled := hpaid p hp hid
  -- the payment is confirmed, and its invoice was not unpaid
  have ht : Agreed { s with payments := tb } := by
    refine hs.patchPayment rfl hrows (fun _ => ⟨rfl, rfl⟩) fun q hq hqid => .inr ⟨fun h => (by cases h), ?_⟩
    rintro ⟨r, hr, hu, hunpaid⟩
    have hone := hpaid q hq hqid r hr hu
    rw [hunpaid] at hone
    simp at hone
  rw [wp_bind]
  refine Delegate.wp_findFirstOrThrow (fun q hq hqid => ?_) fun _ => ht
  have hquid : q.invoice_uid = p.invoice_uid := by
    replace hqid : q.id = payment.id := by simpa using hqid
    change q ∈ tb.rows at hq
    rw [hrows] at hq
    obtain ⟨x, hx, rfl⟩ := List.mem_map.mp hq
    split at hqid
    · rename_i hxid
      rw [if_pos hxid, Table.eq_of_id hx hp (hxid.trans hid.symm)]
    · rename_i hxid
      exact absurd hqid hxid
  rw [wp_bind]
  refine Delegate.wp_findFirstOrThrow (fun r hr hu => ?_) fun _ => ht
  replace hu : r.uid = p.invoice_uid := by
    rw [← hquid]
    simpa using hu
  rw [wp_bind]
  refine Delegate.wp_update (fun now' tb' x _ _ hrows' _ => ?_) fun _ _ _ => ht
  have hu' := ht.pay hr (hsettled r hr hu) (t := { s with payments := tb, invoices := tb' })
    hrows' rfl
  rw [wp_bind]
  refine wp_publish ?_
  rw [wp_bind]
  have hwebhook : ∀ payload, (createAndSendWebhook "payment.confirmed" payload).Keeps
      Ids.filed := fun payload => keeps_createAndSendWebhook _ payload
  refine wp_of_keeps (hwebhook _) (fun _ v hv => ?_) fun _ v hv => ?_
  · obtain ⟨hpayments, hinvoices⟩ := Prod.mk.inj hv
    exact hu'.of_same hinvoices hpayments
  · obtain ⟨hpayments, hinvoices⟩ := Prod.mk.inj hv
    exact hu'.of_same hinvoices hpayments

/-- Without an invoice or a payment of the id nothing is reverted. -/
theorem wp_revertPayment_agreed (hs : Agreed s) {txid : String}
    (hnone : (∀ r ∈ s.invoices.rows, r.hash ≠ some txid) ∨
      ∀ p ∈ s.payments.rows, p.txid ≠ txid) :
    (revertPayment txid).wp A (fun _ t => Agreed t) (fun _ t => Agreed t) s := by
  unfold revertPayment
  simp only [bind_eq]
  rw [wp_bind]
  refine Delegate.wp_findFirstOrThrow (fun r hr hhash => ?_) fun _ => hs
  rw [wp_bind]
  refine Delegate.wp_findFirstOrThrow (fun p hp htxid => ?_) fun _ => hs
  rcases hnone with hnone | hnone
  · exact absurd (by simpa using hhash) (hnone r hr)
  · exact absurd (by simpa using htxid) (hnone p hp)

/-- A revert that finds a settled invoice and a payment ends the agreement: the invoice
is unpaid, and complete. -/
theorem wp_revertPayment_disagrees (hs : AllAgree s) {txid : String} {r : Invoice}
    (hr : r ∈ s.invoices.rows) (hhash : r.hash = some txid)
    (hstatus : r.status = .confirming ∨ r.status = .paid)
    (hpayment : ∃ p ∈ s.payments.rows, p.txid = txid) :
    (revertPayment txid).wp A (fun _ t => ¬ AllAgree t) (fun _ t => ¬ AllAgree t) s := by
  unfold revertPayment
  simp only [bind_eq]
  rw [wp_bind]
  refine Delegate.wp_findFirstOrThrow (fun r' hr' hw => ?_) fun hnone => ?_
  swap
  · have hno := hnone r hr
    simp [hhash] at hno
  have hhash' : r'.hash = some txid := by simpa using hw
  obtain rfl : r' = r := Table.eq_of_key hr' hr hhash' hhash
  rw [wp_bind]
  refine Delegate.wp_findFirstOrThrow (fun p _ _ => ?_) fun hnone => ?_
  swap
  · obtain ⟨p, hp, htxid⟩ := hpayment
    have hno := hnone p hp
    simp [htxid] at hno
  rw [wp_bind]
  refine Delegate.wp_update (fun now tb x _ _ hrows _ => ?_) fun now te hte => ?_
  swap
  · rcases Table.update?_error hte with ⟨-, hnone⟩ | ⟨-, _, _, _, _, _, _, -, hne⟩
    · exact absurd rfl (hnone r' hr)
    · exact absurd rfl hne
  -- from here on no invoice is written
  have hbroken : ∀ t : World, t.invoices = tb → ¬ AllAgree t := by
    intro t ht hagree
    have hmem : { r' with status := .unpaid, hash := none } ∈ t.invoices.rows := by
      rw [ht, hrows]
      exact Table.mem_patch
        (f := fun r : Invoice => { r with status := .unpaid, hash := none }) hr
    obtain ⟨-, hcomplete, -⟩ := (hagree _ hmem).unpaid rfl
    rw [((hs r' hr).settled hstatus).1] at hcomplete
    cases hcomplete
  rw [wp_bind]
  refine Delegate.wp_update (fun now' tb' q _ _ _ _ => ?_) fun _ _ _ => hbroken _ rfl
  rw [wp_bind]
  refine Delegate.wp_findFirstOrThrow (fun _ _ _ => ?_) fun _ => hbroken _ rfl
  exact wp_publish (hbroken _ rfl)

/-- One call. -/
theorem agreed_after (hs : Agreed s) {e : Event} (hsound : Sound env s e) :
    Agreed (after env s e) := by
  have hof : ∀ o : Nat → Answer, ∀ n, Of o (o n) := fun o n => ⟨n, rfl⟩
  cases e with
  | createInvoice params o =>
      refine wp_exec_state (wp_createInvoice_agreed (A := Of o) hs fun c hc => ?_) (hof o)
      obtain ⟨n, rfl⟩ := hc
      exact hsound n
  | submitPayment payment o =>
      exact wp_exec_state (wp_submitPayment_agreed ⟨_, hof o 0⟩ hs hsound) (hof o)
  | handleUnconfirmedPayment option transaction o =>
      refine wp_exec_state (wp_mono (fun _ _ h => h.agreed) (fun _ _ h => h)
        (wp_handleUnconfirmedPayment_agreed ⟨_, hof o 0⟩ (hs.but _) ?_)) (hof o)
      exact .inl ⟨hs, hsound⟩
  | completePayment option transaction confirming o =>
      refine wp_exec_state (wp_mono (fun _ _ h => h.agreed) (fun _ _ h => h)
        (wp_completePayment_agreed ⟨_, hof o 0⟩ (hs.but _) ?_)) (hof o)
      exact .inl ⟨hs, hsound⟩
  | confirmPayment payment confirmation o =>
      exact wp_exec_state (wp_confirmPayment_agreed hs hsound) (hof o)
  | revertPayment txid o =>
      exact wp_exec_state (wp_revertPayment_agreed hs hsound) (hof o)
  | elsewhere w => exact hs.of_same rfl rfl

end Steps

/-! ## The main result -/

/-- **The columns agree.** Where the invoices agree with their payments, they do after
every run of calls that are each `Sound`. -/
theorem agreed_kept (env : Env) {s t : World} (hs : Agreed s)
    (h : Reach (step env) (Sound env) s t) : AllAgree t := by
  refine (h.inv hs fun u e v hu hsound hstep => ?_).agree
  obtain rfl := Option.some.inj hstep
  exact agreed_after hu hsound

/-! ## A sale, and a sale undone -/

theorem agreed_open : Agreed Ids.open_ := by
  constructor
  · intro r hr
    obtain rfl := List.mem_singleton.mp hr
    exact ⟨fun _ => ⟨rfl, rfl, rfl, rfl, fun p hp => absurd hp List.not_mem_nil⟩,
      fun hsettled => by simp at hsettled⟩
  · intro uid r hr r' hr' _ _
    rw [List.mem_singleton.mp hr, List.mem_singleton.mp hr']

/-- The answers of a call that finds the uid "b" free. -/
def answers : Nat → Answer := fun _ => { shortid := "b" }

/-- Another invoice is made. -/
def making : Event := .createInvoice
  [("account", .obj [("id", .ofNat 1)]), ("amount", .ofNat 5)] answers

/-- The first one is paid. -/
def paying : Event := .submitPayment (Ids.paid none) answers

/-- The payment is in a block. -/
def confirming : Event := .confirmPayment
  { id := 1, txid := "h", currency := "BSV", invoice_uid := "a" }
  { confirmation_hash := "b", confirmation_height := 1, confirmation_date := 1 } answers

def made : World := after Ids.till Ids.open_ making

def sold : World := after Ids.till made paying

def confirmed : World := after Ids.till sold confirming

theorem confirmed_reached : Reach (step Ids.till) (Sound Ids.till) Ids.open_ confirmed := by
  have hmade : Sound Ids.till Ids.open_ making := by
    refine fun _ => ⟨fun r hr => ?_, fun p hp => absurd hp List.not_mem_nil⟩
    obtain rfl := List.mem_singleton.mp hr
    exact (by decide : "a" ≠ "b")
  have hhash : ∀ r ∈ made.invoices.rows, r.hash = none := by decide +kernel
  have hsold : Sound Ids.till made paying := by
    intro invoice option plugin haccepted transaction _ _ result _
    have hnone : announcedHash option result = none := by
      simp [announcedHash, haccepted.chain, Ids.paid, orElse]
    unfold StorableAs
    rw [hnone]
    intro _ c _ txid _ r hr _
    rw [hhash r hr]
    intro h
    cases h
  have hconfirmed : Sound Ids.till sold confirming := by
    intro _
    decide +kernel
  exact .step (.step (.step .start hmade rfl) hsold rfl) hconfirmed rfl

/-- The invoice that was sold is paid, the other is not, and both say so. -/
theorem agreed_sale : confirmed.invoices.rows.map Invoice.status = [.paid, .unpaid] ∧
    AllAgree confirmed :=
  ⟨by decide +kernel, agreed_kept Ids.till agreed_open confirmed_reached⟩

/-- A sale that is reverted leaves an unpaid invoice that is complete. -/
theorem sale_undone : ¬ ∀ (env : Env) (s t : World), Agreed s →
    Reach (step env) Unguarded s t → AllAgree t := by
  intro h
  have hagree := h Ids.till Ids.open_
    (after Ids.till (after Ids.till Ids.open_ paying) (.revertPayment "h" answers)) agreed_open
    (.step (.step .start trivial rfl) trivial rfl)
  have hrow : ∃ r ∈ (after Ids.till (after Ids.till Ids.open_ paying)
      (.revertPayment "h" answers)).invoices.rows,
      r.status = .unpaid ∧ r.complete = true := by decide +kernel
  obtain ⟨r, hr, hunpaid, hcomplete⟩ := hrow
  obtain ⟨-, hnot, -⟩ := (hagree r hr).unpaid hunpaid
  rw [hcomplete] at hnot
  cases hnot

end Anypay.Agreement
