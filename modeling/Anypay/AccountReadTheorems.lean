/-
Anypay.AccountReadTheorems — whose rows the read endpoints show.

A request is PRIVATE in a database where every row of its body belongs to the
account (or, for linked payments, to an account linked to it), and where no change
of other accounts' rows brings a row into view. `private_iff` says, endpoint by
endpoint, when that is so: the list of invoices is private only where nothing
can be on it, a payment only where its invoice is the account's, and a refund only
where none is to be had; the other three always are.

* `sees_payment`, `sees_event` — which rows two of the endpoints may show.
* `getRefund_beside` — a refund is made just as well beside a stranger's invoice.
* `invoices_of_others`, `payment_of_another` — what an account can see.
-/
import Anypay.AccountReads
import Anypay.Db.Rules

namespace Anypay.AccountReads

open Store Async Proc

variable {env : Env} {toDate : Json → Option Time} {account : Account} {w w' : World}
  {uid invoice_uid : String}

/-! ## Whose rows -/

/-- An invoice of the account has this uid. -/
def isInvoiceOf (w : World) (a : Int) (uid : String) : Prop :=
  ∃ r ∈ w.invoices.rows, r.uid = uid ∧ r.account_id = some a

/-- The row belongs to the account, itself or by the invoice it is of. -/
def Owns (w : World) (a : Int) : Row → Prop
  | .invoice r => r.account_id = some a
  | .payment r => r.account_id = some a ∨ isInvoiceOf w a r.invoice_uid
  | .refund r => isInvoiceOf w a r.original_invoice_uid
  | .event r => r.account_id = some a ∨ ∃ uid, r.invoice_uid = some uid ∧ isInvoiceOf w a uid

/-- The row is in the database. -/
def Stored (w : World) : Row → Prop
  | .invoice r => r ∈ w.invoices.rows
  | .payment r => r ∈ w.payments.rows
  | .refund r => r ∈ w.refunds.rows
  | .event r => r ∈ w.events.rows

/-- The accounts whose rows a request of the account may show. -/
def Entitled (w : World) (account : Account) (request : Request) (a : Int) : Prop :=
  a = account.id ∨ (match request with | .linkedAccountPayments .. => True | _ => False) ∧
    ∃ link ∈ w.linkedAccounts.rows, link.source = a ∧ link.target = account.id

/-- What is left of a database without the tables of which others' rows may change. -/
def shared (w : World) : World :=
  { w with
    invoices := {}, payments := {}, refunds := {}, events := {}, accounts := {},
    linkedAccounts := {}, apps := {} }

/-- The databases differ in rows of accounts outside `P` only. -/
structure SameFor (P : Int → Prop) (w w' : World) : Prop where
  rows : ∀ a, P a → ∀ row, Stored w' row ∧ Owns w' a row ↔ Stored w row ∧ Owns w a row
  accounts : ∀ r : Account, P r.id → (r ∈ w'.accounts.rows ↔ r ∈ w.accounts.rows)
  links : ∀ r : LinkedAccount, P r.source ∨ P r.target →
    (r ∈ w'.linkedAccounts.rows ↔ r ∈ w.linkedAccounts.rows)
  apps : ∀ r : App, P r.account_id → (r ∈ w'.apps.rows ↔ r ∈ w.apps.rows)
  shared : shared w' = shared w

/-- A row of the database that some answer to the request shows. -/
def Sees (env : Env) (toDate : Json → Option Time) (account : Account) (w : World)
    (request : Request) (row : Row) : Prop :=
  Stored w row ∧ ∃ o rows t,
    (respond env toDate account request).exec o w = (.ok rows, t) ∧ row ∈ rows

structure Private (env : Env) (toDate : Json → Option Time) (account : Account) (w : World)
    (request : Request) : Prop where
  own : ∀ o rows t, (respond env toDate account request).exec o w = (.ok rows, t) →
    ∀ row ∈ rows, ∃ a, Entitled w account request a ∧ Owns w a row
  stable : ∀ w', SameFor (Entitled w account request) w w' → ∀ row,
    Sees env toDate account w' request row → Sees env toDate account w request row

/-- When the request is private. -/
def Guarded (env : Env) (toDate : Json → Option Time) (account : Account) (w : World) :
    Request → Prop
  | .invoices query => Json.truthy (raw (query "limit")) = true ∨
      Json.truthy (raw (query "offset")) = true ∨
      ∀ within, createdWithin toDate (raw (query "start_date_created"))
        (raw (query "end_date_created")) = .ok within → ∀ t, within t = false
  | .payments _ _ => True
  | .payment invoice_uid => isInvoiceOf w account.id invoice_uid
  | .linkedAccountPayments _ _ _ => True
  | .invoiceEvents _ => True
  | .refund invoice_uid => ∀ w',
      SameFor (Entitled w account (.refund invoice_uid)) w w' →
      ∀ invoice ∈ w.invoices.rows, invoice.uid = invoice_uid →
      invoice.account_id = some (account.id : Int) →
      ∀ o, ((getRefund env invoice none).exec o w').1.isOk = false

/-! ## Databases that agree -/

theorem SameFor.refl (P : Int → Prop) (w : World) : SameFor P w w where
  rows _ _ _ := Iff.rfl
  accounts _ _ := Iff.rfl
  links _ _ := Iff.rfl
  apps _ _ := Iff.rfl
  shared := rfl

theorem SameFor.trans {P : Int → Prop} {w'' : World} (h : SameFor P w w')
    (h' : SameFor P w' w'') : SameFor P w w'' where
  rows a ha row := (h'.rows a ha row).trans (h.rows a ha row)
  accounts r hr := (h'.accounts r hr).trans (h.accounts r hr)
  links r hr := (h'.links r hr).trans (h.links r hr)
  apps r hr := (h'.apps r hr).trans (h.apps r hr)
  shared := h'.shared.trans h.shared

theorem SameFor.isInvoiceOf {P : Int → Prop} (h : SameFor P w w') {a : Int} (ha : P a)
    : isInvoiceOf w' a uid ↔ isInvoiceOf w a uid := by
  constructor
  · rintro ⟨r, hr, huid, haccount⟩
    exact ⟨r, ((h.rows a ha (.invoice r)).mp ⟨hr, haccount⟩).1, huid, haccount⟩
  · rintro ⟨r, hr, huid, haccount⟩
    exact ⟨r, ((h.rows a ha (.invoice r)).mpr ⟨hr, haccount⟩).1, huid, haccount⟩

theorem entitled_self (request : Request) : Entitled w account request account.id := .inl rfl

/-- Nobody's rows but the account's. -/
theorem entitled_iff {request : Request}
    (h : ∀ account_id limit offset, request ≠ .linkedAccountPayments account_id limit offset)
    {a : Int} : Entitled w account request a ↔ a = account.id := by
  cases request with
  | linkedAccountPayments account_id limit offset => exact absurd rfl (h _ _ _)
  | _ => simp [Entitled]

/-! ## What each endpoint shows -/

theorem pageNumber_raw (model : String) (xs : List String) (otherwise : Int) :
    pageNumber model (raw xs) otherwise =
      if Json.truthy (raw xs) then .error (.invalidValue model) else .ok otherwise := by
  unfold pageNumber
  match xs with
  | [] => rfl
  | [s] => rfl
  | _ :: _ :: _ => rfl

/-- No listed payment is ever described. -/
theorem paymentsIndex_empty {A : Answer → Prop} (limit offset : Option Json) (s : World) :
    (paymentsIndex account limit offset).wp A (fun payments _ => payments = [])
      (fun _ _ => True) s := by
  simp only [paymentsIndex, bind_eq, wp_bind]
  refine wp_ofExcept (fun limit _ => ?_) fun _ _ => trivial
  refine wp_ofExcept (fun offset _ => ?_) fun _ _ => trivial
  refine wp_query (fun _ _ payments _ => ?_) fun _ _ _ => trivial
  show payments.filterMap _ = []
  exact List.filterMap_eq_nil_iff.mpr fun _ _ => rfl

theorem exec_payment (invoice_uid : String) (o : Nat → Answer) :
    (respond env toDate account (.payment invoice_uid)).exec o w =
      match w.payments.pick (fun r => r.invoice_uid == invoice_uid) (o 0).row with
      | some r => (.ok [.payment r], w)
      | none => (.error (.notFound "payments"), w) := by
  have hget : prisma.payments.get w = w.payments := rfl
  simp only [respond, paymentShow, bind_eq, Proc.bind_assoc]
  rw [Delegate.exec_findFirstOrThrow_bind, hget]
  cases w.payments.pick (fun r => r.invoice_uid == invoice_uid) (o 0).row <;> rfl

theorem shown_payment {o : Nat → Answer} {rows : List Row} {t : World} {row : Row}
    (h : (respond env toDate account (.payment invoice_uid)).exec o w = (.ok rows, t))
    (hrow : row ∈ rows) :
    ∃ r ∈ w.payments.rows, r.invoice_uid = invoice_uid ∧ row = .payment r := by
  rw [exec_payment] at h
  cases hpick : w.payments.pick (fun r => r.invoice_uid == invoice_uid) (o 0).row with
  | none =>
      rw [hpick] at h
      cases (Prod.mk.inj h).1
  | some r =>
      rw [hpick] at h
      obtain rfl := Except.ok.inj (Prod.mk.inj h).1
      obtain ⟨hr, huid⟩ := Table.pick_some hpick
      exact ⟨r, hr, by simpa using huid, List.mem_singleton.mp hrow⟩

theorem sees_payment {row : Row} : Sees env toDate account w (.payment invoice_uid) row ↔
    ∃ r ∈ w.payments.rows, r.invoice_uid = invoice_uid ∧ row = .payment r := by
  constructor
  · rintro ⟨-, o, rows, t, hexec, hrow⟩
    exact shown_payment hexec hrow
  · rintro ⟨r, hr, rfl, rfl⟩
    have hpick : ∃ n, w.payments.pick (fun x => x.invoice_uid == r.invoice_uid) n = some r :=
      Table.exists_pick hr (by simp)
    obtain ⟨n, hn⟩ := hpick
    refine ⟨hr, fun _ => { row := n }, [.payment r], w, ?_, by simp⟩
    rw [exec_payment, hn]

theorem exec_invoiceEvents (invoice_uid : String) (o : Nat → Answer) :
    (respond env toDate account (.invoiceEvents invoice_uid)).exec o w =
      match w.invoices.pick (fun r => r.uid == invoice_uid) (o 0).row with
      | some invoice =>
          if invoice.account_id ≠ some (account.id : Int) then
            (.error (.error "unauthorized"), w)
          else (.ok ((newestFirst EventRecord.createdAt
            (w.events.select fun r => r.invoice_uid == some invoice.uid)).map .event), w)
      | none => (.error (.notFound "invoices"), w) := by
  have hget : prisma.invoices.get w = w.invoices := rfl
  simp only [respond, invoiceEventsIndex, ensureInvoice, bind_eq, Proc.bind_assoc]
  rw [Delegate.exec_findFirstOrThrow_bind, hget]
  cases w.invoices.pick (fun r => r.uid == invoice_uid) (o 0).row with
  | none => rfl
  | some invoice =>
      by_cases hown : invoice.account_id ≠ some (account.id : Int)
      · simp only [if_pos hown]
        rfl
      · simp only [if_neg hown]
        rfl

theorem mem_newestFirst {α : Type} {createdAt : α → Time} {rows : List α} {r : α} :
    r ∈ newestFirst createdAt rows ↔ r ∈ rows := List.mem_mergeSort

theorem shown_event {o : Nat → Answer} {rows : List Row} {t : World} {row : Row}
    (h : (respond env toDate account (.invoiceEvents invoice_uid)).exec o w = (.ok rows, t))
    (hrow : row ∈ rows) : isInvoiceOf w account.id invoice_uid ∧
      ∃ r ∈ w.events.rows, r.invoice_uid = some invoice_uid ∧ row = .event r := by
  rw [exec_invoiceEvents] at h
  cases hpick : w.invoices.pick (fun r => r.uid == invoice_uid) (o 0).row with
  | none =>
      rw [hpick] at h
      cases (Prod.mk.inj h).1
  | some invoice =>
      rw [hpick] at h
      dsimp only at h
      obtain ⟨hmem, huid⟩ := Table.pick_some hpick
      obtain rfl : invoice.uid = invoice_uid := by simpa using huid
      split at h
      · cases (Prod.mk.inj h).1
      · rename_i hown
        obtain rfl := Except.ok.inj (Prod.mk.inj h).1
        obtain ⟨r, hr, rfl⟩ := List.mem_map.mp hrow
        have hevent := Table.mem_select.mp (mem_newestFirst.mp hr)
        exact ⟨⟨invoice, hmem, rfl, not_not.mp hown⟩, r, hevent.1, by simpa using hevent.2, rfl⟩

theorem sees_event {row : Row} : Sees env toDate account w (.invoiceEvents invoice_uid) row ↔
    isInvoiceOf w account.id invoice_uid ∧
      ∃ r ∈ w.events.rows, r.invoice_uid = some invoice_uid ∧ row = .event r := by
  constructor
  · rintro ⟨-, o, rows, t, hexec, hrow⟩
    exact shown_event hexec hrow
  · rintro ⟨⟨invoice, hmem, rfl, hown⟩, r, hr, huid, rfl⟩
    have hpick : ∃ n, w.invoices.pick (fun x => x.uid == invoice.uid) n = some invoice :=
      Table.exists_pick hmem (by simp)
    obtain ⟨n, hn⟩ := hpick
    have hexec : (respond env toDate account (.invoiceEvents invoice.uid)).exec
        (fun _ => { row := n }) w =
        (.ok ((newestFirst EventRecord.createdAt
          (w.events.select fun r => r.invoice_uid == some invoice.uid)).map .event), w) := by
      rw [exec_invoiceEvents, hn]
      dsimp only
      rw [if_neg (not_not.mpr hown)]
    have hselect : r ∈ w.events.select fun r => r.invoice_uid == some invoice.uid :=
      Table.mem_select.mpr ⟨hr, by simpa using huid⟩
    exact ⟨hr, _, _, _, hexec, List.mem_map.mpr ⟨r, mem_newestFirst.mpr hselect, rfl⟩⟩

/-- Where a request never shows anything it is private. -/
theorem private_of_empty {request : Request}
    (h : ∀ w' o rows t, SameFor (Entitled w account request) w w' →
      (respond env toDate account request).exec o w' = (.ok rows, t) → rows = []) :
    Private env toDate account w request where
  own o rows t hexec row hrow := by
    rw [h w o rows t (.refl _ w) hexec] at hrow
    cases hrow
  stable w' hsame row hsees := by
    obtain ⟨-, o, rows, t, hexec, hrow⟩ := hsees
    rw [h w' o rows t hsame hexec] at hrow
    cases hrow

/-- A value that a program can only return under some condition. -/
theorem of_exec_ok {α : Type} {p : Task α} {Q : α → Prop} {s t : World} {o : Nat → Answer} {a : α}
    (h : p.wp AnyAnswer (fun a _ => Q a) (fun _ _ => True) s) (hexec : p.exec o s = (.ok a, t)) :
    Q a := by
  have hend := wp_exec h (anyAnswer o)
  rw [hexec] at hend
  exact hend

theorem payments_empty {limit offset : Option Json} {o : Nat → Answer} {rows : List Row}
    {t : World}
    (h : (respond env toDate account (.payments limit offset)).exec o w = (.ok rows, t)) :
    rows = [] := by
  refine of_exec_ok (Q := fun rows => rows = []) ?_ h
  simp only [respond, bind_eq, wp_bind]
  refine wp_mono (fun payments _ hpayments => ?_) (fun _ _ _ => trivial)
    (paymentsIndex_empty limit offset w)
  rw [hpayments]
  exact rfl

theorem linkedAccountPayments_empty {account_id : Json} {limit offset : Option Json}
    {o : Nat → Answer} {rows : List Row} {t : World}
    (h : (respond env toDate account (.linkedAccountPayments account_id limit offset)).exec o w =
      (.ok rows, t)) : rows = [] := by
  refine of_exec_ok (Q := fun rows => rows = []) ?_ h
  simp only [respond, linkedAccountPaymentsIndex, bind_eq, wp_bind, wp_tryCatch]
  refine wp_ofExcept (fun source _ => ?_) fun _ _ => trivial
  refine Delegate.wp_findFirst (fun link _ _ => ?_) fun _ => trivial
  rw [wp_bind]
  refine Delegate.wp_findFirstOrThrow (fun account _ _ => ?_) fun _ => trivial
  refine wp_mono (fun payments _ hpayments => ?_) (fun _ _ _ => trivial)
    (paymentsIndex_empty limit offset w)
  rw [hpayments]
  exact rfl

theorem page_nil {α : Type} (take : Int) (skip : Nat) : page take skip ([] : List α) = [] := by
  unfold page
  split <;> simp

/-- Nothing is on a list whose page is refused or in whose range nothing lies. -/
theorem invoices_empty {query : String → List String} {o : Nat → Answer} {rows : List Row}
    {t : World} (hguard : Guarded env toDate account w' (.invoices query))
    (h : (respond env toDate account (.invoices query)).exec o w = (.ok rows, t)) :
    rows = [] := by
  refine of_exec_ok (Q := fun rows => rows = []) ?_ h
  simp only [respond, invoicesIndex, bind_eq, wp_bind, pageNumber_raw]
  refine wp_ofExcept (fun take htake => ?_) fun _ _ => trivial
  refine wp_ofExcept (fun skip hskip => ?_) fun _ _ => trivial
  refine wp_ofExcept (fun within hwithin => ?_) fun _ _ => trivial
  have hnone : ∀ t, within t = false := by
    rcases hguard with hlimit | hoffset | hnone
    · rw [if_pos hlimit] at htake
      cases htake
    · rw [if_pos hoffset] at hskip
      cases hskip
    · exact hnone within hwithin
  have hselect : (prisma.invoices.get w).select (fun r => within r.createdAt) = [] :=
    List.filter_eq_nil_iff.mpr fun r _ => by simp [hnone]
  refine wp_query (fun c _ invoices hread => ?_) fun _ _ _ => trivial
  rw [hselect] at hread
  split at hread
  · cases hread
  · obtain rfl := Except.ok.inj hread
    show (page take skip.toNat ([] : List Invoice)).map Row.invoice = []
    rw [page_nil]
    rfl

/-- Elsewhere the list starts with the first row of the range. -/
theorem exec_invoices {query : String → List String}
    (hlimit : ¬ Json.truthy (raw (query "limit")) = true)
    (hoffset : ¬ Json.truthy (raw (query "offset")) = true) {within : Time → Bool}
    (hwithin : createdWithin toDate (raw (query "start_date_created"))
      (raw (query "end_date_created")) = .ok within) (o : Nat → Answer) :
    (respond env toDate account (.invoices query)).exec o w =
      (.ok (((w.invoices.select fun r => within r.createdAt).take 100).map .invoice), w) := by
  simp only [respond, invoicesIndex, bind_eq, pageNumber_raw, if_neg hlimit, if_neg hoffset,
    hwithin]
  rfl

/-! ## Strangers -/

/-- Another account's invoice. -/
def strangeInvoice (account : Account) (uid : String) (createdAt : Time) (id : Nat) : Invoice :=
  { id, uid, account_id := some (account.id + 1), status := .unpaid, createdAt }

/-- Another account's payment. -/
def strangePayment (account : Account) (invoice_uid : String) (id : Nat) : Payment :=
  { id, txid := "", currency := "BTC", invoice_uid, account_id := some (account.id + 1) }

theorem stranger_ne : some ((account.id : Int) + 1) ≠ some (account.id : Int) := by
  intro h
  have hid := Option.some.inj h
  omega

/-- The database with a stranger's invoice in it, whose id is at least `n`. -/
def withInvoice (w : World) (account : Account) (uid : String) (createdAt : Time) (n : Nat) :
    World :=
  { w with
    invoices := w.invoices.adjoin
      (strangeInvoice account uid createdAt (max w.invoices.next n)) (Nat.le_max_left _ _) rfl }

/-- The database with a stranger's payment in it. -/
def withPayment (w : World) (account : Account) (invoice_uid : String) : World :=
  { w with
    payments := w.payments.adjoin
      (strangePayment account invoice_uid w.payments.next) (Nat.le_refl _) rfl }

variable {createdAt : Time} {n : Nat}

theorem mem_withInvoice {r : Invoice} :
    r ∈ (withInvoice w account uid createdAt n).invoices.rows ↔
      r = strangeInvoice account uid createdAt (max w.invoices.next n) ∨ r ∈ w.invoices.rows :=
  List.mem_cons

theorem mem_withPayment {r : Payment} :
    r ∈ (withPayment w account invoice_uid).payments.rows ↔
      r = strangePayment account invoice_uid w.payments.next ∨ r ∈ w.payments.rows :=
  List.mem_cons

theorem isInvoiceOf_withInvoice :
    isInvoiceOf (withInvoice w account uid createdAt n) account.id invoice_uid ↔
      isInvoiceOf w account.id invoice_uid := by
  constructor
  · rintro ⟨r, hr, huid, hown⟩
    rcases mem_withInvoice.mp hr with rfl | hr
    · exact absurd hown stranger_ne
    · exact ⟨r, hr, huid, hown⟩
  · rintro ⟨r, hr, huid, hown⟩
    exact ⟨r, mem_withInvoice.mpr (.inr hr), huid, hown⟩

theorem sameFor_withInvoice {P : Int → Prop} (hP : ∀ a, P a ↔ a = account.id) :
    SameFor P w (withInvoice w account uid createdAt n) where
  rows a ha row := by
    obtain rfl := (hP a).mp ha
    cases row with
    | invoice r =>
        refine and_congr_left fun hown => mem_withInvoice.trans (or_iff_right ?_)
        rintro rfl
        exact stranger_ne hown
    | payment r => exact and_congr_right fun _ => or_congr_right isInvoiceOf_withInvoice
    | refund r => exact and_congr_right fun _ => isInvoiceOf_withInvoice
    | event r =>
        refine and_congr_right fun _ => or_congr_right (exists_congr fun uid => ?_)
        exact and_congr_right fun _ => isInvoiceOf_withInvoice
  accounts _ _ := Iff.rfl
  links _ _ := Iff.rfl
  apps _ _ := Iff.rfl
  shared := rfl

theorem sameFor_withPayment {P : Int → Prop} (hP : ∀ a, P a ↔ a = account.id)
    (hnone : ¬ isInvoiceOf w account.id invoice_uid) :
    SameFor P w (withPayment w account invoice_uid) where
  rows a ha row := by
    obtain rfl := (hP a).mp ha
    cases row with
    | payment r =>
        refine and_congr_left fun hown => mem_withPayment.trans (or_iff_right ?_)
        rintro rfl
        rcases hown with hown | hown
        · exact stranger_ne hown
        · exact hnone hown
    | invoice r => exact Iff.rfl
    | refund r => exact Iff.rfl
    | event r => exact Iff.rfl
  accounts _ _ := Iff.rfl
  links _ _ := Iff.rfl
  apps _ _ := Iff.rfl
  shared := rfl

theorem guarded_of_private_invoices {query : String → List String}
    (h : Private env toDate account w (.invoices query)) :
    Guarded env toDate account w (.invoices query) := by
  by_contra hguard
  simp only [Guarded, not_or, not_forall] at hguard
  obtain ⟨hlimit, hoffset, within, hwithin, t, ht⟩ := hguard
  have hwin : within t = true := by simpa using ht
  have hsame : SameFor (Entitled w account (.invoices query)) w (withInvoice w account "" t 0) :=
    sameFor_withInvoice fun a => entitled_iff (by simp)
  have hshown : strangeInvoice account "" t (max w.invoices.next 0) ∈
      ((withInvoice w account "" t 0).invoices.select fun r => within r.createdAt).take 100 := by
    have hfirst : (withInvoice w account "" t 0).invoices.select (fun r => within r.createdAt) =
        strangeInvoice account "" t (max w.invoices.next 0) ::
          w.invoices.select fun r => within r.createdAt := List.filter_cons_of_pos hwin
    rw [hfirst]
    exact List.mem_cons_self
  have hsees := h.stable _ hsame (.invoice (strangeInvoice account "" t (max w.invoices.next 0)))
    ⟨mem_withInvoice.mpr (.inl rfl), _, _, _, exec_invoices hlimit hoffset hwithin fun _ => {},
      List.mem_map_of_mem hshown⟩
  have hlt : max w.invoices.next 0 < w.invoices.next := w.invoices.id_lt _ hsees.1
  omega

theorem guarded_of_private_payment
    (h : Private env toDate account w (.payment invoice_uid)) :
    Guarded env toDate account w (.payment invoice_uid) := by
  by_contra hnone
  have hsame : SameFor (Entitled w account (.payment invoice_uid)) w
      (withPayment w account invoice_uid) :=
    sameFor_withPayment (fun a => entitled_iff (by simp)) hnone
  have hsees := h.stable _ hsame (.payment (strangePayment account invoice_uid w.payments.next))
    (sees_payment.mpr ⟨_, mem_withPayment.mpr (.inl rfl), rfl, rfl⟩)
  exact Nat.lt_irrefl _ (w.payments.id_lt _ hsees.1)

/-- A row the account owns is as much there after a change of others' rows. -/
theorem SameFor.stored {P : Int → Prop} (h : SameFor P w w') {a : Int} (ha : P a) {row : Row}
    (hrow : Stored w' row) (hown : Owns w' a row) : Stored w row :=
  ((h.rows a ha row).mp ⟨hrow, hown⟩).1

theorem private_payment (h : isInvoiceOf w account.id invoice_uid) :
    Private env toDate account w (.payment invoice_uid) where
  own o rows t hexec row hrow := by
    obtain ⟨r, -, rfl, rfl⟩ := shown_payment hexec hrow
    exact ⟨account.id, entitled_self _, .inr h⟩
  stable w' hsame row hsees := by
    obtain ⟨r, hr, rfl, rfl⟩ := sees_payment.mp hsees
    have hown : Owns w' account.id (.payment r) :=
      .inr ((hsame.isInvoiceOf (entitled_self _)).mpr h)
    exact sees_payment.mpr ⟨r, hsame.stored (entitled_self _) hsees.1 hown, rfl, rfl⟩

theorem private_invoiceEvents :
    Private env toDate account w (.invoiceEvents invoice_uid) where
  own o rows t hexec row hrow := by
    obtain ⟨hinvoice, r, -, huid, rfl⟩ := shown_event hexec hrow
    exact ⟨account.id, entitled_self _, .inr ⟨invoice_uid, huid, hinvoice⟩⟩
  stable w' hsame row hsees := by
    obtain ⟨hinvoice, r, hr, huid, rfl⟩ := sees_event.mp hsees
    have hown : Owns w' account.id (.event r) := .inr ⟨invoice_uid, huid, hinvoice⟩
    exact sees_event.mpr ⟨(hsame.isInvoiceOf (entitled_self _)).mp hinvoice, r,
      hsame.stored (entitled_self _) hsees.1 hown, huid, rfl⟩

/-! ## A refund beside a stranger's invoice -/

/-- The same database but for its invoices. -/
def Beside (S T : Table Invoice) (s t : World) : Prop :=
  s.invoices = S ∧ t = prisma.invoices.put s T

/-- A table that is not the invoices'. -/
structure Aside {α : Type} [Record α] (d : Delegate α) : Prop where
  get : ∀ w t, d.get (prisma.invoices.put w t) = d.get w
  put : ∀ w x t, d.put (prisma.invoices.put w t) x = prisma.invoices.put (d.put w x) t
  invoices : ∀ w x, (d.put w x).invoices = w.invoices

section Blind

variable {S T : Table Invoice} {α : Type} [Record α] {d : Delegate α}

theorem Aside.findFirst (hd : Aside d) (where_ : α → Bool) :
    (d.findFirst where_).Blind (Beside S T) := by
  refine blind_query fun c s t hst => ?_
  obtain ⟨-, rfl⟩ := hst
  rw [hd.get]

theorem Aside.findFirstOrThrow (hd : Aside d) (where_ : α → Bool) :
    (d.findFirstOrThrow where_).Blind (Beside S T) := by
  refine blind_query fun c s t hst => ?_
  obtain ⟨-, rfl⟩ := hst
  rw [hd.get]

theorem Aside.commit (hd : Aside d)
    (write : Answer → Table α → Except TableError (α × Table α)) :
    (Proc.step fun c w => d.commit w (write c (d.get w))).Blind (Beside S T) := by
  refine blind_step fun c s t hst => ?_
  obtain ⟨rfl, rfl⟩ := hst
  simp only [hd.get]
  cases write c (d.get s) with
  | error e => exact ⟨rfl, rfl, rfl⟩
  | ok p => exact ⟨rfl, hd.invoices s p.2, hd.put s p.2 T⟩

theorem Aside.create (hd : Aside d) {mk : Time → Nat → α}
    {hid : ∀ t n, Record.id (mk t n) = n} : (d.create mk hid).Blind (Beside S T) :=
  hd.commit fun c table => table.insert? (mk c.now) (hid c.now)

theorem Aside.update (hd : Aside d) {i : Nat} {f : Time → α → α}
    {hid : ∀ t r, Record.id (f t r) = Record.id r} :
    (d.update i f hid).Blind (Beside S T) :=
  hd.commit fun c table => table.update? i (f c.now) (hid c.now)

theorem aside_refunds : Aside prisma.refunds := ⟨fun _ _ => rfl, fun _ _ _ => rfl, fun _ _ => rfl⟩

theorem aside_payments : Aside prisma.payments :=
  ⟨fun _ _ => rfl, fun _ _ _ => rfl, fun _ _ => rfl⟩

theorem aside_apps : Aside prisma.apps := ⟨fun _ _ => rfl, fun _ _ _ => rfl, fun _ _ => rfl⟩

theorem aside_prices : Aside prisma.prices := ⟨fun _ _ => rfl, fun _ _ _ => rfl, fun _ _ => rfl⟩

theorem aside_payment_options : Aside prisma.payment_options :=
  ⟨fun _ _ => rfl, fun _ _ _ => rfl, fun _ _ => rfl⟩

theorem aside_paymentRequests : Aside prisma.paymentRequests :=
  ⟨fun _ _ => rfl, fun _ _ _ => rfl, fun _ _ => rfl⟩

theorem blind_ask {γ : Type} (f : Answer → Except Failure γ) : (ask f).Blind (Beside S T) :=
  blind_query fun _ _ _ _ => rfl

theorem blind_convertAt (input : Amount) (currency : String) :
    (convertAt input currency).Blind (Beside S T) := by
  refine blind_bind (aside_prices.findFirst _) fun price => ?_
  cases price with
  | some price => exact trivial
  | none =>
      refine blind_bind (aside_prices.findFirst _) fun inverse => ?_
      cases inverse <;> exact trivial

theorem blind_convert (input : Amount) (currency : String) :
    (convert input currency).Blind (Beside S T) := by
  unfold convert
  split
  · exact blind_bind (blind_convertAt _ _) fun _ => blind_convertAt _ _
  · exact blind_convertAt _ _

theorem blind_templateToOption (uid : String) (option : TemplateOption) :
    (templateToOption env uid option).Blind (Beside S T) := by
  refine blind_bind (blind_mapAll fun to_ _ => ?_) fun _ => trivial
  refine blind_bind (blind_convert _ _) fun _ => ?_
  exact blind_bind (blind_ofExcept _) fun _ => trivial

theorem blind_storeTemplateOption (option : PaymentOption) :
    (storeTemplateOption option).Blind (Beside S T) := by
  unfold storeTemplateOption
  split
  · exact aside_payment_options.create
  · exact trivial

theorem blind_paymentRequestToPaymentOptions (request : PaymentRequest) :
    (paymentRequestToPaymentOptions env request).Blind (Beside S T) := by
  refine blind_bind (blind_mapAll fun option _ => blind_templateToOption _ option)
    fun options => ?_
  refine blind_bind (blind_mapAll fun option _ => ?_) fun _ => blind_ofExcept _
  refine blind_tryCatch ?_ fun _ => trivial
  exact blind_bind (blind_storeTemplateOption option) fun _ => trivial

theorem blind_refundAddress (invoice : Invoice) (address : Option String) :
    (refundAddress invoice address).Blind (Beside S T) := by
  unfold refundAddress getAddressForInvoice
  split
  · exact trivial
  · split
    · exact trivial
    · exact blind_ask _

end Blind

section Together

variable {s t : World} {extra : Invoice}

/-- The second database is the first but for its invoices, and the stranger's is
among them. -/
def Besides (extra : Invoice) (s t : World) : Prop :=
  ∃ S T, Beside S T s t ∧ extra ∈ T.rows

/-- A program that does not touch the invoices, together with itself. -/
theorem together_blind {α : Type} {p : Task α} (hp : ∀ S T, p.Blind (Beside S T))
    (h : Besides extra s t) :
    p.Together (fun a b s t => a = b ∧ Besides extra s t) p s t := by
  obtain ⟨S, T, hst, hextra⟩ := h
  exact together_mono (fun _ _ _ _ hV => ⟨hV.1, S, T, hV.2, hextra⟩) ((hp S T).together hst)

/-- The rest of two programs after such a one. -/
theorem together_blind_bind {α β : Type} {p : Task α} {f g : α → Task β}
    {V : β → β → World → World → Prop} (hp : ∀ S T, p.Blind (Beside S T))
    (h : Besides extra s t)
    (hrest : ∀ a s t, Besides extra s t → (f a).Together V (g a) s t) :
    (p.bind f).Together V (p.bind g) s t := by
  refine together_bind (together_mono (fun a b s t hV => ?_) (together_blind hp h))
  obtain ⟨rfl, hst⟩ := hV
  exact hrest a s t hst

theorem emptyInvoice_hash {app_id : Int} {app : App} {uid : Json}
    {options : List (String × Json)} {r : Invoice}
    (h : emptyInvoice env app_id app uid options = .ok r) : r.hash = none := by
  unfold emptyInvoice at h
  simp only [except_bind_ok] at h
  obtain ⟨_, -, _, -, _, -, _, -, _, -, _, -, _, -, _, -, _, -, _, -, h⟩ := h
  obtain rfl := Except.ok.inj h
  rfl

/-- Two new invoices alike but for their ids. -/
structure Twin (extra a b : Invoice) (t : World) : Prop where
  uid : b.uid = a.uid
  uri : b.uri = a.uri
  mem : b ∈ t.invoices.rows
  ne : b.id ≠ extra.id

theorem together_createEmptyInvoice (app_id : Int) (options : List (String × Json))
    (h : Besides extra s t) :
    (createEmptyInvoice env app_id options).Together
      (fun a b s t => Besides extra s t ∧ Twin extra a b t)
      (createEmptyInvoice env app_id options) s t := by
  have hchoose : ∀ S T, (chooseUid options).Blind (Beside S T) := fun S T => by
    unfold chooseUid
    split
    · exact trivial
    · exact blind_ask _
  simp only [createEmptyInvoice, bind_eq]
  refine together_blind_bind hchoose h fun uid s t h => ?_
  refine together_blind_bind (fun _ _ => aside_apps.findFirstOrThrow _) h fun app s t h => ?_
  cases hdata : emptyInvoice env app_id app uid options with
  | error e => exact trivial
  | ok data =>
      obtain ⟨S, T, ⟨rfl, rfl⟩, hextra⟩ := h
      refine together_step fun c a ha => ?_
      obtain ⟨S', hS, hs'⟩ := Delegate.commit_ok ha
      obtain ⟨rfl, -, -⟩ := Table.insert?_ok hS
      have hkey : data.hash = none := emptyInvoice_hash hdata
      have hT : ∃ T', T.insert? (fun id => { data with id, createdAt := c.now, updatedAt := c.now })
          (fun _ => rfl) = .ok (_, T') := Table.insert?_of_key_none hkey
      obtain ⟨T', hT⟩ := hT
      obtain ⟨-, hrows, -⟩ := Table.insert?_ok hT
      have hlt : extra.id < T.next := T.id_lt extra hextra
      refine ⟨_, congrArg (fun x => (prisma.invoices.commit _ x).1) hT, ?_⟩
      have hout := congrArg (fun x => (prisma.invoices.commit (prisma.invoices.put s T) x).2) hT
      rw [hs']
      refine ⟨⟨S', T', ⟨rfl, hout⟩, ?_⟩, rfl, rfl, ?_, (Nat.ne_of_lt hlt).symm⟩
      · rw [hrows]
        exact List.mem_append_left _ hextra
      · have hnew : { data with id := T.next, createdAt := c.now, updatedAt := c.now } ∈
            T'.rows := by
          rw [hrows]
          exact List.mem_append_right _ List.mem_cons_self
        exact (congrArg (fun w : World => _ ∈ w.invoices.rows) hout).mpr hnew

theorem together_updateFromOptions {a b : Invoice} (h : Besides extra s t)
    (htwin : Twin extra a b t) :
    (updateFromOptions a (.obj [])).Together (fun _ _ s t => Besides extra s t)
      (updateFromOptions b (.obj [])) s t := by
  have hrun : ∀ r, updateFromOptions r (.obj []) =
      (prisma.invoices.update r.id fun _ r => r).bind fun _ => Proc.done () := fun _ => rfl
  rw [hrun, hrun]
  obtain ⟨S, T, ⟨rfl, rfl⟩, hextra⟩ := h
  refine together_bind (together_step fun c r hr => ?_)
  obtain ⟨S', -, hs'⟩ := Delegate.commit_ok hr
  have hT : ∃ T', T.update? b.id (fun r => r) (fun _ => rfl) = .ok (b, T') :=
    Table.update?_of_key_eq htwin.mem rfl rfl
  obtain ⟨T', hT⟩ := hT
  obtain ⟨-, -, -, -, hrows, -, -⟩ := Table.update?_ok hT
  have hout := congrArg (fun x => (prisma.invoices.commit (prisma.invoices.put s T) x).2) hT
  refine ⟨_, congrArg (fun x => (prisma.invoices.commit _ x).1) hT, (), rfl, ?_⟩
  rw [hs']
  refine ⟨S', T', ⟨rfl, hout⟩, ?_⟩
  rw [hrows]
  exact Table.mem_patch_of_ne hextra htwin.ne.symm

theorem together_createPaymentRequest (app_id : Int) (template : List Json)
    (h : Besides extra s t) :
    (createPaymentRequest env app_id template (some (.obj []))).Together
      (fun a b s t => a = b ∧ Besides extra s t)
      (createPaymentRequest env app_id template (some (.obj []))) s t := by
  simp only [createPaymentRequest, bind_eq, Option.getD_some]
  refine together_blind_bind (fun _ _ => blind_ofExcept _) h fun found s t h => ?_
  cases env.paymentRequestTemplate template with
  | none => exact trivial
  | some entries =>
      refine together_blind_bind (fun _ _ => aside_paymentRequests.create) h
        fun request s t h => ?_
      refine together_bind (together_mono (fun a b s t hV => ?_)
        (together_createEmptyInvoice _ _ h))
      refine together_bind (together_mono (fun _ _ s t h => ?_)
        (together_updateFromOptions hV.1 hV.2))
      rw [hV.2.uid, hV.2.uri]
      refine together_blind (fun S T => ?_) h
      refine blind_bind (blind_ofExcept _) fun url => ?_
      refine blind_bind aside_paymentRequests.update fun _ => ?_
      refine blind_bind (aside_paymentRequests.findFirstOrThrow _) fun request => ?_
      exact blind_bind (blind_paymentRequestToPaymentOptions _) fun _ => trivial

theorem together_getRefund (invoice : Invoice) (address : Option String)
    (h : Besides extra s t) :
    (getRefund env invoice address).Together (fun a b s t => a = b ∧ Besides extra s t)
      (getRefund env invoice address) s t := by
  simp only [getRefund, bind_eq]
  refine together_blind_bind (fun _ _ => aside_refunds.findFirst _) h fun found s t h => ?_
  cases found with
  | some record => exact ⟨record, rfl, rfl, h⟩
  | none =>
      refine together_blind_bind (fun _ _ => blind_refundAddress _ _) h fun address s t h => ?_
      refine together_blind_bind (fun _ _ => aside_payments.findFirstOrThrow _) h
        fun payment s t h => ?_
      refine together_blind_bind (fun _ _ => aside_apps.create) h fun app s t h => ?_
      refine together_bind (together_mono (fun a b s t hV => ?_)
        (together_createPaymentRequest _ _ h))
      obtain ⟨rfl, h⟩ := hV
      refine together_blind (fun S T => ?_) h
      exact blind_bind (blind_ofExcept _) fun _ => aside_refunds.create

end Together

/-! ## Refunds -/

/-- The invoice found first is the account's: the rest of the request. -/
theorem exec_refund {invoice : Invoice} (hown : invoice.account_id = some (account.id : Int))
    {o : Nat → Answer}
    (hpick : w.invoices.pick (fun r => r.uid == invoice_uid) (o 0).row = some invoice) :
    (respond env toDate account (.refund invoice_uid)).exec o w =
      ((getRefund env invoice none).bind fun refund =>
        (ensureInvoice refund.refund_invoice_uid).bind fun refund_invoice =>
          Proc.done [.refund refund, .invoice invoice, .invoice refund_invoice]).exec
        (tail o) w := by
  simp only [respond, refundShow, bind_eq, Proc.bind_assoc]
  rw [ensureInvoice, Delegate.exec_found_bind hpick, if_neg (not_not.mpr hown), Proc.bind_assoc]
  simp only [Proc.bind_assoc]
  rfl

/-- A refund that is to be had is shown with a stranger's invoice, where one has the
uid of the refund's. -/
theorem exists_strange_refund (toDate : Json → Option Time) {invoice : Invoice}
    (hmem : invoice ∈ w.invoices.rows)
    (hown : invoice.account_id = some (account.id : Int)) {o : Nat → Answer} {refund : Refund}
    {t : World} (hrefund : (getRefund env invoice none).exec o w = (.ok refund, t)) (n : Nat) :
    ∃ o' rows t', (respond env toDate account (.refund invoice.uid)).exec o'
        (withInvoice w account refund.refund_invoice_uid 0 n) = (.ok rows, t') ∧
      .invoice (strangeInvoice account refund.refund_invoice_uid 0
        (max w.invoices.next n)) ∈ rows := by
  have hbesides : Besides (strangeInvoice account refund.refund_invoice_uid 0
      (max w.invoices.next n)) w (withInvoice w account refund.refund_invoice_uid 0 n) :=
    ⟨w.invoices, _, ⟨rfl, rfl⟩, List.mem_cons_self⟩
  obtain ⟨_, t', hexec, rfl, S, T, ⟨-, rfl⟩, hextra⟩ :=
    (together_getRefund invoice none hbesides).exec hrefund
  have hfind : ∃ m, T.pick (fun r => r.uid == refund.refund_invoice_uid) m = some
      (strangeInvoice account refund.refund_invoice_uid 0 (max w.invoices.next n)) :=
    Table.exists_pick hextra (by simp [strangeInvoice])
  obtain ⟨m, hm⟩ := hfind
  have hself : ∃ k, (withInvoice w account refund.refund_invoice_uid 0 n).invoices.pick
      (fun r => r.uid == invoice.uid) k = some invoice :=
    Table.exists_pick (mem_withInvoice.mpr (.inr hmem)) (by simp)
  obtain ⟨k, hk⟩ := hself
  obtain ⟨o'', hrest⟩ := @exec_bind_ok _ _ _ _ _ _ (fun refund =>
      (ensureInvoice refund.refund_invoice_uid).bind fun refund_invoice =>
        Proc.done [Row.refund refund, .invoice invoice, .invoice refund_invoice])
    _ (fun _ => { row := m }) _ _ _ hexec
  refine ⟨fun i => i.casesOn { row := k } o'', [.refund refund, .invoice invoice, .invoice
    (strangeInvoice account refund.refund_invoice_uid 0 (max w.invoices.next n))],
    prisma.invoices.put t T, ?_, by simp⟩
  rw [exec_refund hown hk]
  refine hrest.trans ?_
  rw [ensureInvoice, Delegate.exec_found_bind hm]
  rfl

theorem guarded_of_private_refund
    (h : Private env toDate account w (.refund invoice_uid)) :
    Guarded env toDate account w (.refund invoice_uid) := by
  intro w' hsame invoice hmem huid hown o
  subst huid
  by_contra hok
  obtain ⟨refund, hrefund⟩ := exists_ok (Bool.eq_true_of_not_eq_false hok)
  have hthere : invoice ∈ w'.invoices.rows :=
    ((hsame.rows _ (entitled_self _) (.invoice invoice)).mpr ⟨hmem, hown⟩).1
  obtain ⟨o', rows, t', hexec, hrow⟩ := exists_strange_refund toDate hthere hown
    (Prod.ext hrefund rfl) w.invoices.next
  have hsees := h.stable _ (hsame.trans (sameFor_withInvoice fun a => entitled_iff (by simp)))
    (.invoice _) ⟨mem_withInvoice.mpr (.inl rfl), o', rows, t', hexec, hrow⟩
  have hlt : max w'.invoices.next w.invoices.next < w.invoices.next :=
    w.invoices.id_lt _ hsees.1
  omega

theorem private_of_guarded_refund
    (h : Guarded env toDate account w (.refund invoice_uid)) :
    Private env toDate account w (.refund invoice_uid) := by
  refine private_of_empty fun w' o rows t hsame hexec => ?_
  cases hpick : w'.invoices.pick (fun r => r.uid == invoice_uid) (o 0).row with
  | none =>
      simp only [respond, refundShow, bind_eq, Proc.bind_assoc] at hexec
      have hget : prisma.invoices.get w' = w'.invoices := rfl
      rw [ensureInvoice, Delegate.exec_findFirstOrThrow_bind, hget, hpick] at hexec
      cases (Prod.mk.inj hexec).1
  | some invoice =>
      obtain ⟨hmem, huid⟩ := Table.pick_some hpick
      by_cases hown : invoice.account_id = some (account.id : Int)
      · rw [exec_refund hown hpick] at hexec
        have hthere : invoice ∈ w.invoices.rows :=
          hsame.stored (entitled_self _) (show Stored w' (.invoice invoice) from hmem) hown
        have hfails := h w' hsame invoice hthere (by simpa using huid) hown (tail o)
        obtain ⟨o', hrest⟩ := exec_bind (getRefund env invoice none) (fun refund =>
          (ensureInvoice refund.refund_invoice_uid).bind fun refund_invoice =>
            Proc.done [Row.refund refund, .invoice invoice, .invoice refund_invoice]) (tail o) w'
        rw [hrest] at hexec
        cases hrefund : (getRefund env invoice none).exec (tail o) w' with
        | mk result u =>
            rw [hrefund] at hexec hfails
            cases result with
            | ok refund => cases hfails
            | error e => cases (Prod.mk.inj hexec).1
      · simp only [respond, refundShow, bind_eq, Proc.bind_assoc] at hexec
        rw [ensureInvoice, Delegate.exec_found_bind hpick, if_pos hown] at hexec
        cases (Prod.mk.inj hexec).1

/-- **When the read endpoints are private**, for every database, account and request. -/
theorem private_iff (env : Env) (toDate : Json → Option Time) (account : Account) (w : World)
    (request : Request) :
    Private env toDate account w request ↔ Guarded env toDate account w request := by
  cases request with
  | invoices query =>
      refine ⟨guarded_of_private_invoices, fun h => ?_⟩
      exact private_of_empty fun _ _ _ _ _ hexec => invoices_empty h hexec
  | payments limit offset =>
      exact iff_of_true (private_of_empty fun _ _ _ _ _ hexec => payments_empty hexec) trivial
  | payment invoice_uid => exact ⟨guarded_of_private_payment, private_payment⟩
  | linkedAccountPayments account_id limit offset =>
      exact iff_of_true
        (private_of_empty fun _ _ _ _ _ hexec => linkedAccountPayments_empty hexec) trivial
  | invoiceEvents invoice_uid => exact iff_of_true private_invoiceEvents trivial
  | refund invoice_uid => exact ⟨guarded_of_private_refund, private_of_guarded_refund⟩

/-! ## Two accounts -/

def first : Account := { id := 1, email := some "a@x.com" }

def second : Account := { id := 2, email := some "b@x.com" }

def invoiceOfSecond : Invoice := { id := 1, uid := "b", account_id := some 2, status := .paid }

def paymentOfSecond : Payment :=
  { id := 1, txid := "t", currency := "BTC", invoice_uid := "b", account_id := some 2 }

/-- The second account has an invoice, which is paid. -/
def twoAccounts : World where
  accounts := .pair first second (by decide) (by decide)
  invoices := .single invoiceOfSecond
  payments := .single paymentOfSecond

/-- The first account lists its invoices and asks for the payment of an invoice. It is
shown the other's. -/
theorem rows_of_another :
    ((respond {} (fun _ => none) first (.invoices fun _ => [])).exec (fun _ => {})
        twoAccounts).1 = .ok [.invoice invoiceOfSecond] ∧
    ((respond {} (fun _ => none) first (.payment "b")).exec (fun _ => {})
        twoAccounts).1 = .ok [.payment paymentOfSecond] ∧
    ¬ Private {} (fun _ => none) first twoAccounts (.invoices fun _ => []) ∧
    ¬ Private {} (fun _ => none) first twoAccounts (.payment "b") := by
  refine ⟨rfl, rfl, fun h => ?_, fun h => ?_⟩
  · obtain ⟨a, ha, hown⟩ := h.own (fun _ => {}) [.invoice invoiceOfSecond] twoAccounts rfl
      _ List.mem_cons_self
    obtain rfl := (entitled_iff (by simp)).mp ha
    have hother : some (2 : Int) = some 1 := hown
    exact absurd hother (by decide)
  · obtain ⟨a, ha, hown⟩ := h.own (fun _ => {}) [.payment paymentOfSecond] twoAccounts rfl
      _ List.mem_cons_self
    obtain rfl := (entitled_iff (by simp)).mp ha
    rcases hown with hown | ⟨r, hr, -, hown⟩
    · exact absurd hown (by decide)
    · obtain rfl := List.mem_singleton.mp hr
      exact absurd hown (by decide)

end Anypay.AccountReads
