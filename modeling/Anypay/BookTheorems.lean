/-
Anypay.BookTheorems — what is in the books stays there, and refers to what is there.

The BOOKS are the invoices, their payment options and their payments. Every call of the
server writes them, side by side with others. A row's ENTRY is the row without the columns
a later call may write again: of a payment its status, its confirmation and the wallet, of
an option its outputs, of an invoice what is settled, refreshed and cancelled.

* `entries_kept` — no call takes a row back or changes its entry;
* `books_sound` — a payment is one of a stored invoice, in the name of that invoice's
  account, by a stored option of it, in its currency and on its chain; an option is one of
  a stored invoice.

The first holds of whatever calls; for the second, a caller that hands over a copy of a row
must have read it. Both follow from one account of what a call may do to the books
(`drift`), in which being sound is owed by genuine callers only.
-/
import Anypay.Blocks
import Anypay.Db.Drift
import Anypay.FreshnessTheorems
import Anypay.PaymentProtocolTheorems
import Anypay.Refunds

namespace Anypay.Books

open Store Async Proc

/-! ## Entries -/

def invoiceEntry (r : Invoice) : Invoice :=
  { r with
    amount := none, currency := none, address := none, hash := none, status := .unpaid,
    paidAt := none, complete := false, completed_at := none, cancelled := false,
    expiry := none, updatedAt := 0, webhook_url := none, redirect_url := none,
    secret := none, metadata := none, fee_rate_level := none }

def optionEntry (r : PaymentOption) : PaymentOption := { r with outputs := none }

def paymentEntry (r : Payment) : Payment :=
  { r with
    status := .confirming, confirmation_hash := none, confirmation_height := none,
    confirmation_date := none, wallet := none }

/-- Entries are only added. -/
structure Longer (s t : World) : Prop where
  invoices : s.invoices.rows.map invoiceEntry <+: t.invoices.rows.map invoiceEntry
  options : s.paymentOptions.rows.map optionEntry <+: t.paymentOptions.rows.map optionEntry
  payments : s.payments.rows.map paymentEntry <+: t.payments.rows.map paymentEntry

theorem Longer.refl (s : World) : Longer s s :=
  ⟨List.prefix_refl _, List.prefix_refl _, List.prefix_refl _⟩

theorem Longer.trans {s t u : World} (h : Longer s t) (h' : Longer t u) : Longer s u :=
  ⟨h.invoices.trans h'.invoices, h.options.trans h'.options, h.payments.trans h'.payments⟩

/-- A row of a list whose images are there later is still there. -/
theorem mem_of_prefix {α β : Type} {f : α → β} {l m : List α} (h : l.map f <+: m.map f)
    {x : α} (hx : x ∈ l) : ∃ y ∈ m, f y = f x :=
  List.mem_map.mp (h.subset (List.mem_map.mpr ⟨x, hx, rfl⟩))

section Rows

variable {α β : Type} {f : α → β} {l m : List α} {x r : α}

theorem prefix_of_append (h : m = l ++ [r]) : l.map f <+: m.map f := by
  rw [h, List.map_append]
  exact List.prefix_append _ _

theorem prefix_of_patch [Record α] {i : Nat} {g : α → α} (hg : ∀ x, f (g x) = f x)
    (h : m = Table.patch i g l) : l.map f <+: m.map f := by
  have hmap : m.map f = l.map f := by rw [h, Table.map_patch hg]
  exact hmap ▸ List.prefix_refl _

theorem entry_or_new (h : m = l ++ [r]) (hx : x ∈ m) : f x ∈ l.map f ∨ x = r := by
  rw [h] at hx
  rcases List.mem_append.mp hx with hx | hx
  · exact .inl (List.mem_map.mpr ⟨x, hx, rfl⟩)
  · exact .inr (List.mem_singleton.mp hx)

theorem entry_of_patch [Record α] {i : Nat} {g : α → α} (hg : ∀ x, f (g x) = f x)
    (h : m = Table.patch i g l) (hx : x ∈ m) : f x ∈ l.map f := by
  rw [← Table.map_patch (i := i) hg l, ← h]
  exact List.mem_map.mpr ⟨x, hx, rfl⟩

variable {s t : World}

theorem Longer.invoice (h : Longer s t) {x : Invoice} (hx : x ∈ s.invoices.rows) :
    ∃ y ∈ t.invoices.rows, y.uid = x.uid ∧ y.account_id = x.account_id := by
  obtain ⟨y, hy, he⟩ := mem_of_prefix h.invoices hx
  simp only [invoiceEntry, Invoice.mk.injEq] at he
  exact ⟨y, hy, he.2.1, he.2.2.2.2.1⟩

theorem Longer.option (h : Longer s t) {x : PaymentOption} (hx : x ∈ s.paymentOptions.rows) :
    ∃ y ∈ t.paymentOptions.rows, optionEntry y = optionEntry x :=
  mem_of_prefix h.options hx

end Rows

/-! ## What refers to what -/

/-- There is an invoice with this uid. -/
def Known (w : World) (uid : String) : Prop := ∃ x ∈ w.invoices.rows, x.uid = uid

/-- The option a payment was made by. -/
structure PaidBy (r : Payment) (o : PaymentOption) : Prop where
  id : r.payment_option_id = some o.id
  invoice_uid : r.invoice_uid = o.invoice_uid
  currency : r.currency = o.currency
  chain : r.chain = some (orElse (some o.chain) o.currency)

/-- The invoice and the option of a payment are in the books. -/
structure Booked (w : World) (r : Payment) : Prop where
  invoice : ∃ x ∈ w.invoices.rows, x.uid = r.invoice_uid ∧ x.account_id = r.account_id
  option : ∃ o ∈ w.paymentOptions.rows, PaidBy r o

/-- Everything refers to what is there. -/
structure Sound (w : World) : Prop where
  payments : ∀ r ∈ w.payments.rows, Booked w r
  options : ∀ o ∈ w.paymentOptions.rows, Known w o.invoice_uid

/-- Payment request `i` is one of a stored invoice. -/
def Linked (w : World) (i : Nat) : Prop :=
  (∃ r ∈ w.paymentRequests.rows, r.id = i) ∧
    ∀ r ∈ w.paymentRequests.rows, r.id = i → ∃ uid, r.invoice_uid = some uid ∧ Known w uid

theorem Known.later {s t : World} {uid : String} (h : Known s uid) (hst : Longer s t) :
    Known t uid := by
  obtain ⟨x, hx, hu⟩ := h
  obtain ⟨y, hy, hyu, -⟩ := hst.invoice hx
  exact ⟨y, hy, hyu.trans hu⟩

theorem PaidBy.congr {r r' : Payment} {o o' : PaymentOption}
    (hr : paymentEntry r' = paymentEntry r) (ho : optionEntry o' = optionEntry o)
    (h : PaidBy r o) : PaidBy r' o' := by
  obtain ⟨hid, huid, hcurrency, hchain⟩ := h
  simp only [paymentEntry, Payment.mk.injEq] at hr
  simp only [optionEntry, PaymentOption.mk.injEq] at ho
  constructor <;> grind

theorem Booked.later {s t : World} {r r' : Payment} (h : Booked s r) (hst : Longer s t)
    (hr : paymentEntry r' = paymentEntry r) : Booked t r' := by
  obtain ⟨⟨x, hx, huid, haccount⟩, o, ho, hpaid⟩ := h
  obtain ⟨y, hy, hyuid, hyaccount⟩ := hst.invoice hx
  obtain ⟨o', ho', he⟩ := hst.option ho
  have hcolumns := hr
  simp only [paymentEntry, Payment.mk.injEq] at hcolumns
  refine ⟨⟨y, hy, ?_, ?_⟩, o', ho', hpaid.congr hr he⟩
  · rw [hyuid, huid, hcolumns.2.2.2.2.2.1]
  · grind

/-! ## What a step may do -/

/-- The rows added refer to what was there. -/
structure Fits (s t : World) : Prop where
  payments : ∀ r ∈ t.payments.rows,
    paymentEntry r ∈ s.payments.rows.map paymentEntry ∨ Booked s r
  options : ∀ o ∈ t.paymentOptions.rows,
    optionEntry o ∈ s.paymentOptions.rows.map optionEntry ∨ Known s o.invoice_uid

/-- A step of a call; `honest` says whether the callers are. -/
structure Step (honest : Prop) (s t : World) : Prop where
  longer : Longer s t
  linked : ∀ i, Linked s i → Linked t i
  fits : honest → Fits s t

/-- Any number of steps. -/
structure Later (s t : World) : Prop where
  longer : Longer s t
  linked : ∀ i, Linked s i → Linked t i

def drift (honest : Prop) : Drift World where
  step := Step honest
  later := Later
  step_refl s :=
    ⟨.refl s, fun _ h => h, fun _ =>
      ⟨fun _ hr => .inl (List.mem_map.mpr ⟨_, hr, rfl⟩),
        fun _ ho => .inl (List.mem_map.mpr ⟨_, ho, rfl⟩)⟩⟩
  later_refl s := ⟨.refl s, fun _ h => h⟩
  later_trans h h' := ⟨h.longer.trans h'.longer, fun i hi => h'.linked i (h.linked i hi)⟩
  later_of_step h := ⟨h.longer, h.linked⟩

/-- What fits leaves the books sound. -/
theorem Sound.step {honest : Prop} {s t : World} (h : Sound s) (hhonest : honest)
    (hst : Step honest s t) : Sound t where
  payments r hr := by
    rcases (hst.fits hhonest).payments r hr with hold | hbooked
    · obtain ⟨r', hr', he⟩ := List.mem_map.mp hold
      exact (h.payments r' hr').later hst.longer he.symm
    · exact hbooked.later hst.longer rfl
  options o ho := by
    rcases (hst.fits hhonest).options o ho with hold | hknown
    · obtain ⟨o', ho', he⟩ := List.mem_map.mp hold
      simp only [optionEntry, PaymentOption.mk.injEq] at he
      have hknown := (h.options o' ho').later hst.longer
      rwa [he.2.1] at hknown
    · exact hknown.later hst.longer

/-! ### The steps there are -/

section Steps

variable {honest : Prop} {s : World}

/-- The tables of the books, and what links a request to its invoice. -/
def books (w : World) :
    Table Invoice × Table PaymentOption × Table Payment × Table PaymentRequest :=
  (w.invoices, w.paymentOptions, w.payments, w.paymentRequests)

theorem Fits.same {t : World} (hoptions : t.paymentOptions = s.paymentOptions)
    (hpayments : t.payments = s.payments) : Fits s t where
  payments r hr := .inl (List.mem_map.mpr ⟨r, hpayments ▸ hr, rfl⟩)
  options o ho := .inl (List.mem_map.mpr ⟨o, hoptions ▸ ho, rfl⟩)

/-- Requests stay linked while nobody writes them. -/
theorem Linked.later {t : World} {i : Nat} (h : Linked s i) (hst : Longer s t)
    (hrequests : t.paymentRequests = s.paymentRequests) : Linked t i := by
  refine ⟨hrequests ▸ h.1, fun r hr hi => ?_⟩
  obtain ⟨uid, hu, hknown⟩ := h.2 r (hrequests ▸ hr) hi
  exact ⟨uid, hu, hknown.later hst⟩

theorem step_same {t : World} (h : books t = books s) : Step honest s t := by
  simp only [books, Prod.mk.injEq] at h
  obtain ⟨hinvoices, hoptions, hpayments, hrequests⟩ := h
  have hlonger : Longer s t :=
    ⟨hinvoices ▸ List.prefix_refl _, hoptions ▸ List.prefix_refl _,
      hpayments ▸ List.prefix_refl _⟩
  exact ⟨hlonger, fun _ hi => hi.later hlonger hrequests, fun _ => .same hoptions hpayments⟩

/-- A step is one still where it writes elsewhere too. -/
theorem Step.beside {t u : World} (h : Step honest s t) (hu : books u = books t) :
    Step honest s u := by
  have hsame : Step honest t u := step_same hu
  simp only [books, Prod.mk.injEq] at hu
  obtain ⟨-, hoptions, hpayments, -⟩ := hu
  refine ⟨h.longer.trans hsame.longer, fun i hi => hsame.linked i (h.linked i hi),
    fun hhonest => ⟨fun r hr => ?_, fun o ho => ?_⟩⟩
  · exact (h.fits hhonest).payments r (hpayments ▸ hr)
  · exact (h.fits hhonest).options o (hoptions ▸ ho)

theorem step_invoices {tb : Table Invoice}
    (h : s.invoices.rows.map invoiceEntry <+: tb.rows.map invoiceEntry) :
    Step honest s { s with invoices := tb } := by
  have hlonger : Longer s { s with invoices := tb } :=
    ⟨h, List.prefix_refl _, List.prefix_refl _⟩
  exact ⟨hlonger, fun _ hi => hi.later hlonger rfl, fun _ => .same rfl rfl⟩

theorem step_options {tb : Table PaymentOption}
    (h : s.paymentOptions.rows.map optionEntry <+: tb.rows.map optionEntry)
    (hfits : ∀ o ∈ tb.rows,
      optionEntry o ∈ s.paymentOptions.rows.map optionEntry ∨ Known s o.invoice_uid) :
    Step honest s { s with paymentOptions := tb } := by
  have hlonger : Longer s { s with paymentOptions := tb } :=
    ⟨List.prefix_refl _, h, List.prefix_refl _⟩
  exact ⟨hlonger, fun _ hi => hi.later hlonger rfl, fun _ =>
    ⟨fun r hr => .inl (List.mem_map.mpr ⟨r, hr, rfl⟩), hfits⟩⟩

theorem step_payments {tb : Table Payment}
    (h : s.payments.rows.map paymentEntry <+: tb.rows.map paymentEntry)
    (hfits : honest → ∀ r ∈ tb.rows,
      paymentEntry r ∈ s.payments.rows.map paymentEntry ∨ Booked s r) :
    Step honest s { s with payments := tb } := by
  have hlonger : Longer s { s with payments := tb } :=
    ⟨List.prefix_refl _, List.prefix_refl _, h⟩
  exact ⟨hlonger, fun _ hi => hi.later hlonger rfl, fun hhonest =>
    ⟨hfits hhonest, fun o ho => .inl (List.mem_map.mpr ⟨o, ho, rfl⟩)⟩⟩

theorem step_option_created {tb : Table PaymentOption} {r : PaymentOption}
    (hknown : Known s r.invoice_uid) (h : tb.rows = s.paymentOptions.rows ++ [r]) :
    Step honest s { s with paymentOptions := tb } := by
  refine step_options (prefix_of_append h) fun o ho => ?_
  rcases entry_or_new h ho with hold | rfl
  · exact .inl hold
  · exact .inr hknown

theorem step_option_changed {tb : Table PaymentOption} {i : Nat}
    {f : PaymentOption → PaymentOption} (hf : ∀ r, optionEntry (f r) = optionEntry r)
    (h : tb.rows = Table.patch i f s.paymentOptions.rows) :
    Step honest s { s with paymentOptions := tb } :=
  step_options (prefix_of_patch hf h) fun _ ho => .inl (entry_of_patch hf h ho)

theorem step_payment_created {tb : Table Payment} {r : Payment}
    (hbooked : honest → Booked s r) (h : tb.rows = s.payments.rows ++ [r]) :
    Step honest s { s with payments := tb } := by
  refine step_payments (prefix_of_append h) fun hhonest x hx => ?_
  rcases entry_or_new h hx with hold | rfl
  · exact .inl hold
  · exact .inr (hbooked hhonest)

theorem step_payment_changed {tb : Table Payment} {i : Nat} {f : Payment → Payment}
    (hf : ∀ r, paymentEntry (f r) = paymentEntry r)
    (h : tb.rows = Table.patch i f s.payments.rows) :
    Step honest s { s with payments := tb } :=
  step_payments (prefix_of_patch hf h) fun _ _ hr => .inl (entry_of_patch hf h hr)

/-- A request made is a new one. -/
theorem step_request_created {tb : Table PaymentRequest} {r : PaymentRequest}
    (hid : r.id = s.paymentRequests.next) (h : tb.rows = s.paymentRequests.rows ++ [r]) :
    Step honest s { s with paymentRequests := tb } := by
  refine ⟨⟨List.prefix_refl _, List.prefix_refl _, List.prefix_refl _⟩, fun i hi => ?_,
    fun _ => .same rfl rfl⟩
  obtain ⟨⟨x, hx, hxi⟩, hall⟩ := hi
  have hrows : ∀ y, y ∈ tb.rows ↔ y ∈ s.paymentRequests.rows ∨ y = r := by
    intro y
    rw [h, List.mem_append, List.mem_singleton]
  refine ⟨⟨x, (hrows x).mpr (.inl hx), hxi⟩, fun y hy hyi => ?_⟩
  rcases (hrows y).mp hy with hy | rfl
  · exact hall y hy hyi
  · have hlt : x.id < s.paymentRequests.next := s.paymentRequests.id_lt x hx
    omega

/-- Where a request is written, it is linked. -/
theorem linked_patch {tb : Table PaymentRequest} {i : Nat} {f : PaymentRequest → PaymentRequest}
    (hid : ∀ r, (f r).id = r.id)
    (hf : ∀ r, ∃ uid, (f r).invoice_uid = some uid ∧ Known s uid)
    (h : tb.rows = Table.patch i f s.paymentRequests.rows) {r : PaymentRequest}
    (hr : r ∈ s.paymentRequests.rows) (hi : r.id = i) :
    Linked { s with paymentRequests := tb } i := by
  refine ⟨⟨f r, ?_, (hid r).trans hi⟩, fun x hx hxi => ?_⟩
  · show f r ∈ tb.rows
    rw [h]
    exact List.mem_map.mpr ⟨r, hr, if_pos hi⟩
  · change x ∈ tb.rows at hx
    rw [h] at hx
    obtain ⟨y, hy, rfl⟩ := List.mem_map.mp hx
    split
    · exact hf y
    · rename_i hne
      rw [if_neg hne] at hxi
      exact absurd hxi hne

theorem step_request_changed {tb : Table PaymentRequest} {i : Nat}
    {f : PaymentRequest → PaymentRequest} (hid : ∀ r, (f r).id = r.id)
    (hf : ∀ r, ∃ uid, (f r).invoice_uid = some uid ∧ Known s uid)
    (h : tb.rows = Table.patch i f s.paymentRequests.rows) :
    Step honest s { s with paymentRequests := tb } := by
  refine ⟨⟨List.prefix_refl _, List.prefix_refl _, List.prefix_refl _⟩, fun j hj => ?_,
    fun _ => .same rfl rfl⟩
  by_cases hji : j = i
  · obtain ⟨⟨r, hr, hrj⟩, -⟩ := hj
    rw [hji]
    exact linked_patch hid hf h hr (hrj.trans hji)
  · have hrows : ∀ y, y.id = j → (y ∈ tb.rows ↔ y ∈ s.paymentRequests.rows) := by
      intro y hy
      rw [h, Table.patch, List.mem_map]
      constructor
      · rintro ⟨x, hx, rfl⟩
        split at hy
        · rename_i hxi
          exact absurd (hy.symm.trans ((hid x).trans hxi)) hji
        · rename_i hxi
          rwa [if_neg hxi]
      · intro hmem
        exact ⟨y, hmem, if_neg fun hyi => hji (hy.symm.trans hyi)⟩
    obtain ⟨⟨x, hx, hxj⟩, hall⟩ := hj
    exact ⟨⟨x, (hrows x hxj).mpr hx, hxj⟩, fun y hy hyj => hall y ((hrows y hyj).mp hy) hyj⟩

end Steps

/-! ## Paying -/

section Calls

variable {honest : Prop} {α : Type} {s : World} {env : Env}

/-- What a call enters in the books, and gives. -/
abbrev Enters (honest : Prop) (P : α → World → Prop) (p : Task α) (s : World) : Prop :=
  p.Gives (drift honest) (fun (_ : Unit) _ _ => True) P () s

/-- A call that leaves the books alone. -/
theorem enters_of_books {p : Task α} (h : p.Keeps books) :
    Enters honest (fun _ _ => True) p s :=
  gives_of_always (always_mono h (fun _ _ => step_same) fun _ _ => trivial)

theorem enters_read {read : Answer → World → Except Failure α} :
    Enters honest (fun _ _ => True) (query read) s :=
  enters_of_books keeps_query

theorem enters_spawn (j : Job) : Enters honest (fun _ _ => True) (spawn j) s :=
  enters_of_books (keeps_spawn j fun _ => rfl)

theorem enters_ofExcept {x : Except Failure α} {P : α → World → Prop}
    (h : ∀ a, x = .ok a → ∀ t, Later s t → P a t) :
    Enters honest P (Proc.ofExcept x) s := by
  cases x with
  | ok a => exact gives_done fun t hst => h a rfl t hst
  | error e => exact gives_fail e

theorem enters_detached {p : Task Unit} (h : Enters honest (fun _ _ => True) p s) :
    Enters honest (fun _ _ => True) (detached p) s :=
  gives_tryCatch h fun _ _ _ => gives_done fun _ _ => trivial

/-- The copy an option was read as. -/
def Copied (w : World) (option : PaymentOption) : Prop :=
  ∃ o ∈ w.paymentOptions.rows, optionEntry o = optionEntry option

/-- An invoice of this uid is this account's. -/
def Owned (w : World) (uid : String) (account_id : Option Int) : Prop :=
  ∃ x ∈ w.invoices.rows, x.uid = uid ∧ x.account_id = account_id

theorem Copied.later {t : World} {option : PaymentOption} (h : Copied s option)
    (hst : Later s t) : Copied t option := by
  obtain ⟨o, ho, he⟩ := h
  obtain ⟨o', ho', he'⟩ := hst.longer.option ho
  exact ⟨o', ho', he'.trans he⟩

theorem Owned.later {t : World} {uid : String} {account_id : Option Int}
    (h : Owned s uid account_id) (hst : Later s t) : Owned t uid account_id := by
  obtain ⟨x, hx, huid, haccount⟩ := h
  obtain ⟨y, hy, hyuid, hyaccount⟩ := hst.longer.invoice hx
  exact ⟨y, hy, hyuid.trans huid, hyaccount.trans haccount⟩

theorem Booked.of_copied {option : PaymentOption} {r : Payment} (hcopied : Copied s option)
    (howned : Owned s r.invoice_uid r.account_id) (h : PaidBy r option) : Booked s r := by
  obtain ⟨o, ho, he⟩ := hcopied
  exact ⟨howned, o, ho, h.congr rfl he⟩

theorem enters_updateInvoice {i : Nat} {f : Time → Invoice → Invoice}
    {hid : ∀ t r, Record.id (f t r) = Record.id r}
    (hf : ∀ now r, invoiceEntry (f now r) = invoiceEntry r) :
    Enters honest (fun _ _ => True) (prisma.invoices.update i f hid) s :=
  Delegate.gives_update fun _ _ now _ _ _ _ hrows =>
    ⟨step_invoices (prefix_of_patch (hf now) hrows), fun _ _ => trivial⟩

theorem enters_updatePayment {i : Nat} {f : Time → Payment → Payment}
    {hid : ∀ t r, Record.id (f t r) = Record.id r}
    (hf : ∀ now r, paymentEntry (f now r) = paymentEntry r) :
    Enters honest (fun _ _ => True) (prisma.payments.update i f hid) s :=
  Delegate.gives_update fun _ _ now _ _ _ _ hrows =>
    ⟨step_payment_changed (hf now) hrows, fun _ _ => trivial⟩

theorem enters_settleInvoice {invoice : Invoice} {option : PaymentOption}
    {transaction : Transaction} {status : InvoiceStatus} {f : Time → Invoice → Invoice}
    {hid : ∀ t r, Record.id (f t r) = Record.id r}
    (hf : ∀ now r, invoiceEntry (f now r) = invoiceEntry r) :
    Enters honest (fun _ _ => True) (settleInvoice invoice option transaction status f hid) s := by
  refine gives_step fun t _ c _ => ?_
  cases h : t.invoices.update? invoice.id (f c.now) (hid c.now) with
  | error e => exact ⟨(drift honest).step_refl t, fun _ _ _ _ => trivial⟩
  | ok q =>
      obtain ⟨-, -, -, -, hrows, -⟩ := Table.update?_ok h
      have hinvoices : Step honest t { t with invoices := q.2 } :=
        step_invoices (prefix_of_patch (hf c.now) hrows)
      exact ⟨hinvoices.beside rfl, fun _ _ _ _ => trivial⟩

/-- The payment of an option, in the name of the account of the option's invoice. -/
theorem enters_createPayment (option : PaymentOption) {mk : Time → Nat → Payment}
    {hid : ∀ t n, Record.id (mk t n) = n} (hcopied : honest → Copied s option)
    (howned : ∀ now n, honest → Owned s (mk now n).invoice_uid (mk now n).account_id)
    (hpaid : ∀ now n, PaidBy (mk now n) option) :
    Enters honest (fun _ _ => True) (prisma.payments.create mk hid) s := by
  refine Delegate.gives_create fun t hst now tb hrows => ⟨?_, fun _ _ => trivial⟩
  refine step_payment_created (fun hhonest => ?_) hrows
  exact .of_copied ((hcopied hhonest).later hst) ((howned now _ hhonest).later hst) (hpaid now _)

/-- The invoice an option is one of. -/
theorem enters_findInvoice (uid : String) :
    Enters honest (fun invoice t => Owned t uid invoice.account_id)
      (prisma.invoices.findFirstOrThrow fun r => r.uid == uid) s :=
  Delegate.gives_findFirstOrThrow fun _ _ r hr hw _ htu =>
    Owned.later ⟨r, hr, by simpa using hw, rfl⟩ htu

theorem enters_completePayment (env : Env) {option : PaymentOption}
    (transaction : Transaction) (confirming : Bool) (h : honest → Copied s option) :
    Enters honest (fun _ _ => True) (completePayment env option transaction confirming) s := by
  unfold completePayment
  simp only [bind_eq, pure_eq]
  refine gives_bind (enters_of_books (keeps_paymentTxid _ _ _ _)) fun txid t hst _ => ?_
  refine gives_bind (enters_findInvoice option.invoice_uid) fun invoice u htu howned => ?_
  refine gives_bind (enters_createPayment option
    (fun hhonest => ((h hhonest).later hst).later htu) (fun _ _ _ => howned)
    fun _ _ => ⟨rfl, rfl, rfl, rfl⟩) fun record _ _ _ => ?_
  refine gives_bind (enters_settleInvoice fun _ _ => rfl) fun _ _ _ _ => ?_
  refine gives_bind enters_read fun invoice _ _ _ => ?_
  refine gives_bind (enters_of_books (keeps_detached (keeps_publishEvent _ _)))
    fun _ _ _ _ => ?_
  exact gives_bind (enters_spawn _) fun _ _ _ _ => gives_done fun _ _ => trivial

theorem enters_handleUnconfirmedPayment (env : Env) {option : PaymentOption}
    (transaction : Transaction) (h : honest → Copied s option) :
    Enters honest (fun _ _ => True) (handleUnconfirmedPayment env option transaction) s := by
  unfold handleUnconfirmedPayment
  simp only [bind_eq, pure_eq]
  refine gives_bind (P := fun _ _ => True) (enters_ofExcept fun _ _ _ _ => trivial)
    fun tx t hst _ => ?_
  refine gives_bind (enters_findInvoice option.invoice_uid) fun invoice u htu howned => ?_
  refine gives_bind (enters_createPayment option
    (fun hhonest => ((h hhonest).later hst).later htu) (fun _ _ _ => howned)
    fun _ _ => ⟨rfl, rfl, rfl, rfl⟩) fun record _ _ _ => ?_
  refine gives_bind (enters_settleInvoice fun _ _ => rfl) fun _ _ _ _ => ?_
  exact gives_bind (enters_of_books (keeps_publish _ _ fun _ _ => rfl)) fun _ _ _ _ =>
    gives_done fun _ _ => trivial

theorem enters_recordPayment {invoice : Invoice} (details : PaymentDetails)
    (h : honest → Owned s invoice.uid invoice.account_id) :
    Enters honest (fun _ _ => True) (recordPayment invoice details) s := by
  unfold recordPayment getPayment
  simp only [bind_eq]
  refine gives_bind enters_read fun payment t hst _ => ?_
  cases payment with
  | some _ => exact gives_fail _
  | none =>
      refine gives_bind (P := fun o u => Copied u o ∧ o.invoice_uid = invoice.uid)
        (Delegate.gives_findFirstOrThrow fun _ _ o ho hw _ htu => ?_) fun option u htu ho => ?_
      · simp only [Bool.and_eq_true, beq_iff_eq] at hw
        exact ⟨Copied.later ⟨o, ho, rfl⟩ htu, hw.1⟩
      · exact enters_createPayment option (fun _ => ho.1)
          (fun _ _ hhonest => ((h hhonest).later hst).later htu)
          fun _ _ => ⟨rfl, ho.2.symm, rfl, rfl⟩

theorem enters_broadcastTx (plugin : Plugin) (transaction : Transaction) :
    Enters honest (fun _ _ => True) (broadcastTx plugin transaction) s := by
  refine enters_of_books (keeps_step fun c w => ?_)
  cases plugin.broadcastTx transaction c <;> rfl

theorem enters_broadcastTransaction (plugin : Plugin) (invoice : Invoice)
    (option : PaymentOption) (transaction : Transaction) :
    Enters honest (fun _ _ => True) (broadcastTransaction plugin invoice option transaction) s := by
  unfold broadcastTransaction
  simp only [bind_eq, pure_eq]
  split
  · refine gives_bind (enters_broadcastTx _ _) fun _ _ _ _ => ?_
    exact gives_bind (enters_updateInvoice fun _ _ => rfl) fun _ _ _ _ =>
      gives_done fun _ _ => trivial
  · split
    · refine gives_bind (enters_broadcastTx _ _) fun _ _ _ _ => ?_
      exact gives_bind (enters_updateInvoice fun _ _ => rfl) fun _ _ _ _ =>
        gives_done fun _ _ => trivial
    · exact gives_bind (enters_broadcastTx _ _) fun _ _ _ _ => gives_done fun _ _ => trivial

theorem enters_settleTransaction (env : Env) (invoice : Invoice) {option : PaymentOption}
    (transaction : Transaction) (h : honest → Copied s option) :
    Enters honest (fun _ _ => True) (settleTransaction env invoice option transaction) s := by
  unfold settleTransaction
  simp only [bind_eq, pure_eq]
  split
  · refine gives_bind (enters_handleUnconfirmedPayment env transaction h) fun _ _ _ _ => ?_
    exact gives_bind (enters_spawn _) fun _ _ _ _ => gives_done fun _ _ => trivial
  · split
    · exact enters_completePayment env transaction true h
    · exact enters_completePayment env transaction false h

theorem enters_submitTransaction (env : Env) (payment : SubmitPaymentRequest)
    (invoice : Invoice) {option : PaymentOption} (plugin : Plugin) (transaction : Transaction)
    (h : Copied s option) : Enters honest (fun _ _ => True)
      (submitTransaction env payment invoice option plugin transaction) s := by
  unfold submitTransaction
  simp only [bind_eq, pure_eq]
  refine gives_bind enters_read fun verified t hst _ => ?_
  split
  · exact gives_fail _
  refine gives_bind (enters_broadcastTransaction _ _ _ _) fun transaction u htu _ => ?_
  refine gives_bind (enters_settleTransaction env invoice transaction
    fun _ => (h.later hst).later htu) fun record _ _ _ => ?_
  split
  · exact gives_done fun _ _ => trivial
  · exact gives_bind (enters_updatePayment fun _ _ => rfl) fun _ _ _ _ =>
      gives_done fun _ _ => trivial

theorem enters_submitPayment (env : Env) (payment : SubmitPaymentRequest) :
    Enters honest (fun _ _ => True) (submitPayment env payment) s := by
  unfold submitPayment findPaymentOption
  simp only [bind_eq, pure_eq]
  refine gives_bind enters_read fun invoice t _ _ => ?_
  split
  · exact gives_fail _
  refine gives_bind (P := fun found u => ∀ o, found = some o → Copied u o)
    (Delegate.gives_findFirst (fun _ _ o ho _ _ htu x hx => ?_) fun _ _ _ hx => ?_)
    fun found u _ hfound => ?_
  · obtain rfl := Option.some.inj hx
    exact Copied.later ⟨o, ho, rfl⟩ htu
  · cases hx
  cases found with
  | none => exact gives_fail _
  | some option =>
      refine gives_bind (P := fun _ _ => True) (enters_ofExcept fun _ _ _ _ => trivial)
        fun plugin v huv _ => ?_
      refine gives_bind (gives_forEach fun transaction _ w hvw => ?_) fun _ _ _ _ =>
        gives_done fun _ _ => trivial
      exact enters_submitTransaction env payment invoice plugin transaction
        (((hfound option rfl).later huv).later hvw)

theorem enters_ensurePayable (uid : String) :
    Enters honest (fun _ _ => True) (ensurePayable uid) s := by
  unfold ensurePayable
  simp only [bind_eq, pure_eq]
  refine gives_bind enters_read fun invoice _ _ _ => ?_
  split
  · exact gives_fail _
  · split
    · exact gives_fail _
    · exact gives_done fun _ _ => trivial

theorem enters_bip70Payment (env : Env) (uid code : String) (transactions : List String) :
    Enters honest (fun _ _ => True) (bip70Payment env uid code transactions) s := by
  unfold bip70Payment bip70Transaction
  simp only [bind_eq, pure_eq]
  refine gives_bind (P := fun _ _ => True) (enters_ofExcept fun _ _ _ _ => trivial)
    fun plugin _ _ _ => ?_
  refine gives_bind (P := fun o t => Copied t o)
    (Delegate.gives_findFirstOrThrow fun _ _ o ho _ _ htu => Copied.later ⟨o, ho, rfl⟩ htu)
    fun option t _ hoption => ?_
  refine gives_bind enters_read fun invoice u htu _ => ?_
  split
  · exact gives_fail _
  refine gives_bind (gives_forEach fun _ _ _ _ => enters_spawn _) fun _ v huv _ => ?_
  refine gives_forEach fun txhex _ w hvw => ?_
  refine gives_bind (P := fun _ _ => True) (enters_ofExcept fun _ _ _ _ => trivial)
    fun _ x hwx _ => ?_
  refine gives_bind (enters_broadcastTx _ _) fun _ y hxy _ => ?_
  refine gives_bind (enters_completePayment env _ false fun _ => ?_) fun _ _ _ _ =>
    gives_done fun _ _ => trivial
  exact ((((hoption.later htu).later huv).later hvw).later hwx).later hxy

/-! ## Confirming, reverting, cancelling, refreshing -/

theorem enters_confirmPayment (payment : Payment) (confirmation : Confirmation) :
    Enters honest (fun _ _ => True) (confirmPayment payment confirmation) s := by
  unfold confirmPayment
  simp only [bind_eq, pure_eq]
  split
  · exact gives_done fun _ _ => trivial
  · refine gives_bind (enters_updatePayment fun _ _ => rfl) fun _ _ _ _ => ?_
    refine gives_bind enters_read fun payment _ _ _ => ?_
    refine gives_bind enters_read fun invoice _ _ _ => ?_
    refine gives_bind (enters_updateInvoice fun _ _ => rfl) fun _ _ _ _ => ?_
    refine gives_bind (enters_of_books (keeps_publish _ _ fun _ _ => rfl)) fun _ _ _ _ => ?_
    exact gives_bind (enters_of_books (keeps_createAndSendWebhook _ _)) fun _ _ _ _ =>
      gives_done fun _ _ => trivial

theorem enters_confirmPaymentByTxid (txid : String) (confirmation : Confirmation) :
    Enters honest (fun _ _ => True) (confirmPaymentByTxid txid confirmation) s :=
  gives_bind enters_read fun _ _ _ _ => enters_confirmPayment _ _

theorem enters_getConfirmation (env : Env) (txid chain currency : String) :
    Enters honest (fun _ _ => True) (getConfirmation env txid chain currency) s :=
  enters_of_books (keeps_bind (keeps_ofExcept _) fun _ => keeps_query)

theorem enters_confirmIfFound {payment : Payment} {lookUp : Task (Option Confirmation)}
    (h : Enters honest (fun _ _ => True) lookUp s) :
    Enters honest (fun _ _ => True) (confirmIfFound payment lookUp) s := by
  refine enters_detached (gives_bind h fun found _ _ _ => ?_)
  cases found with
  | none => exact gives_done fun _ _ => trivial
  | some confirmation =>
      exact gives_bind (enters_confirmPayment payment confirmation) fun _ _ _ _ =>
        gives_done fun _ _ => trivial

theorem enters_confirmInvoice (env : Env) (uid : String) :
    Enters honest (fun _ _ => True) (confirmInvoice env uid) s := by
  unfold confirmInvoice
  simp only [bind_eq, pure_eq]
  refine gives_tryCatch (gives_bind enters_read fun invoice _ _ _ => ?_) fun _ _ _ =>
    gives_done fun _ _ => trivial
  refine gives_bind enters_read fun payment _ _ _ => ?_
  split
  · exact gives_done fun _ _ => trivial
  · split
    · exact gives_done fun _ _ => trivial
    · split
      · refine gives_bind (enters_getConfirmation _ _ _ _) fun confirmation _ _ _ => ?_
        cases confirmation with
        | none => exact gives_done fun _ _ => trivial
        | some confirmation =>
            exact gives_bind (enters_confirmPaymentByTxid _ _) fun _ _ _ _ =>
              gives_done fun _ _ => trivial
      · exact gives_done fun _ _ => trivial

theorem enters_revertPayment (txid : String) :
    Enters honest (fun _ _ => True) (revertPayment txid) s := by
  unfold revertPayment
  simp only [bind_eq]
  refine gives_bind enters_read fun invoice _ _ _ => ?_
  refine gives_bind enters_read fun payment _ _ _ => ?_
  refine gives_bind (enters_updateInvoice fun _ _ => rfl) fun _ _ _ _ => ?_
  refine gives_bind (enters_updatePayment fun _ _ => rfl) fun _ _ _ _ => ?_
  exact gives_bind enters_read fun _ _ _ _ =>
    enters_of_books (keeps_publish _ _ fun _ _ => rfl)

theorem enters_cancelInvoice (invoice : Invoice) :
    Enters honest (fun _ _ => True) (cancelInvoice invoice) s := by
  unfold cancelInvoice
  simp only [bind_eq, pure_eq]
  split
  · exact gives_fail _
  · refine gives_bind (enters_updateInvoice fun _ _ => rfl) fun _ _ _ _ => ?_
    refine gives_bind enters_read fun invoice _ _ _ => ?_
    exact gives_bind (enters_of_books (keeps_detached (keeps_publishEvent _ _))) fun _ _ _ _ =>
      gives_done fun _ _ => trivial

theorem enters_refreshInvoice (env : Env) (uid : String) :
    Enters honest (fun _ _ => True) (refreshInvoice env uid) s := by
  unfold refreshInvoice
  simp only [bind_eq, pure_eq]
  refine gives_bind enters_read fun invoice _ _ _ => ?_
  refine gives_bind enters_read fun options _ _ _ => ?_
  refine gives_bind enters_read fun request _ _ _ => ?_
  refine gives_bind (gives_forEach fun option _ t _ => ?_) fun _ _ _ _ => ?_
  · unfold refreshOption
    split
    · exact gives_done fun _ _ => trivial
    · refine gives_bind (enters_of_books (PaymentProtocols.keeps_refreshedOutputs _ _))
        fun outputs _ _ _ => ?_
      refine gives_bind enters_read fun record _ _ _ => ?_
      refine gives_bind (P := fun _ _ => True) (Delegate.gives_update
        fun _ _ _ _ _ _ _ hrows => ⟨?_, fun _ _ => trivial⟩) fun _ _ _ _ =>
          gives_done fun _ _ => trivial
      exact step_option_changed (f := fun r => { r with outputs := some outputs })
        (fun _ => rfl) hrows
  · exact gives_bind (enters_updateInvoice fun _ _ => rfl) fun _ _ _ _ =>
      gives_done fun _ _ => trivial

theorem enters_handleTransactionReceipt (receipt : TransactionReceipt) :
    Enters honest (fun _ _ => True) (handleTransactionReceipt receipt) s := by
  unfold handleTransactionReceipt
  simp only [bind_eq, pure_eq]
  split
  · exact enters_spawn _
  · refine gives_bind enters_read fun timestamp _ _ _ => ?_
    refine gives_bind (enters_confirmPaymentByTxid _ _) fun _ _ _ _ => ?_
    refine gives_bind enters_read fun found _ _ _ => ?_
    cases found with
    | some _ => exact gives_done fun _ _ => trivial
    | none =>
        exact gives_bind (enters_of_books (Delegate.keeps_create fun _ _ => rfl))
          fun _ _ _ _ => gives_done fun _ _ => trivial

/-- A background call. -/
theorem enters_runJob (env : Env) (j : Job) :
    Enters honest (fun _ _ => True) (runJob env j) s := by
  cases j with
  | createAndSendWebhook topic payload => exact enters_of_books (keeps_createAndSendWebhook _ _)
  | sendWebhook webhook => exact enters_of_books (keeps_sendWebhook webhook)
  | sendWebhookForInvoice uid type => exact enters_of_books (keeps_sendWebhookForInvoice _ _)
  | createWebhookForInvoice invoice =>
      exact gives_discard (enters_of_books (keeps_createWebhookForInvoice env invoice))
  | createPaymentSubmission submission =>
      exact gives_discard (enters_of_books (Delegate.keeps_create fun _ _ => rfl))
  | onReceipt txid =>
      refine gives_bind enters_read fun receipt _ _ _ => ?_
      cases receipt with
      | none => exact gives_done fun _ _ => trivial
      | some receipt =>
          simp only
          split
          · exact enters_spawn _
          · exact enters_spawn _
  | lookUpReceipt txid =>
      refine gives_bind enters_read fun receipt _ _ _ => ?_
      cases receipt with
      | none => exact gives_done fun _ _ => trivial
      | some receipt => exact enters_spawn _
  | handleTransactionReceipt receipt => exact enters_handleTransactionReceipt receipt
  | revertPayment txid => exact enters_revertPayment txid

/-! ## New invoices -/

/-- A new invoice is in the books from then on. -/
theorem enters_createInvoiceRow (uid : String) {mk : Time → Nat → Invoice}
    {hid : ∀ t n, Record.id (mk t n) = n} (h : ∀ now n, (mk now n).uid = uid) :
    Enters honest (fun invoice t => invoice.uid = uid ∧ Known t uid)
      (prisma.invoices.create mk hid) s := by
  refine Delegate.gives_create fun t _ now tb hrows =>
    ⟨step_invoices (prefix_of_append hrows), fun u hu => ⟨h _ _, ?_⟩⟩
  refine Known.later ⟨mk now (prisma.invoices.get t).next, ?_, h _ _⟩ hu.longer
  show _ ∈ tb.rows
  rw [hrows]
  simp

theorem enters_createOption {mk : Time → Nat → PaymentOption}
    {hid : ∀ t n, Record.id (mk t n) = n} (uid : String) (hknown : Known s uid)
    (h : ∀ now n, (mk now n).invoice_uid = uid) :
    Enters honest (fun _ _ => True) (prisma.payment_options.create mk hid) s := by
  refine Delegate.gives_create fun t hst now tb hrows => ⟨?_, fun _ _ => trivial⟩
  refine step_option_created ?_ hrows
  rw [h]
  exact hknown.later hst.longer

theorem enters_createPaymentOptions (account : Json) {invoice : Invoice}
    (h : Known s invoice.uid) :
    Enters honest (fun _ _ => True) (createPaymentOptions env account invoice) s := by
  unfold createPaymentOptions listAvailableAddresses
  simp only [bind_eq, pure_eq]
  refine gives_bind (P := fun _ _ => True) (enters_of_books (keeps_bind (keeps_ofExcept _)
    fun _ => keeps_bind keeps_query fun _ => trivial)) fun addresses t hst _ => ?_
  refine gives_bind (gives_mapAll (S := fun _ => True) fun record _ u htu => ?_)
    fun _ _ _ _ => gives_done fun _ _ => trivial
  unfold createPaymentOption paymentOptionFor storeOption
  simp only [bind_eq, pure_eq]
  refine gives_tryCatch ?_ fun _ _ _ => gives_done fun _ _ => trivial
  refine gives_bind (P := fun _ _ => True) (enters_ofExcept fun _ _ _ _ => trivial)
    fun currency v huv _ => ?_
  refine gives_bind (enters_of_books (keeps_convert _ _)) fun conversion w hvw _ => ?_
  refine gives_bind (P := fun _ _ => True) (enters_ofExcept fun _ _ _ _ => trivial)
    fun address x hwx _ => ?_
  cases nonEmpty address with
  | none => exact gives_done fun _ _ => trivial
  | some address =>
      refine gives_bind (P := fun _ _ => True) (enters_ofExcept fun _ _ _ _ => trivial)
        fun paymentAmount y hxy _ => ?_
      refine gives_bind (P := fun _ _ => True) ?_ fun _ _ _ _ => gives_done fun _ _ => trivial
      cases paymentAmount with
      | none => exact gives_fail _
      | some amount =>
          refine enters_createOption invoice.uid ?_ fun _ _ => rfl
          exact (((((h.later hst.longer).later htu.longer).later huv.longer).later
            hvw.longer).later hwx.longer).later hxy.longer

theorem enters_createInvoice (env : Env) (params : List (String × Json)) :
    Enters honest (fun _ _ => True) (createInvoice env params) s := by
  unfold createInvoice
  simp only [bind_eq, pure_eq]
  refine gives_bind enters_read fun uid _ _ _ => ?_
  refine gives_bind (P := fun _ _ => True) (enters_ofExcept fun _ _ _ _ => trivial)
    fun account _ _ _ => ?_
  refine gives_bind (P := fun _ _ => True) (enters_ofExcept fun _ _ _ _ => trivial)
    fun data _ _ _ => ?_
  refine gives_bind (enters_createInvoiceRow data.uid fun _ _ => rfl)
    fun invoice t _ hinvoice => ?_
  refine gives_bind (enters_spawn _) fun _ u htu _ => ?_
  refine gives_bind (enters_createPaymentOptions account
    (hinvoice.1 ▸ hinvoice.2.later htu.longer)) fun options _ _ _ => ?_
  refine gives_bind (P := fun _ _ => True) (Delegate.gives_create
    fun v _ now tb hrows => ⟨step_request_created rfl hrows, fun _ _ => trivial⟩)
      fun _ _ _ _ => ?_
  exact gives_bind (enters_of_books (keeps_detached (keeps_publishEvent _ _))) fun _ _ _ _ =>
    gives_done fun _ _ => trivial

theorem enters_updateFromOptions (invoice : Invoice) (options : Json) :
    Enters honest (fun _ _ => True) (updateFromOptions invoice options) s := by
  unfold updateFromOptions
  simp only [bind_eq, pure_eq]
  split
  · refine gives_bind (P := fun _ _ => True) (enters_ofExcept fun _ _ _ _ => trivial)
      fun change _ _ _ => ?_
    exact gives_bind (enters_updateInvoice fun _ _ => rfl) fun _ _ _ _ =>
      gives_done fun _ _ => trivial
  · exact gives_done fun _ _ => trivial

theorem enters_createEmptyInvoice (env : Env) (app_id : Int) (options : List (String × Json)) :
    Enters honest (fun invoice t => Known t invoice.uid)
      (createEmptyInvoice env app_id options) s := by
  unfold createEmptyInvoice chooseUid
  simp only [bind_eq]
  refine gives_bind (P := fun _ _ => True) (enters_of_books ?_) fun uid _ _ _ => ?_
  · split
    · exact trivial
    · exact keeps_ask _
  refine gives_bind enters_read fun app _ _ _ => ?_
  refine gives_bind (P := fun _ _ => True) (enters_ofExcept fun _ _ _ _ => trivial)
    fun data _ _ _ => ?_
  refine gives_mono (P := fun invoice t => invoice.uid = data.uid ∧ Known t data.uid)
    (fun invoice t h => ?_) ?_
  · rw [h.1]
    exact h.2
  · exact enters_createInvoiceRow data.uid fun _ _ => rfl

/-- The options of a linked request. -/
theorem enters_paymentRequestToPaymentOptions (env : Env) {request : PaymentRequest}
    (h : Known s (nullText request.invoice_uid)) :
    Enters honest (fun _ _ => True) (paymentRequestToPaymentOptions env request) s := by
  unfold paymentRequestToPaymentOptions
  simp only [bind_eq]
  refine gives_bind (gives_mapAll (S := fun o => o.invoice_uid = nullText request.invoice_uid)
    fun entry _ t _ => ?_) fun options t hst hoptions => ?_
  · unfold templateToOption templateOutput
    simp only [bind_eq, pure_eq]
    refine gives_bind (P := fun _ _ => True) (enters_of_books (keeps_mapAll fun _ _ => ?_))
      fun _ _ _ _ => gives_done fun _ _ => rfl
    refine keeps_bind (keeps_convert _ _) fun _ => ?_
    exact keeps_bind (keeps_ofExcept _) fun _ => trivial
  · refine gives_bind (gives_mapAll (S := fun _ => True) fun option hoption u htu => ?_)
      fun _ _ _ _ => enters_ofExcept fun _ _ _ _ => trivial
    refine gives_tryCatch (gives_bind (P := fun _ _ => True) ?_ fun _ _ _ _ =>
      gives_done fun _ _ => trivial) fun _ _ _ => gives_done fun _ _ => trivial
    unfold storeTemplateOption
    split
    · exact enters_createOption _ ((h.later hst.longer).later htu.longer)
        fun _ _ => hoptions option hoption
    · exact gives_fail _

/-- A request is linked by the write that names a stored invoice. -/
theorem enters_linkRequest {i : Nat} (uid : String) {f : Time → PaymentRequest → PaymentRequest}
    {hid : ∀ t r, Record.id (f t r) = Record.id r}
    (hf : ∀ now r, (f now r).invoice_uid = some uid) (hknown : Known s uid) :
    Enters honest (fun _ t => Linked t i) (prisma.paymentRequests.update i f hid) s := by
  refine Delegate.gives_update fun t hst now tb r hr hi hrows => ?_
  have hlinks : ∀ r, ∃ uid, (f now r).invoice_uid = some uid ∧ Known t uid :=
    fun r => ⟨uid, hf now r, hknown.later hst.longer⟩
  refine ⟨step_request_changed (hid now) hlinks hrows, fun u hu => ?_⟩
  exact hu.linked i (linked_patch (hid now) hlinks hrows hr hi)

/-- The request is linked to its invoice before its options are made. -/
theorem enters_createPaymentRequest (env : Env) (app_id : Int) (template : List Json)
    (options : Option Json) :
    Enters honest (fun _ _ => True) (createPaymentRequest env app_id template options) s := by
  unfold createPaymentRequest
  simp only [bind_eq, pure_eq]
  refine gives_bind (P := fun _ _ => True) (enters_ofExcept fun _ _ _ _ => trivial)
    fun found _ _ _ => ?_
  obtain ⟨currency, amount⟩ := found
  cases env.paymentRequestTemplate template with
  | none => exact gives_fail _
  | some entries =>
      refine gives_bind (P := fun _ _ => True) (Delegate.gives_create
        fun v _ now tb hrows => ⟨step_request_created rfl hrows, fun _ _ => trivial⟩)
          fun request _ _ _ => ?_
      refine gives_bind (enters_createEmptyInvoice env app_id _) fun invoice t _ hknown => ?_
      refine gives_bind (enters_updateFromOptions _ _) fun _ u htu _ => ?_
      refine gives_bind (P := fun _ _ => True) (enters_ofExcept fun _ _ _ _ => trivial)
        fun webpage_url v huv _ => ?_
      refine gives_bind (enters_linkRequest invoice.uid (fun _ _ => rfl)
        ((hknown.later htu.longer).later huv.longer)) fun _ x _ hlinked => ?_
      refine gives_bind (P := fun r y => Known y (nullText r.invoice_uid))
        (Delegate.gives_findFirstOrThrow fun y hxy r hr hid z hyz => ?_)
        fun request z _ hrequest => ?_
      · obtain ⟨uid, hu, hy⟩ := (hxy.linked _ hlinked).2 r hr (by simpa using hid)
        rw [hu]
        exact hy.later hyz.longer
      · exact gives_bind (enters_paymentRequestToPaymentOptions env hrequest) fun _ _ _ _ =>
          gives_done fun _ _ => trivial

theorem enters_getRefund (env : Env) (invoice : Invoice) (address : Option String) :
    Enters honest (fun _ _ => True) (getRefund env invoice address) s := by
  unfold getRefund createApp
  simp only [bind_eq, pure_eq]
  refine gives_bind enters_read fun found _ _ _ => ?_
  cases found with
  | some record => exact gives_done fun _ _ => trivial
  | none =>
      refine gives_bind (P := fun _ _ => True) (enters_of_books ?_) fun address _ _ _ => ?_
      · unfold refundAddress getAddressForInvoice
        split
        · exact trivial
        · split
          · exact keeps_reject _
          · exact keeps_ask _
      refine gives_bind enters_read fun payment _ _ _ => ?_
      refine gives_bind (enters_of_books (Delegate.keeps_create fun _ _ => rfl))
        fun app _ _ _ => ?_
      refine gives_bind (enters_createPaymentRequest env _ _ _) fun request _ _ _ => ?_
      refine gives_bind (P := fun _ _ => True) (enters_ofExcept fun _ _ _ _ => trivial)
        fun address _ _ _ => ?_
      exact enters_of_books (Delegate.keeps_create fun _ _ => rfl)

/-! ## Blocks and messages -/

theorem enters_confirmTransaction (payment : Payment) (found : Option Confirmation) :
    Enters honest (fun _ _ => True) (confirmTransaction payment found) s := by
  unfold confirmTransaction blockOf
  simp only [bind_eq, pure_eq]
  refine gives_bind (P := fun _ _ => True) (enters_of_books ?_) fun _ _ _ _ => ?_
  · cases found with
    | some _ => exact trivial
    | none => exact keeps_ask _
  have hpublish : ∀ (key : String) (body : Json) (t : World),
      Enters honest (fun _ _ => True) (publish key body) t :=
    fun _ _ _ => enters_of_books (keeps_publish _ _ fun _ _ => rfl)
  refine gives_bind enters_read fun updated _ _ _ => ?_
  refine gives_bind (hpublish _ _ _) fun _ _ _ _ => ?_
  refine gives_bind enters_read fun invoice _ _ _ => ?_
  refine gives_bind (enters_updateInvoice fun _ _ => rfl) fun _ _ _ _ => ?_
  refine gives_bind enters_read fun invoice _ _ _ => ?_
  split
  · refine gives_bind (hpublish _ _ _) fun _ _ _ _ => ?_
    exact gives_bind (enters_spawn _) fun _ _ _ _ => gives_done fun _ _ => trivial
  · exact gives_bind (enters_spawn _) fun _ _ _ _ => gives_done fun _ _ => trivial

theorem enters_confirmPages (hash : String) (pages offset : Nat) (txids : Option (List String))
    (confirmed : List Payment) : Enters honest (fun _ _ => True)
      (blockcypher.confirmPages hash pages offset txids confirmed) s := by
  have hpage : ∀ (data : BlockPage) (t : World),
      Enters honest (fun _ _ => True) (blockcypher.confirmPage data) t := fun data t =>
    gives_bind enters_read fun payments _ _ _ => gives_mono (fun _ _ _ => trivial)
      (gives_mapAll (S := fun _ => True) fun _ _ _ _ => enters_confirmTransaction _ _)
  induction pages generalizing s offset txids confirmed with
  | zero =>
      by_cases hempty : txids = some []
      · subst hempty
        exact gives_done fun _ _ => trivial
      · rw [blockcypher.confirmPages]
        · exact gives_done fun _ _ => trivial
        · exact hempty
  | succ pages ih =>
      by_cases hempty : txids = some []
      · subst hempty
        exact gives_done fun _ _ => trivial
      · rw [blockcypher.confirmPages]
        · refine gives_bind enters_read fun data _ _ _ => ?_
          exact gives_bind (hpage _ _) fun _ _ _ _ => ih _ _ _
        · exact hempty

theorem enters_refundsActor (json : Json) :
    Enters honest (fun _ _ => True) (refundsActor json) s := by
  unfold refundsActor markRefundPaid
  refine enters_of_books (keeps_bind (keeps_ofExcept _) fun uid => ?_)
  refine keeps_bind keeps_query fun refund => ?_
  split
  · exact trivial
  · refine keeps_bind keeps_query fun _ => keeps_bind keeps_query fun invoice => ?_
    exact keeps_bind (Delegate.keeps_update fun _ _ => rfl) fun _ => trivial

theorem enters_webhooksActor (json : Json) :
    Enters honest (fun _ _ => True) (webhooksActor json) s :=
  enters_of_books (keeps_detached (keeps_bind (keeps_ofExcept _) fun _ =>
    keeps_sendWebhookForInvoice _ _))

theorem enters_paidWebhooksActor (json : Json) :
    Enters honest (fun _ _ => True) (paidWebhooksActor json) s := by
  unfold paidWebhooksActor attemptPaidWebhook attemptWebhook
  refine enters_of_books (keeps_detached (keeps_bind (keeps_ofExcept _) fun uid => ?_))
  refine keeps_bind keeps_query fun invoice => keeps_bind keeps_query fun _ => ?_
  refine keeps_bind keeps_query fun webhook => keeps_bind ?_ fun _ => trivial
  split
  · exact keeps_reject _
  · refine keeps_bind (Delegate.keeps_create fun _ _ => rfl) fun attempt => ?_
    refine keeps_bind keeps_query fun invoice => ?_
    refine keeps_bind (keeps_step fun _ _ => rfl) fun reply => ?_
    cases reply with
    | ok reply =>
        refine keeps_bind (Delegate.keeps_update fun _ _ => rfl) fun _ => ?_
        exact keeps_bind (Delegate.keeps_update fun _ _ => rfl) fun _ => trivial
    | error message => exact keeps_bind (Delegate.keeps_update fun _ _ => rfl) fun _ => trivial

end Calls

/-! ## Every call -/

/-- A call of the server that may write the books. -/
inductive Call where
  | op (op : Op)
  | createInvoice (params : List (String × Json))
  | createPaymentRequest (app_id : Int) (template : List Json) (options : Option Json)
  | refreshInvoice (uid : String)
  | showInvoice (uid : String)
  | showPaymentRequest (uid : String) (accept : PaymentRequestShow.Accept)
  | getRefund (invoice : Invoice) (address : Option String)
  | confirmInvoice (uid : String)
  | confirmTransactionsFromBlock (hash : String) (pages : Nat)
  | blockbookMessage (message : Option blockbook.BlockNotification)
  | refundsActor (json : Json)
  | webhooksActor (json : Json)
  | paidWebhooksActor (json : Json)

def run (env : Env) (scripts : Scripts) : Call → Task Unit
  | .op op => program env op
  | .createInvoice params => discard (createInvoice env params)
  | .createPaymentRequest app_id template options =>
      discard (createPaymentRequest env app_id template options)
  | .refreshInvoice uid => discard (refreshInvoice env uid)
  | .showInvoice uid => discard (InvoiceShow.showInvoice env uid)
  | .showPaymentRequest uid accept =>
      discard (PaymentRequestShow.showPaymentRequest env scripts uid accept)
  | .getRefund invoice address => discard (getRefund env invoice address)
  | .confirmInvoice uid => discard (confirmInvoice env uid)
  | .confirmTransactionsFromBlock hash pages =>
      discard (blockcypher.confirmTransactionsFromBlock hash pages)
  | .blockbookMessage message => blockbook.handleMessage env message
  | .refundsActor json => Anypay.refundsActor json
  | .webhooksActor json => Anypay.webhooksActor json
  | .paidWebhooksActor json => Anypay.paidWebhooksActor json

/-- The copies a caller hands over are copies. -/
def Genuine (w : World) : Call → Prop
  | .op (.completePayment option _ _) => Copied w option
  | .op (.handleUnconfirmedPayment option _) => Copied w option
  | .op (.recordPayment invoice _) => Owned w invoice.uid invoice.account_id
  | _ => True

section Run

variable {honest : Prop} {s : World} {env : Env} {scripts : Scripts}

theorem enters_program {op : Op} (h : honest → Genuine s (.op op)) :
    Enters honest (fun _ _ => True) (program env op) s := by
  cases op with
  | submitPayment payment => exact gives_discard (enters_submitPayment env payment)
  | jsonV2Payment uid currency chain transactions =>
      refine gives_discard (P := fun _ _ => True) ?_
      refine gives_bind (enters_ensurePayable uid) fun _ _ _ _ => ?_
      exact gives_bind (enters_ensurePayable uid) fun _ _ _ _ => enters_submitPayment env _
  | jsonPaymentRequest uid currency chain transactions wallet =>
      exact gives_discard (enters_submitPayment env _)
  | bip270Payment uid txhex wallet =>
      refine gives_discard (P := fun _ _ => True) (gives_bind enters_read fun invoice _ _ _ => ?_)
      split
      · exact gives_fail _
      · exact enters_submitPayment env _
  | bip70Payment uid code transactions => exact enters_bip70Payment env uid code transactions
  | recordPayment invoice details => exact gives_discard (enters_recordPayment details h)
  | completePayment option transaction confirming =>
      exact gives_discard (enters_completePayment env transaction confirming h)
  | handleUnconfirmedPayment option transaction =>
      exact gives_discard (enters_handleUnconfirmedPayment env transaction h)
  | cancelInvoice invoice => exact gives_discard (enters_cancelInvoice invoice)
  | cancelRequest uid account_id =>
      refine gives_bind enters_read fun found _ _ _ => ?_
      cases found with
      | none => exact gives_fail _
      | some invoice =>
          simp only
          split
          · exact gives_fail _
          · exact gives_bind (enters_cancelInvoice _) fun _ _ _ _ => gives_done fun _ _ => trivial
  | confirmPayment payment confirmation =>
      exact gives_discard (enters_confirmPayment payment confirmation)
  | getConfirmationForTxid txid =>
      refine gives_discard (P := fun _ _ => True) (gives_bind enters_read fun found _ _ _ => ?_)
      cases found with
      | none => exact gives_done fun _ _ => trivial
      | some payment =>
          refine gives_bind (enters_getConfirmation _ _ _ _) fun confirmation _ _ _ => ?_
          cases confirmation with
          | none => exact gives_done fun _ _ => trivial
          | some confirmation =>
              exact gives_bind (enters_confirmPayment _ _) fun _ _ _ _ =>
                gives_done fun _ _ => trivial
  | confirmTransactionsTick =>
      refine gives_bind enters_read fun unconfirmed _ _ _ => ?_
      exact gives_forEach fun _ _ _ _ => enters_confirmIfFound (enters_getConfirmation _ _ _ _)
  | confirmPaymentsCommand chain currency =>
      refine gives_bind (P := fun _ _ => True) (enters_ofExcept fun _ _ _ _ => trivial)
        fun plugin _ _ _ => ?_
      refine gives_bind enters_read fun unconfirmed _ _ _ => ?_
      exact gives_forEach fun _ _ _ _ => enters_confirmIfFound enters_read
  | revertPayment txid => exact enters_revertPayment txid
  | job j => exact enters_runJob env j

theorem enters_run {call : Call} (h : honest → Genuine s call) :
    Enters honest (fun _ _ => True) (run env scripts call) s := by
  cases call with
  | op op => exact enters_program h
  | createInvoice params => exact gives_discard (enters_createInvoice env params)
  | createPaymentRequest app_id template options =>
      exact gives_discard (enters_createPaymentRequest env app_id template options)
  | refreshInvoice uid => exact gives_discard (enters_refreshInvoice env uid)
  | showInvoice uid =>
      refine gives_discard (P := fun _ _ => True) (gives_bind enters_read fun invoice _ _ _ => ?_)
      refine gives_bind enters_read fun now _ _ _ => ?_
      split
      · exact gives_bind (enters_refreshInvoice env _) fun _ _ _ _ =>
          enters_of_books (Freshness.keeps_describe _)
      · exact enters_of_books (Freshness.keeps_describe _)
  | showPaymentRequest uid accept =>
      refine gives_discard (P := fun _ _ => True) (gives_bind enters_read fun invoice _ _ _ => ?_)
      split
      · exact gives_fail _
      · refine gives_bind enters_read fun now _ _ _ => ?_
        split
        · exact gives_bind (enters_refreshInvoice env _) fun _ _ _ _ =>
            enters_of_books (Freshness.keeps_respond uid accept)
        · exact enters_of_books (Freshness.keeps_respond uid accept)
  | getRefund invoice address => exact gives_discard (enters_getRefund env invoice address)
  | confirmInvoice uid => exact gives_discard (enters_confirmInvoice env uid)
  | confirmTransactionsFromBlock hash pages =>
      exact gives_discard (enters_confirmPages hash pages 0 none [])
  | blockbookMessage message =>
      exact enters_of_books (always_mono (Blocks.keeps_handleMessage env message)
        (fun _ _ h => congrArg books h) fun _ _ => trivial)
  | refundsActor json => exact enters_refundsActor json
  | webhooksActor json => exact enters_webhooksActor json
  | paidWebhooksActor json => exact enters_paidWebhooksActor json

end Run

/-! ## Every run -/

/-- Whatever is called. -/
def anything (_ : Pool World Answer Failure Call) (_ : Move Answer Call) : Prop := True

/-- Callers hand over copies only. -/
def genuine (p : Pool World Answer Failure Call) : Move Answer Call → Prop
  | .start call => Genuine p.state call
  | .run _ _ => True

/-- The calls under way, each keeping to what it may do. -/
theorem growing_run (honest : Prop) {env : Env} {scripts : Scripts} {J : World → Prop}
    {admits : Pool World Answer Failure Call → Move Answer Call → Prop}
    (hstart : ∀ p call, honest → admits p (.start call) → Genuine p.state call)
    (hkeep : ∀ s t, Step honest s t → J s → J t) {p q : Pool World Answer Failure Call}
    (hp : Pool.Growing (drift honest) (fun (_ : Unit) _ _ => True) (fun _ => ())
      (fun _ _ _ => True) p) (hJ : J p.state) (h : Pool.Reaches (run env scripts) admits p q) :
    Pool.Growing (drift honest) (fun (_ : Unit) _ _ => True) (fun _ => ())
      (fun _ _ _ => True) q ∧ J q.state ∧ Later p.state q.state :=
  Pool.growing_reaches (fun _ _ _ hm => enters_run fun hhonest => hstart _ _ hhonest hm)
    (fun _ _ _ _ _ _ _ => trivial) hkeep hp hJ h

/-- **What is in the books stays.** In every run, whatever is called, the entries of an
earlier state are all there later, in their order, with new ones after them. -/
theorem entries_kept (env : Env) (scripts : Scripts) (w : World)
    (p q : Pool World Answer Failure Call)
    (hp : Pool.Reaches (run env scripts) anything (Pool.init w) p)
    (h : Pool.Reaches (run env scripts) anything p q) : Longer p.state q.state := by
  have hgrowing := (growing_run False (J := fun _ => True)
    (fun _ _ hhonest _ => hhonest.elim) (fun _ _ _ _ => trivial)
    (Pool.growing_init w) trivial hp).1
  exact (growing_run False (J := fun _ => True) (fun _ _ hhonest _ => hhonest.elim)
    (fun _ _ _ _ => trivial) hgrowing trivial h).2.2.longer

/-- A server that takes BTC. -/
def shop : Env where
  plugins := [("BTC", { currency := "BTC", chain := "BTC", decimals := 8 })]

/-- It writes no scripts. -/
def noScripts : Scripts := fun _ => ⟨fun _ => none, fun _ => none, fun _ => none⟩

/-- An invoice of account 7, to be paid in BTC. -/
def opened : World where
  invoices := .single
    { id := 1, uid := "inv", account_id := some 7, amount := some 10, currency := some "USD",
      status := .unpaid }
  paymentOptions := .single { id := 1, invoice_uid := "inv", currency := "BTC", chain := "BTC" }

/-- The same, paid for. -/
def settled : World where
  invoices := .single
    { id := 1, uid := "inv", account_id := some 7, amount := some 10, currency := some "USD",
      hash := some "t", status := .paid }
  paymentOptions := .single { id := 1, invoice_uid := "inv", currency := "BTC", chain := "BTC" }
  payments := .single
    { id := 1, txid := "t", currency := "BTC", chain := some "BTC", invoice_uid := "inv",
      payment_option_id := some 1, account_id := some 7 }

/-- The payment fails: its row says so, its entry is the same. -/
theorem entries_kept_reverted :
    ∃ q, Pool.Reaches (run shop noScripts) anything (Pool.init settled) q ∧
      q.state.payments.rows.map Payment.status = [.failed] ∧ Longer settled q.state := by
  have hadm : Pool.Admitted (run shop noScripts) anything
      (.start (.op (.revertPayment "t")) :: Pool.steps 0 6 {}) (Pool.init settled) :=
    Pool.admitted_all (fun _ _ _ => trivial) _
  obtain ⟨q, hreach, hfailed⟩ := Pool.exists_reaches
    (fun q => q.state.payments.rows.map Payment.status == [.failed]) hadm (by decide +kernel)
  rw [beq_iff_eq] at hfailed
  exact ⟨q, hreach, hfailed,
    entries_kept shop noScripts settled (Pool.init settled) q .refl hreach⟩

/-- **The books stay sound.** In every run from sound books in which callers hand over
copies of what they read, the books are sound in every state. -/
theorem books_sound (env : Env) (scripts : Scripts) (w : World) (hw : Sound w)
    (p : Pool World Answer Failure Call)
    (h : Pool.Reaches (run env scripts) genuine (Pool.init w) p) : Sound p.state :=
  (growing_run True (J := Sound) (fun _ _ _ hm => hm)
    (fun _ _ hstep hs => hs.step trivial hstep) (Pool.growing_init w) hw h).2.1

theorem sound_opened : Sound opened where
  payments r hr := by cases hr
  options o ho := by
    obtain rfl := List.mem_singleton.mp ho
    exact ⟨_, List.mem_singleton.mpr rfl, rfl⟩

/-- The invoice is paid for, and the payment refers to it. -/
theorem books_sound_paid :
    ∃ p, Pool.Reaches (run shop noScripts) genuine (Pool.init opened) p ∧
      p.state.payments.rows.map Payment.invoice_uid = ["inv"] ∧ Sound p.state := by
  have hadm : Pool.Admitted (run shop noScripts) genuine (.start (.op (.submitPayment
      { currency := "BTC", invoice_uid := "inv",
        transactions := [{ txhex := "00", txid := some "t" }] })) :: Pool.steps 0 12 {})
      (Pool.init opened) :=
    ⟨trivial, fun q _ => Pool.admitted_steps (fun _ _ _ => trivial) 0 12 _ q⟩
  obtain ⟨p, hreach, hpaid⟩ := Pool.exists_reaches
    (fun p => p.state.payments.rows.map Payment.invoice_uid == ["inv"]) hadm (by decide +kernel)
  rw [beq_iff_eq] at hpaid
  exact ⟨p, hreach, hpaid, books_sound shop noScripts opened sound_opened p hreach⟩

end Anypay.Books
