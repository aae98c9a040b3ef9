/-
Anypay.InvoiceTheorems — what `createInvoice` adds to the database.

`Issued` is the whole of it: one invoice row with the columns `newInvoice`
checked, one payment option for each address that is OFFERED (one of the
account's, of a known coin, with a plugin and a price), one payment request
that repeats the options, and nothing else. `wp_createInvoice` says that a call
ends like that or leaves the database as it was. What is said elsewhere of new
invoices rests on this one walk through the code.
-/
import Anypay.LedgerTheorems

namespace Anypay

open Store Async Proc

/-! ## Conversion -/

/-- There is a price between two currencies, one way or the other. -/
def Priced (w : World) (a b : String) : Prop :=
  ∃ r ∈ w.prices.rows, (r.base_currency = some b ∧ r.currency = a) ∨
    (r.base_currency = some a ∧ r.currency = b)

/-- `convert` finds the prices it needs. -/
def Convertible (w : World) (a b : String) : Prop :=
  if a ≠ "USD" ∧ b ≠ "USD" then Priced w a "USD" ∧ Priced w "USD" b else Priced w a b

section Convert

variable {A : Answer → Prop} {s : World} {input : Amount} {output : String}

theorem wp_convertAt : (convertAt input output).wp A
    (fun amount t => t = s ∧ amount.currency = output ∧ Priced s input.currency output)
    (fun _ t => t = s) s := by
  unfold convertAt findPrice
  simp only [bind_eq, pure_eq, wp_bind]
  refine Delegate.wp_findFirst (fun price hprice hw => ?_) fun _ => ?_
  · simp only [Bool.and_eq_true, beq_iff_eq] at hw
    exact ⟨rfl, rfl, price, hprice, .inl hw⟩
  · rw [wp_bind]
    refine Delegate.wp_findFirst (fun inverse hinverse hw => ?_) fun _ => rfl
    simp only [Bool.and_eq_true, beq_iff_eq] at hw
    exact ⟨rfl, rfl, inverse, hinverse, .inr hw⟩

/-- Converting changes nothing, and ends only where the prices are there. -/
theorem wp_convert : (convert input output).wp A
    (fun amount t => t = s ∧ amount.currency = output ∧
      Convertible s input.currency output)
    (fun _ t => t = s) s := by
  unfold convert Convertible
  split
  · simp only [bind_eq, wp_bind]
    refine wp_mono (fun usd t ht => ?_) (fun _ _ h => h) wp_convertAt
    obtain ⟨rfl, husd, hfirst⟩ := ht
    refine wp_mono (fun amount u hu => ?_) (fun _ _ h => h) wp_convertAt
    obtain ⟨rfl, hcurrency, hsecond⟩ := hu
    exact ⟨rfl, hcurrency, hfirst, husd ▸ hsecond⟩
  · exact wp_convertAt

/-- Converting writes nothing. -/
theorem keeps_convert {δ : Type} {view : World → δ} (input : Amount) (output : String) :
    (convert input output).Keeps view := by
  have hconvertAt : ∀ input output, (convertAt input output).Keeps view := by
    intro input output
    unfold convertAt findPrice
    simp only [bind_eq, pure_eq]
    refine keeps_bind keeps_query fun price => ?_
    cases price with
    | some _ => exact trivial
    | none =>
        refine keeps_bind keeps_query fun inverse => ?_
        cases inverse <;> exact trivial
  unfold convert
  split
  · exact keeps_bind (hconvertAt _ _) fun _ => hconvertAt _ _
  · exact hconvertAt _ _

end Convert

/-! ## The columns of a new invoice -/

/-- A row that was never paid. -/
structure Payable (r : Invoice) : Prop where
  status : r.status = .unpaid
  hash : r.hash = none
  complete : r.complete = false
  paidAt : r.paidAt = none
  completed_at : r.completed_at = none
  cancelled : r.cancelled = false

/-- What `createInvoice` takes from its parameters and from the account. -/
structure Columns (account : Json) (params : List (String × Json)) (uid : String)
    (r : Invoice) : Prop where
  payable : Payable r
  uid : r.uid = uid
  app_id : r.app_id = none
  currency : textColumn "invoices" (chosenCurrency account params) = .ok r.currency
  amount : decimalColumn "invoices" (Json.field "amount" params) = .ok r.amount
  account_id : intColumn "invoices" (account.get "id") = .ok r.account_id
  webhook_url : textColumn "invoices" (chosenWebhookUrl account params) = .ok r.webhook_url

theorem newInvoice_ok {env : Env} {account : Json} {params : List (String × Json)}
    {uid : String} {r : Invoice} (h : newInvoice env account params uid = .ok r) :
    Columns account params uid r := by
  unfold newInvoice at h
  obtain ⟨currency, hcurrency, h⟩ := except_bind_ok.mp h
  obtain ⟨amount, hamount, h⟩ := except_bind_ok.mp h
  obtain ⟨account_id, haccount, h⟩ := except_bind_ok.mp h
  obtain ⟨webhook_url, hwebhook, h⟩ := except_bind_ok.mp h
  obtain ⟨_, -, h⟩ := except_bind_ok.mp h
  obtain ⟨_, -, h⟩ := except_bind_ok.mp h
  obtain ⟨_, -, h⟩ := except_bind_ok.mp h
  obtain ⟨_, -, h⟩ := except_bind_ok.mp h
  obtain ⟨_, -, h⟩ := except_bind_ok.mp h
  obtain ⟨_, -, h⟩ := except_bind_ok.mp h
  obtain ⟨_, -, h⟩ := except_bind_ok.mp h
  obtain ⟨_, -, h⟩ := except_bind_ok.mp h
  obtain rfl := Except.ok.inj h
  exact ⟨⟨rfl, rfl, rfl, rfl, rfl, rfl⟩, rfl, rfl, hcurrency, hamount, haccount, hwebhook⟩

/-! ## The options of a new invoice -/

/-- The addresses the outputs of an option pay to. -/
def payees (o : PaymentOption) : List String := (o.outputs.getD []).map Output.address

/-- The address an option is made for. -/
def payTo (a : Address) : String := stripPrefix (nullText a.value)

/-- An address a payment option can be made of. -/
structure Offered (env : Env) (account : Json) (w : World) (a : Address) : Prop where
  mem : a ∈ w.addresses.rows
  own : ∃ isAccount, whereInt "addresses" (account.get "id") = .ok isAccount ∧
    isAccount a.account_id = true
  available : available env a.currency = true
  value : (nonEmpty a.value).isSome
  plugin : (find env (fillChain a).currency (fillChain a).chain).isOk
  convertible : ∃ denomination, denominationOf account = .ok denomination ∧
    Convertible w denomination (fillChain a).currency

/-- The option made of an address. -/
structure OptionFor (invoice : Invoice) (a : Address) (o : PaymentOption) : Prop where
  invoice_uid : o.invoice_uid = invoice.uid
  currency : o.currency = (fillChain a).currency
  chain : o.chain = (fillChain a).chain
  address : o.address = some (payTo a)
  outputs : ∃ n, o.outputs = some [{ address := payTo a, amount := some n }]

theorem OptionFor.payees_eq {invoice : Invoice} {a : Address} {o : PaymentOption}
    (h : OptionFor invoice a o) : payees o = [payTo a] := by
  obtain ⟨n, houtputs⟩ := h.outputs
  rw [payees, houtputs]
  rfl

section Options

variable {env : Env} {account : Json} {invoice : Invoice} {A : Answer → Prop} {w : World}

/-- What the options made so far come from. -/
def Made (env : Env) (account : Json) (w : World) (invoice : Invoice)
    (options : List PaymentOption) : Prop :=
  ∀ o ∈ options, ∃ a, Offered env account w a ∧ OptionFor invoice a o

/-- The world with these options added. -/
def WithOptions (w : World) (options : List PaymentOption) (t : World) : Prop :=
  ∃ tb, t = { w with paymentOptions := tb } ∧
    tb.rows = w.paymentOptions.rows ++ options

theorem isOk_of_map {ε α β : Type} {x : Except ε α} {f : α → β} {b : β}
    (h : x.map f = .ok b) : x.isOk ∧ ∃ a, x = .ok a ∧ b = f a := by
  cases x with
  | ok a => exact ⟨rfl, a, rfl, (Except.ok.inj h).symm⟩
  | error e => cases h

/-- One address adds its option, or nothing. -/
theorem wp_createPaymentOption {a : Address} {options : List PaymentOption} {t : World}
    (hmem : a ∈ w.addresses.rows)
    (hown : ∃ isAccount, whereInt "addresses" (account.get "id") = .ok isAccount ∧
      isAccount a.account_id = true)
    (havailable : available env a.currency = true)
    (hmade : Made env account w invoice options) (ht : WithOptions w options t) :
    (createPaymentOption env account invoice (fillChain a)).wp A
      (fun o u => Made env account w invoice (options ++ o.toList) ∧
        WithOptions w (options ++ o.toList) u)
      (fun _ _ => False) t := by
  have hnone : Made env account w invoice (options ++ (none : Option PaymentOption).toList) ∧
      WithOptions w (options ++ (none : Option PaymentOption).toList) t := by
    simpa using ⟨hmade, ht⟩
  unfold createPaymentOption paymentOptionFor
  simp only [bind_eq, pure_eq, wp_tryCatch, wp_bind]
  refine wp_ofExcept (fun denomination hdenomination => ?_) fun _ _ => hnone
  refine wp_mono (fun conversion u hu => ?_) (fun _ u hu => hu ▸ hnone) wp_convert
  obtain ⟨rfl, -, hconvertible⟩ := hu
  refine wp_ofExcept (fun address haddress => ?_) fun _ _ => hnone
  obtain ⟨hplugin, -, -, rfl⟩ := isOk_of_map haddress
  cases hvalue : nonEmpty a.value with
  | none =>
      have hfill : nonEmpty (fillChain a).value = none := hvalue
      rw [hfill]
      exact hnone
  | some value =>
      have hfill : nonEmpty (fillChain a).value = some value := hvalue
      rw [hfill]
      simp only [wp_bind]
      refine wp_ofExcept (fun amount _ => ?_) fun _ _ => hnone
      cases amount with
      | none => exact hnone
      | some n =>
          obtain ⟨tb, rfl, hrows⟩ := ht
          simp only [storeOption]
          refine Delegate.wp_create (fun now tb' hrows' _ => ?_) fun _ herr => ?_
          swap
          · obtain ⟨_, _, _, hne⟩ := herr
            exact absurd rfl hne
          have hpay : stripPrefix value = payTo a := by
            have hv : a.value = some value := (Option.filter_eq_some_iff.mp hvalue).1
            rw [payTo, hv]
            rfl
          refine ⟨fun o ho => ?_, tb', rfl, ?_⟩
          · rcases List.mem_append.mp ho with ho | ho
            · exact hmade o ho
            · obtain rfl := Option.some.inj (Option.mem_toList.mp ho)
              refine ⟨a, ⟨hmem, hown, havailable, by rw [hvalue]; rfl, hplugin,
                denomination, hdenomination, hconvertible⟩, rfl, rfl, rfl, ?_, n, ?_⟩
              · rw [← hpay]
              · rw [← hpay]
          · change tb'.rows = tb.rows ++ _ at hrows'
            rw [hrows', hrows, List.append_assoc]
            rfl

/-- All addresses together. -/
theorem wp_createPaymentOptions : (createPaymentOptions env account invoice).wp A
    (fun options t => Made env account w invoice options ∧ WithOptions w options t)
    (fun _ t => t = w ∧ ∃ e, whereInt "addresses" (account.get "id") = .error e) w := by
  unfold createPaymentOptions listAvailableAddresses
  simp only [bind_eq, pure_eq, wp_bind]
  refine wp_ofExcept (fun isAccount hown => ?_) fun e he => ⟨rfl, e, he⟩
  refine Delegate.wp_findMany ?_
  rw [wp_done]
  refine wp_mono (fun options t ht => ?_) (fun _ _ h => False.elim h) (wp_mapAll
    (I := fun os t => Made env account w invoice (os.filterMap id) ∧
      WithOptions w (os.filterMap id) t) (fun record hrecord os t ht => ?_) ?_)
  · simpa using ht
  · obtain ⟨a, ha, rfl⟩ := List.mem_map.mp hrecord
    obtain ⟨ha, havailable⟩ := List.mem_filter.mp ha
    obtain ⟨ha, hselect⟩ := Table.mem_select.mp ha
    refine wp_mono (fun o u hu => ?_) (fun _ _ h => h)
      (wp_createPaymentOption ha ⟨isAccount, hown, hselect⟩ havailable ht.1 ht.2)
    cases o <;> simpa using hu
  · exact ⟨fun o ho => (by cases ho), w.paymentOptions, rfl, by simp⟩

end Options

/-! ## The whole call -/

theorem Offered.congr {env : Env} {account : Json} {s t : World} {a : Address}
    (h : Offered env account s a) (hprices : t.prices = s.prices)
    (haddresses : t.addresses = s.addresses) : Offered env account t a := by
  obtain ⟨denomination, hdenomination, hconvertible⟩ := h.convertible
  refine ⟨haddresses ▸ h.mem, h.own, h.available, h.value, h.plugin, denomination,
    hdenomination, ?_⟩
  simpa only [Convertible, Priced, hprices] using hconvertible

/-- An account whose id an invoice could be given can be looked for. -/
theorem whereInt_ok {x : Option Json} {n : Option Int} {model model' : String}
    (h : intColumn model x = .ok n) : ∃ isAccount, whereInt model' x = .ok isAccount := by
  unfold whereInt
  cases x with
  | none => exact ⟨_, rfl⟩
  | some x =>
      cases x with
      | null => exact ⟨_, rfl⟩
      | num q =>
          simp only [intColumn] at h ⊢
          cases hq : asInt q with
          | none => simp [hq] at h
          | some m => exact ⟨_, rfl⟩
      | _ => cases h

/-- No row is about an invoice of this uid. -/
structure Unused (w : World) (uid : String) : Prop where
  invoices : ∀ r ∈ w.invoices.rows, r.uid ≠ uid
  paymentOptions : ∀ o ∈ w.paymentOptions.rows, o.invoice_uid ≠ uid
  paymentRequests : ∀ r ∈ w.paymentRequests.rows, r.invoice_uid ≠ some uid

/-- What `createInvoice` adds to the world `s`. -/
structure Issued (env : Env) (params : List (String × Json)) (account : Json)
    (invoice : Invoice) (options : List PaymentOption) (s t : World) : Prop where
  read : accountOf params = .ok account
  columns : Columns account params invoice.uid invoice
  id : invoice.id = s.invoices.next
  invoices : t.invoices.rows = s.invoices.rows ++ [invoice]
  paymentOptions : t.paymentOptions.rows = s.paymentOptions.rows ++ options
  made : Made env account s invoice options
  request : ∃ r, t.paymentRequests.rows = s.paymentRequests.rows ++ [r] ∧
    r.invoice_uid = some invoice.uid ∧ r.template = options.map (templateFor invoice)
  payments : t.payments = s.payments
  settlements : t.settlements = s.settlements

/-- A call adds an invoice with a generated uid, or changes nothing. -/
theorem wp_createInvoice (env : Env) (params : List (String × Json)) {A : Answer → Prop}
    {s : World} : (createInvoice env params).wp A
      (fun invoice t => ∃ c account options, A c ∧ invoice.uid = c.shortid ∧
        Issued env params account invoice options s t)
      (fun _ t => t = s) s := by
  unfold createInvoice
  simp only [bind_eq, pure_eq, wp_bind]
  refine wp_ask (fun c hc uid huid => ?_) fun _ => rfl
  obtain rfl := Except.ok.inj huid
  refine wp_ofExcept (fun account haccount => ?_) fun _ _ => rfl
  refine wp_ofExcept (fun data hdata => ?_) fun _ _ => rfl
  refine wp_mono (Q := fun invoice t => Columns account params invoice.uid invoice ∧
      invoice.uid = c.shortid ∧ invoice.id = s.invoices.next ∧
      ∃ tb, tb.rows = s.invoices.rows ++ [invoice] ∧ t = { s with invoices := tb })
    (fun invoice t ht => ?_) (fun _ _ h => h)
    (Delegate.wp_create (fun now tb hrows _ => ?_) fun _ _ => rfl)
  swap
  · have h := newInvoice_ok hdata
    obtain ⟨hstatus, hhash, hcomplete, hpaid, hcompleted, hcancelled⟩ := h.payable
    exact ⟨⟨⟨hstatus, hhash, hcomplete, hpaid, hcompleted, hcancelled⟩, rfl, h.app_id,
      h.currency, h.amount, h.account_id, h.webhook_url⟩, h.uid, rfl, tb, hrows, rfl⟩
  obtain ⟨hcolumns, huid, hid, tb, hrows, rfl⟩ := ht
  refine wp_step (fun _ _ _ _ => ?_) fun _ _ h => by cases h
  refine wp_mono (fun options t ht => ?_) (fun e t ht => ?_) wp_createPaymentOptions
  swap
  · obtain ⟨-, e', he'⟩ := ht
    obtain ⟨_, hok⟩ := whereInt_ok hcolumns.account_id
    rw [hok] at he'
    cases he'
  obtain ⟨hmade, tb', rfl, hrows'⟩ := ht
  refine Delegate.wp_create (fun now' tb'' hrows'' _ => ?_) fun _ herr => ?_
  swap
  · obtain ⟨_, _, _, hne⟩ := herr
    exact absurd rfl hne
  have hpublish : (publishEvent "invoice.created" (invoiceCreated invoice)).Keeps
      World.database := keeps_publishEvent _ _
  refine wp_detached hpublish fun u hu => ?_
  have hmade' : Made env account s invoice options := by
    intro o ho
    obtain ⟨a, ha, hfor⟩ := hmade o ho
    exact ⟨a, ha.congr rfl rfl, hfor⟩
  have hsame := SameTables.of_database hu
  exact ⟨c, account, options, hc, huid, haccount, hcolumns, hid,
    (congrArg Table.rows hsame.invoices).trans hrows,
    (congrArg Table.rows hsame.paymentOptions).trans hrows', hmade',
    ⟨_, (congrArg Table.rows hsame.paymentRequests).trans hrows'', rfl, rfl⟩,
    hsame.payments, hsame.settlements⟩

end Anypay
