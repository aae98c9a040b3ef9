/-
Anypay.CreationQuoteTheorems — whether a new invoice and its refresh quote the same.

`createPaymentOptions` converts the invoice's amount from the account's denomination;
the template written with the options, and so `refreshInvoice`, says the invoice's own
currency. `quoted_own_iff`: the options are quoted from the invoice's own amount and
currency, and a refresh leaves their amounts, exactly if the two quotes come to the
same for every option that is made. They do where the two currencies are one and the
invoice has an amount; ten dollars of an account in euros are quoted as ten euros
(`quoted_in_euros`).

* `wp_createPaymentOption_units` — what the option of one address asks for.
* `wp_refreshInvoice_own` — a refresh keeps what is quoted from the invoice.
-/
import Anypay.QuoteTheorems
import Anypay.RefreshTheorems

namespace Anypay.CreationQuotes

open Store Async Proc

/-! ## What an option asks for -/

/-- The amounts of the outputs of an option. -/
def amounts (o : PaymentOption) : Option (List (Option Int)) :=
  o.outputs.map fun outputs => outputs.map Output.amount

/-- What a value comes to in units of a currency on a chain; none where that is no
number. -/
def unitsOf (env : Env) (prices : Prices) (value : Option Rat) (input output chain : String) :
    Option Int :=
  (quote prices value input output).bind fun v => (toSatoshis env v output chain).toOption.join

/-- The invoice's amount, in the invoice's currency, in units of an option. -/
def ownUnits (env : Env) (prices : Prices) (invoice : Invoice) (currency chain : String) :
    Option Int :=
  unitsOf env prices invoice.amount (nullText invoice.currency) currency chain

/-- What the option made of an address asks for; none where no option is made. -/
def madeUnits (env : Env) (prices : Prices) (account : Json) (invoice : Invoice)
    (record : Address) : Option Int :=
  match denominationOf account, nonEmpty record.value with
  | .ok denomination, some _ => unitsOf env prices (some (invoice.amount.getD 0)) denomination
      record.currency record.chain
  | _, _ => none

/-- What is said of an option here. -/
def asked (o : PaymentOption) : String × String × String × Option (List (Option Int)) :=
  (o.invoice_uid, o.currency, o.chain, amounts o)

/-- The option's amount is the invoice's own. -/
def Own (env : Env) (prices : Prices) (invoice : Invoice) (o : PaymentOption) : Prop :=
  ∃ n, ownUnits env prices invoice o.currency o.chain = some n ∧ amounts o = some [some n]

section Creation

variable {env : Env} {prices : Prices} {account : Json} {invoice : Invoice}
  {A : Answer → Prop} {s : World}

/-- No option, and nothing changed. -/
theorem none_made {record : Address} (h : madeUnits env prices account invoice record = none) :
    (none : Option PaymentOption).map asked =
        (madeUnits env prices account invoice record).map (fun n =>
          (invoice.uid, record.currency, record.chain, some [some n])) ∧
      s.prices = s.prices ∧
      s.paymentOptions.rows = s.paymentOptions.rows ++ (none : Option PaymentOption).toList := by
  rw [h]
  exact ⟨rfl, rfl, (List.append_nil _).symm⟩

/-- The option of one address. -/
theorem wp_createPaymentOption_units {record : Address} (h : HasPrices s prices) :
    (createPaymentOption env account invoice record).wp A
      (fun o t => o.map asked = (madeUnits env prices account invoice record).map (fun n =>
          (invoice.uid, record.currency, record.chain, some [some n])) ∧
        t.prices = s.prices ∧ t.paymentOptions.rows = s.paymentOptions.rows ++ o.toList)
      (fun _ _ => False) s := by
  unfold createPaymentOption paymentOptionFor
  simp only [bind_eq, pure_eq, wp_tryCatch, wp_bind]
  refine wp_ofExcept (fun denomination hdenomination => ?_) fun e he => ?_
  swap
  · exact none_made (by simp [madeUnits, he])
  refine wp_mono (fun conversion t ht => ?_) (fun _ t ht => ?_) (wp_convert_quote h)
  swap
  · rw [ht.1]
    refine none_made ?_
    cases hvalue : nonEmpty record.value <;> simp [madeUnits, hdenomination, hvalue, unitsOf, ht.2]
  obtain ⟨rfl, hquote⟩ := ht
  have hmade : ∀ value, nonEmpty record.value = some value →
      madeUnits env prices account invoice record =
        (toSatoshis env conversion.value record.currency record.chain).toOption.join := by
    intro value hvalue
    simp only [madeUnits, hdenomination, hvalue, unitsOf, hquote, Option.bind_some]
  refine wp_ofExcept (fun address haddress => ?_) fun e he => ?_
  swap
  · refine none_made ?_
    cases hvalue : nonEmpty record.value with
    | none => simp [madeUnits, hdenomination, hvalue]
    | some value =>
        rw [hmade value hvalue, toSatoshis]
        cases hfind : find env record.currency record.chain with
        | error e => rfl
        | ok plugin =>
            rw [getNewAddress, hfind] at he
            cases he
  obtain ⟨-, -, -, rfl⟩ := isOk_of_map haddress
  cases hvalue : nonEmpty record.value with
  | none => exact none_made (by simp [madeUnits, hdenomination, hvalue])
  | some value =>
      simp only [wp_bind]
      refine wp_ofExcept (fun units hunits => ?_) fun e he => ?_
      swap
      · exact none_made (by rw [hmade value hvalue, he]; rfl)
      rw [hunits] at hmade
      cases units with
      | none => exact none_made (hmade value hvalue)
      | some n =>
          simp only [storeOption]
          refine Delegate.wp_create (fun now tb hrows _ => ?_) fun _ herr => ?_
          · rw [hmade value hvalue]
            exact ⟨rfl, rfl, hrows⟩
          · obtain ⟨_, _, _, hne⟩ := herr
            exact absurd rfl hne

/-- An address the account may be paid at. -/
structure Listed (env : Env) (account : Json) (addresses : Table Address) (a : Address) :
    Prop where
  mem : a ∈ addresses.rows
  own : ∃ isAccount, whereInt "addresses" (account.get "id") = .ok isAccount ∧
    isAccount a.account_id = true
  available : available env a.currency = true

/-- What the options of an invoice are: for every address that comes to some units there is
one, and there is no other. -/
structure MadeOf (env : Env) (prices : Prices) (account : Json) (invoice : Invoice)
    (addresses : Table Address) (options : List PaymentOption) : Prop where
  made : ∀ a, Listed env account addresses a → ∀ n,
    madeUnits env prices account invoice (fillChain a) = some n → ∃ o ∈ options,
      asked o = (invoice.uid, (fillChain a).currency, (fillChain a).chain, some [some n])
  only : ∀ o ∈ options, ∃ a n, Listed env account addresses a ∧
    madeUnits env prices account invoice (fillChain a) = some n ∧
      asked o = (invoice.uid, (fillChain a).currency, (fillChain a).chain, some [some n])

theorem wp_createPaymentOptions_units (h : HasPrices s prices) :
    (createPaymentOptions env account invoice).wp A
      (fun options t => MadeOf env prices account invoice s.addresses options ∧
        t.prices = s.prices ∧ t.paymentOptions.rows = s.paymentOptions.rows ++ options)
      (fun _ _ => ∃ e, whereInt "addresses" (account.get "id") = .error e) s := by
  unfold createPaymentOptions listAvailableAddresses
  simp only [bind_eq, pure_eq, wp_bind]
  refine wp_ofExcept (fun isAccount hown => ?_) fun e he => ⟨e, he⟩
  refine Delegate.wp_findMany ?_
  rw [wp_done]
  have hone : ∀ (record : Address) (t : World), t.prices = s.prices →
      (createPaymentOption env account invoice record).wp A
        (fun o u => o.map asked = (madeUnits env prices account invoice record).map (fun n =>
            (invoice.uid, record.currency, record.chain, some [some n])) ∧
          u.prices = s.prices ∧ u.paymentOptions.rows = t.paymentOptions.rows ++ o.toList)
        (fun _ _ => False) t := fun record t ht =>
    wp_mono (fun o u hu => ⟨hu.1, hu.2.1.trans ht, hu.2.2⟩) (fun _ _ h => h)
      (wp_createPaymentOption_units (h.congr ht))
  refine wp_mono (fun os _ ht => ?_) (fun _ _ h => h.1.elim) (wp_and
    (wp_mapAll_pointwise (I := fun t => t.prices = s.prices)
      (fun record _ t ht => wp_mono (fun _ _ hu => ⟨hu.1, hu.2.1⟩) (fun _ _ h => h)
        (hone record t ht)) rfl)
    (wp_mapAll (I := fun os t => t.prices = s.prices ∧
        t.paymentOptions.rows = s.paymentOptions.rows ++ os.filterMap id)
      (fun record _ os t ht => wp_mono (fun o u hu => ?_) (fun _ _ h => h)
        (hone record t ht.1)) ⟨rfl, by simp⟩))
  · obtain ⟨⟨hpointwise, -⟩, hprices, hrows⟩ := ht
    obtain ⟨hmade, honly⟩ := mem_of_pointwise hpointwise
    refine ⟨⟨fun a ha n hn => ?_, fun o ho => ?_⟩, hprices, hrows⟩
    · obtain ⟨isAccount', hown', hselect⟩ := ha.own
      obtain rfl : isAccount' = isAccount := Except.ok.inj (hown'.symm.trans hown)
      obtain ⟨o, ho, heq⟩ := hmade (fillChain a) (List.mem_map_of_mem
        (List.mem_filter.mpr ⟨Table.mem_select.mpr ⟨ha.mem, hselect⟩, ha.available⟩))
      rw [hn, Option.map_some] at heq
      obtain ⟨option, rfl, hasked⟩ := Option.map_eq_some_iff.mp heq
      exact ⟨option, List.mem_filterMap.mpr ⟨_, ho, rfl⟩, hasked⟩
    · obtain ⟨x, hx, rfl⟩ := List.mem_filterMap.mp ho
      obtain ⟨record, hrecord, heq⟩ := honly _ hx
      obtain ⟨a, ha, rfl⟩ := List.mem_map.mp hrecord
      obtain ⟨ha, havailable⟩ := List.mem_filter.mp ha
      obtain ⟨ha, hselect⟩ := Table.mem_select.mp ha
      obtain ⟨n, hn, hasked⟩ := Option.map_eq_some_iff.mp heq.symm
      exact ⟨a, n, ⟨ha, ⟨isAccount, hown, hselect⟩, havailable⟩, hn, hasked.symm⟩
  · refine ⟨hu.2.1, ?_⟩
    rw [hu.2.2, ht.2, List.append_assoc]
    cases o <;> simp

/-- A new invoice has the options made of the addresses; there is one unless a column
refuses its value. -/
theorem wp_createInvoice_units (env : Env) (params : List (String × Json))
    (h : HasPrices s prices) :
    (createInvoice env params).wp A
      (fun invoice t => ∃ account options, accountOf params = .ok account ∧
        MadeOf env prices account invoice s.addresses options ∧ t.prices = s.prices ∧
        t.paymentOptions.rows = s.paymentOptions.rows ++ options)
      (fun _ _ => ∀ account, accountOf params = .ok account →
        ∃ c e, A c ∧ newInvoice env account params c.shortid = .error e) s := by
  unfold createInvoice
  simp only [bind_eq, pure_eq, wp_bind]
  refine wp_ask_ok fun c hc => ?_
  refine wp_ofExcept (fun account haccount => ?_) fun e he account' haccount => ?_
  swap
  · rw [he] at haccount
    cases haccount
  refine wp_ofExcept (fun data hdata => ?_) fun e he account' haccount' => ?_
  swap
  · obtain rfl : account = account' := Except.ok.inj (haccount.symm.trans haccount')
    exact ⟨c, e, hc, he⟩
  have hcolumns := newInvoice_ok hdata
  refine Delegate.wp_create (fun now tb _ _ => ?_) fun now herr => ?_
  swap
  · obtain ⟨_, _, _, hne⟩ := herr
    exact absurd hcolumns.payable.hash hne
  refine wp_spawn ?_
  refine wp_mono (fun options t ht => ?_) (fun e t ht => ?_)
    (wp_createPaymentOptions_units (h.congr rfl))
  swap
  · obtain ⟨e', he'⟩ := ht
    obtain ⟨_, hok⟩ := whereInt_ok hcolumns.account_id
    rw [hok] at he'
    cases he'
  refine Delegate.wp_create (fun now' tb' _ _ => ?_) fun _ herr => ?_
  swap
  · obtain ⟨_, _, _, hne⟩ := herr
    exact absurd rfl hne
  have hpublish : (publishEvent "invoice.created" (invoiceCreated
      { data with id := s.invoices.next, createdAt := now, updatedAt := now })).Keeps
        fun w => (w.prices, w.paymentOptions) := keeps_publishEvent _ _
  refine wp_detached hpublish fun u hu => ?_
  obtain ⟨hprices, hoptions⟩ := Prod.mk.inj hu
  exact ⟨account, options, haccount, ht.1, hprices.trans ht.2.1,
    (congrArg Table.rows hoptions).trans ht.2.2⟩

end Creation

/-! ## The refresh -/

section Refreshing

variable {env : Env} {prices : Prices} {invoice : Invoice} {A : Answer → Prop} {w s : World}

/-- The options of an invoice as they are asked. -/
def askedOptions (uid : String) (w : World) :
    List (Nat × String × String × String × Option (List (Option Int))) :=
  (w.paymentOptions.rows.filter fun o => o.invoice_uid == uid).map fun o => (o.id, asked o)

theorem mem_askedOptions {uid : String} {o : PaymentOption} (ho : o ∈ w.paymentOptions.rows)
    (huid : o.invoice_uid = uid) : (o.id, asked o) ∈ askedOptions uid w :=
  List.mem_map.mpr ⟨o, List.mem_filter.mpr ⟨ho, by simp [huid]⟩, rfl⟩

/-- An option is asked in the one world as in the other. -/
theorem exists_asked {uid : String} {o : PaymentOption} (ho : o ∈ s.paymentOptions.rows)
    (huid : o.invoice_uid = uid) (h : askedOptions uid w = askedOptions uid s) :
    ∃ x ∈ w.paymentOptions.rows, x.invoice_uid = uid ∧ x.id = o.id ∧ asked x = asked o := by
  have hmem := mem_askedOptions ho huid
  rw [← h] at hmem
  obtain ⟨x, hx, heq⟩ := List.mem_map.mp hmem
  obtain ⟨hx, hxu⟩ := List.mem_filter.mp hx
  obtain ⟨hid, hasked⟩ := Prod.mk.inj heq
  exact ⟨x, hx, eq_of_beq hxu, hid, hasked⟩

theorem amounts_of_asked {x o : PaymentOption} (h : asked x = asked o) :
    amounts x = amounts o :=
  (Prod.mk.inj (Prod.mk.inj (Prod.mk.inj h).2).2).2

theorem Own.of_asked {x o : PaymentOption} (h : Own env prices invoice x)
    (hasked : asked x = asked o) : Own env prices invoice o := by
  obtain ⟨-, hrest⟩ := Prod.mk.inj hasked
  obtain ⟨hcurrency, hrest⟩ := Prod.mk.inj hrest
  obtain ⟨hchain, hamounts⟩ := Prod.mk.inj hrest
  obtain ⟨n, hn, hx⟩ := h
  exact ⟨n, hcurrency ▸ hchain ▸ hn, hamounts ▸ hx⟩

/-- Every entry asks for the invoice's amount, in its currency. -/
def AsksOwn (invoice : Invoice) (template : List TemplateOption) : Prop :=
  ∀ entry ∈ template, ∃ address, entry.to_ =
    [{ currency := nullText invoice.currency, amount := invoice.amount, address }]

/-- The options are asked as in `w`, and the prices and the template are there still. -/
structure Consistent (prices : Prices) (invoice : Invoice) (w t : World) : Prop where
  table : HasPrices t prices
  options : askedOptions invoice.uid t = askedOptions invoice.uid w
  request : ∀ r ∈ t.paymentRequests.rows, r.invoice_uid = some invoice.uid →
    AsksOwn invoice r.template

theorem wp_refreshedOutput_units {option : PaymentOption} {destination : TemplateTo}
    (h : HasPrices s prices) : (refreshedOutput env option destination).wp A
      (fun output t => t = s ∧ output.amount = unitsOf env prices destination.amount
        destination.currency option.currency option.chain)
      (fun _ t => t = s) s := by
  unfold refreshedOutput
  simp only [bind_eq, pure_eq, wp_bind]
  refine wp_mono (fun conversion t ht => ?_) (fun _ _ ht => ht.1) (wp_convert_quote h)
  obtain ⟨rfl, hquote⟩ := ht
  refine wp_ofExcept (fun amount hamount => ⟨rfl, ?_⟩) fun _ _ => rfl
  rw [unitsOf, hquote, Option.bind_some, hamount]
  rfl

/-- One option is refreshed: whatever row is found for it, it is asked as before. -/
theorem wp_refreshOption_own {request : PaymentRequest} {option : PaymentOption} {i : Invoice}
    (hown : ∀ o ∈ w.paymentOptions.rows, o.invoice_uid = invoice.uid →
      Own env prices invoice o)
    (hi : i.uid = invoice.uid) (hrequest : AsksOwn invoice request.template)
    (h : Consistent prices invoice w s) : (refreshOption env i request option).wp A
      (fun _ => Consistent prices invoice w) (fun _ => Consistent prices invoice w) s := by
  unfold refreshOption
  split
  · exact h
  rename_i entry hentry
  obtain ⟨address, hto⟩ := hrequest entry (List.mem_of_find?_eq_some hentry)
  rw [hto]
  simp only [bind_eq, pure_eq, wp_bind, mapAll, wp_done]
  refine wp_mono (fun output t ht => ?_) (fun _ t ht => ht ▸ h)
    (wp_refreshedOutput_units h.table)
  obtain ⟨rfl, hunits⟩ := ht
  refine Delegate.wp_findFirstOrThrow (fun record hrecord hw => ?_) fun _ => h
  simp only [Bool.and_eq_true, beq_iff_eq] at hw
  obtain ⟨⟨huid, hcurrency⟩, hchain⟩ := hw
  obtain ⟨x, hx, hxu, -, hxa⟩ := exists_asked hrecord (huid.trans hi) h.options.symm
  obtain ⟨n, hn, hamounts⟩ := (hown x hx hxu).of_asked hxa
  have hamount : output.amount = some n := by
    rw [hunits, ← hn, hcurrency, hchain]
    rfl
  refine Delegate.wp_update (fun now tb r _ _ hrows _ => ?_) fun _ _ _ => h
  refine ⟨h.table.congr rfl, ?_, h.request⟩
  rw [← h.options, askedOptions]
  change ((tb.rows.filter _).map _) = _
  rw [hrows]
  refine Table.map_filter_patch fun o ho hid => ⟨rfl, fun _ => ?_⟩
  obtain rfl : o = record := Table.eq_of_id ho hrecord hid
  simp only [asked, amounts, Option.map_some, List.map_cons, List.map_nil, hamount] at hamounts ⊢
  rw [hamounts]

/-- A refresh leaves every option as it is asked. -/
theorem wp_refreshInvoice_own (h : Consistent prices invoice s s)
    (hown : ∀ o ∈ s.paymentOptions.rows, o.invoice_uid = invoice.uid →
      Own env prices invoice o) : (refreshInvoice env invoice.uid).wp A
      (fun _ => Consistent prices invoice s) (fun _ => Consistent prices invoice s) s := by
  unfold refreshInvoice
  simp only [bind_eq, pure_eq, wp_bind]
  refine Delegate.wp_findFirstOrThrow (fun i _ hi => ?_) fun _ => h
  refine Delegate.wp_findMany ?_
  refine Delegate.wp_findFirstOrThrow (fun request hrequest hr => ?_) fun _ => h
  have hasks := h.request request hrequest (by simpa using hr)
  refine wp_mono (fun _ t ht => ?_) (fun _ _ ht => ht)
    (wp_forEach (I := Consistent prices invoice s)
      (fun option _ t ht => wp_refreshOption_own hown (eq_of_beq hi) hasks ht) h)
  refine Delegate.wp_update (fun _ _ _ _ _ _ _ => ?_) fun _ _ _ => ht
  exact ⟨ht.table.congr rfl, ht.options, ht.request⟩

end Refreshing

/-! ## The whole -/

/-- The options are quoted from the invoice's own amount and currency, and a refresh leaves
their amounts, whatever it finds out. -/
structure QuotedOwn (env : Env) (prices : Prices) (invoice : Invoice) (t : World) : Prop where
  created : ∀ o ∈ t.paymentOptions.rows, o.invoice_uid = invoice.uid →
    Own env prices invoice o
  refreshed : ∀ (answers : Nat → Answer), ∀ o ∈ t.paymentOptions.rows,
    o.invoice_uid = invoice.uid →
    ∃ x ∈ ((refreshInvoice env invoice.uid).exec answers t).2.paymentOptions.rows,
      x.id = o.id ∧ amounts x = amounts o

section Whole

variable {env : Env} {prices : Prices} {params : List (String × Json)} {account : Json}
  {data : Invoice} {uid : String} {w : World}

/-- The world after the invoice was created. -/
def created (env : Env) (params : List (String × Json)) (answers : Nat → Answer) (w : World) :
    World := ((createInvoice env params).exec answers w).2

/-- What is known of an invoice that was created. -/
structure Facts (env : Env) (prices : Prices) (params : List (String × Json)) (account : Json)
    (data invoice : Invoice) (options : List PaymentOption) (w t : World) : Prop where
  issued : Issued env params account invoice options w t
  made : MadeOf env prices account invoice w.addresses options
  prices : t.prices = w.prices
  unused : Unused w invoice.uid
  currency : invoice.currency = data.currency
  amount : invoice.amount = data.amount

theorem exists_facts (h : HasPrices w prices) (haccount : accountOf params = .ok account)
    (hdata : newInvoice env account params uid = .ok data) {answers : Nat → Answer}
    (hfresh : ∀ n, Unused w (answers n).shortid) {invoice : Invoice}
    (hcreated : ((createInvoice env params).exec answers w).1 = .ok invoice) :
    ∃ options, Facts env prices params account data invoice options w
      (created env params answers w) := by
  have hend := wp_exec (wp_and (wp_createInvoice env params (s := w)
    (A := fun c => Unused w c.shortid)) (wp_createInvoice_units env params h)) hfresh
  rw [hcreated] at hend
  obtain ⟨⟨c, account₁, options, hc, huid, hissued⟩,
    ⟨account₂, options₂, haccount₂, hmade, hprices, hrows⟩⟩ := hend
  obtain rfl : account₁ = account := Except.ok.inj (hissued.read.symm.trans haccount)
  obtain rfl : account₂ = account₁ := Except.ok.inj (haccount₂.symm.trans haccount)
  obtain rfl : options₂ = options :=
    List.append_cancel_left (hrows.symm.trans hissued.paymentOptions)
  have hcolumns := newInvoice_ok hdata
  refine ⟨options₂, hissued, hmade, hprices, huid ▸ hc, ?_, ?_⟩
  · exact Except.ok.inj (hissued.columns.currency.symm.trans hcolumns.currency)
  · exact Except.ok.inj (hissued.columns.amount.symm.trans hcolumns.amount)

/-- The amount comes to the same in the account's denomination and in the invoice's own
currency, for every address an option is made of. -/
def SameUnits (env : Env) (prices : Prices) (account : Json) (data : Invoice)
    (addresses : Table Address) : Prop :=
  ∀ a, Listed env account addresses a → ∀ n,
    madeUnits env prices account data (fillChain a) = some n →
      ownUnits env prices data (fillChain a).currency (fillChain a).chain = some n

theorem ownUnits_congr {r : Invoice} (hcurrency : r.currency = data.currency)
    (hamount : r.amount = data.amount) (currency chain : String) :
    ownUnits env prices r currency chain = ownUnits env prices data currency chain := by
  rw [ownUnits, ownUnits, hcurrency, hamount]

theorem madeUnits_congr {r : Invoice} (hamount : r.amount = data.amount) (record : Address) :
    madeUnits env prices account r record = madeUnits env prices account data record := by
  simp only [madeUnits, hamount]

variable {invoice : Invoice} {options : List PaymentOption} {t : World}

/-- The options of the new invoice are the ones that were made. -/
theorem Facts.mem_options (h : Facts env prices params account data invoice options w t)
    {o : PaymentOption} (ho : o ∈ t.paymentOptions.rows) (huid : o.invoice_uid = invoice.uid) :
    o ∈ options := by
  rw [h.issued.paymentOptions] at ho
  rcases List.mem_append.mp ho with ho | ho
  · exact absurd huid (h.unused.paymentOptions o ho)
  · exact ho

theorem Facts.own (h : Facts env prices params account data invoice options w t)
    (hsame : SameUnits env prices account data w.addresses) {o : PaymentOption}
    (ho : o ∈ options) : Own env prices invoice o := by
  obtain ⟨a, n, ha, hn, hasked⟩ := h.made.only o ho
  rw [madeUnits_congr h.amount] at hn
  obtain ⟨-, hrest⟩ := Prod.mk.inj hasked
  obtain ⟨hcurrency, hrest⟩ := Prod.mk.inj hrest
  obtain ⟨hchain, hamounts⟩ := Prod.mk.inj hrest
  refine ⟨n, ?_, hamounts⟩
  rw [ownUnits_congr h.currency h.amount, hcurrency, hchain]
  exact hsame a ha n hn

theorem Facts.consistent (h : Facts env prices params account data invoice options w t)
    (hprices : HasPrices w prices) : Consistent prices invoice t t where
  table := hprices.congr h.prices
  options := rfl
  request := by
    intro r hr hu
    obtain ⟨r', hrows, -, htemplate⟩ := h.issued.request
    rw [hrows] at hr
    rcases List.mem_append.mp hr with hr | hr
    · exact absurd hu (h.unused.paymentRequests r hr)
    · rw [List.mem_singleton.mp hr, htemplate]
      intro entry hentry
      obtain ⟨o, -, rfl⟩ := List.mem_map.mp hentry
      exact ⟨_, rfl⟩

theorem Facts.quotedOwn (h : Facts env prices params account data invoice options w t)
    (hprices : HasPrices w prices) (hsame : SameUnits env prices account data w.addresses) :
    QuotedOwn env prices invoice t := by
  have hown : ∀ o ∈ t.paymentOptions.rows, o.invoice_uid = invoice.uid →
      Own env prices invoice o := fun o ho huid => h.own hsame (h.mem_options ho huid)
  refine ⟨hown, fun answers o ho huid => ?_⟩
  have hend := wp_exec_state (A := AnyAnswer)
    (wp_refreshInvoice_own (h.consistent hprices) hown) (anyAnswer answers)
  obtain ⟨x, hx, -, hid, hasked⟩ := exists_asked ho huid hend.options
  exact ⟨x, hx, hid, amounts_of_asked hasked⟩

/-- The call is not refused. -/
theorem exists_created (h : HasPrices w prices) (haccount : accountOf params = .ok account)
    (hdata : newInvoice env account params uid = .ok data) :
    ∃ invoice, ((createInvoice env params).exec (fun _ => { shortid := uid }) w).1 =
      .ok invoice := by
  have hend := wp_exec (wp_createInvoice_units env params h (A := fun c => c.shortid = uid))
    (o := fun _ => { shortid := uid }) fun _ => rfl
  cases hrun : (createInvoice env params).exec (fun _ => { shortid := uid }) w with
  | mk r t =>
      rw [hrun] at hend
      cases r with
      | ok invoice => exact ⟨invoice, rfl⟩
      | error e =>
          obtain ⟨c, e', hc, hnew⟩ := hend account haccount
          rw [hc, hdata] at hnew
          cases hnew

/-- Where the account's denomination is the invoice's currency, and there is an amount. -/
theorem sameUnits_of_denomination
    (hcurrency : denominationOf account = .ok (nullText data.currency))
    (hamount : data.amount ≠ none) (addresses : Table Address) :
    SameUnits env prices account data addresses := by
  obtain ⟨amount, hamount⟩ := Option.ne_none_iff_exists'.mp hamount
  intro a _ n hn
  cases hvalue : nonEmpty (fillChain a).value with
  | none => simp [madeUnits, hcurrency, hvalue] at hn
  | some value =>
      simp only [madeUnits, hcurrency, hvalue, hamount, Option.getD_some] at hn
      rw [ownUnits, hamount]
      exact hn

/-- The options of a new invoice are quoted from its own amount and currency, and keep
their amounts through a refresh, exactly if the amount comes to the same from the account's
denomination; as it does where that is the invoice's currency and there is an amount. -/
theorem quoted_own_iff (hprices : HasPrices w prices)
    (haccount : accountOf params = .ok account)
    (hdata : newInvoice env account params uid = .ok data) (hunused : Unused w uid) :
    ((∀ answers : Nat → Answer, (∀ n, Unused w (answers n).shortid) → ∀ invoice,
        ((createInvoice env params).exec answers w).1 = .ok invoice →
          QuotedOwn env prices invoice (created env params answers w)) ↔
      SameUnits env prices account data w.addresses) ∧
    (denominationOf account = .ok (nullText data.currency) → data.amount ≠ none →
      SameUnits env prices account data w.addresses) := by
  refine ⟨⟨fun h a ha n hn => ?_, fun hsame answers hfresh invoice hcreated => ?_⟩,
    fun hcurrency hamount => sameUnits_of_denomination hcurrency hamount _⟩
  · obtain ⟨invoice, hcreated⟩ := exists_created hprices haccount hdata
    have hfresh : ∀ n : Nat, Unused w ((fun _ => { shortid := uid } : Nat → Answer) n).shortid :=
      fun _ => hunused
    obtain ⟨options, hfacts⟩ := exists_facts hprices haccount hdata hfresh hcreated
    rw [← madeUnits_congr hfacts.amount] at hn
    obtain ⟨o, ho, hasked⟩ := hfacts.made.made a ha n hn
    obtain ⟨huid, hrest⟩ := Prod.mk.inj hasked
    obtain ⟨hcurrency, hrest⟩ := Prod.mk.inj hrest
    obtain ⟨hchain, hamounts⟩ := Prod.mk.inj hrest
    have hmem : o ∈ (created env params (fun _ => { shortid := uid }) w).paymentOptions.rows := by
      rw [hfacts.issued.paymentOptions]
      exact List.mem_append_right _ ho
    obtain ⟨n', hn', hamounts'⟩ := (h _ hfresh invoice hcreated).created o hmem huid
    rw [hamounts] at hamounts'
    obtain rfl : n = n' := by simpa using hamounts'
    rw [← ownUnits_congr hfacts.currency hfacts.amount, ← hcurrency, ← hchain]
    exact hn'
  · obtain ⟨options, hfacts⟩ := exists_facts hprices haccount hdata hfresh hcreated
    exact hfacts.quotedOwn hprices hsame

end Whole

/-! ## Ten dollars of an account in euros -/

/-- One price for USDC and one for the euro, in dollars. -/
def twoPrices : Prices := fun base currency =>
  if base = "USD" then
    if currency = "USDC" then some 1 else if currency = "EUR" then some (11 / 10) else none
  else none

/-- An account with one address. -/
def shop : World where
  accounts := .single { id := 1 }
  addresses := .single
    { id := 1, account_id := some 1, currency := "USDC", chain := "ETH", value := some "0xe" }
  prices := .pair
    { id := 1, currency := "USDC", base_currency := some "USD", value := 1 }
    { id := 2, currency := "EUR", base_currency := some "USD", value := 11 / 10 }
    Nat.one_lt_two (fun _ => rfl)

theorem hasPrices_shop : HasPrices shop twoPrices := by
  have hrows : shop.prices.rows = [
      { id := 1, currency := "USDC", base_currency := some "USD", value := 1 },
      { id := 2, currency := "EUR", base_currency := some "USD", value := 11 / 10 }] := rfl
  constructor
  · intro r hr base hbase
    rw [hrows] at hr
    rcases List.mem_cons.mp hr with rfl | hr
    · obtain rfl := Option.some.inj hbase
      rfl
    · obtain rfl := List.mem_singleton.mp hr
      obtain rfl := Option.some.inj hbase
      rfl
  · intro base currency hprice
    unfold twoPrices at hprice
    rw [hrows]
    split at hprice
    · rename_i hbase
      split at hprice
      · rename_i hcurrency
        exact ⟨_, List.mem_cons_self, by rw [hbase], by rw [hcurrency]⟩
      · split at hprice
        · rename_i hcurrency
          exact ⟨_, List.mem_cons_of_mem _ (List.mem_singleton.mpr rfl), by rw [hbase],
            by rw [hcurrency]⟩
        · exact absurd rfl hprice
    · exact absurd rfl hprice

/-- Ten dollars, asked for by an account in this denomination. -/
def tenDollarsOf (denomination : String) : List (String × Json) :=
  [("account", Account.toJson { id := 1, denomination := some denomination }),
   ("amount", .num 10), ("currency", .str "USD")]

def answered (_ : Nat) : Answer := { shortid := "u" }

theorem unused_shop : Unused shop "u" := by
  constructor <;> simp [shop]

/-- The invoice as it is created. -/
def invoiceOf (denomination : String) : Except Failure Invoice :=
  ((createInvoice Refresh.usdcEnv (tenDollarsOf denomination)).exec answered shop).1

/-- The options it is created with. -/
def optionsOf (denomination : String) : List (String × Option (List (Option Int))) :=
  (created Refresh.usdcEnv (tenDollarsOf denomination) answered shop).paymentOptions.rows.map
    fun o => (o.chain, amounts o)

example : (optionsOf "USD").length = 1 := by decide +kernel

/-- Ten dollars are quoted as ten euros. -/
theorem quoted_in_euros :
    ¬ ∀ (env : Env) (prices : Prices) (params : List (String × Json)) (account : Json)
      (data : Invoice) (uid : String) (w : World), HasPrices w prices →
      accountOf params = .ok account → newInvoice env account params uid = .ok data →
      Unused w uid → ∀ answers : Nat → Answer, (∀ n, Unused w (answers n).shortid) →
      ∀ invoice, ((createInvoice env params).exec answers w).1 = .ok invoice →
        QuotedOwn env prices invoice (created env params answers w) := by
  intro h
  obtain ⟨data, hdata⟩ := exists_ok (x := newInvoice Refresh.usdcEnv
    (Account.toJson { id := 1, denomination := some "EUR" }) (tenDollarsOf "EUR") "u")
    (by decide +kernel)
  obtain ⟨invoice, hcreated⟩ := exists_ok (x := invoiceOf "EUR") (by decide +kernel)
  have hread : ((invoiceOf "EUR").toOption.map fun r => (r.uid, r.currency, r.amount)) =
      some ("u", some "USD", some 10) := by decide +kernel
  rw [hcreated] at hread
  obtain ⟨huid, hrest⟩ := Prod.mk.inj (Option.some.inj hread)
  obtain ⟨hcurrency, hamount⟩ := Prod.mk.inj hrest
  have hquoted := h _ twoPrices (tenDollarsOf "EUR") _ data "u" shop hasPrices_shop rfl hdata
    unused_shop answered (fun _ => unused_shop) invoice hcreated
  have hoption : ∃ o ∈ (created Refresh.usdcEnv (tenDollarsOf "EUR") answered
      shop).paymentOptions.rows, o.invoice_uid = "u" ∧ o.currency = "USDC" ∧ o.chain = "ETH" ∧
        amounts o = some [some 11000000] := by decide +kernel
  obtain ⟨o, ho, hou, hoc, hoch, hamounts⟩ := hoption
  obtain ⟨n, hn, hown⟩ := hquoted.created o ho (hou.trans huid.symm)
  rw [hamounts] at hown
  obtain rfl : n = 11000000 := by simpa using hown.symm
  rw [ownUnits, hcurrency, hamount, hoc, hoch] at hn
  exact absurd hn (by decide +kernel)

/-- Asked for by an account in dollars, ten dollars are ten dollars. -/
theorem quoted_own_dollars : ∃ invoice, invoiceOf "USD" = .ok invoice ∧
    QuotedOwn Refresh.usdcEnv twoPrices invoice
      (created Refresh.usdcEnv (tenDollarsOf "USD") answered shop) := by
  obtain ⟨data, hdata⟩ := exists_ok (x := newInvoice Refresh.usdcEnv
    (Account.toJson { id := 1, denomination := some "USD" }) (tenDollarsOf "USD") "u")
    (by decide +kernel)
  obtain ⟨invoice, hcreated⟩ := exists_ok (x := invoiceOf "USD") (by decide +kernel)
  have hiff := quoted_own_iff hasPrices_shop rfl hdata unused_shop
  have hcolumns := newInvoice_ok hdata
  have hcurrency : data.currency = some "USD" :=
    Except.ok.inj (hcolumns.currency.symm.trans (by rfl))
  have hamount : data.amount = some 10 :=
    Except.ok.inj (hcolumns.amount.symm.trans (by rfl))
  refine ⟨invoice, hcreated, hiff.1.mpr (hiff.2 ?_ ?_) answered (fun _ => unused_shop) invoice
    hcreated⟩
  · rw [hcurrency]
    rfl
  · rw [hamount]
    simp

end Anypay.CreationQuotes
