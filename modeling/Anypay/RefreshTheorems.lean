/-
Anypay.RefreshTheorems — what happens to the output addresses of a payment
option after it was created.

`createInvoice` writes a request template that names no chain, and
`refreshInvoice` looks an option's template up by its currency: of the options
that share a currency, all are given the outputs of the FIRST entry. So the
addresses stay as they were if the addresses of the account that options can be
made of agree wherever they share a currency (`addresses_kept`), and an account
with one currency on two chains loses one of its addresses to the other
(`addresses_lost`).

`Consistent` is the invariant of all later price changes and refreshes: the
options of the invoice as they are SHOWN (id, currency, addresses) are the ones
created, and the template is the one written with them.
-/
import Anypay.InvoiceTheorems

namespace Anypay.Refresh

open Store Async Proc

/-! ## Later events -/

inductive Change where
  | setPrice (price : SetPrice)
  | refreshInvoice (uid : String)

def change (env : Env) : Change → Task Unit
  | .setPrice price => discard (setPrice price)
  | .refreshInvoice uid => discard (refreshInvoice env uid)

/-- Price changes and refreshes, one after the other, lead from one world to the
other. -/
def Later (env : Env) : World → World → Prop :=
  Relation.ReflTransGen fun s t => ∃ x o, t = ((change env x).exec o s).2

/-- Every option of the invoice has in `t` the addresses it has in `s`. -/
def SameAddresses (uid : String) (s t : World) : Prop :=
  ∀ o ∈ s.paymentOptions.rows, o.invoice_uid = uid →
    ∃ o' ∈ t.paymentOptions.rows, o'.id = o.id ∧ payees o' = payees o

/-! ## The invariant -/

/-- What is said of an option. -/
def shown (o : PaymentOption) : Nat × String × List String := (o.id, o.currency, payees o)

/-- The options of an invoice. -/
def shownOptions (uid : String) (w : World) : List (Nat × String × List String) :=
  (w.paymentOptions.rows.filter fun o => o.invoice_uid == uid).map shown

/-- The addresses of a template entry. -/
def destinations (entry : TemplateOption) : List String := entry.to_.map TemplateTo.address

structure Consistent (uid : String) (template : List TemplateOption)
    (options : List (Nat × String × List String)) (w : World) : Prop where
  options : shownOptions uid w = options
  request : ∀ r ∈ w.paymentRequests.rows, r.invoice_uid = some uid → r.template = template

/-- The template asks for the addresses the options have. -/
def Agrees (template : List TemplateOption) (options : List (Nat × String × List String)) :
    Prop :=
  ∀ entry ∈ template, ∀ x ∈ options, x.2.1 = entry.currency → x.2.2 = destinations entry

section Step

variable {env : Env} {uid : String} {template : List TemplateOption}
  {options : List (Nat × String × List String)} {A : Answer → Prop} {s t : World}

/-- What a price change leaves alone. -/
def asked (w : World) : Table PaymentOption × Table PaymentRequest :=
  (w.paymentOptions, w.paymentRequests)

theorem Consistent.of_asked (h : Consistent uid template options s)
    (hst : asked t = asked s) : Consistent uid template options t := by
  obtain ⟨hoptions, hrequests⟩ := Prod.mk.inj hst
  constructor
  · rw [shownOptions, hoptions]
    exact h.options
  · rw [hrequests]
    exact h.request

theorem keeps_setPrice (price : SetPrice) : (setPrice price).Keeps asked := by
  unfold setPrice writePrice findPrice
  simp only [bind_eq, pure_eq]
  refine keeps_bind (keeps_bind keeps_query fun found => ?_) fun _ => ?_
  · split
    · exact Delegate.keeps_create fun _ _ => rfl
    · exact keeps_bind (Delegate.keeps_update fun _ _ => rfl) fun _ => trivial
  · refine keeps_bind keeps_query fun found => ?_
    split
    · exact trivial
    · exact keeps_bind (keeps_detached (keeps_publishEvent _ _)) fun _ => trivial

theorem map_address {xs : List TemplateTo} {outputs : List Output}
    (h : List.Forall₂ (fun x output => output.address = x.address) xs outputs) :
    outputs.map Output.address = xs.map TemplateTo.address := by
  induction h with
  | nil => rfl
  | cons hhead _ ih => rw [List.map_cons, List.map_cons, hhead, ih]

/-- The outputs computed for an option have the addresses of the entry. -/
theorem wp_refreshedOutputs (option : PaymentOption) (entry : TemplateOption) :
    (mapAll entry.to_ (refreshedOutput env option)).wp A
      (fun outputs t => outputs.map Output.address = destinations entry ∧ t = s)
      (fun _ t => t = s) s := by
  refine wp_mono (fun outputs t ht => ?_) (fun _ _ h => h) (wp_mapAll_pointwise
    (P := fun destination output => output.address = destination.address)
    (I := fun t => t = s) (fun destination _ t ht => ?_) rfl)
  · exact ⟨map_address ht.1, ht.2⟩
  · subst ht
    unfold refreshedOutput
    simp only [bind_eq, pure_eq, wp_bind]
    refine wp_mono (fun _ u hu => ?_) (fun _ _ h => h) wp_convert
    exact wp_ofExcept (fun _ _ => ⟨rfl, hu.1⟩) fun _ _ => hu.1

/-- The entry an option is refreshed from is of its currency. -/
theorem templateOf_some {option : PaymentOption} {entry : TemplateOption}
    (h : templateOf template option = some entry) :
    entry ∈ template ∧ entry.currency = option.currency := by
  refine ⟨List.mem_of_find?_eq_some h, ?_⟩
  have hfound := List.find?_some h
  simp only [Bool.and_eq_true, beq_iff_eq] at hfound
  exact hfound.1

/-- One option is refreshed: whatever row is found for it, the options of the
invoice are shown as before. -/
theorem wp_refreshOption (hagrees : Agrees template options)
    (h : Consistent uid template options s) {invoice : Invoice} {request : PaymentRequest}
    {option : PaymentOption} (hrequest : invoice.uid = uid → request.template = template) :
    (refreshOption env invoice request option).wp A
      (fun _ => Consistent uid template options) (fun _ => Consistent uid template options)
      s := by
  unfold refreshOption
  split
  · exact h
  rename_i entry hentry
  simp only [bind_eq, pure_eq, wp_bind]
  refine wp_mono (fun outputs t ht => ?_) (fun _ t ht => ht ▸ h)
    (wp_refreshedOutputs option entry)
  obtain ⟨houtputs, rfl⟩ := ht
  refine Delegate.wp_findFirstOrThrow (fun record hrecord hw => ?_) fun _ => h
  simp only [Bool.and_eq_true, beq_iff_eq] at hw
  obtain ⟨⟨huid, hcurrency⟩, -⟩ := hw
  refine Delegate.wp_update (fun now tb r _ _ hrows _ => ⟨?_, h.request⟩) fun _ _ _ => h
  change ((tb.rows.filter _).map shown) = options
  rw [hrows, ← h.options]
  refine Table.map_filter_patch fun x hx hi => ⟨rfl, fun hshown => ?_⟩
  obtain rfl : x = record := Table.eq_of_id hx hrecord hi
  have hxu : x.invoice_uid = uid := by simpa using hshown
  rw [hrequest (huid.symm.trans hxu)] at hentry
  obtain ⟨hmem, hec⟩ := templateOf_some hentry
  have hx' : shown x ∈ options := by
    rw [← h.options]
    exact List.mem_map.mpr ⟨x, List.mem_filter.mpr ⟨hx, hshown⟩, rfl⟩
  have hpayees : payees x = destinations entry :=
    hagrees entry hmem _ hx' (hcurrency.trans hec.symm)
  simp only [shown, Prod.mk.injEq, true_and]
  rw [hpayees, ← houtputs]
  rfl

/-- A price change or a refresh keeps the invariant, whether it ends or throws. -/
theorem wp_change (hagrees : Agrees template options) (x : Change)
    (h : Consistent uid template options s) :
    (change env x).wp A (fun _ => Consistent uid template options)
      (fun _ => Consistent uid template options) s := by
  cases x with
  | setPrice price =>
      have hkeeps : (change env (.setPrice price)).Keeps asked :=
        keeps_bind (keeps_setPrice price) fun _ => trivial
      exact wp_of_keeps hkeeps (fun _ t ht => h.of_asked ht) fun _ t ht => h.of_asked ht
  | refreshInvoice uid' =>
      simp only [change, discard_eq, wp_bind, refreshInvoice, bind_eq, pure_eq]
      refine Delegate.wp_findFirstOrThrow (fun invoice _ hinvoice => ?_) fun _ => h
      refine Delegate.wp_findMany ?_
      refine Delegate.wp_findFirstOrThrow (fun request hrequest hr => ?_) fun _ => h
      refine wp_mono (fun _ t ht => ?_) (fun _ _ ht => ht)
        (wp_forEach (I := Consistent uid template options)
          (fun option _ t ht => wp_refreshOption hagrees ht fun hu => ?_) h)
      · exact Delegate.wp_update (fun _ _ _ _ _ _ _ => ht.of_asked rfl) fun _ _ _ => ht
      · have hiu : invoice.uid = uid' := by simpa using hinvoice
        have hru : request.invoice_uid = some uid' := by simpa using hr
        exact h.request request hrequest (by rw [hru, ← hiu, hu])

/-- Any number of price changes and refreshes keep the invariant. -/
theorem Consistent.later (hagrees : Agrees template options)
    (h : Consistent uid template options s) (hst : Later env s t) :
    Consistent uid template options t := by
  induction hst with
  | refl => exact h
  | tail _ hstep ih =>
      obtain ⟨x, o, rfl⟩ := hstep
      exact wp_exec_state (wp_change hagrees x ih) (anyAnswer o)

end Step

/-! ## From the new invoice on -/

/-- Addresses an option can be made of agree where they share a currency. -/
def OneAddressEach (env : Env) (params : List (String × Json)) (w : World) : Prop :=
  ∀ account, accountOf params = .ok account → ∀ a b, Offered env account w a →
    Offered env account w b → (fillChain a).currency = (fillChain b).currency →
    payTo a = payTo b

/-- Right after `createInvoice` the invariant holds. -/
theorem consistent_issued {env : Env} {params : List (String × Json)} {account : Json}
    {invoice : Invoice} {options : List PaymentOption} {s t : World}
    (h : Issued env params account invoice options s t) (hfresh : Unused s invoice.uid) :
    Consistent invoice.uid (options.map (templateFor invoice)) (options.map shown) t := by
  have hnew : options.filter (fun o => o.invoice_uid == invoice.uid) = options := by
    refine List.filter_eq_self.mpr fun o ho => ?_
    obtain ⟨a, -, hfor⟩ := h.made o ho
    simpa using hfor.invoice_uid
  have hold : s.paymentOptions.rows.filter (fun o => o.invoice_uid == invoice.uid) = [] := by
    refine List.filter_eq_nil_iff.mpr fun o ho => ?_
    simpa using hfresh.paymentOptions o ho
  constructor
  · rw [shownOptions, h.paymentOptions, List.filter_append, hold, hnew, List.nil_append]
  · obtain ⟨r, hrows, -, htemplate⟩ := h.request
    intro r' hr' hu
    rw [hrows] at hr'
    rcases List.mem_append.mp hr' with hr' | hr'
    · exact absurd hu (hfresh.paymentRequests r' hr')
    · rw [List.mem_singleton.mp hr']
      exact htemplate

/-- The template agrees with the options it was written with. -/
theorem agrees_issued {env : Env} {params : List (String × Json)} {account : Json}
    {invoice : Invoice} {options : List PaymentOption} {s t : World}
    (h : Issued env params account invoice options s t) (hone : OneAddressEach env params s) :
    Agrees (options.map (templateFor invoice)) (options.map shown) := by
  intro entry hentry x hx hcurrency
  obtain ⟨o, ho, rfl⟩ := List.mem_map.mp hentry
  obtain ⟨o', ho', rfl⟩ := List.mem_map.mp hx
  obtain ⟨a, ha, hfor⟩ := h.made o ho
  obtain ⟨b, hb, hfor'⟩ := h.made o' ho'
  have hsame : (fillChain b).currency = (fillChain a).currency := by
    rw [← hfor.currency, ← hfor'.currency]
    exact hcurrency
  have hpay := hone account h.read b a hb ha hsame
  simp only [shown, hfor'.payees_eq, destinations, templateFor, hfor.address, nullText,
    Option.getD_some, List.map_cons, List.map_nil, hpay]

/-- If the account's addresses agree wherever they share a currency, every
payment option keeps its output addresses through all price changes and
refreshes. -/
theorem addresses_kept (env : Env) (params : List (String × Json)) (w : World)
    (o : Nat → Answer) (hfresh : ∀ n, Unused w (o n).shortid)
    (hone : OneAddressEach env params w) (invoice : Invoice)
    (hcreated : ((createInvoice env params).exec o w).1 = .ok invoice) (t : World)
    (hlater : Later env ((createInvoice env params).exec o w).2 t) :
    SameAddresses invoice.uid ((createInvoice env params).exec o w).2 t := by
  have hend := wp_exec (wp_createInvoice env params (s := w)
    (A := fun c => Unused w c.shortid)) hfresh
  rw [hcreated] at hend
  obtain ⟨c, account, options, hc, huid, hissued⟩ := hend
  have hstart := consistent_issued hissued (huid ▸ hc)
  have hfinal := hstart.later (agrees_issued hissued hone) hlater
  intro option hoption hou
  have hmem : shown option ∈ shownOptions invoice.uid t := by
    rw [hfinal.options, ← hstart.options]
    refine List.mem_map.mpr ⟨option, List.mem_filter.mpr ⟨hoption, ?_⟩, rfl⟩
    simpa using hou
  obtain ⟨option', hoption', heq⟩ := List.mem_map.mp hmem
  simp only [shown, Prod.mk.injEq] at heq
  exact ⟨option', (List.mem_filter.mp hoption').1, heq.1, heq.2.2⟩

/-! ## One currency on two chains -/

/-- A server with USDC on two chains. -/
def usdcEnv : Env where
  plugins := [
    ("USDC.ETH", { currency := "USDC", chain := "ETH", decimals := 6 }),
    ("USDC.MATIC", { currency := "USDC", chain := "MATIC", decimals := 6 })]
  coins := [{ code := "USDC" }]

/-- An account with an address for USDC on each chain. -/
def usdcAccount (eth matic : String) : World where
  accounts := .single { id := 1 }
  addresses := .pair
    { id := 1, account_id := some 1, currency := "USDC", chain := "ETH", value := some eth }
    { id := 2, account_id := some 1, currency := "USDC", chain := "MATIC", value := some matic }
    Nat.one_lt_two (fun _ => rfl)
  prices := .single { id := 1, currency := "USDC", base_currency := some "USD", value := 1 }

def tenDollars : List (String × Json) :=
  [("account", Account.toJson { id := 1 }), ("amount", .num 10)]

def answered (_ : Nat) : Answer := { shortid := "u" }

/-- The world after `createInvoice`. -/
def createdFor (eth matic : String) : World :=
  ((createInvoice usdcEnv tenDollars).exec answered (usdcAccount eth matic)).2

/-- The world after one more `refreshInvoice`. -/
def refreshedFor (eth matic : String) : World :=
  ((change usdcEnv (.refreshInvoice "u")).exec answered (createdFor eth matic)).2

theorem unused_usdc (eth matic : String) (n : Nat) :
    Unused (usdcAccount eth matic) (answered n).shortid := by
  constructor <;> simp [usdcAccount]

theorem later_refreshed (eth matic : String) :
    Later usdcEnv (createdFor eth matic) (refreshedFor eth matic) :=
  .single ⟨_, _, rfl⟩

/-- With two different addresses the option on the second chain is moved to the
address of the first: the addresses are not kept in general. -/
theorem addresses_lost :
    ¬ ∀ (env : Env) (params : List (String × Json)) (w : World) (o : Nat → Answer),
      (∀ n, Unused w (o n).shortid) → ∀ invoice : Invoice,
      ((createInvoice env params).exec o w).1 = .ok invoice → ∀ t : World,
      Later env ((createInvoice env params).exec o w).2 t →
      SameAddresses invoice.uid ((createInvoice env params).exec o w).2 t := by
  intro h
  obtain ⟨invoice, hcreated⟩ := exists_ok
    (x := ((createInvoice usdcEnv tenDollars).exec answered (usdcAccount "0xe" "0xa")).1)
    (by decide +kernel)
  have huid : invoice.uid = "u" := by
    have hread : (((createInvoice usdcEnv tenDollars).exec answered
        (usdcAccount "0xe" "0xa")).1.toOption.map Invoice.uid) = some "u" := by decide +kernel
    simpa [hcreated, Except.toOption] using hread
  have hkept := h usdcEnv tenDollars (usdcAccount "0xe" "0xa") answered (unused_usdc _ _)
    invoice hcreated _ (later_refreshed "0xe" "0xa")
  have hbefore : ∃ o ∈ (createdFor "0xe" "0xa").paymentOptions.rows,
      o.invoice_uid = "u" ∧ o.id = 2 ∧ payees o = ["0xa"] := by decide +kernel
  have hafter : ∀ o ∈ (refreshedFor "0xe" "0xa").paymentOptions.rows,
      o.id = 2 → payees o = ["0xe"] := by decide +kernel
  obtain ⟨o, ho, hu, hid, hpayees⟩ := hbefore
  obtain ⟨o', ho', hid', hpayees'⟩ := hkept o ho (hu.trans huid.symm)
  rw [hafter o' ho' (hid'.trans hid), hpayees] at hpayees'
  exact absurd hpayees' (by decide)

/-- With one address for both chains they are kept. -/
theorem addresses_kept_shared :
    ∃ invoice : Invoice,
      ((createInvoice usdcEnv tenDollars).exec answered (usdcAccount "0xa" "0xa")).1 =
        .ok invoice ∧
      SameAddresses invoice.uid (createdFor "0xa" "0xa") (refreshedFor "0xa" "0xa") := by
  obtain ⟨invoice, hcreated⟩ := exists_ok
    (x := ((createInvoice usdcEnv tenDollars).exec answered (usdcAccount "0xa" "0xa")).1)
    (by decide +kernel)
  refine ⟨invoice, hcreated, addresses_kept usdcEnv tenDollars (usdcAccount "0xa" "0xa")
    answered (unused_usdc _ _) ?_ invoice hcreated _ (later_refreshed "0xa" "0xa")⟩
  have hpay : ∀ a ∈ (usdcAccount "0xa" "0xa").addresses.rows, payTo a = "0xa" := by decide
  intro account _ a b ha hb _
  rw [hpay a ha.mem, hpay b hb.mem]

end Anypay.Refresh
