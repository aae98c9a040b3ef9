/-
Anypay.RejectedRequestTheorems — what a payment request leaves behind when it is rejected.

`createPaymentRequest` writes the request, then the invoice, then the options, with
nothing around them: what is written when a later step rejects stays. The template's
currencies and its schema are checked before, an app that is not there is found out
after the first insert, and a price or a plugin that is missing after the second. The
options are all computed before the first of them is stored, so there is one for each
entry or there is none (`created_or_left`).

A write that the database refuses (`Refused`) is set aside.
-/
import Anypay.PaymentRequestTheorems

namespace Anypay.RejectedRequests

open Store Async Proc Requests

/-! ## Refused writes -/

/-- The failure of a write: a value its column does not take, a unique value taken. -/
def Refused : Failure → Prop
  | .invalidValue _ | .uniqueConstraint _ => True
  | _ => False

/-- Only refused writes are thrown. -/
def OnlyRefused {α : Type} (x : Except Failure α) : Prop := ∀ e, x = .error e → Refused e

section Columns

variable {model : String}

theorem onlyRefused_bind {α β : Type} {x : Except Failure α} {f : α → Except Failure β}
    (hx : OnlyRefused x) (hf : ∀ a, OnlyRefused (f a)) : OnlyRefused (x >>= f) := by
  intro e he
  cases x with
  | error e' => exact hx e (congrArg Except.error (Except.error.inj he))
  | ok a => exact hf a e he

theorem onlyRefused_ok {α : Type} (a : α) : OnlyRefused (.ok a : Except Failure α) := nofun

theorem onlyRefused_textColumn (x : Option Json) : OnlyRefused (textColumn model x) := by
  intro e he
  unfold textColumn at he
  split at he
  · cases he
  · cases he
  · split at he
    · cases he
    · obtain rfl := Except.error.inj he
      trivial
  · obtain rfl := Except.error.inj he
    trivial

theorem onlyRefused_textColumnOr (default_ : Option String) (x : Option Json) :
    OnlyRefused (textColumnOr model default_ x) := by
  unfold textColumnOr
  split
  · exact onlyRefused_ok default_
  · exact onlyRefused_textColumn x

theorem onlyRefused_decimalColumn (x : Option Json) : OnlyRefused (decimalColumn model x) := by
  intro e he
  unfold decimalColumn at he
  split at he
  · cases he
  · cases he
  · cases he
  · split at he
    · cases he
    · obtain rfl := Except.error.inj he
      trivial
  · obtain rfl := Except.error.inj he
    trivial

theorem onlyRefused_jsonColumn (x : Option Json) : OnlyRefused (jsonColumn model x) := by
  intro e he
  unfold jsonColumn at he
  split at he
  · cases he
  · obtain rfl := Except.error.inj he
    trivial
  · cases he

theorem onlyRefused_requiredText (x : Option Json) : OnlyRefused (requiredText model x) := by
  intro e he
  unfold requiredText at he
  split at he
  · split at he
    · cases he
    · obtain rfl := Except.error.inj he
      trivial
  · obtain rfl := Except.error.inj he
    trivial

theorem onlyRefused_updated {α : Type} {column : Option Json → Except Failure (Option α)}
    (hcolumn : ∀ x, OnlyRefused (column x)) (x : Option Json) :
    OnlyRefused (updated column x) := by
  unfold updated
  split
  · exact onlyRefused_ok id
  · intro e he
    cases hx : column x with
    | ok v =>
        rw [hx] at he
        cases he
    | error e' =>
        rw [hx] at he
        obtain rfl := Except.error.inj he
        exact hcolumn x e' hx

theorem onlyRefused_emptyInvoice (env : Env) (app_id : Int) (app : App) (uid : Json)
    (options : List (String × Json)) : OnlyRefused (emptyInvoice env app_id app uid options) := by
  unfold emptyInvoice
  apply onlyRefused_bind (onlyRefused_requiredText _)
  intro uid
  apply onlyRefused_bind (onlyRefused_textColumn _)
  intro uri
  apply onlyRefused_bind (onlyRefused_textColumn _)
  intro currency
  apply onlyRefused_bind (onlyRefused_decimalColumn _)
  intro amount
  apply onlyRefused_bind (onlyRefused_textColumn _)
  intro webhook_url
  apply onlyRefused_bind (onlyRefused_textColumn _)
  intro memo
  apply onlyRefused_bind (onlyRefused_textColumn _)
  intro secret
  apply onlyRefused_bind (onlyRefused_jsonColumn _)
  intro metadata
  apply onlyRefused_bind (onlyRefused_textColumn _)
  intro redirect_url
  apply onlyRefused_bind (onlyRefused_textColumnOr _ _)
  intro fee_rate_level
  exact onlyRefused_ok _

theorem onlyRefused_optionsUpdate (options : Json) : OnlyRefused (optionsUpdate options) := by
  unfold optionsUpdate
  apply onlyRefused_bind (onlyRefused_updated onlyRefused_textColumn _)
  intro webhook_url
  apply onlyRefused_bind (onlyRefused_updated onlyRefused_textColumn _)
  intro redirect_url
  apply onlyRefused_bind (onlyRefused_updated onlyRefused_textColumn _)
  intro secret
  apply onlyRefused_bind (onlyRefused_updated onlyRefused_jsonColumn _)
  intro metadata
  apply onlyRefused_bind (onlyRefused_updated onlyRefused_textColumn _)
  intro fee_rate_level
  exact onlyRefused_ok _

end Columns

/-! ## The options -/

/-- A destination can be converted, and its plugin is there. -/
structure Payable (env : Env) (rows : List Price) (entry : TemplateOption) (to_ : TemplateTo) :
    Prop where
  priced : ∃ q, QuotedAs rows to_.amount to_.currency entry.currency q
  plugin : (find env entry.currency (orElse entry.chain entry.currency)).isOk = true

/-- The output of a destination: its address, its amount converted. -/
structure OutputOf (env : Env) (rows : List Price) (entry : TemplateOption) (to_ : TemplateTo)
    (output : Output) : Prop where
  address : output.address = to_.address
  amount : ∃ q, QuotedAs rows to_.amount to_.currency entry.currency q ∧
    toSatoshis env q entry.currency (orElse entry.chain entry.currency) = .ok output.amount

/-- The option of an entry: an output for each of its destinations, in their order. -/
structure OptionOf (env : Env) (rows : List Price) (uid : String) (entry : TemplateOption)
    (o : PaymentOption) : Prop where
  invoice_uid : o.invoice_uid = uid
  currency : o.currency = entry.currency
  chain : o.chain = orElse entry.chain entry.currency
  outputs : ∃ outputs, o.outputs = some outputs ∧
    List.Forall₂ (OutputOf env rows entry) entry.to_ outputs

section Options

variable {env : Env} {A : Answer → Prop} {s w : World}

theorem wp_templateOutput_rows {entry : TemplateOption} {to_ : TemplateTo} :
    (templateOutput env entry to_).wp A
      (fun output t => t = s ∧ OutputOf env s.prices.rows entry to_ output)
      (fun _ t => t = s ∧ ¬ Payable env s.prices.rows entry to_) s := by
  unfold templateOutput
  simp only [bind_eq, pure_eq, wp_bind]
  refine wp_mono (fun conversion t ht => ?_) (fun _ t ht => ?_) wp_convert_rows
  · obtain ⟨rfl, hquoted⟩ := ht
    apply wp_ofExcept
    · intro amount hamount
      exact ⟨rfl, rfl, _, hquoted, hamount⟩
    · intro e he
      refine ⟨rfl, fun h => ?_⟩
      obtain ⟨plugin, hfind⟩ := exists_ok h.plugin
      rw [toSatoshis, hfind] at he
      cases he
  · refine ⟨ht.1, fun h => ?_⟩
    obtain ⟨q, hq⟩ := h.priced
    exact ht.2 q hq

theorem wp_templateToOption_rows {uid : String} {entry : TemplateOption} :
    (templateToOption env uid entry).wp A
      (fun o t => OptionOf env s.prices.rows uid entry o ∧ t = s)
      (fun _ t => t = s ∧ ∃ to_ ∈ entry.to_, ¬ Payable env s.prices.rows entry to_) s := by
  unfold templateToOption
  simp only [bind_eq, pure_eq, wp_bind]
  refine wp_mono (fun outputs t ht => ?_) (fun _ _ ht => ht) (wp_mapAll_pointwise
    (P := OutputOf env s.prices.rows entry) (I := fun t => t = s) (fun to_ hto t ht => ?_) rfl)
  · exact ⟨⟨rfl, rfl, rfl, outputs, rfl, ht.1⟩, ht.2⟩
  · subst ht
    apply wp_mono _ _ wp_templateOutput_rows
    · intro output u hu
      exact ⟨hu.2, hu.1⟩
    · intro e u hu
      exact ⟨hu.1, to_, hto, hu.2⟩

theorem wp_outcomeOf_refused {o : PaymentOption} : (outcomeOf (storeTemplateOption o)).wp A
    (fun outcome _ => OnlyRefused outcome ∧ True) (fun _ _ => False) s := by
  unfold outcomeOf storeTemplateOption
  simp only [pure_eq, wp_tryCatch, wp_bind]
  split
  · apply Delegate.wp_create
    · intro now tb _ _
      exact ⟨onlyRefused_ok _, trivial⟩
    · intro now _
      refine ⟨fun e he => ?_, trivial⟩
      obtain rfl := Except.error.inj he
      trivial
  · refine ⟨fun e he => ?_, trivial⟩
    obtain rfl := Except.error.inj he
    trivial

/-- `Promise.all` rejects with what one of them was rejected with. -/
theorem error_of_mapM {α : Type} {outcomes : List (Except Failure α)} {e : Failure}
    (h : outcomes.mapM id = .error e) : Except.error e ∈ outcomes := by
  induction outcomes with
  | nil => cases h
  | cons outcome outcomes ih =>
      rw [List.mapM_cons] at h
      cases outcome with
      | error e' =>
          obtain rfl := Except.error.inj h
          exact List.mem_cons_self
      | ok a =>
          cases hrest : outcomes.mapM id with
          | error e' =>
              rw [hrest] at h
              obtain rfl := Except.error.inj h
              exact List.mem_cons_of_mem _ (ih hrest)
          | ok as =>
              rw [hrest] at h
              cases h

/-- The option stored for an entry is the one computed. -/
theorem OptionOf.of_stores {rows : List Price} {uid : String} {entry : TemplateOption}
    {o stored : PaymentOption} (h : OptionOf env rows uid entry o) (hs : Stores o stored) :
    OptionOf env rows uid entry stored where
  invoice_uid := hs.invoice_uid.trans h.invoice_uid
  currency := hs.currency.trans h.currency
  chain := hs.chain.trans h.chain
  outputs := by
    rw [hs.outputs]
    exact h.outputs

theorem forall₂_optionOf {rows : List Price} {uid : String} {entries : List TemplateOption}
    {options stored : List PaymentOption}
    (h : List.Forall₂ (OptionOf env rows uid) entries options)
    (hs : List.Forall₂ Stores options stored) :
    List.Forall₂ (OptionOf env rows uid) entries stored := by
  induction h generalizing stored with
  | nil =>
      cases hs
      exact .nil
  | cons hhead _ ih =>
      cases hs with
      | cons hstore hrest => exact .cons (hhead.of_stores hstore) (ih hrest)

/-- An option for each entry, or none at all. -/
theorem wp_paymentRequestToPaymentOptions_rows {request : PaymentRequest} :
    (paymentRequestToPaymentOptions env request).wp A
      (fun _ t => ∃ added, WithOptions s added t ∧ List.Forall₂
        (OptionOf env s.prices.rows (nullText request.invoice_uid)) request.template added)
      (fun e t => Refused e ∨ (t = s ∧ ∃ entry ∈ request.template, ∃ to_ ∈ entry.to_,
        ¬ Payable env s.prices.rows entry to_)) s := by
  unfold paymentRequestToPaymentOptions
  simp only [bind_eq, wp_bind]
  have hoptions : (mapAll request.template
      (templateToOption env (nullText request.invoice_uid))).wp A
      (fun options t => List.Forall₂
        (OptionOf env s.prices.rows (nullText request.invoice_uid)) request.template options ∧
          t = s)
      (fun _ t => t = s ∧ ∃ entry ∈ request.template, ∃ to_ ∈ entry.to_,
        ¬ Payable env s.prices.rows entry to_) s := by
    apply wp_mapAll_pointwise (I := fun t => t = s)
    · rintro entry hentry _ rfl
      apply wp_mono (fun _ _ h => h) _ wp_templateToOption_rows
      intro e t ht
      exact ⟨ht.1, entry, hentry, ht.2⟩
    · rfl
  have hrefused : ∀ (options : List PaymentOption) (t : World),
      (mapAll options fun o => outcomeOf (storeTemplateOption o)).wp A
        (fun outcomes _ => List.Forall₂ (fun _ outcome => OnlyRefused outcome) options outcomes ∧
          True) (fun _ _ => False) t := by
    intro options t
    apply wp_mapAll_pointwise (I := fun _ => True)
    · intro o _ u _
      exact wp_outcomeOf_refused
    · trivial
  apply wp_mono _ (fun _ _ h => .inr h) hoptions
  rintro options t ⟨hmade, rfl⟩
  apply wp_mono _ (fun _ _ h => h.1.elim) (wp_and wp_storeAll (hrefused options t))
  rintro outcomes u ⟨⟨hrows, hstored⟩, honly, -⟩
  apply wp_ofExcept
  · intro stored hok
    obtain rfl := outcomes_ok hok
    rw [toOption_map_ok] at hrows
    exact ⟨stored, hrows, forall₂_optionOf hmade (stored_of_forall₂ hstored)⟩
  · intro e he
    obtain ⟨_, -, hwhich⟩ := (mem_of_pointwise honly).2 _ (error_of_mapM he)
    exact .inl (hwhich e rfl)

end Options

/-! ## The whole call -/

/-- What a request that resolved has made: itself, an invoice, and for each entry of the
template an option of that invoice. -/
structure Created (env : Env) (template : List Json) (w t : World) (request : PaymentRequest)
    (invoice : Invoice) (added : List PaymentOption) : Prop where
  entries : env.paymentRequestTemplate template = some request.template
  requests : t.paymentRequests.rows = w.paymentRequests.rows ++ [request]
  invoice_uid : request.invoice_uid = some invoice.uid
  invoices : t.invoices.rows = w.invoices.rows ++ [invoice]
  paymentOptions : t.paymentOptions.rows = w.paymentOptions.rows ++ added
  options : List.Forall₂ (OptionOf env w.prices.rows invoice.uid) request.template added

/-- What a rejected request has left in the three tables, and why it was rejected. -/
inductive Left (env : Env) (app_id : Int) (template : List Json) (w t : World) : Prop
  /-- The template was not accepted: nothing. -/
  | nothing (hwhy : (∃ e, ensureConsistentCurrencyAmount template = .error e) ∨
        env.paymentRequestTemplate template = none) (h : t = w)
  /-- There is no such app: the request. -/
  | request (r : PaymentRequest) (hwhy : ∀ app ∈ w.apps.rows, (app.id : Int) ≠ app_id)
      (hrequests : t.paymentRequests.rows = w.paymentRequests.rows ++ [r])
      (hinvoices : t.invoices = w.invoices) (hoptions : t.paymentOptions = w.paymentOptions)
  /-- Some destination cannot be converted: the request and its invoice. -/
  | invoice (r : PaymentRequest) (invoice : Invoice)
      (hwhy : ∃ entry ∈ r.template, ∃ to_ ∈ entry.to_, ¬ Payable env w.prices.rows entry to_)
      (hentries : env.paymentRequestTemplate template = some r.template)
      (hrequests : t.paymentRequests.rows = w.paymentRequests.rows ++ [r])
      (huid : r.invoice_uid = some invoice.uid)
      (hinvoices : t.invoices.rows = w.invoices.rows ++ [invoice])
      (hoptions : t.paymentOptions = w.paymentOptions)

section Call

variable {env : Env} {A : Answer → Prop} {s w : World} {fields : List (String × Json)}

theorem wp_createEmptyInvoice_app {app_id : Int} : (createEmptyInvoice env app_id fields).wp A
    (fun r t => WithInvoice s r t)
    (fun e t => Refused e ∨ (t = s ∧ ∀ app ∈ s.apps.rows, (app.id : Int) ≠ app_id)) s := by
  unfold createEmptyInvoice
  simp only [bind_eq]
  rw [wp_bind]
  have huid : (chooseUid fields).wp A (fun _ t => t = s) (fun _ _ => False) s := by
    unfold chooseUid
    split
    · rfl
    · apply wp_ask_ok
      intro c _
      rfl
  refine wp_mono (fun uid t ht => ?_) (fun _ _ h => h.elim) huid
  subst ht
  rw [wp_bind]
  refine Delegate.wp_findFirstOrThrow (fun app _ _ => ?_) fun hnone => ?_
  · rw [wp_bind]
    apply wp_ofExcept
    · intro data _
      refine Delegate.wp_create (fun now tb hrows _ => ?_) fun _ _ => .inl trivial
      exact ⟨tb, rfl, hrows, rfl⟩
    · intro e he
      exact .inl (onlyRefused_emptyInvoice _ _ _ _ _ e he)
  · right
    refine ⟨rfl, fun app happ => ?_⟩
    have hother := hnone app happ
    simpa using hother

theorem wp_updateFromOptions_refused {r : Invoice} {options : Json} (h : WithInvoice w r s) :
    (updateFromOptions r options).wp A
      (fun _ t => ∃ r', r'.uid = r.uid ∧ WithInvoice w r' t) (fun e _ => Refused e) s := by
  have hrefused : (updateFromOptions r options).wp A (fun _ _ => True) (fun e _ => Refused e) s := by
    unfold updateFromOptions
    split
    · simp only [bind_eq, pure_eq]
      rw [wp_bind]
      apply wp_ofExcept
      · intro change _
        rw [wp_bind]
        refine Delegate.wp_update (fun _ _ _ _ _ _ _ => trivial) fun now te herr => ?_
        obtain ⟨tb, rfl, hrows, hid⟩ := h
        have hr : r ∈ tb.rows := by
          rw [hrows]
          simp
        exact absurd herr (Table.update?_ne_error hr rfl rfl)
      · intro e he
        exact onlyRefused_optionsUpdate options e he
    · trivial
  exact wp_mono (fun _ _ ht => ht.2) (fun _ _ ht => ht.1) (wp_and hrefused (wp_updateFromOptions h))

/-- The request as it is inserted. -/
def requestRow (w : World) (app_id : Int) (entries : List TemplateOption) (now : Time) :
    PaymentRequest :=
  { id := w.paymentRequests.next, app_id, template := entries, createdAt := now,
    updatedAt := now }

/-- The request once it has its invoice. -/
def requestFor (invoice : Invoice) (webpage_url : String) (now : Time) (r : PaymentRequest) :
    PaymentRequest :=
  { r with invoice_uid := some invoice.uid, uri := invoice.uri,
           webpage_url := some webpage_url, status := some "unpaid", updatedAt := now }

/-- A call resolves with everything made, or leaves what it had written so far. -/
theorem wp_createPaymentRequest_left {app_id : Int} {template : List Json}
    {options : Option Json} : (createPaymentRequest env app_id template options).wp A
      (fun request t => ∃ invoice added, Created env template w t request invoice added)
      (fun e t => Refused e ∨ Left env app_id template w t) w := by
  unfold createPaymentRequest
  simp only [bind_eq, pure_eq]
  rw [wp_bind]
  apply wp_ofExcept _ fun e he => .inr (.nothing (.inl ⟨e, he⟩) rfl)
  rintro ⟨currency, amount⟩ _
  simp only
  cases hentries : env.paymentRequestTemplate template with
  | none => exact .inr (.nothing (.inr hentries) rfl)
  | some entries =>
      simp only
      rw [wp_bind]
      apply Delegate.wp_create _ fun _ _ => .inl trivial
      intro now requests hrequests _
      rw [wp_bind]
      apply wp_mono _ _ wp_createEmptyInvoice_app
      swap
      · rintro e t (hrefused | ⟨rfl, hno⟩)
        · exact .inl hrefused
        · exact .inr (.request _ hno hrequests rfl rfl)
      intro invoice t hwith
      rw [wp_bind]
      apply wp_mono _ (fun _ _ h => .inl h) (wp_updateFromOptions_refused hwith)
      rintro _ s ⟨r, huid, tb, rfl, hinvoices, -⟩
      rw [wp_bind]
      apply wp_ofExcept _ fun e he => .inl (onlyRefused_requiredText _ e he)
      intro webpage_url _
      -- the request made above is the last row, and stays it
      have hrows : requests.rows = w.paymentRequests.rows ++ [requestRow w app_id entries now] :=
        hrequests
      rw [wp_bind]
      apply Delegate.wp_update
      swap
      · intro now' te herr
        have hmem : requestRow w app_id entries now ∈ requests.rows := by
          rw [hrows]
          simp
        exact absurd herr (Table.update?_ne_error hmem rfl rfl)
      intro now' patched row _ _ hpatched _
      have hlast : patched.rows = w.paymentRequests.rows ++
          [requestFor invoice webpage_url now' (requestRow w app_id entries now)] := by
        have hsame : patched.rows = Table.patch w.paymentRequests.next
            (requestFor invoice webpage_url now') requests.rows := hpatched
        rw [hsame, hrows]
        exact Table.patch_append_last rfl rfl
      rw [wp_bind]
      apply Delegate.wp_findFirstOrThrow
      swap
      · intro hnone
        have hmem : requestFor invoice webpage_url now' (requestRow w app_id entries now) ∈
            patched.rows := by
          rw [hlast]
          simp
        have hother : (w.paymentRequests.next == w.paymentRequests.next) = false := hnone _ hmem
        rw [beq_self_eq_true] at hother
        cases hother
      intro request hrequest hid
      obtain rfl : request = requestFor invoice webpage_url now'
          (requestRow w app_id entries now) := by
        apply Table.eq_of_id (t := patched) hrequest
        · rw [hlast]
          simp
        · exact beq_iff_eq.mp hid
      rw [wp_bind]
      apply wp_mono _ _ wp_paymentRequestToPaymentOptions_rows
      · rintro _ u ⟨added, ⟨tb', rfl, hoptions⟩, hmade⟩
        exact ⟨r, added, hentries, hlast, congrArg some huid.symm, hinvoices, hoptions,
          huid ▸ hmade⟩
      · rintro e u (hrefused | ⟨rfl, hwhy⟩)
        · exact .inl hrefused
        · exact .inr (.invoice _ r hwhy hentries hlast (congrArg some huid.symm) hinvoices rfl)

end Call

/-- **All or what was written by then**: a request resolves with one option for each entry
of its template, or it is rejected and leaves no option. A template that is not accepted
leaves no row; a missing app leaves the request, a destination that cannot be converted
the request and its invoice. -/
theorem created_or_left (env : Env) (app_id : Int) (template : List Json)
    (options : Option Json) (w : World) :
    (createPaymentRequest env app_id template options).wp AnyAnswer
      (fun request t => ∃ invoice added, Created env template w t request invoice added)
      (fun e t => ¬ Refused e → Left env app_id template w t) w := by
  apply wp_mono (fun _ _ h => h) _ wp_createPaymentRequest_left
  rintro e t (hrefused | hleft) hno
  · exact absurd hrefused hno
  · exact hleft

/-! ## A price that is missing -/

/-- An app, and no prices. -/
def unpriced : World where
  apps := .single { id := 1, account_id := 7 }

def rejected : Except Failure PaymentRequest × World :=
  (createPaymentRequest shop 1 oneBtc none).exec fresh unpriced

/-- The request and its invoice are still there. -/
theorem rows_left :
    ¬ ∀ (env : Env) (app_id : Int) (template : List Json) (options : Option Json) (w : World),
      (createPaymentRequest env app_id template options).wp AnyAnswer
        (fun request t => ∃ invoice added, Created env template w t request invoice added)
        (fun e t => ¬ Refused e → t.paymentRequests.rows = w.paymentRequests.rows ∧
          t.invoices.rows = w.invoices.rows ∧ t.paymentOptions.rows = w.paymentOptions.rows)
        w := by
  intro h
  have hwhy : rejected.1.map (fun _ => ()) = .error (.error "no price for BTC to USD") := by
    decide +kernel
  have hrows : rejected.2.invoices.rows.length = 1 := by decide +kernel
  have hkept : ∀ e t, rejected = (.error e, t) → ¬ Refused e → t.invoices.rows = [] := by
    intro e t hrun hno
    exact (wp_exec_error (h shop 1 oneBtc none unpriced) (anyAnswer fresh) hrun hno).2.1
  generalize rejected = result at *
  obtain ⟨outcome, t⟩ := result
  cases outcome with
  | ok request => cases hwhy
  | error e =>
      obtain rfl := Except.error.inj hwhy
      rw [hkept _ t rfl id] at hrows
      cases hrows

end Anypay.RejectedRequests
