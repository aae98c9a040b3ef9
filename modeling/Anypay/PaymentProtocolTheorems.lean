/-
Anypay.PaymentProtocolTheorems — whether every protocol asks for the same option.

A wallet that was shown an option of an invoice, by its currency and its chain, may
go on in any protocol. `getPaymentRequest` and `submitPayment` find the option by
both, `buildPaymentRequestForInvoice` by the currency alone, and none of them says
which row it wants where several match. `same_option_iff`: they agree about every
option exactly where the options in one currency have the same outputs.

* `reach_hasOutputs` — every option ever stored has outputs.
-/
import Anypay.OptionTotalTheorems
import Anypay.PaymentProtocols
import Anypay.RefreshTheorems

namespace Anypay.PaymentProtocols

open Store Async Proc Machine OptionTotals

/-! ## Options have outputs -/

def HasOutputs (w : World) : Prop := ∀ o ∈ w.paymentOptions.rows, o.outputs.isSome

/-- No step leaves an option without outputs. -/
def Outputs (s t : World) : Prop := HasOutputs s → HasOutputs t

section Outputs

variable {env : Env}

theorem Outputs.refl (s : World) : Outputs s s := id

theorem Outputs.trans {s t u : World} (h : Outputs s t) (h' : Outputs t u) : Outputs s u :=
  h' ∘ h

theorem outputs_of_keeps {α : Type} {p : Task α} (hp : p.Keeps World.paymentOptions) :
    p.Always Outputs fun _ => True := by
  refine always_mono hp (fun s t hst hs o ho => ?_) fun _ h => h
  rw [hst] at ho
  exact hs o ho

theorem Adds.outputs {s t : World} (h : Adds s t) : Outputs s t := by
  intro hs o ho
  rcases h o ho with ho | ⟨address, n, houtputs, -⟩
  · exact hs o ho
  · rw [houtputs]
    rfl

theorem keeps_refreshedOutputs {δ : Type} {view : World → δ} (option : PaymentOption)
    (destinations : List TemplateTo) :
    (mapAll destinations (refreshedOutput env option)).Keeps view := by
  refine keeps_mapAll fun destination _ => ?_
  unfold refreshedOutput
  simp only [bind_eq, pure_eq]
  exact keeps_bind (keeps_convert _ _) fun _ => keeps_bind (keeps_ofExcept _) fun _ => trivial

theorem outputs_templateToOption (uid : String) (entry : TemplateOption) :
    (templateToOption env uid entry).Always Outputs fun option => option.outputs.isSome := by
  unfold templateToOption
  simp only [bind_eq, pure_eq]
  refine always_bind (outputs_of_keeps (keeps_refreshedOutputs
    { id := 0, invoice_uid := uid, currency := entry.currency,
      chain := orElse entry.chain entry.currency } entry.to_)) fun _ _ => ?_
  rfl

theorem outputs_storeTemplateOption {option : PaymentOption} (h : option.outputs.isSome) :
    (outcomeOf (storeTemplateOption option)).Always Outputs fun _ => True := by
  unfold outcomeOf storeTemplateOption
  refine always_tryCatch (always_bind (P := fun _ => True) ?_ fun _ _ => trivial) fun _ => trivial
  split
  · refine Delegate.always_create Outputs.refl fun s now t hrows hs o ho => ?_
    change o ∈ t.rows at ho
    rw [hrows] at ho
    rcases List.mem_append.mp ho with ho | ho
    · exact hs o ho
    · rw [List.mem_singleton.mp ho]
      exact h
  · exact trivial

theorem outputs_paymentRequestToPaymentOptions (paymentRequest : PaymentRequest) :
    (paymentRequestToPaymentOptions env paymentRequest).Always Outputs fun _ => True := by
  unfold paymentRequestToPaymentOptions
  simp only [bind_eq]
  refine always_bind (always_mapAll fun entry _ => outputs_templateToOption _ entry)
    fun options hoptions => ?_
  refine always_bind (always_mapAll fun option hoption =>
    outputs_storeTemplateOption (hoptions option hoption)) fun _ _ => ?_
  exact always_ofExcept fun _ _ => trivial

theorem outputs_refreshOption (invoice : Invoice) (paymentRequest : PaymentRequest)
    (option : PaymentOption) :
    (refreshOption env invoice paymentRequest option).Always Outputs fun _ => True := by
  unfold refreshOption
  split
  · exact trivial
  · simp only [bind_eq, pure_eq]
    refine always_bind (outputs_of_keeps (keeps_refreshedOutputs _ _)) fun outputs _ => ?_
    refine always_bind (outputs_of_keeps keeps_query) fun record _ => ?_
    refine always_bind (P := fun _ => True) ?_ fun _ _ => trivial
    refine Delegate.always_update Outputs.refl fun s now t hrows hs o ho => ?_
    change o ∈ t.rows at ho
    rw [hrows] at ho
    obtain ⟨x, hx, rfl⟩ := List.mem_map.mp ho
    split
    · rfl
    · exact hs x hx

theorem outputs_refreshInvoice (uid : String) :
    (refreshInvoice env uid).Always Outputs fun _ => True := by
  unfold refreshInvoice
  simp only [bind_eq, pure_eq]
  refine always_bind (outputs_of_keeps keeps_query) fun invoice _ => ?_
  refine always_bind (outputs_of_keeps keeps_query) fun options _ => ?_
  refine always_bind (outputs_of_keeps keeps_query) fun paymentRequest _ => ?_
  refine always_bind (always_forEach fun option _ => outputs_refreshOption _ _ option) fun _ _ => ?_
  refine always_bind (outputs_of_keeps (Delegate.keeps_update fun _ _ => rfl)) fun _ _ => ?_
  exact trivial

theorem outputs_call (x : Call) : (call env x).Always Outputs fun _ => True := by
  cases x with
  | createPaymentOptions account invoice =>
      refine always_bind (P := fun _ => True) ?_ fun _ _ => trivial
      exact always_mono (adds_createPaymentOptions account invoice) (fun _ _ h => Adds.outputs h)
        fun _ h => h
  | paymentRequestToPaymentOptions paymentRequest =>
      exact always_bind (outputs_paymentRequestToPaymentOptions paymentRequest)
        fun _ _ => trivial
  | refreshInvoice uid => exact always_bind (outputs_refreshInvoice uid) fun _ _ => trivial

/-- Every option ever stored has outputs. -/
theorem reach_hasOutputs {w t : World} (hw : w.paymentOptions.rows = [])
    (h : Reach (step env) Unguarded w t) : HasOutputs t := by
  refine h.inv (fun o ho => ?_) fun s e u hs _ hstep => ?_
  · rw [hw] at ho
    cases ho
  · cases e with
    | elsewhere w' =>
        obtain rfl := Option.some.inj hstep
        exact hs
    | run x o =>
        obtain rfl := Option.some.inj hstep
        have hwp := wp_of_always (A := AnyAnswer) Outputs.refl Outputs.trans
          (outputs_call x : (call env x).Always Outputs fun _ => True) s
        exact wp_exec_state (I := Outputs s) (wp_mono (fun _ _ h => h.1) (fun _ _ h => h) hwp)
          (anyAnswer o) hs

end Outputs

/-! ## The same option -/

/-- The request asks for the outputs of the option. -/
def Asks (env : Env) (scripts : Scripts) (option : PaymentOption) : Content → Prop
  | .bip70 request => Bip70.buildOutputs env scripts option = .ok request.outputs
  | .bip270 request => Bip270.buildOutputs env scripts option = .ok request.outputs
  | .jsonV2 request => JsonV2.buildOutputs option = request.outputs

/-- Whatever rows are found, the option of this currency and this chain is shown, and
verified against, as this one is. -/
structure SameOption (env : Env) (scripts : Scripts) (w : World) (invoice : Invoice)
    (option : PaymentOption) : Prop where
  requested : ∀ c request t,
    (getPaymentRequest env invoice option.currency option.chain).exec c w = (.ok request, t) →
      option.outputs = some request.outputs
  listed : ∀ c list t, (listPaymentOptions env invoice).exec c w = (.ok list, t) →
    ∀ x ∈ list.paymentOptions, x.currency = option.currency → x.chain = option.chain →
      x.estimatedAmount = estimatedAmount option.outputs
  built : ∀ protocol c content t, (buildPaymentRequestForInvoice env scripts invoice.uid
    option.currency protocol).exec c w = (.ok content, t) → Asks env scripts option content
  verified : ∀ (payment : SubmitPaymentRequest) c found t,
    payment.invoice_uid = invoice.uid → payment.currency = option.currency →
    orElse payment.chain payment.currency = option.chain →
    (findPaymentOption payment.invoice_uid payment.currency
      (orElse payment.chain payment.currency)).exec c w = (.ok (some found), t) →
      found.outputs = option.outputs

/-- That holds of every option of the invoice. -/
def SameOptions (env : Env) (scripts : Scripts) (w : World) (invoice : Invoice) : Prop :=
  ∀ option ∈ w.paymentOptions.rows, option.invoice_uid = invoice.uid →
    SameOption env scripts w invoice option

/-- Options of the invoice in one currency have the same outputs. -/
def OneAskEach (w : World) (uid : String) : Prop :=
  ∀ option ∈ w.paymentOptions.rows, ∀ other ∈ w.paymentOptions.rows,
    option.invoice_uid = uid → other.invoice_uid = uid → other.currency = option.currency →
      other.outputs = option.outputs

section Same

variable {env : Env} {scripts : Scripts} {w : World} {A : Answer → Prop} {invoice : Invoice}
  {option : PaymentOption}

theorem wp_getPaymentRequest {currency chain : String} :
    (getPaymentRequest env invoice currency chain).wp A
      (fun request _ => ∃ r ∈ w.paymentOptions.rows, r.invoice_uid = invoice.uid ∧
        r.currency = currency ∧ r.outputs = some request.outputs) (fun _ _ => True) w := by
  unfold getPaymentRequest
  split
  · trivial
  split
  · trivial
  simp only [bind_eq, pure_eq, wp_bind]
  apply Delegate.wp_findFirstOrThrow
  · intro r hr hfound
    simp only [Bool.and_eq_true, beq_iff_eq] at hfound
    apply wp_ask
    · intro c _ rate _
      cases houtputs : r.outputs with
      | none => trivial
      | some outputs =>
          simp only [wp_bind]
          apply wp_ask
          · intro c _ now _
            exact ⟨r, hr, hfound.1.1, hfound.1.2, houtputs⟩
          · intro _
            trivial
    · intro _
      trivial
  · intro _
    trivial

theorem wp_listPaymentOptions : (listPaymentOptions env invoice).wp A
    (fun list _ => ∀ x ∈ list.paymentOptions, ∃ r ∈ w.paymentOptions.rows,
      r.invoice_uid = invoice.uid ∧ r.currency = x.currency ∧
        x.estimatedAmount = estimatedAmount r.outputs) (fun _ _ => True) w := by
  unfold listPaymentOptions
  simp only [bind_eq, pure_eq, wp_bind]
  apply Delegate.wp_findMany
  refine wp_mono (fun options t ht => ?_) (fun _ _ _ => trivial) (wp_mapAll_pointwise
    (P := fun r x => x.currency = r.currency ∧ x.estimatedAmount = estimatedAmount r.outputs)
    (I := fun _ => True) (E := fun _ _ => True) (fun r _ t _ => ?_) trivial)
  · apply wp_ask
    · intro c _ now _ x hx
      obtain ⟨r, hr, hcurrency, hamount⟩ := (mem_of_pointwise ht.1).2 x hx
      obtain ⟨hmem, hown⟩ := Table.mem_select.mp hr
      exact ⟨r, hmem, by simpa using hown, hcurrency.symm, hamount⟩
    · intro _
      trivial
  · unfold getRequiredFeeRate
    simp only [wp_bind]
    apply wp_ask
    · intro c _ rate _
      exact ⟨⟨rfl, rfl⟩, trivial⟩
    · intro _
      trivial

/-- A built request asks for the outputs of the option it was built of. -/
theorem wp_buildPaymentRequest (protocol : Protocol) :
    (buildPaymentRequest env scripts option invoice protocol).wp A
      (fun content _ => Asks env scripts option content) (fun _ _ => True) w := by
  cases protocol with
  | bip70 =>
      simp only [buildPaymentRequest, Bip70.buildPaymentRequest, bind_eq, pure_eq, wp_bind]
      refine wp_ofExcept (fun outputs houtputs => ?_) fun _ _ => trivial
      exact wp_ask (fun _ _ _ _ => houtputs) fun _ => trivial
  | bip270 =>
      simp only [buildPaymentRequest, Bip270.buildPaymentRequest, bind_eq, pure_eq, wp_bind]
      apply Delegate.wp_findFirstOrThrow
      · intro found _ _
        have hkeeps : (Bip270.getMerchantData found.uid found.account_id).Keeps id := by
          unfold Bip270.getMerchantData
          split
          · trivial
          · simp only [bind_eq]
            refine keeps_bind keeps_query fun _ => keeps_bind keeps_query fun _ => ?_
            split <;> trivial
        refine wp_of_keeps hkeeps (fun merchantData t _ => ?_) fun _ _ _ => trivial
        exact wp_ofExcept (fun outputs houtputs => houtputs) fun _ _ => trivial
      · intro _
        trivial
  | jsonV2 =>
      simp only [buildPaymentRequest, JsonV2.buildPaymentRequest, bind_eq, pure_eq, wp_bind]
      exact wp_ask (fun _ _ _ _ => rfl) fun _ => trivial

theorem wp_buildPaymentRequestForInvoice {uid currency : String} (protocol : Protocol) :
    (buildPaymentRequestForInvoice env scripts uid currency protocol).wp A
      (fun content _ => ∃ r ∈ w.paymentOptions.rows, r.invoice_uid = uid ∧
        r.currency = currency ∧ Asks env scripts r content) (fun _ _ => True) w := by
  unfold buildPaymentRequestForInvoice
  simp only [bind_eq, wp_bind]
  apply Delegate.wp_findFirstOrThrow
  · intro r hr hfound
    simp only [Bool.and_eq_true, beq_iff_eq] at hfound
    apply Delegate.wp_findFirstOrThrow
    · intro invoice _ _
      refine wp_mono (fun content t hasks => ?_) (fun _ _ h => h)
        (wp_buildPaymentRequest protocol)
      exact ⟨r, hr, hfound.1, hfound.2, hasks⟩
    · intro _
      trivial
  · intro _
    trivial

/-- What is asked for depends on the currency and the outputs. -/
theorem asks_congr {other : PaymentOption} (hcurrency : other.currency = option.currency)
    (houtputs : other.outputs = option.outputs) (hsome : option.outputs.isSome)
    {content : Content} (h : Asks env scripts other content) :
    Asks env scripts option content := by
  cases content with
  | bip70 request =>
      rw [Asks, Bip70.buildOutputs, hcurrency, houtputs] at h
      exact h
  | bip270 request =>
      rw [Asks, Bip270.buildOutputs, hcurrency, houtputs] at h
      exact h
  | jsonV2 request =>
      obtain ⟨outputs, hoption⟩ := Option.isSome_iff_exists.mp hsome
      simp only [Asks, JsonV2.buildOutputs, houtputs, hoption] at h ⊢
      exact h

/-- Where options in one currency have the same outputs, any of them shows them. -/
theorem sameOption_of_oneAskEach (hw : HasOutputs w) (hone : OneAskEach w invoice.uid)
    (hoption : option ∈ w.paymentOptions.rows) (huid : option.invoice_uid = invoice.uid) :
    SameOption env scripts w invoice option := by
  constructor
  · intro c request t hrun
    obtain ⟨r, hr, hru, hcurrency, houtputs⟩ := wp_exec_ok (wp_getPaymentRequest (w := w))
      (anyAnswer c) hrun
    rw [← hone option hoption r hr huid hru hcurrency, houtputs]
  · intro c list t hrun x hx hcurrency _
    obtain ⟨r, hr, hru, hxc, hamount⟩ := wp_exec_ok (wp_listPaymentOptions (w := w))
      (anyAnswer c) hrun x hx
    rw [hamount, hone option hoption r hr huid hru (hxc.trans hcurrency)]
  · intro protocol c content t hrun
    obtain ⟨r, hr, hru, hcurrency, hasks⟩ := wp_exec_ok
      (wp_buildPaymentRequestForInvoice (w := w) protocol) (anyAnswer c) hrun
    exact asks_congr hcurrency (hone option hoption r hr huid hru hcurrency)
      (hw option hoption) hasks
  · intro payment c found t hpay hcurrency _ hrun
    have hwp : (findPaymentOption payment.invoice_uid payment.currency
        (orElse payment.chain payment.currency)).wp AnyAnswer
        (fun r _ => ∀ found, r = some found → found ∈ w.paymentOptions.rows ∧
          found.invoice_uid = payment.invoice_uid ∧ found.currency = payment.currency)
        (fun _ _ => True) w := by
      apply Delegate.wp_findFirst
      · intro r hr hfound found hsome
        obtain rfl := Option.some.inj hsome
        simp only [Bool.and_eq_true, beq_iff_eq] at hfound
        exact ⟨hr, hfound.1⟩
      · intro _ found hsome
        cases hsome
    obtain ⟨hfound, hfu, hfc⟩ := wp_exec_ok hwp (anyAnswer c) hrun found rfl
    exact hone option hoption found hfound huid (hfu.trans hpay) (hfc.trans hcurrency)

/-- A JSON v2 request can be built of any option in the currency. -/
theorem exists_jsonRequest (env : Env) (scripts : Scripts) {other : PaymentOption}
    (hinvoice : invoice ∈ w.invoices.rows)
    (hother : other ∈ w.paymentOptions.rows) (huid : other.invoice_uid = invoice.uid) :
    ∃ c request, (buildPaymentRequestForInvoice env scripts invoice.uid other.currency
      .jsonV2).exec c w = (.ok (.jsonV2 request), w) ∧
        request.outputs = JsonV2.buildOutputs other := by
  have hoption : ∃ n, w.paymentOptions.pick (fun r =>
      r.invoice_uid == invoice.uid && r.currency == other.currency) n = some other :=
    Table.exists_pick hother (by simp [huid])
  have hfound : ∃ m, w.invoices.pick (fun r => r.uid == invoice.uid) m = some invoice :=
    Table.exists_pick hinvoice (by simp)
  obtain ⟨n, hn⟩ := hoption
  obtain ⟨m, hm⟩ := hfound
  refine ⟨fun k => if k = 0 then { row := n } else { row := m }, ?_⟩
  have hget : prisma.payment_options.get w = w.paymentOptions := rfl
  have hget' : prisma.invoices.get w = w.invoices := rfl
  simp only [buildPaymentRequestForInvoice, bind_eq, Delegate.exec_findFirstOrThrow_bind,
    tail_apply, hget, hget', if_true, hn, Nat.zero_add, one_ne_zero, if_false, hm]
  exact ⟨_, rfl, rfl⟩

/-- An output is made of its request's again. -/
theorem outputs_of_buildOutputs {other : PaymentOption} {outputs others : List Output}
    (houtputs : option.outputs = some outputs) (hothers : other.outputs = some others)
    (h : JsonV2.buildOutputs option = JsonV2.buildOutputs other) : outputs = others := by
  simp only [JsonV2.buildOutputs, houtputs, hothers] at h
  have hinjective : Function.Injective fun output : Output =>
      ({ address := output.address, amount := output.amount.map fun n : Int => (n : Rat),
         script := output.script } : AddressOutput) := by
    intro x y hxy
    obtain ⟨haddress, hamount, hscript⟩ := AddressOutput.mk.inj hxy
    have hcast : Function.Injective fun n : Int => (n : Rat) := Int.cast_injective
    have hxamount := Option.map_injective hcast hamount
    cases x
    cases y
    simp only at haddress hxamount hscript
    rw [haddress, hxamount, hscript]
  exact List.map_injective_iff.mpr hinjective h

/-- Every protocol shows and checks every option of an invoice alike exactly where its
options in one currency have the same outputs. -/
theorem same_option_iff (env : Env) (scripts : Scripts) {w₀ w : World} {invoice : Invoice}
    (hw : w₀.paymentOptions.rows = []) (hreach : Reach (step env) Unguarded w₀ w)
    (hinvoice : invoice ∈ w.invoices.rows) :
    SameOptions env scripts w invoice ↔ OneAskEach w invoice.uid := by
  have houtputs := reach_hasOutputs hw hreach
  constructor
  · intro hsame option hoption other hother huid huid' hcurrency
    obtain ⟨c, request, hrun, hrequest⟩ := exists_jsonRequest env scripts hinvoice hother huid'
    rw [hcurrency] at hrun
    have hasks := (hsame option hoption huid).built .jsonV2 c _ _ hrun
    obtain ⟨outputs, hsome⟩ := Option.isSome_iff_exists.mp (houtputs option hoption)
    obtain ⟨others, hsome'⟩ := Option.isSome_iff_exists.mp (houtputs other hother)
    rw [hsome, hsome', outputs_of_buildOutputs hsome hsome'
      ((show JsonV2.buildOutputs option = request.outputs from hasks).trans hrequest)]
  · intro hone option hoption huid
    exact sameOption_of_oneAskEach houtputs hone hoption huid

end Same

/-! ## One currency on two chains -/

/-- Addresses for USDC on two chains, and an invoice over ten dollars. -/
def usdcInvoice (eth matic : String) : World :=
  { Refresh.usdcAccount eth matic with invoices := .single tenDollars }

/-- The world once the invoice has its options. -/
def usdcOptions (eth matic : String) : World :=
  ((call Refresh.usdcEnv (.createPaymentOptions (.obj [("id", .num 1)]) tenDollars)).exec
    (fun _ => {}) (usdcInvoice eth matic)).2

theorem reach_usdcOptions (eth matic : String) :
    Reach (step Refresh.usdcEnv) Unguarded (usdcInvoice eth matic) (usdcOptions eth matic) :=
  .step (e := .run (.createPaymentOptions (.obj [("id", .num 1)]) tenDollars) fun _ => {})
    .start trivial rfl

example : (usdcOptions "0xe" "0xa").paymentOptions.rows.length = 2 := by decide +kernel

/-- Making its options leaves the invoice there. -/
theorem tenDollars_mem (eth matic : String) :
    tenDollars ∈ (usdcOptions eth matic).invoices.rows := by
  have hwp : (call Refresh.usdcEnv
      (.createPaymentOptions (.obj [("id", .num 1)]) tenDollars)).wp AnyAnswer
      (fun _ t => t.invoices = (usdcInvoice eth matic).invoices)
      (fun _ t => t.invoices = (usdcInvoice eth matic).invoices) (usdcInvoice eth matic) := by
    rw [call, discard_eq, wp_bind]
    refine wp_mono (fun options t ht => ?_) (fun e t ht => by rw [ht.1]) wp_createPaymentOptions
    obtain ⟨-, table, rfl, -⟩ := ht
    rfl
  have hkept : (usdcOptions eth matic).invoices = (usdcInvoice eth matic).invoices := by
    unfold usdcOptions
    exact wp_exec_state (I := fun t : World => t.invoices = (usdcInvoice eth matic).invoices)
      hwp (anyAnswer _)
  rw [hkept]
  exact List.mem_cons_self

/-- No library has a script. -/
def noScripts : Scripts := fun _ => ⟨fun _ => none, fun _ => none, fun _ => none⟩

/-- With one address for both chains all protocols agree. -/
theorem usdc_same : SameOptions Refresh.usdcEnv noScripts (usdcOptions "0xa" "0xa") tenDollars := by
  have hmem := tenDollars_mem "0xa" "0xa"
  have hone : OneAskEach (usdcOptions "0xa" "0xa") tenDollars.uid := by
    unfold OneAskEach
    decide +kernel
  exact (same_option_iff Refresh.usdcEnv noScripts rfl (reach_usdcOptions _ _) hmem).mpr hone

/-- With two addresses the request built for USDC may ask for the other chain's. -/
theorem usdc_other_chain : ¬ ∀ (env : Env) (scripts : Scripts) (w₀ w : World)
    (invoice : Invoice), w₀.paymentOptions.rows = [] → Reach (step env) Unguarded w₀ w →
    invoice ∈ w.invoices.rows → SameOptions env scripts w invoice := by
  intro h
  have hmem := tenDollars_mem "0xe" "0xa"
  have hsame := h Refresh.usdcEnv noScripts _ _ tenDollars rfl (reach_usdcOptions "0xe" "0xa") hmem
  have heth : ∃ o ∈ (usdcOptions "0xe" "0xa").paymentOptions.rows, o.invoice_uid = "u" ∧
      o.currency = "USDC" ∧ (JsonV2.buildOutputs o).map AddressOutput.address = ["0xe"] := by
    decide +kernel
  have hmatic : ∃ o ∈ (usdcOptions "0xe" "0xa").paymentOptions.rows, o.invoice_uid = "u" ∧
      o.currency = "USDC" ∧ (JsonV2.buildOutputs o).map AddressOutput.address = ["0xa"] := by
    decide +kernel
  obtain ⟨eth, heth, huid, hcurrency, hpay⟩ := heth
  obtain ⟨matic, hmatic, huid', hcurrency', hpay'⟩ := hmatic
  obtain ⟨c, request, hrun, hrequest⟩ := exists_jsonRequest Refresh.usdcEnv noScripts hmem heth huid
  rw [hcurrency, ← hcurrency'] at hrun
  have hasks : JsonV2.buildOutputs matic = request.outputs :=
    (hsame matic hmatic huid').built .jsonV2 c _ _ hrun
  rw [hasks, hrequest, hpay] at hpay'
  exact absurd hpay' (by decide)

end Anypay.PaymentProtocols
