/-
Anypay.OptionTotalTheorems — whether an option's amount is the sum of its outputs.

`createPaymentOptions` stores the sum with the outputs.
`paymentRequestToPaymentOptions` stores no amount, and `refreshInvoice` puts new
outputs beside the old one. `amounts_sum` says of whole runs when the two agree
all the same: no option is made of a payment request, and no refresh finds that
an option comes to another sum than it was created with.
-/
import Anypay.OptionTotals
import Anypay.QuoteTheorems

namespace Anypay.OptionTotals

open Store Async Proc Machine

/-! ## Sums -/

/-- The option's amount is the sum of its outputs. -/
def Summed (o : PaymentOption) : Prop := ∃ n : Int, o.total = some n ∧ o.amount = some (n : Rat)

def AllSummed (w : World) : Prop := ∀ o ∈ w.paymentOptions.rows, Summed o

/-- Outputs that destinations may come to at these prices. -/
def ComesTo (env : Env) (rows : List Price) (currency chain : String) :
    List TemplateTo → List Output → Prop :=
  List.Forall₂ fun destination output => output.address = destination.address ∧
    ∃ q, QuotedAs rows destination.amount destination.currency currency q ∧
      toSatoshis env q currency chain = .ok output.amount

/-- The option is made of the request, and is stored. -/
def Makes (env : Env) (rows : List Price) (paymentRequest : PaymentRequest) : Prop :=
  (∀ entry ∈ paymentRequest.template, ∃ outputs,
    ComesTo env rows entry.currency (orElse entry.chain entry.currency) entry.to_ outputs) ∧
  ∃ entry ∈ paymentRequest.template, entry.currency.length ≤ 255 ∧
    (orElse entry.chain entry.currency).length ≤ 255

/-- Whatever an option is refreshed to, every option of its currency and its chain
has that for its amount; up to the option that cannot be converted. -/
def SumsFrom (env : Env) (w : World) (uid : String) (paymentRequest : PaymentRequest) :
    List PaymentOption → Prop
  | [] => True
  | option :: options =>
      match templateOf paymentRequest.template option with
      | none => SumsFrom env w uid paymentRequest options
      | some entry =>
          ∀ outputs, ComesTo env w.prices.rows option.currency option.chain entry.to_ outputs →
            (∀ r ∈ w.paymentOptions.rows, r.invoice_uid = uid → r.currency = option.currency →
              r.chain = option.chain →
                ∃ n : Int, totalOf outputs = some n ∧ r.amount = some (n : Rat)) ∧
            SumsFrom env w uid paymentRequest options

/-- It is enough that every option comes to the amount of its row. -/
theorem sumsFrom_of_forall {env : Env} {w : World} {uid : String}
    {paymentRequest : PaymentRequest} {options : List PaymentOption}
    (h : ∀ option ∈ options, ∀ entry, templateOf paymentRequest.template option = some entry →
      ∀ outputs, ComesTo env w.prices.rows option.currency option.chain entry.to_ outputs →
        ∀ r ∈ w.paymentOptions.rows, r.invoice_uid = uid → r.currency = option.currency →
          r.chain = option.chain →
            ∃ n : Int, totalOf outputs = some n ∧ r.amount = some (n : Rat)) :
    SumsFrom env w uid paymentRequest options := by
  induction options with
  | nil => trivial
  | cons option options ih =>
      have hrest := ih fun o ho => h o (List.mem_cons_of_mem _ ho)
      rw [SumsFrom]
      cases hentry : templateOf paymentRequest.template option with
      | none => exact hrest
      | some entry =>
          exact fun outputs houtputs =>
            ⟨h option List.mem_cons_self entry hentry outputs houtputs, hrest⟩

/-- No option is made of a payment request, and options are refreshed to what they
were created with. -/
def KeepsSums (env : Env) (w : World) : Event → Prop
  | .run (.createPaymentOptions _ _) _ => True
  | .run (.paymentRequestToPaymentOptions paymentRequest) _ =>
      ¬ Makes env w.prices.rows paymentRequest
  | .run (.refreshInvoice uid) _ =>
      ∀ invoice ∈ w.invoices.rows, invoice.uid = uid →
        ∀ paymentRequest ∈ w.paymentRequests.rows, paymentRequest.invoice_uid = some uid →
          SumsFrom env w uid paymentRequest
            (w.paymentOptions.select fun r => r.invoice_uid == uid)
  | .elsewhere _ => True

section Step

variable {env : Env} {A : Answer → Prop} {s : World}

/-- The option asks for one amount, which is its own. -/
def Single (o : PaymentOption) : Prop := ∃ address, ∃ n : Int,
  o.outputs = some [{ address, amount := some n }] ∧ o.amount = some (n : Rat)

theorem Single.summed {o : PaymentOption} (h : Single o) : Summed o := by
  obtain ⟨address, n, houtputs, hamount⟩ := h
  refine ⟨n, ?_, hamount⟩
  simp [PaymentOption.total, houtputs, totalOf]

/-- Options are as they were or are new, with one output each. -/
def Adds (s t : World) : Prop :=
  ∀ o ∈ t.paymentOptions.rows, o ∈ s.paymentOptions.rows ∨ Single o

theorem Adds.refl (s : World) : Adds s s := fun _ ho => .inl ho

theorem Adds.trans {s t u : World} (h : Adds s t) (h' : Adds t u) : Adds s u := by
  intro o ho
  rcases h' o ho with ho | hsingle
  · exact h o ho
  · exact .inr hsingle

theorem Adds.allSummed {s t : World} (h : Adds s t) (hs : AllSummed s) : AllSummed t := by
  intro o ho
  rcases h o ho with ho | hsingle
  · exact hs o ho
  · exact hsingle.summed

/-- What leaves the options alone adds none. -/
theorem adds_of_keeps {α : Type} {p : Task α} (hp : p.Keeps World.paymentOptions) :
    p.Always Adds fun _ => True := by
  refine always_mono hp (fun s t hst o ho => ?_) fun _ h => h
  rw [hst] at ho
  exact .inl ho

/-- The row is stored with the sum of its one output. -/
theorem adds_storeOption (invoice : Invoice) (record : Address) (address : String)
    (paymentAmount : Option Int) :
    (storeOption env invoice record address paymentAmount).Always Adds fun _ => True := by
  cases paymentAmount with
  | none => exact trivial
  | some n =>
      simp only [storeOption]
      refine Delegate.always_create Adds.refl fun s now t hrows o ho => ?_
      change o ∈ t.rows at ho
      rw [hrows] at ho
      rcases List.mem_append.mp ho with ho | ho
      · exact .inl ho
      · rw [List.mem_singleton.mp ho]
        exact .inr ⟨address, n, rfl, rfl⟩

theorem adds_createPaymentOptions (account : Json) (invoice : Invoice) :
    (createPaymentOptions env account invoice).Always Adds fun _ => True := by
  unfold createPaymentOptions listAvailableAddresses
  simp only [bind_eq, pure_eq]
  have haddresses : ((Proc.ofExcept (whereInt "addresses" (account.get "id"))).bind
      fun isAccount => (prisma.addresses.findMany fun r => isAccount r.account_id).bind
        fun addresses => done ((addresses.filter fun address =>
          available env address.currency).map fillChain) : Task (List Address)).Always Adds
      fun _ => True := by
    refine adds_of_keeps (keeps_bind (keeps_ofExcept _) fun _ => ?_)
    exact keeps_bind keeps_query fun _ => trivial
  refine always_bind haddresses fun addresses _ => ?_
  refine always_bind (always_mapAll (P := fun _ => True) fun record _ => ?_) fun _ _ => trivial
  refine always_tryCatch ?_ fun _ => trivial
  unfold paymentOptionFor
  simp only [bind_eq, pure_eq]
  refine always_bind (always_ofExcept fun _ _ => trivial) fun currency _ => ?_
  refine always_bind (adds_of_keeps (keeps_convert _ _)) fun conversion _ => ?_
  refine always_bind (always_ofExcept fun _ _ => trivial) fun address _ => ?_
  split
  · exact trivial
  · refine always_bind (always_ofExcept fun _ _ => trivial) fun amount _ => ?_
    exact always_bind (adds_storeOption _ _ _ _) fun _ _ => trivial

/-- An output is computed from a quote. -/
theorem wp_refreshedOutputs (option : PaymentOption) (destinations : List TemplateTo) :
    (mapAll destinations (refreshedOutput env option)).wp A
      (fun outputs t => ComesTo env s.prices.rows option.currency option.chain destinations
        outputs ∧ t = s) (fun _ t => t = s) s := by
  apply wp_mapAll_pointwise (I := fun t => t = s)
  · rintro destination - t rfl
    unfold refreshedOutput
    simp only [bind_eq, pure_eq, wp_bind]
    refine wp_mono (fun conversion u hu => ?_) (fun _ u hu => hu.1) wp_convert_rows
    obtain ⟨rfl, hquoted⟩ := hu
    exact wp_ofExcept (fun amount hamount => ⟨⟨rfl, _, hquoted, hamount⟩, rfl⟩) fun _ _ => rfl
  · rfl

/-- The option is the entry's, and there are outputs for it. -/
structure FromEntry (env : Env) (rows : List Price) (entry : TemplateOption)
    (option : PaymentOption) : Prop where
  currency : option.currency = entry.currency
  chain : option.chain = orElse entry.chain entry.currency
  outputs : ∃ outputs, ComesTo env rows entry.currency (orElse entry.chain entry.currency)
    entry.to_ outputs

theorem wp_templateToOption (uid : String) (entry : TemplateOption) :
    (templateToOption env uid entry).wp A
      (fun option t => FromEntry env s.prices.rows entry option ∧ t = s) (fun _ t => t = s)
      s := by
  unfold templateToOption
  simp only [bind_eq, pure_eq, wp_bind]
  refine wp_mono (fun outputs t ht => ?_) (fun _ _ h => h) (wp_refreshedOutputs
    { id := 0, invoice_uid := uid, currency := entry.currency,
      chain := orElse entry.chain entry.currency } entry.to_)
  exact ⟨⟨rfl, rfl, outputs, ht.1⟩, ht.2⟩

/-- A name that is too long is refused. -/
theorem wp_storeTemplateOption_long {option : PaymentOption}
    (h : ¬ (option.currency.length ≤ 255 ∧ option.chain.length ≤ 255)) :
    (outcomeOf (storeTemplateOption option)).wp A (fun _ t => t = s) (fun _ t => t = s) s := by
  rw [storeTemplateOption, if_neg h]
  rfl

/-- A request that no option is made of. -/
theorem wp_paymentRequestToPaymentOptions {paymentRequest : PaymentRequest}
    (h : ¬ Makes env s.prices.rows paymentRequest) :
    (paymentRequestToPaymentOptions env paymentRequest).wp A (fun _ t => t = s)
      (fun _ t => t = s) s := by
  unfold paymentRequestToPaymentOptions
  simp only [bind_eq, wp_bind]
  refine wp_mono (fun options t ht => ?_) (fun _ _ h => h) (wp_mapAll_pointwise
    (P := FromEntry env s.prices.rows) (I := fun t => t = s)
    (fun entry _ t ht => by rw [ht]; exact wp_templateToOption _ entry) rfl)
  obtain ⟨hall, rfl⟩ := ht
  obtain ⟨hentries, hoptions⟩ := mem_of_pointwise hall
  have hlong : ∀ option ∈ options,
      ¬ (option.currency.length ≤ 255 ∧ option.chain.length ≤ 255) := by
    intro option hoption hshort
    obtain ⟨entry, hentry, hfrom⟩ := hoptions option hoption
    rw [hfrom.currency, hfrom.chain] at hshort
    refine h ⟨fun entry hentry => ?_, entry, hentry, hshort⟩
    obtain ⟨_, -, hfrom⟩ := hentries entry hentry
    exact hfrom.outputs
  refine wp_mono (fun created u hu => wp_ofExcept (fun _ _ => hu) fun _ _ => hu)
    (fun _ _ h => h) ?_
  exact wp_mapAll (I := fun _ u => u = t)
    (fun option hoption _ u hu => by
      rw [hu]; exact wp_storeTemplateOption_long (hlong option hoption)) rfl

/-- Between two options of a refresh: the prices are what they were, so are the
options but for their outputs, and the sums are right. -/
structure Refreshing (s t : World) : Prop where
  prices : t.prices = s.prices
  kept : ∀ r ∈ t.paymentOptions.rows, ∃ r' ∈ s.paymentOptions.rows,
    r'.invoice_uid = r.invoice_uid ∧ r'.currency = r.currency ∧ r'.chain = r.chain ∧
      r'.amount = r.amount
  summed : AllSummed t

/-- A row gets outputs that come to its amount. -/
theorem Refreshing.patched {t : World} (h : Refreshing s t) {record : PaymentOption}
    {outputs : List Output} {tb : Table PaymentOption} {n : Int}
    (hrecord : record ∈ t.paymentOptions.rows)
    (hrows : tb.rows = Table.patch record.id (fun r => { r with outputs := some outputs })
      t.paymentOptions.rows)
    (htotal : totalOf outputs = some n) (hamount : record.amount = some (n : Rat)) :
    Refreshing s { t with paymentOptions := tb } := by
  have hnew : ∀ r ∈ tb.rows, r ∈ t.paymentOptions.rows ∨
      r = { record with outputs := some outputs } := by
    intro r hr
    rw [hrows] at hr
    obtain ⟨x, hx, rfl⟩ := List.mem_map.mp hr
    by_cases hid : Record.id x = record.id
    · rw [if_pos hid, Table.eq_of_id hx hrecord hid]
      exact .inr rfl
    · rw [if_neg hid]
      exact .inl hx
  refine ⟨h.prices, fun r hr => ?_, fun r hr => ?_⟩
  · rcases hnew r hr with hr | rfl
    · exact h.kept r hr
    · exact h.kept record hrecord
  · rcases hnew r hr with hr | rfl
    · exact h.summed r hr
    · exact ⟨n, htotal, hamount⟩

theorem wp_refreshOptions {uid : String} {invoice : Invoice} {paymentRequest : PaymentRequest}
    {options : List PaymentOption} {t : World} (huid : invoice.uid = uid)
    (hsums : SumsFrom env s uid paymentRequest options) (h : Refreshing s t) :
    (forEach options (refreshOption env invoice paymentRequest)).wp A
      (fun _ => Refreshing s) (fun _ => Refreshing s) t := by
  induction options generalizing t with
  | nil => exact h
  | cons option options ih =>
      rw [forEach, wp_bind, refreshOption]
      rw [SumsFrom] at hsums
      cases hentry : templateOf paymentRequest.template option with
      | none =>
          rw [hentry] at hsums
          exact ih hsums h
      | some entry =>
          rw [hentry] at hsums
          simp only [bind_eq, pure_eq, wp_bind]
          refine wp_mono (fun outputs u hu => ?_) (fun _ _ hu => hu ▸ h)
            (wp_refreshedOutputs option entry.to_)
          obtain ⟨houtputs, rfl⟩ := hu
          rw [h.prices] at houtputs
          obtain ⟨hamounts, hrest⟩ := hsums outputs houtputs
          apply Delegate.wp_findFirstOrThrow
          · intro record hrecord hfound
            simp only [Bool.and_eq_true, beq_iff_eq] at hfound
            obtain ⟨⟨hinvoice, hcurrency⟩, hchain⟩ := hfound
            obtain ⟨r, hr, hru, hrc, hrch, hra⟩ := h.kept record hrecord
            obtain ⟨n, htotal, hamount⟩ := hamounts r hr (hru.trans (hinvoice.trans huid))
              (hrc.trans hcurrency) (hrch.trans hchain)
            apply Delegate.wp_update
            · intro now tb _ _ _ hrows _
              exact ih hrest (h.patched hrecord hrows htotal (hra ▸ hamount))
            · intro _ _ _
              exact h
          · intro _
            exact h

theorem wp_refreshInvoice {uid : String} (hs : AllSummed s)
    (h : ∀ o, KeepsSums env s (.run (.refreshInvoice uid) o)) :
    (refreshInvoice env uid).wp A (fun _ => AllSummed) (fun _ => AllSummed) s := by
  unfold refreshInvoice
  simp only [bind_eq, pure_eq, wp_bind]
  apply Delegate.wp_findFirstOrThrow
  · intro invoice hinvoice hfound
    apply Delegate.wp_findMany
    apply Delegate.wp_findFirstOrThrow
    · intro paymentRequest hrequest hfound'
      have huid : invoice.uid = uid := by simpa using hfound
      have hsums := h (fun _ => {}) invoice hinvoice huid paymentRequest hrequest
        (by simpa using hfound')
      have hstart : Refreshing s s := ⟨rfl, fun r hr => ⟨r, hr, rfl, rfl, rfl, rfl⟩, hs⟩
      refine wp_mono (fun _ t ht => ?_) (fun _ _ ht => ht.summed)
        (wp_refreshOptions huid hsums hstart)
      apply Delegate.wp_update
      · intro _ _ _ _ _ _ _
        exact ht.summed
      · intro _ _ _
        exact ht.summed
    · intro _
      exact hs
  · intro _
    exact hs

/-- One event keeps the sums. -/
theorem step_allSummed {t : World} {e : Event} (hs : AllSummed s) (hkeeps : KeepsSums env s e)
    (hstep : step env s e = some t) : AllSummed t := by
  cases e with
  | elsewhere w =>
      obtain rfl := Option.some.inj hstep
      exact hs
  | run x o =>
      obtain rfl := Option.some.inj hstep
      cases x with
      | createPaymentOptions account invoice =>
          have hadds : (call env (.createPaymentOptions account invoice)).Always Adds
              fun _ => True := always_bind (adds_createPaymentOptions account invoice)
            fun _ _ => trivial
          have hwp := wp_of_always (A := AnyAnswer) Adds.refl Adds.trans hadds s
          exact (wp_exec_state (wp_mono (fun _ _ h => h.1) (fun _ _ h => h) hwp)
            (anyAnswer o)).allSummed hs
      | paymentRequestToPaymentOptions paymentRequest =>
          have hwp : (call env (.paymentRequestToPaymentOptions paymentRequest)).wp AnyAnswer
              (fun _ t => t = s) (fun _ t => t = s) s := by
            rw [call, discard_eq, wp_bind]
            exact wp_paymentRequestToPaymentOptions hkeeps
          rw [wp_exec_state (I := fun t => t = s) hwp (anyAnswer o)]
          exact hs
      | refreshInvoice uid =>
          have hwp : (call env (.refreshInvoice uid)).wp AnyAnswer (fun _ => AllSummed)
              (fun _ => AllSummed) s := by
            rw [call, discard_eq, wp_bind]
            exact wp_refreshInvoice hs fun _ => hkeeps
          exact wp_exec_state hwp (anyAnswer o)

end Step

/-! ## Whole runs -/

/-- Where the sums are right the v1 API reports them. -/
theorem reported_totals {w : World} (h : AllSummed w) (invoice : Invoice) (o : Nat → Answer) :
    ∃ options, (getPaymentOptions invoice).exec o w = (.ok options, w) ∧
      options.map Reported.amount = (w.paymentOptions.select fun r =>
        r.invoice_uid == invoice.uid).map fun r => r.total.map fun n : Int => (n : Rat) := by
  refine ⟨_, rfl, ?_⟩
  rw [List.map_map]
  refine List.map_congr_left fun r hr => ?_
  obtain ⟨n, htotal, hamount⟩ := h r (Table.mem_select.mp hr).1
  rw [htotal]
  exact hamount

/-- In a run that makes no option of a payment request and refreshes options to the
sums they were created with, every amount is the sum of its outputs, and the v1 API
reports it. -/
theorem amounts_sum (env : Env) {w t : World} (hw : AllSummed w)
    (h : Reach (step env) (KeepsSums env) w t) : AllSummed t ∧ ∀ invoice o, ∃ options,
      (getPaymentOptions invoice).exec o t = (.ok options, t) ∧
        options.map Reported.amount = (t.paymentOptions.select fun r =>
          r.invoice_uid == invoice.uid).map fun r => r.total.map fun n : Int => (n : Rat) := by
  have hsummed : AllSummed t := h.inv hw fun _ _ _ hs hkeeps hstep =>
    step_allSummed hs hkeeps hstep
  exact ⟨hsummed, reported_totals hsummed⟩

def btcEnv : Env where
  plugins := [("BTC", { currency := "BTC", chain := "BTC", decimals := 8 })]
  coins := [{ code := "BTC" }]

def tenDollars : Invoice :=
  { id := 1, uid := "u", status := .unpaid, currency := some "USD", amount := some 10 }

def toA : TemplateTo := { currency := "USD", amount := some 10, address := "a" }

/-- An invoice over ten dollars, its payment request, and a bitcoin at this many
dollars. -/
def bitcoinAt (dollars : Rat) : World where
  addresses := .single
    { id := 1, account_id := some 1, currency := "BTC", chain := "BTC", value := some "a" }
  prices := .single { id := 1, currency := "BTC", base_currency := some "USD", value := dollars }
  invoices := .single tenDollars
  paymentRequests := .single
    { id := 1, app_id := 1, invoice_uid := some "u",
      template := [{ currency := "BTC", to_ := [toA] }] }

def created : Event :=
  .run (.createPaymentOptions (.obj [("id", .num 1)]) tenDollars) fun _ => {}

def refreshed : Event := .run (.refreshInvoice "u") fun _ => {}

/-- The amounts and the sums of all options after these events. -/
def sumsAfter (w : World) (events : List Event) : Option (List (Option Rat × Option Int)) :=
  (run (step btcEnv) events w).map fun t =>
    t.paymentOptions.rows.map fun o => (o.amount, o.total)

/-- The option is created with 20000 satoshis; at half the price of a bitcoin it is
refreshed to 40000, and the amount stays. -/
theorem amount_stays : ¬ ∀ (env : Env) (w t : World), AllSummed w →
    Reach (step env) Unguarded w t → AllSummed t := by
  intro h
  have hafter : sumsAfter (bitcoinAt 50000) [created, .elsewhere (bitcoinAt 25000), refreshed] =
      some [(some 20000, some 40000)] := by decide +kernel
  obtain ⟨t, hrun, hsums⟩ := Option.map_eq_some_iff.mp hafter
  have hall := h btcEnv (bitcoinAt 50000) t nofun
    (reach_of_run (guarded_unguarded _ _) hrun)
  obtain ⟨o, ho, hvalues⟩ := List.map_eq_singleton_iff.mp hsums
  obtain ⟨n, htotal, hamount⟩ := hall o (by simp [ho])
  obtain ⟨hamount', htotal'⟩ := Prod.mk.inj hvalues
  obtain rfl : n = 40000 := Option.some.inj (htotal.symm.trans htotal')
  rw [hamount'] at hamount
  exact absurd hamount (by decide +kernel)

/-- At 50000 dollars ten of them come to 20000 satoshis. -/
theorem comesTo_satoshis {outputs : List Output}
    (h : ComesTo btcEnv (bitcoinAt 50000).prices.rows "BTC" "BTC" [toA] outputs) :
    totalOf outputs = some 20000 := by
  obtain ⟨output, _, ⟨-, q, hq, hsatoshis⟩, hnil, rfl⟩ := List.forall₂_cons_left_iff.mp h
  obtain rfl := List.forall₂_nil_left_iff.mp hnil
  obtain ⟨rate, hrate, rfl⟩ : QuotedAt (bitcoinAt 50000).prices.rows (some 10) "USD" "BTC" q := by
    simpa [QuotedAs, toA] using hq
  have hrow : ∀ r ∈ (bitcoinAt 50000).prices.rows, r.base_currency = some "USD" ∧
      r.value = 50000 := by decide +kernel
  obtain rfl : rate = some (1 / 50000) := by
    rcases hrate with ⟨_, ⟨r, hr, hbase, -, rfl⟩, -⟩ | ⟨-, _, ⟨r, hr, -, -, rfl⟩, rfl⟩
    · rw [(hrow r hr).1] at hbase
      exact absurd hbase (by decide)
    · rw [(hrow r hr).2]
      decide +kernel
  have hamount : output.amount = some 20000 := by
    have heval : (toSatoshis btcEnv (some (dp 8 (10 * (1 / 50000)))) "BTC" "BTC").toOption =
        some (some 20000) := by decide +kernel
    rw [show toSatoshis btcEnv (some (dp 8 (10 * (1 / 50000)))) "BTC" "BTC" = _ from hsatoshis]
      at heval
    exact Option.some.inj heval
  simp [totalOf, hamount]

/-- At the same price the option is refreshed to what it was created with. -/
theorem amounts_sum_bitcoin : ∃ t,
    run (step btcEnv) [created, refreshed] (bitcoinAt 50000) = some t ∧ AllSummed t := by
  have hguarded : Guarded (step btcEnv) (KeepsSums btcEnv) [created, refreshed]
      (bitcoinAt 50000) := by
    refine ⟨trivial, fun s hs => ⟨?_, fun _ _ => trivial⟩⟩
    obtain rfl := Option.some.inj hs
    intro invoice _ _ paymentRequest hrequest _
    have hcreated : ∀ o ∈ (((call btcEnv (.createPaymentOptions (.obj [("id", .num 1)])
        tenDollars)).exec (fun _ => {}) (bitcoinAt 50000)).2).paymentOptions.rows,
        o.currency = "BTC" ∧ o.chain = "BTC" ∧ o.amount = some 20000 := by decide +kernel
    refine sumsFrom_of_forall fun option hoption entry hentry outputs houtputs r hr _ _ _ => ?_
    obtain ⟨hcurrency, hchain, -⟩ := hcreated option (Table.mem_select.mp hoption).1
    obtain rfl := List.mem_singleton.mp hrequest
    obtain rfl := List.mem_singleton.mp (List.mem_of_find?_eq_some hentry)
    rw [hcurrency, hchain] at houtputs
    refine ⟨20000, comesTo_satoshis houtputs, ?_⟩
    rw [(hcreated r hr).2.2]
    rfl
  have hempty : AllSummed (bitcoinAt 50000) := nofun
  exact ⟨_, rfl, (amounts_sum btcEnv hempty (reach_of_run hguarded rfl)).1⟩

end Anypay.OptionTotals
