/-
Anypay.RoundTripTheorems — an amount that is asked for in its own currency.

`convert` from a currency to itself goes to US dollars and back, and rounds the
dollars to eight digits on the way. `along_eq_iff` says when the amount is found
again: where the error of the dollars, worth what dollars are in the currency,
stays below half a unit of the eighth digit. `comesBack_iff` says it of whole runs:
of `convert`, and of the options made and refreshed for a template that asks for the
amount.
-/
import Anypay.RouteTheorems
import Anypay.PaymentRequestTheorems
import Anypay.OptionTotalTheorems
import Anypay.RefreshTheorems

namespace Anypay.RoundTrip

open Store Async Proc

/-! ## To dollars and back -/

/-- How far rounding moves a number. -/
def roundOff (q : Rat) : Rat := (halfUp q : Rat) - q

/-- How far from `n` units of the eighth digit the dollars they are worth come back:
their rounding at the second rate, and what the rates are no inverses by. -/
def drift (first second : Rat) (n : Nat) : Rat :=
  roundOff (n * first) * second + n * (first * second - 1)

/-- The units are found again. -/
def FitsBack (first second : Rat) (n : Int) : Prop :=
  -(1 / 2) ≤ drift first second n.natAbs ∧ drift first second n.natAbs < 1 / 2

theorem along_neg (rates : List Rat) (x : Rat) : along rates (-x) = -along rates x := by
  induction rates generalizing x with
  | nil => rfl
  | cons rate rates ih => rw [along_cons, along_cons, neg_mul, dp_neg, ih]

/-- Units are counted again after each rounding. -/
theorem along_units (first second : Rat) (n : Nat) :
    along [first, second] ((n : Rat) / 10 ^ 8) =
      (halfUp ((halfUp (n * first) : Rat) * second) : Rat) / 10 ^ 8 := by
  have hscaled : ∀ y rate : Rat, y / 10 ^ 8 * rate * 10 ^ 8 = y * rate := by
    intro y rate
    ring
  simp only [along_cons, along_nil, dp, hscaled]

theorem along_natCast_iff (first second : Rat) (n : Nat) :
    along [first, second] ((n : Rat) / 10 ^ 8) = (n : Rat) / 10 ^ 8 ↔
      -(1 / 2) ≤ drift first second n ∧ drift first second n < 1 / 2 := by
  rw [along_units, div_left_inj' (by positivity)]
  rcases Nat.eq_zero_or_pos n with rfl | hn
  · have hzero : halfUp 0 = 0 := by decide +kernel
    simp [drift, roundOff, hzero]
  · have hpos : (0 : Int) < n := by exact_mod_cast hn
    have hback : (halfUp (n * first) : Rat) * second = n + drift first second n := by
      unfold drift roundOff
      ring
    have hint : (halfUp ((halfUp (n * first) : Rat) * second) : Rat) = n ↔
        halfUp ((halfUp (n * first) : Rat) * second) = (n : Int) := by norm_cast
    rw [hint, halfUp_eq_iff hpos, hback, Int.cast_natCast]
    constructor
    · rintro ⟨hlow, hhigh⟩
      exact ⟨by linarith, by linarith⟩
    · rintro ⟨hlow, hhigh⟩
      exact ⟨by linarith, by linarith⟩

theorem along_eq_iff (first second : Rat) (n : Int) :
    along [first, second] ((n : Rat) / 10 ^ 8) = (n : Rat) / 10 ^ 8 ↔
      FitsBack first second n := by
  unfold FitsBack
  rw [← along_natCast_iff]
  rcases Int.natAbs_eq n with h | h
  · have hcast : (n : Rat) = (n.natAbs : Rat) := by
      calc (n : Rat) = ((n.natAbs : Int) : Rat) := congrArg Int.cast h
        _ = (n.natAbs : Rat) := Int.cast_natCast _
    rw [hcast]
  · have hcast : (n : Rat) = -(n.natAbs : Rat) := by
      calc (n : Rat) = ((-(n.natAbs : Int) : Int) : Rat) := congrArg Int.cast h
        _ = -(n.natAbs : Rat) := by rw [Int.cast_neg, Int.cast_natCast]
    rw [hcast, neg_div, along_neg, neg_inj]

/-! ## Every route is found -/

section Routes

variable {w : World} {input output : String}

/-- A rate that may be found is found at some answers. -/
theorem exists_exec_convertAt {rate : Rat} (h : Rated w.prices.rows input output (some rate))
    (x : Rat) : ∃ o, (convertAt { currency := input, value := some x } output).exec o w =
      (.ok { currency := output, value := some (dp 8 (x * rate)) }, w) := by
  unfold convertAt findPrice
  simp only [bind_eq, Delegate.exec_findFirst_bind]
  have hget : prisma.prices.get w = w.prices := rfl
  simp only [hget]
  rcases h with ⟨price, ⟨r, hr, hbase, hcurrency, rfl⟩, heq⟩ |
    ⟨hno, price, ⟨r, hr, hbase, hcurrency, rfl⟩, heq⟩
  · obtain ⟨n, hn⟩ : ∃ n, w.prices.pick
        (fun r => r.base_currency == some output && r.currency == input) n = some r :=
      Table.exists_pick hr (by simp [hbase, hcurrency])
    refine ⟨fun _ => { row := n }, ?_⟩
    rw [hn, Option.some.inj heq]
    rfl
  · obtain ⟨n, hn⟩ : ∃ n, w.prices.pick
        (fun r => r.base_currency == some input && r.currency == output) n = some r :=
      Table.exists_pick hr (by simp [hbase, hcurrency])
    have hnone : ∀ k, w.prices.pick (fun r =>
        r.base_currency == some output && r.currency == input) k = none := by
      intro k
      refine Table.pick_none.mpr fun r' hr' => ?_
      by_contra hfound
      exact hno _ (listed_of_found hr' (by simpa using hfound))
    refine ⟨fun _ => { row := n }, ?_⟩
    rw [hnone]
    simp only [Delegate.exec_findFirst_bind, hget, tail_apply, hn, ← heq]
    rw [mul_comm x]
    rfl

theorem exists_exec_convert {rates : List Rat} (h : Route w.prices.rows input output rates)
    (x : Rat) : ∃ o, (convert { currency := input, value := some x } output).exec o w =
      (.ok { currency := output, value := some (along rates x) }, w) := by
  unfold convert
  match rates, h with
  | [rate], ⟨husd, hrated⟩ =>
      rw [if_neg (by simpa [or_iff_not_imp_left] using husd)]
      exact exists_exec_convertAt hrated x
  | [first, second], ⟨husd, hfirst, hsecond⟩ =>
      obtain ⟨o, hrun⟩ := exists_exec_convertAt hfirst x
      obtain ⟨o', hrun'⟩ := exists_exec_convertAt hsecond (dp 8 (x * first))
      simp only [bind_eq, if_pos husd]
      obtain ⟨o'', hboth⟩ : ∃ o'', ((convertAt { currency := input, value := some x } "USD").bind
          fun usd => convertAt usd output).exec o'' w = (convertAt _ output).exec o' w :=
        exec_bind_ok hrun
      exact ⟨o'', hboth.trans hrun'⟩

/-- What is quoted is what comes out along a route. -/
theorem route_of_quotedAs {rows : List Price} (hpos : ∀ r ∈ rows, 0 < r.value) {x : Rat}
    {q : Option Rat} (h : QuotedAs rows (some x) input output q) :
    ∃ rates, Route rows input output rates ∧ q = some (along rates x) := by
  have hrate : ∀ {input output : String} {rate : Option Rat}, Rated rows input output rate →
      ∃ r, rate = some r := by
    rintro input output rate (⟨price, -, rfl⟩ | ⟨-, price, ⟨r, hr, -, -, rfl⟩, rfl⟩)
    · exact ⟨price, rfl⟩
    · exact ⟨_, if_neg (hpos r hr).ne'⟩
  unfold QuotedAs at h
  split at h
  · rename_i husd
    obtain ⟨usd, ⟨first, hfirst, rfl⟩, ⟨second, hsecond, rfl⟩⟩ := h
    obtain ⟨r, rfl⟩ := hrate hfirst
    obtain ⟨s, rfl⟩ := hrate hsecond
    exact ⟨[r, s], ⟨husd, hfirst, hsecond⟩, rfl⟩
  · rename_i husd
    obtain ⟨rate, hrated, rfl⟩ := h
    obtain ⟨r, rfl⟩ := hrate hrated
    refine ⟨[r], ⟨?_, hrated⟩, rfl⟩
    rwa [not_and_or, not_not, not_not] at husd

end Routes

/-! ## The outputs of options -/

/-- A destination of the option that asks for `x` in the option's own currency is to
get exactly that. -/
def Asked (env : Env) (x : Rat) (entry : TemplateOption) (option : PaymentOption) : Prop :=
  ∃ outputs, option.outputs = some outputs ∧
    List.Forall₂ (fun destination output => output.address = destination.address ∧
      (destination.currency = option.currency → destination.amount = some x →
        toSatoshis env (some x) option.currency option.chain = .ok output.amount))
      entry.to_ outputs

/-- The amount comes back: from `convert`, in the options that are made for a payment
request, and in those a refresh writes. -/
structure ComesBack (env : Env) (w : World) (currency : String) (x : Rat) : Prop where
  converted : ∀ o, (convert { currency, value := some x } currency).exec o w =
    (.ok { currency, value := some x }, w)
  made : ∀ paymentRequest o created t,
    (paymentRequestToPaymentOptions env paymentRequest).exec o w = (.ok created, t) →
      ∃ added, t.paymentOptions.rows = w.paymentOptions.rows ++ added ∧
        List.Forall₂ (fun entry option => option.currency = entry.currency ∧
          (entry.currency = currency → Asked env x entry option)) paymentRequest.template added
  refreshed : ∀ uid o, ∀ option ∈ ((refreshInvoice env uid).exec o w).2.paymentOptions.rows,
    option ∈ w.paymentOptions.rows ∨ (option.invoice_uid = uid ∧
      (option.currency = currency → ∃ paymentRequest ∈ w.paymentRequests.rows,
        paymentRequest.invoice_uid = some uid ∧ ∃ entry ∈ paymentRequest.template,
          entry.currency = currency ∧ Asked env x entry option))

section Outputs

variable {env : Env} {A : Answer → Prop} {s : World} {currency : String} {x : Rat}

/-- All quotes of the amount in its own currency are the amount. -/
def QuotedBack (rows : List Price) (currency : String) (x : Rat) : Prop :=
  ∀ q, QuotedAs rows (some x) currency currency q → q = some x

/-- Outputs that destinations come to are what is asked for. -/
theorem asked_of_comesTo (h : QuotedBack s.prices.rows currency x) {entry : TemplateOption}
    {option : PaymentOption} {outputs : List Output} (hcurrency : option.currency = currency)
    (houtputs : option.outputs = some outputs)
    (hcomes : OptionTotals.ComesTo env s.prices.rows option.currency option.chain entry.to_
      outputs) : Asked env x entry option := by
  refine ⟨outputs, houtputs, hcomes.imp fun destination output hout => ⟨hout.1, ?_⟩⟩
  obtain ⟨-, q, hquoted, hamount⟩ := hout
  intro hown hx
  rw [hx, hown, hcurrency] at hquoted
  rw [← h q hquoted]
  exact hamount

/-- An option is computed from quotes. -/
theorem wp_templateToOption (uid : String) (entry : TemplateOption) :
    (templateToOption env uid entry).wp A
      (fun option t => (option.currency = entry.currency ∧ ∃ outputs,
        option.outputs = some outputs ∧ OptionTotals.ComesTo env s.prices.rows option.currency
          option.chain entry.to_ outputs) ∧ t = s) (fun _ t => t = s) s := by
  unfold templateToOption
  simp only [bind_eq, pure_eq, wp_bind]
  refine wp_mono (fun outputs t ht => ?_) (fun _ _ h => h) (OptionTotals.wp_refreshedOutputs
    { id := 0, invoice_uid := uid, currency := entry.currency,
      chain := orElse entry.chain entry.currency } entry.to_)
  exact ⟨⟨rfl, outputs, rfl, ht.1⟩, ht.2⟩

theorem wp_made (h : QuotedBack s.prices.rows currency x) (paymentRequest : PaymentRequest) :
    (paymentRequestToPaymentOptions env paymentRequest).wp A
      (fun _ t => ∃ added, t.paymentOptions.rows = s.paymentOptions.rows ++ added ∧
        List.Forall₂ (fun entry option => option.currency = entry.currency ∧
          (entry.currency = currency → Asked env x entry option)) paymentRequest.template added)
      (fun _ _ => True) s := by
  unfold paymentRequestToPaymentOptions
  simp only [bind_eq, wp_bind]
  refine wp_mono (fun options t ht => ?_) (fun _ _ _ => trivial) (wp_mapAll_pointwise
    (P := fun entry option => option.currency = entry.currency ∧ ∃ outputs,
      option.outputs = some outputs ∧ OptionTotals.ComesTo env s.prices.rows option.currency
        option.chain entry.to_ outputs) (I := fun t => t = s)
    (fun entry _ t ht => by rw [ht]; exact wp_templateToOption _ entry) rfl)
  obtain ⟨hoptions, rfl⟩ := ht
  refine wp_mono (fun outcomes u hu => ?_) (fun _ _ h => h.elim) Requests.wp_storeAll
  obtain ⟨hrows, hstored⟩ := hu
  refine wp_ofExcept (fun stored hok => ?_) fun _ _ => trivial
  obtain rfl := Requests.outcomes_ok hok
  rw [Requests.toOption_map_ok] at hrows
  obtain ⟨tb, rfl, hadded⟩ := hrows
  refine ⟨stored, hadded, ?_⟩
  have hall := Requests.stored_of_forall₂ hstored
  clear hadded hstored hok
  generalize paymentRequest.template = entries at hoptions ⊢
  induction hoptions generalizing stored with
  | nil =>
      cases hall
      exact .nil
  | cons hhead _ ih =>
      cases hall with
      | cons hstores hrest =>
          refine .cons ⟨hstores.currency.trans hhead.1, fun hcurrency => ?_⟩ (ih _ hrest)
          obtain ⟨hown, outputs, houtputs, hcomes⟩ := hhead
          rw [← hstores.currency, ← hstores.chain] at hcomes
          exact asked_of_comesTo h (hstores.currency.trans (hown.trans hcurrency))
            (hstores.outputs.trans houtputs) hcomes

/-- Options are as they were, or have what the request asks for. -/
def Rewritten (env : Env) (currency : String) (x : Rat) (uid : String) (s t : World) : Prop :=
  ∀ option ∈ t.paymentOptions.rows, option ∈ s.paymentOptions.rows ∨
    (option.invoice_uid = uid ∧ (option.currency = currency →
      ∃ paymentRequest ∈ s.paymentRequests.rows, paymentRequest.invoice_uid = some uid ∧
        ∃ entry ∈ paymentRequest.template, entry.currency = currency ∧
          Asked env x entry option))

theorem wp_refreshOption (h : QuotedBack s.prices.rows currency x) {uid : String}
    {invoice : Invoice} {paymentRequest : PaymentRequest} (huid : invoice.uid = uid)
    (hmem : paymentRequest ∈ s.paymentRequests.rows)
    (hrequest : paymentRequest.invoice_uid = some uid) (option : PaymentOption) {t : World}
    (ht : t.prices = s.prices ∧ Rewritten env currency x uid s t) :
    (refreshOption env invoice paymentRequest option).wp A
      (fun _ u => u.prices = s.prices ∧ Rewritten env currency x uid s u)
      (fun _ u => Rewritten env currency x uid s u) t := by
  unfold refreshOption
  split
  · exact ht
  · rename_i entry hentry
    obtain ⟨hentries, hown⟩ := Refresh.templateOf_some hentry
    simp only [bind_eq, pure_eq, wp_bind]
    refine wp_mono (fun outputs u hu => ?_) (fun _ u hu => hu ▸ ht.2)
      (OptionTotals.wp_refreshedOutputs option entry.to_)
    obtain ⟨hcomes, rfl⟩ := hu
    rw [ht.1] at hcomes
    apply Delegate.wp_findFirstOrThrow
    · intro record hrecord hfound
      simp only [Bool.and_eq_true, beq_iff_eq] at hfound
      obtain ⟨⟨hinvoice, hcurrency⟩, hchain⟩ := hfound
      apply Delegate.wp_update
      · intro now tb r hr hid hrows _
        obtain rfl := Table.eq_of_id hr hrecord hid
        refine ⟨ht.1, fun o ho => ?_⟩
        change o ∈ tb.rows at ho
        rw [hrows] at ho
        obtain ⟨y, hy, rfl⟩ := List.mem_map.mp ho
        by_cases hid' : Record.id y = r.id
        · rw [if_pos hid']
          obtain rfl := Table.eq_of_id hy hr hid'
          refine .inr ⟨hinvoice.trans huid, fun hyc => ?_⟩
          refine ⟨paymentRequest, hmem, hrequest, entry, hentries, ?_, ?_⟩
          · exact hown.trans (hcurrency.symm.trans hyc)
          · rw [← hcurrency, ← hchain] at hcomes
            exact asked_of_comesTo h hyc rfl hcomes
        · rw [if_neg hid']
          exact ht.2 y hy
      · intro _ _ _
        exact ht.2
    · intro _
      exact ht.2

theorem wp_refreshed (h : QuotedBack s.prices.rows currency x) (uid : String) :
    (refreshInvoice env uid).wp A (fun _ => Rewritten env currency x uid s)
      (fun _ => Rewritten env currency x uid s) s := by
  have hstart : Rewritten env currency x uid s s := fun _ ho => .inl ho
  unfold refreshInvoice
  simp only [bind_eq, pure_eq, wp_bind]
  apply Delegate.wp_findFirstOrThrow
  · intro invoice _ hfound
    have huid : invoice.uid = uid := by simpa using hfound
    apply Delegate.wp_findMany
    apply Delegate.wp_findFirstOrThrow
    · intro paymentRequest hmem hfound'
      have hrequest : paymentRequest.invoice_uid = some uid := by simpa using hfound'
      refine wp_mono (fun _ t ht => ?_) (fun _ _ ht => ht)
        (wp_forEach (I := fun t => t.prices = s.prices ∧ Rewritten env currency x uid s t)
          (fun option _ t ht => wp_refreshOption h huid hmem hrequest option ht) ⟨rfl, hstart⟩)
      apply Delegate.wp_update
      · intro _ _ _ _ _ _ _
        exact ht.2
      · intro _ _ _
        exact ht.2
    · intro _
      exact hstart
  · intro _
    exact hstart

end Outputs

/-! ## Whole runs -/

/-- **An amount asked for in its own currency** comes back where, at every pair of
rates that may be found, the dollars it goes through are near enough. -/
theorem comesBack_iff {env : Env} {w : World} {currency : String} {n : Int}
    (hpos : PositivePrices w) (hcurrency : currency ≠ "USD")
    (hpriced : ∃ r ∈ w.prices.rows, (r.base_currency = some "USD" ∧ r.currency = currency) ∨
      (r.base_currency = some currency ∧ r.currency = "USD")) :
    ComesBack env w currency ((n : Rat) / 10 ^ 8) ↔
      ∀ first second, Rated w.prices.rows currency "USD" (some first) →
        Rated w.prices.rows "USD" currency (some second) → FitsBack first second n := by
  have hroute : ∀ {rates}, Route w.prices.rows currency currency rates →
      ∃ first second, rates = [first, second] ∧
        Rated w.prices.rows currency "USD" (some first) ∧
        Rated w.prices.rows "USD" currency (some second) := by
    intro rates h
    match rates, h with
    | [_], ⟨husd, _⟩ => rcases husd with husd | husd <;> exact absurd husd hcurrency
    | [first, second], ⟨_, hfirst, hsecond⟩ => exact ⟨first, second, rfl, hfirst, hsecond⟩
  have hprice : HasPrice w.prices.rows currency currency := by
    obtain ⟨r, hr, hkey⟩ := hpriced
    have hlisting : Listing w.prices.rows currency "USD" := by
      rcases hkey with ⟨hbase, hcur⟩ | ⟨hbase, hcur⟩
      · exact .inl ⟨_, r, hr, hbase, hcur, rfl⟩
      · exact .inr ⟨_, r, hr, hbase, hcur, rfl⟩
    rw [HasPrice, if_pos ⟨hcurrency, hcurrency⟩]
    exact ⟨hlisting, hlisting.symm⟩
  constructor
  · intro h first second hfirst hsecond
    have hboth : Route w.prices.rows currency currency [first, second] :=
      ⟨⟨hcurrency, hcurrency⟩, hfirst, hsecond⟩
    obtain ⟨o, hrun⟩ := exists_exec_convert hboth ((n : Rat) / 10 ^ 8)
    have hback := (h.converted o).symm.trans hrun
    have hamount := Except.ok.inj (Prod.mk.inj hback).1
    exact (along_eq_iff first second n).mp (Option.some.inj (Amount.mk.inj hamount).2).symm
  · intro h
    have hquoted : QuotedBack w.prices.rows currency ((n : Rat) / 10 ^ 8) := by
      intro q hq
      obtain ⟨rates, hrates, rfl⟩ := route_of_quotedAs hpos hq
      obtain ⟨first, second, rfl, hfirst, hsecond⟩ := hroute hrates
      rw [(along_eq_iff first second n).mpr (h first second hfirst hsecond)]
    refine ⟨fun o => ?_, fun paymentRequest o created t hrun => ?_, fun uid o => ?_⟩
    · obtain ⟨rates, hrates, hrun⟩ := convert_returns hpos.nonzero hprice o
      obtain ⟨first, second, rfl, hfirst, hsecond⟩ := hroute hrates
      rw [hrun, (along_eq_iff first second n).mpr (h first second hfirst hsecond)]
    · exact wp_exec_ok (wp_made hquoted paymentRequest) (anyAnswer o) hrun
    · exact wp_exec_state (wp_refreshed hquoted uid) (anyAnswer o)

/-- The rates of the one price there is. -/
theorem rated_pricedAt {currency : String} {dollars first second : Rat}
    (hcurrency : currency ≠ "USD") (hdollars : dollars ≠ 0)
    (hfirst : Rated (pricedAt currency dollars).prices.rows currency "USD" (some first))
    (hsecond : Rated (pricedAt currency dollars).prices.rows "USD" currency (some second)) :
    first = dollars ∧ second = dp 20 (1 / dollars) := by
  have hrow : ∀ {base other value},
      Listed (pricedAt currency dollars).prices.rows base other value →
        base = "USD" ∧ other = currency ∧ value = dollars := by
    rintro base other value ⟨r, hr, hbase, rfl, rfl⟩
    obtain rfl := List.mem_singleton.mp hr
    exact ⟨(Option.some.inj hbase).symm, rfl, rfl⟩
  constructor
  · rcases hfirst with ⟨_, hlisted, heq⟩ | ⟨-, _, hlisted, -⟩
    · rw [Option.some.inj heq, (hrow hlisted).2.2]
    · exact absurd (hrow hlisted).1 hcurrency
  · rcases hsecond with ⟨_, hlisted, -⟩ | ⟨-, _, hlisted, heq⟩
    · exact absurd (hrow hlisted).1 hcurrency
    · rw [(hrow hlisted).2.2, reciprocal, if_neg hdollars] at heq
      exact Option.some.inj heq

/-- At ten cents for a dogecoin, 1.00000001 of them come back as 1. -/
theorem dogecoin_lost : ¬ ∀ (env : Env) (w : World) (currency : String) (n : Int),
    PositivePrices w → (∀ r ∈ w.prices.rows, ∃ k : Int, r.value = (k : Rat) / 10 ^ 8) →
    currency ≠ "USD" →
    (∃ r ∈ w.prices.rows, (r.base_currency = some "USD" ∧ r.currency = currency) ∨
      (r.base_currency = some currency ∧ r.currency = "USD")) →
    ComesBack env w currency ((n : Rat) / 10 ^ 8) := by
  intro h
  have hdigits : ∀ r ∈ (pricedAt "DOGE" (1 / 10)).prices.rows,
      ∃ k : Int, r.value = (k : Rat) / 10 ^ 8 := by
    intro r hr
    obtain rfl := List.mem_singleton.mp hr
    exact ⟨10 ^ 7, by norm_num⟩
  have hback := h registered (pricedAt "DOGE" (1 / 10)) "DOGE" 100000001
    (positive_pricedAt (by norm_num)) hdigits (by decide)
    ⟨_, List.mem_singleton_self _, .inl ⟨rfl, rfl⟩⟩
  have hrun : ((((convert
      { currency := "DOGE", value := some (((100000001 : Int) : Rat) / 10 ^ 8) } "DOGE").exec
        (fun _ => {}) (pricedAt "DOGE" (1 / 10))).1).toOption.bind Amount.value) = some 1 := by
    decide +kernel
  rw [hback.converted] at hrun
  have hone : ((100000001 : Int) : Rat) / 10 ^ 8 = 1 := Option.some.inj hrun
  norm_num at hone

/-- At two dollars for a litecoin, one of them is found again. -/
theorem comesBack_litecoin :
    ComesBack registered (pricedAt "LTC" 2) "LTC" (((100000000 : Int) : Rat) / 10 ^ 8) := by
  refine (comesBack_iff (positive_pricedAt (by norm_num)) (by decide)
    ⟨_, List.mem_singleton_self _, .inl ⟨rfl, rfl⟩⟩).mpr fun first second hfirst hsecond => ?_
  obtain ⟨rfl, rfl⟩ := rated_pricedAt (by decide) (by norm_num) hfirst hsecond
  unfold FitsBack drift roundOff
  decide +kernel

end Anypay.RoundTrip
