/-
Anypay.QuoteTheorems — what an amount is worth in another currency.

`convert` reads the prices it needs from any matching row, so it is a function
only of prices that are the same in every row for a pair of currencies
(`HasPrices`). `quote` is that function, and `QuotedAs` are the values it may
return at any rows. It rounds to eight digits after each price, `toSatoshis` to a
whole number of base units after that; `worth` is the same without rounding, and
`Quoted.total_near` bounds the difference for all the outputs of an option
together.
-/
import Mathlib.Algebra.Order.BigOperators.Group.List
import Anypay.Json.Rounding
import Anypay.InvoiceTheorems
import Anypay.PaymentRequests

namespace Anypay

open Store Async Proc

/-! ## Rounding -/

theorem abs_toSatoshis_sub_le (plugin : Plugin) (x : Rat) :
    |(plugin.toSatoshis x : Rat) - x * 10 ^ plugin.decimals| ≤ 1 := by
  unfold Plugin.toSatoshis
  simp only
  generalize x * 10 ^ plugin.decimals = y
  split
  · have h := abs_halfUp_sub_le y
    linarith
  · split
    · have h₁ : y ≤ (y.ceil : Rat) := Rat.le_ceil
      have h₂ : (y.ceil : Rat) < y + 1 := Rat.ceil_lt
      rw [abs_le]
      constructor <;> linarith
    · have h₁ : (y.floor : Rat) ≤ y := Rat.floor_le _
      have h₂ : y < (y.floor : Rat) + 1 := lt_floor_succ _
      rw [abs_le]
      constructor <;> linarith

/-! ## Prices -/

/-- What one unit of a currency is worth in another: base currency first. -/
abbrev Prices := String → String → Option Rat

/-- The price rows of the world, whichever of them a query picks. -/
structure HasPrices (w : World) (prices : Prices) : Prop where
  row : ∀ r ∈ w.prices.rows, ∀ base, r.base_currency = some base →
    prices base r.currency = some r.value
  priced : ∀ base currency, prices base currency ≠ none →
    ∃ r ∈ w.prices.rows, r.base_currency = some base ∧ r.currency = currency

theorem HasPrices.congr {w t : World} {prices : Prices} (h : HasPrices w prices)
    (ht : t.prices = w.prices) : HasPrices t prices := by
  constructor
  · rw [ht]
    exact h.row
  · rw [ht]
    exact h.priced

/-- The price `convertAt` uses: the inverse one, to twenty digits, where there is
no other. The outer none is no price at all. -/
def rateAt (prices : Prices) (input output : String) : Option (Option Rat) :=
  match prices output input with
  | some price => some (some price)
  | none => (prices input output).map reciprocal

/-- `convertAt` at the prices. -/
def quoteAt (prices : Prices) (value : Option Rat) (input output : String) :
    Option (Option Rat) :=
  (rateAt prices input output).map fun rate =>
    rate.bind fun rate => value.map fun v => dp 8 (v * rate)

/-- `convert` at the prices. -/
def quote (prices : Prices) (value : Option Rat) (input output : String) :
    Option (Option Rat) :=
  if input ≠ "USD" ∧ output ≠ "USD" then
    (quoteAt prices value input "USD").bind fun usd => quoteAt prices usd "USD" output
  else quoteAt prices value input output

section Convert

variable {A : Answer → Prop} {s : World} {prices : Prices} {input : Amount} {output : String}

/-- The row that was found has the price. -/
theorem HasPrices.find {where_ : Price → Bool} {base currency : String} {r : Price}
    (h : HasPrices s prices)
    (hw : where_ = fun r => r.base_currency == some base && r.currency == currency)
    (hr : r ∈ s.prices.rows) (hfound : where_ r = true) :
    prices base currency = some r.value := by
  subst hw
  simp only [Bool.and_eq_true, beq_iff_eq] at hfound
  rw [← hfound.2]
  exact h.row r hr base hfound.1

theorem HasPrices.none {where_ : Price → Bool} {base currency : String}
    (h : HasPrices s prices)
    (hw : where_ = fun r => r.base_currency == some base && r.currency == currency)
    (hnone : ∀ r ∈ s.prices.rows, where_ r = false) : prices base currency = none := by
  subst hw
  by_contra hsome
  obtain ⟨r, hr, hbase, hcurrency⟩ := h.priced base currency hsome
  have hno := hnone r hr
  simp [hbase, hcurrency] at hno

theorem wp_convertAt_quote (h : HasPrices s prices) : (convertAt input output).wp A
    (fun amount t => t = s ∧ amount.currency = output ∧
      quoteAt prices input.value input.currency output = some amount.value)
    (fun _ t => t = s ∧ ∀ value, quoteAt prices value input.currency output = none) s := by
  unfold convertAt findPrice quoteAt rateAt
  simp only [bind_eq, pure_eq, wp_bind]
  apply Delegate.wp_findFirst
  · intro price hprice hw
    rw [h.find rfl hprice hw]
    refine ⟨rfl, rfl, ?_⟩
    simp
  · intro hnone
    rw [h.none rfl hnone, wp_bind]
    apply Delegate.wp_findFirst
    · intro inverse hinverse hw
      rw [h.find rfl hinverse hw]
      refine ⟨rfl, rfl, ?_⟩
      simp only [Option.map_some]
      cases reciprocal inverse.value with
      | none => rfl
      | some price =>
          cases input.value with
          | none => rfl
          | some v =>
              change some (some (dp 8 (v * price))) = some (some (dp 8 (price * v)))
              rw [mul_comm]
    · intro hnone'
      refine ⟨rfl, fun value => ?_⟩
      rw [h.none rfl hnone']
      rfl

/-- `convert` returns the quote, and throws only where there is none. -/
theorem wp_convert_quote (h : HasPrices s prices) : (convert input output).wp A
    (fun amount t => t = s ∧ quote prices input.value input.currency output = some amount.value)
    (fun _ t => t = s ∧ quote prices input.value input.currency output = none) s := by
  unfold convert quote
  split
  · simp only [bind_eq, wp_bind]
    refine wp_mono (fun usd t ht => ?_) (fun _ t ht => ?_) (wp_convertAt_quote h)
    · obtain ⟨rfl, husd, hfirst⟩ := ht
      rw [hfirst, Option.bind_some, ← husd]
      refine wp_mono (fun amount u hu => ?_) (fun _ u hu => ?_) (wp_convertAt_quote h)
      · exact ⟨hu.1, hu.2.2⟩
      · exact ⟨hu.1, hu.2 usd.value⟩
    · rw [ht.2 input.value]
      exact ⟨ht.1, rfl⟩
  · refine wp_mono (fun amount t ht => ?_) (fun _ t ht => ?_) (wp_convertAt_quote h)
    · exact ⟨ht.1, ht.2.2⟩
    · exact ⟨ht.1, ht.2 input.value⟩

end Convert

/-! ## Whichever rows are found -/

/-- A row says what one unit of `currency` is worth in `base`. -/
def Listed (rows : List Price) (base currency : String) (value : Rat) : Prop :=
  ∃ r ∈ rows, r.base_currency = some base ∧ r.currency = currency ∧ r.value = value

/-- A rate `convertAt` may use. -/
def Rated (rows : List Price) (input output : String) (rate : Option Rat) : Prop :=
  (∃ price, Listed rows output input price ∧ rate = some price) ∨
  ((∀ price, ¬ Listed rows output input price) ∧
    ∃ price, Listed rows input output price ∧ rate = reciprocal price)

/-- A value `convertAt` may return. -/
def QuotedAt (rows : List Price) (value : Option Rat) (input output : String)
    (q : Option Rat) : Prop :=
  ∃ rate, Rated rows input output rate ∧
    q = rate.bind fun rate => value.map fun v => dp 8 (v * rate)

/-- A value `convert` may return. -/
def QuotedAs (rows : List Price) (value : Option Rat) (input output : String)
    (q : Option Rat) : Prop :=
  if input ≠ "USD" ∧ output ≠ "USD" then
    ∃ usd, QuotedAt rows value input "USD" usd ∧ QuotedAt rows usd "USD" output q
  else QuotedAt rows value input output q

section Rows

variable {A : Answer → Prop} {s : World} {input : Amount} {output : String}

theorem listed_of_found {rows : List Price} {base currency : String} {r : Price}
    (hr : r ∈ rows)
    (hfound : (r.base_currency == some base && r.currency == currency) = true) :
    Listed rows base currency r.value := by
  simp only [Bool.and_eq_true, beq_iff_eq] at hfound
  exact ⟨r, hr, hfound.1, hfound.2, rfl⟩

theorem not_listed_of_none {rows : List Price} {base currency : String}
    (hnone : ∀ r ∈ rows, (r.base_currency == some base && r.currency == currency) = false)
    (price : Rat) : ¬ Listed rows base currency price := by
  rintro ⟨r, hr, hbase, hcurrency, -⟩
  have hno := hnone r hr
  simp [hbase, hcurrency] at hno

/-- `convertAt` returns a quote, and throws only where there is none. -/
theorem wp_convertAt_rows : (convertAt input output).wp A
    (fun amount t => t = s ∧ amount.currency = output ∧
      QuotedAt s.prices.rows input.value input.currency output amount.value)
    (fun _ t => t = s ∧ ∀ q, ¬ QuotedAt s.prices.rows input.value input.currency output q)
    s := by
  unfold convertAt findPrice
  simp only [bind_eq, pure_eq, wp_bind]
  apply Delegate.wp_findFirst
  · intro price hprice hw
    exact ⟨rfl, rfl, _, .inl ⟨_, listed_of_found hprice hw, rfl⟩, rfl⟩
  · intro hnone
    have hno := not_listed_of_none hnone
    rw [wp_bind]
    apply Delegate.wp_findFirst
    · intro inverse hinverse hw
      refine ⟨rfl, rfl, _, .inr ⟨hno, _, listed_of_found hinverse hw, rfl⟩, ?_⟩
      cases reciprocal inverse.value with
      | none => rfl
      | some price =>
          cases input.value with
          | none => rfl
          | some v =>
              change some (dp 8 (price * v)) = some (dp 8 (v * price))
              rw [mul_comm]
    · intro hnone'
      refine ⟨rfl, ?_⟩
      rintro q ⟨rate, hrate, -⟩
      rcases hrate with ⟨price, hlisted, -⟩ | ⟨-, price, hlisted, -⟩
      · exact hno price hlisted
      · exact not_listed_of_none hnone' price hlisted

/-- `convert` returns a quote, and throws only where there is none. -/
theorem wp_convert_rows : (convert input output).wp A
    (fun amount t => t = s ∧
      QuotedAs s.prices.rows input.value input.currency output amount.value)
    (fun _ t => t = s ∧ ∀ q, ¬ QuotedAs s.prices.rows input.value input.currency output q)
    s := by
  unfold convert QuotedAs
  split
  · simp only [bind_eq, wp_bind]
    refine wp_mono (fun usd t ht => ?_) (fun _ t ht => ?_) wp_convertAt_rows
    · obtain ⟨rfl, husd, hfirst⟩ := ht
      refine wp_mono (fun amount u hu => ?_) (fun _ u hu => ?_) wp_convertAt_rows
      · obtain ⟨rfl, -, hsecond⟩ := hu
        exact ⟨rfl, usd.value, hfirst, husd ▸ hsecond⟩
      · -- whatever dollars come first, there is a price for them or there is none
        refine ⟨hu.1, ?_⟩
        rintro q ⟨first, -, rate, hrate, -⟩
        exact hu.2 _ ⟨rate, husd ▸ hrate, rfl⟩
    · refine ⟨ht.1, ?_⟩
      rintro q ⟨usd, hfirst, -⟩
      exact ht.2 usd hfirst
  · refine wp_mono (fun amount t ht => ?_) (fun _ _ h => h) wp_convertAt_rows
    exact ⟨ht.1, ht.2.2⟩

end Rows

/-! ## Worth -/

/-- The rate of a conversion, none where it has no number. -/
def rate (prices : Prices) (input output : String) : Option Rat :=
  if input ≠ "USD" ∧ output ≠ "USD" then
    (rateAt prices input "USD").join.bind fun first =>
      (rateAt prices "USD" output).join.map fun second => first * second
  else (rateAt prices input output).join

/-- The rate of the second half of a conversion through USD. -/
def secondRate (prices : Prices) (input output : String) : Rat :=
  if input ≠ "USD" ∧ output ≠ "USD" then ((rateAt prices "USD" output).join).getD 0 else 0

/-- What a destination is to get, in the currency, before any rounding. -/
def worthOf (prices : Prices) (currency : String) (to_ : TemplateTo) : Option Rat :=
  (rate prices to_.currency currency).bind fun rate => to_.amount.map fun v => v * rate

/-- What all destinations are to get. -/
def worth (prices : Prices) (currency : String) : List TemplateTo → Option Rat
  | [] => some 0
  | to_ :: tos =>
      (worthOf prices currency to_).bind fun v => (worth prices currency tos).map (v + ·)

theorem abs_quoteAt_sub_le {prices : Prices} {v r : Rat} {input output : String}
    (hrate : (rateAt prices input output).join = some r) :
    ∃ x, quoteAt prices (some v) input output = some (some x) ∧
      |x - v * r| ≤ 1 / 2 / 10 ^ 8 := by
  have hsome : rateAt prices input output = some (some r) := Option.join_eq_some_iff.mp hrate
  refine ⟨dp 8 (v * r), ?_, abs_dp_sub_le 8 (v * r)⟩
  unfold quoteAt
  rw [hsome]
  rfl

/-- What `convert` returns is what the amount is worth, up to the rounding. -/
theorem abs_quote_sub_le {prices : Prices} {to_ : TemplateTo} {currency : String} {v : Rat}
    (hworth : worthOf prices currency to_ = some v) :
    ∃ x, quote prices to_.amount to_.currency currency = some (some x) ∧
      |x - v| ≤ 1 / 2 / 10 ^ 8 * (1 + |secondRate prices to_.currency currency|) := by
  obtain ⟨r, hr, hv⟩ := Option.bind_eq_some_iff.mp hworth
  obtain ⟨a, ha, rfl⟩ := Option.map_eq_some_iff.mp hv
  rw [ha]
  unfold rate at hr
  unfold quote secondRate
  split at hr
  · rename_i husd
    rw [if_pos husd, if_pos husd]
    obtain ⟨first, hfirst, hr⟩ := Option.bind_eq_some_iff.mp hr
    obtain ⟨second, hsecond, rfl⟩ := Option.map_eq_some_iff.mp hr
    obtain ⟨x, hx, hxle⟩ := abs_quoteAt_sub_le (v := a) hfirst
    obtain ⟨y, hy, hyle⟩ := abs_quoteAt_sub_le (v := x) hsecond
    refine ⟨y, ?_, ?_⟩
    · rw [hx, Option.bind_some, hy]
    · rw [hsecond, Option.getD_some]
      have hsplit : y - a * (first * second) = (y - x * second) + (x - a * first) * second := by
        ring
      have hlast : |(x - a * first) * second| ≤ 1 / 2 / 10 ^ 8 * |second| := by
        rw [abs_mul]
        exact mul_le_mul_of_nonneg_right hxle (abs_nonneg second)
      rw [hsplit]
      calc |(y - x * second) + (x - a * first) * second|
          ≤ |y - x * second| + |(x - a * first) * second| := abs_add_le _ _
        _ ≤ 1 / 2 / 10 ^ 8 + 1 / 2 / 10 ^ 8 * |second| := add_le_add hyle hlast
        _ = 1 / 2 / 10 ^ 8 * (1 + |second|) := by ring
  · rename_i husd
    rw [if_neg husd, if_neg husd]
    obtain ⟨x, hx, hxle⟩ := abs_quoteAt_sub_le (v := a) hr
    refine ⟨x, hx, ?_⟩
    simpa using hxle

/-! ## Quoted options -/

/-- An output is what a destination comes to. -/
def Converts (env : Env) (prices : Prices) (currency chain : String) (to_ : TemplateTo)
    (output : Output) : Prop :=
  output.address = to_.address ∧ ∃ v, quote prices to_.amount to_.currency currency = some v ∧
    toSatoshis env v currency chain = .ok output.amount

/-- The option's outputs are what these destinations come to. -/
def Quoted (env : Env) (prices : Prices) (tos : List TemplateTo) (o : PaymentOption) : Prop :=
  ∃ outputs, o.outputs = some outputs ∧
    List.Forall₂ (Converts env prices o.currency o.chain) tos outputs

/-- What the outputs of an option add up to; none where one has no amount. -/
def totalOf : List Output → Option Int
  | [] => some 0
  | output :: outputs => output.amount.bind fun n => (totalOf outputs).map (n + ·)

def PaymentOption.total (o : PaymentOption) : Option Int := totalOf (o.outputs.getD [])

/-- Base units to one unit of a currency on a chain. -/
def baseUnits (env : Env) (currency chain : String) : Rat :=
  match find env currency chain with
  | .ok plugin => 10 ^ plugin.decimals
  | .error _ => 1

/-- How far rounding may take the outputs from what the destinations are worth. -/
def rounding (env : Env) (prices : Prices) (currency chain : String)
    (tos : List TemplateTo) : Rat :=
  (tos.map fun to_ => 1 + 1 / 2 / 10 ^ 8 * (1 + |secondRate prices to_.currency currency|) *
    baseUnits env currency chain).sum

section Quoted

variable {env : Env} {prices : Prices} {currency chain : String}

theorem Converts.near {to_ : TemplateTo} {output : Output} {v : Rat}
    (h : Converts env prices currency chain to_ output)
    (hworth : worthOf prices currency to_ = some v) :
    ∃ n, output.amount = some n ∧ |(n : Rat) - v * baseUnits env currency chain| ≤
      1 + 1 / 2 / 10 ^ 8 * (1 + |secondRate prices to_.currency currency|) *
        baseUnits env currency chain := by
  obtain ⟨-, q, hq, hamount⟩ := h
  obtain ⟨x, hx, hxle⟩ := abs_quote_sub_le hworth
  obtain rfl := Option.some.inj (hx.symm.trans hq)
  unfold toSatoshis at hamount
  unfold baseUnits
  cases hfind : find env currency chain with
  | error e =>
      rw [hfind] at hamount
      cases hamount
  | ok plugin =>
      rw [hfind] at hamount
      simp only
      refine ⟨plugin.toSatoshis x, (Except.ok.inj hamount).symm, ?_⟩
      have hbase : (0 : Rat) ≤ 10 ^ plugin.decimals := by positivity
      have hround := abs_toSatoshis_sub_le plugin x
      have hscaled : |(x - v) * 10 ^ plugin.decimals| ≤
          1 / 2 / 10 ^ 8 * (1 + |secondRate prices to_.currency currency|) *
            10 ^ plugin.decimals := by
        rw [abs_mul, abs_of_nonneg hbase]
        exact mul_le_mul_of_nonneg_right hxle hbase
      have hsplit : (plugin.toSatoshis x : Rat) - v * 10 ^ plugin.decimals =
          ((plugin.toSatoshis x : Rat) - x * 10 ^ plugin.decimals) +
            (x - v) * 10 ^ plugin.decimals := by ring
      rw [hsplit]
      exact (abs_add_le _ _).trans (add_le_add hround hscaled)

theorem totalOf_near {tos : List TemplateTo} {outputs : List Output}
    (h : List.Forall₂ (Converts env prices currency chain) tos outputs) {v : Rat}
    (hworth : worth prices currency tos = some v) :
    ∃ n, totalOf outputs = some n ∧ |(n : Rat) - v * baseUnits env currency chain| ≤
      rounding env prices currency chain tos := by
  induction h generalizing v with
  | nil =>
      obtain rfl := Option.some.inj hworth
      exact ⟨0, rfl, by simp [rounding]⟩
  | cons hhead _ ih =>
      obtain ⟨first, hfirst, hworth⟩ := Option.bind_eq_some_iff.mp hworth
      obtain ⟨rest, hrest, rfl⟩ := Option.map_eq_some_iff.mp hworth
      obtain ⟨m, hm, hmle⟩ := hhead.near hfirst
      obtain ⟨n, hn, hnle⟩ := ih hrest
      refine ⟨m + n, ?_, ?_⟩
      · simp only [totalOf, hm, hn, Option.bind_some, Option.map_some]
      · have hsplit : ((m + n : Int) : Rat) - (first + rest) * baseUnits env currency chain =
            ((m : Rat) - first * baseUnits env currency chain) +
              ((n : Rat) - rest * baseUnits env currency chain) := by
          push_cast
          ring
        rw [hsplit]
        exact (abs_add_le _ _).trans (add_le_add hmle hnle)

/-- **The outputs of a quoted option total what its destinations are worth**, up to
the rounding of `convert` and `toSatoshis`. -/
theorem Quoted.total_near {tos : List TemplateTo} {o : PaymentOption}
    (h : Quoted env prices tos o) {v : Rat} (hworth : worth prices o.currency tos = some v) :
    ∃ n, o.total = some n ∧ |(n : Rat) - v * baseUnits env o.currency o.chain| ≤
      rounding env prices o.currency o.chain tos := by
  obtain ⟨outputs, houtputs, hall⟩ := h
  rw [PaymentOption.total, houtputs]
  exact totalOf_near hall hworth

end Quoted

/-- An option made from a template entry. -/
structure OfEntry (env : Env) (prices : Prices) (entry : TemplateOption) (o : PaymentOption) :
    Prop where
  currency : o.currency = entry.currency
  chain : o.chain = orElse entry.chain entry.currency
  quoted : Quoted env prices entry.to_ o

end Anypay
