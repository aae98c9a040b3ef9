/-
Anypay.RouteTheorems — how `convert` and `toSatoshis` round.

`convert` multiplies by one rate, or by two where it goes through US dollars, and
rounds to eight digits after each. `Route` are the rates it may find on its way
and `along` is what comes out; everything said of a quote is said by induction on
the rates.

* `convert_exec` — which rates a run finds does not depend on the amount.
* `convert_returns` — where there are prices it finds some.
* `quote_mono` — more is never quoted less.
* `quote_near` — how far a quote is from the exact price.
* `quote_pos_iff` — from which amount on a quote is not nothing.
-/
import Anypay.QuoteTheorems
import Anypay.Chains.Registry

namespace Anypay

open Store Async Proc

/-! ## Base units -/

section BaseUnits

variable (plugin : Plugin)

/-- What `toSatoshis` counts as the first base unit: half a unit where it rounds. -/
def Plugin.leastUnit : Rat := if plugin.roundSatoshis then 1 / 2 else 1

theorem Plugin.leastUnit_pos : 0 < plugin.leastUnit := by
  unfold Plugin.leastUnit
  split <;> norm_num

theorem Plugin.toSatoshis_mono {x y : Rat} (h : x ≤ y) :
    plugin.toSatoshis x ≤ plugin.toSatoshis y := by
  have hpos : (0 : Rat) < 10 ^ plugin.decimals := by positivity
  have hscaled := mul_le_mul_of_nonneg_right h hpos.le
  unfold Plugin.toSatoshis
  simp only
  generalize x * 10 ^ plugin.decimals = p at hscaled ⊢
  generalize y * 10 ^ plugin.decimals = q at hscaled ⊢
  split
  · exact halfUp_mono hscaled
  · split
    · split
      · exact Rat.ceil_le_iff.mpr (hscaled.trans Rat.le_ceil)
      · -- rounded up to zero at most, and down to zero at least
        have hp : p.ceil ≤ 0 := Rat.ceil_le_iff.mpr (by push_cast; linarith)
        have hq : 0 ≤ q.floor := Rat.le_floor_iff.mpr (by push_cast; linarith)
        omega
    · split
      · linarith
      · exact Rat.floor_monotone hscaled

/-- The base units of an amount that is not negative: less than one unit below, or
half a unit off where the plugin rounds. -/
def Plugin.UnitsOf (x : Rat) (n : Int) : Prop :=
  if plugin.roundSatoshis then |(n : Rat) - x * 10 ^ plugin.decimals| ≤ 1 / 2
  else (n : Rat) ≤ x * 10 ^ plugin.decimals ∧ x * 10 ^ plugin.decimals < n + 1

theorem Plugin.unitsOf_toSatoshis {x : Rat} (hx : 0 ≤ x) :
    plugin.UnitsOf x (plugin.toSatoshis x) := by
  have hscaled : 0 ≤ x * 10 ^ plugin.decimals := by positivity
  unfold Plugin.UnitsOf Plugin.toSatoshis
  simp only
  split
  · exact abs_halfUp_sub_le _
  · rw [if_neg (by linarith)]
    exact ⟨Rat.floor_le _, lt_floor_succ _⟩

theorem Plugin.UnitsOf.lt {x : Rat} {n : Int} (h : plugin.UnitsOf x n) :
    x * 10 ^ plugin.decimals - 1 < n := by
  unfold Plugin.UnitsOf at h
  split at h
  · have hlow := (abs_le.mp h).1
    linarith
  · linarith [h.2]

/-- An amount has a base unit from the first one on. -/
theorem Plugin.toSatoshis_pos_iff {x : Rat} :
    0 < plugin.toSatoshis x ↔ plugin.leastUnit / 10 ^ plugin.decimals ≤ x := by
  have hpos : (0 : Rat) < 10 ^ plugin.decimals := by positivity
  rw [div_le_iff₀ hpos]
  unfold Plugin.toSatoshis Plugin.leastUnit
  simp only
  generalize x * 10 ^ plugin.decimals = y
  split
  · have hone : 1 ≤ halfUp y ↔ ((1 : Int) : Rat) - 1 / 2 ≤ y := le_halfUp_iff one_pos
    push_cast at hone
    rw [← Int.add_one_le_iff, zero_add, hone]
    norm_num
  · split
    · have hceil : y.ceil ≤ 0 := Rat.ceil_le_iff.mpr (by push_cast; linarith)
      constructor
      · intro h
        omega
      · intro h
        linarith
    · rw [← Int.add_one_le_iff, zero_add, Rat.le_floor_iff]
      norm_num

end BaseUnits

/-! ## The rates on the way -/

/-- The rates `convert` may multiply by, one after the other. -/
def Route (rows : List Price) (input output : String) : List Rat → Prop
  | [rate] => (input = "USD" ∨ output = "USD") ∧ Rated rows input output (some rate)
  | [first, second] => (input ≠ "USD" ∧ output ≠ "USD") ∧
      Rated rows input "USD" (some first) ∧ Rated rows "USD" output (some second)
  | _ => False

theorem Route.one_or_two {rows : List Price} {input output : String} {rates : List Rat}
    (h : Route rows input output rates) :
    (∃ rate, rates = [rate] ∧ (input = "USD" ∨ output = "USD") ∧
      Rated rows input output (some rate)) ∨
    ∃ first second, rates = [first, second] ∧ (input ≠ "USD" ∧ output ≠ "USD") ∧
      Rated rows input "USD" (some first) ∧ Rated rows "USD" output (some second) := by
  cases rates with
  | nil => exact h.elim
  | cons first rest =>
      cases rest with
      | nil => exact .inl ⟨first, rfl, h⟩
      | cons second rest =>
          cases rest with
          | nil => exact .inr ⟨first, second, rfl, h⟩
          | cons third rest => exact h.elim

/-- What `convert` makes of an amount at these rates. -/
def along (rates : List Rat) (x : Rat) : Rat := rates.foldl (fun v rate => dp 8 (v * rate)) x

@[simp] theorem along_nil (x : Rat) : along [] x = x := rfl

@[simp] theorem along_cons (rate : Rat) (rates : List Rat) (x : Rat) :
    along (rate :: rates) x = along rates (dp 8 (x * rate)) := rfl

/-- The prices are positive. -/
def PositivePrices (w : World) : Prop := ∀ r ∈ w.prices.rows, 0 < r.value

/-- No price is zero. -/
def NonzeroPrices (w : World) : Prop := ∀ r ∈ w.prices.rows, r.value ≠ 0

theorem PositivePrices.nonzero {w : World} (h : PositivePrices w) : NonzeroPrices w :=
  fun r hr => (h r hr).ne'

theorem Rated.nonneg {rows : List Price} (hpos : ∀ r ∈ rows, 0 < r.value)
    {input output : String} {rate : Rat} (h : Rated rows input output (some rate)) :
    0 ≤ rate := by
  rcases h with ⟨price, ⟨r, hr, -, -, rfl⟩, heq⟩ | ⟨-, price, ⟨r, hr, -, -, rfl⟩, heq⟩
  · rw [Option.some.inj heq]
    exact (hpos r hr).le
  · rw [reciprocal, if_neg (hpos r hr).ne'] at heq
    rw [Option.some.inj heq]
    exact dp_nonneg (one_div_pos.mpr (hpos r hr)).le

theorem Route.nonneg {rows : List Price} (hpos : ∀ r ∈ rows, 0 < r.value)
    {input output : String} {rates : List Rat} (h : Route rows input output rates) :
    ∀ rate ∈ rates, 0 ≤ rate := by
  intro rate hrate
  match rates, h with
  | [_], ⟨_, hrated⟩ =>
      rw [List.mem_singleton.mp hrate]
      exact hrated.nonneg hpos
  | [_, _], ⟨_, hfirst, hsecond⟩ =>
      rcases List.mem_cons.mp hrate with rfl | hrate
      · exact hfirst.nonneg hpos
      · rw [List.mem_singleton.mp hrate]
        exact hsecond.nonneg hpos

section Runs

variable {w t : World} {input output : String} {o : Nat → Answer}

/-- One multiplication: the rate that is found does not depend on the amount. -/
theorem exec_convertAt_bind {α : Type} (hne : NonzeroPrices w) (input output : String)
    (o : Nat → Answer) :
    (∃ rate o', Rated w.prices.rows input output (some rate) ∧
      ∀ x (k : Amount → Task α),
        ((convertAt { currency := input, value := some x } output).bind k).exec o w =
          (k { currency := output, value := some (dp 8 (x * rate)) }).exec o' w) ∨
    ∃ e, ∀ x (k : Amount → Task α),
      ((convertAt { currency := input, value := some x } output).bind k).exec o w =
        (.error e, w) := by
  simp only [convertAt, findPrice, bind_eq, pure_eq, bind_assoc, Delegate.exec_findFirst_bind]
  cases hdirect : (prisma.prices.get w).pick
      (fun r => r.base_currency == some output && r.currency == input) (o 0).row with
  | some price =>
      obtain ⟨hprice, hfound⟩ := Table.pick_some hdirect
      refine .inl ⟨price.value, tail o, .inl ⟨_, listed_of_found hprice hfound, rfl⟩, ?_⟩
      intro x k
      rfl
  | none =>
      have hno := not_listed_of_none (Table.pick_none.mp hdirect)
      simp only [bind_assoc, Delegate.exec_findFirst_bind]
      cases hinverse : (prisma.prices.get w).pick
          (fun r => r.base_currency == some input && r.currency == output) (tail o 0).row with
      | some inverse =>
          obtain ⟨hfrom, hfound⟩ := Table.pick_some hinverse
          have hrate : reciprocal inverse.value = some (dp 20 (1 / inverse.value)) :=
            if_neg (hne inverse hfrom)
          refine .inl ⟨dp 20 (1 / inverse.value), tail (tail o),
            .inr ⟨hno, _, listed_of_found hfrom hfound, hrate.symm⟩, ?_⟩
          intro x k
          simp only [hrate, done_bind]
          rw [mul_comm x]
          rfl
      | none => exact .inr ⟨_, fun _ _ => rfl⟩

/-- `convert`: which rates a run finds, or that it finds none, does not depend on the
amount. -/
theorem convert_exec (hne : NonzeroPrices w) (input output : String) (o : Nat → Answer) :
    (∃ rates, Route w.prices.rows input output rates ∧ ∀ x,
      (convert { currency := input, value := some x } output).exec o w =
        (.ok { currency := output, value := some (along rates x) }, w)) ∨
    ∃ e, ∀ x, (convert { currency := input, value := some x } output).exec o w =
      (.error e, w) := by
  unfold convert
  by_cases husd : input ≠ "USD" ∧ output ≠ "USD"
  · simp only [bind_eq, if_pos husd]
    rcases exec_convertAt_bind hne input "USD" o with ⟨first, o', hfirst, hrun⟩ | ⟨e, hrun⟩
    · rcases exec_convertAt_bind hne "USD" output o' with
        ⟨second, o'', hsecond, hrun'⟩ | ⟨e, hrun'⟩
      · refine .inl ⟨[first, second], ⟨husd, hfirst, hsecond⟩, fun x => ?_⟩
        rw [hrun, ← bind_done (convertAt _ output), hrun']
        rfl
      · refine .inr ⟨e, fun x => ?_⟩
        rw [hrun, ← bind_done (convertAt _ output), hrun']
    · exact .inr ⟨e, fun x => hrun x _⟩
  · have hside : input = "USD" ∨ output = "USD" := by
      rwa [not_and_or, not_not, not_not] at husd
    simp only [if_neg husd]
    rcases exec_convertAt_bind hne input output o with ⟨rate, o', hrate, hrun⟩ | ⟨e, hrun⟩
    · refine .inl ⟨[rate], ⟨hside, hrate⟩, fun x => ?_⟩
      rw [← bind_done (convertAt _ output), hrun]
      rfl
    · refine .inr ⟨e, fun x => ?_⟩
      rw [← bind_done (convertAt _ output), hrun]

/-- There is a price of one currency in the other, or the other way round. -/
def Listing (rows : List Price) (input output : String) : Prop :=
  (∃ p, Listed rows output input p) ∨ ∃ p, Listed rows input output p

/-- Every step of a conversion has a price. -/
def HasPrice (rows : List Price) (input output : String) : Prop :=
  if input ≠ "USD" ∧ output ≠ "USD" then Listing rows input "USD" ∧ Listing rows "USD" output
  else Listing rows input output

theorem Listing.exists_rated {rows : List Price} (hne : ∀ r ∈ rows, r.value ≠ 0)
    (h : Listing rows input output) : ∃ rate, Rated rows input output (some rate) := by
  by_cases hdirect : ∃ p, Listed rows output input p
  · obtain ⟨p, hp⟩ := hdirect
    exact ⟨p, .inl ⟨p, hp, rfl⟩⟩
  · obtain ⟨p, hp⟩ := h.resolve_left hdirect
    obtain ⟨r, hr, -, -, rfl⟩ := id hp
    refine ⟨dp 20 (1 / r.value), .inr ⟨fun q hq => hdirect ⟨q, hq⟩, _, hp, ?_⟩⟩
    rw [reciprocal, if_neg (hne r hr)]

/-- Where there are prices `convert` returns a number. -/
theorem convert_returns (hne : NonzeroPrices w) (h : HasPrice w.prices.rows input output)
    (o : Nat → Answer) : ∃ rates, Route w.prices.rows input output rates ∧ ∀ x,
      (convert { currency := input, value := some x } output).exec o w =
        (.ok { currency := output, value := some (along rates x) }, w) := by
  refine (convert_exec hne input output o).resolve_right ?_
  rintro ⟨e, hrun⟩
  have hquoted : ∃ q, QuotedAs w.prices.rows (some 0) input output q := by
    unfold HasPrice at h
    unfold QuotedAs
    split at h
    · rename_i husd
      obtain ⟨first, hfirst⟩ := h.1.exists_rated hne
      obtain ⟨second, hsecond⟩ := h.2.exists_rated hne
      simp only [if_pos husd]
      exact ⟨_, _, ⟨_, hfirst, rfl⟩, _, hsecond, rfl⟩
    · rename_i husd
      obtain ⟨rate, hrate⟩ := h.exists_rated hne
      simp only [if_neg husd]
      exact ⟨_, _, hrate, rfl⟩
  obtain ⟨q, hq⟩ := hquoted
  have hwp : (convert { currency := input, value := some 0 } output).wp AnyAnswer
      (fun _ _ => True) (fun _ _ => False) w :=
    wp_mono (fun _ _ _ => trivial) (fun _ _ ht => ht.2 q hq) wp_convert_rows
  have hend := wp_exec hwp (anyAnswer o)
  rw [hrun 0] at hend
  exact hend

/-- What a run came to that returned. -/
theorem route_of_returned (hpos : PositivePrices w) {x : Rat} {amount : Amount}
    (h : (convert { currency := input, value := some x } output).exec o w = (.ok amount, t)) :
    ∃ rates, Route w.prices.rows input output rates ∧
      amount = { currency := output, value := some (along rates x) } := by
  rcases convert_exec hpos.nonzero input output o with ⟨rates, hroute, hrun⟩ | ⟨e, hrun⟩
  · rw [hrun] at h
    exact ⟨rates, hroute, (Except.ok.inj (Prod.mk.inj h).1).symm⟩
  · rw [hrun] at h
    cases (Prod.mk.inj h).1

end Runs

/-- The registered plugins. -/
def registered : Env := { plugins := plugins {} }

/-- A unit of this currency is this many dollars. -/
def pricedAt (currency : String) (dollars : Rat) : World where
  prices := .single { id := 1, currency, base_currency := some "USD", value := dollars }

theorem positive_pricedAt {currency : String} {dollars : Rat} (h : 0 < dollars) :
    PositivePrices (pricedAt currency dollars) := by
  intro r hr
  rw [List.mem_singleton.mp hr]
  exact h

/-! ## Order -/

theorem along_mono {rates : List Rat} (hrates : ∀ rate ∈ rates, 0 ≤ rate) {a b : Rat}
    (h : a ≤ b) : along rates a ≤ along rates b := by
  induction rates generalizing a b with
  | nil => exact h
  | cons rate rates ih =>
      have hscaled : a * rate ≤ b * rate := mul_le_mul_of_nonneg_right h (hrates rate (by simp))
      exact ih (fun r hr => hrates r (by simp [hr])) (dp_mono hscaled)

/-- Where every pair of currencies has one price there is one rate. -/
theorem HasPrices.rated_eq {w : World} {prices : Prices} (h : HasPrices w prices)
    {input output : String} {rate rate' : Option Rat}
    (hrate : Rated w.prices.rows input output rate)
    (hrate' : Rated w.prices.rows input output rate') : rate = rate' := by
  have hlisted : ∀ {base currency value}, Listed w.prices.rows base currency value →
      prices base currency = some value := by
    rintro base currency value ⟨r, hr, hbase, rfl, rfl⟩
    exact h.row r hr base hbase
  rcases hrate with ⟨p, hp, rfl⟩ | ⟨hno, p, hp, rfl⟩ <;>
    rcases hrate' with ⟨q, hq, rfl⟩ | ⟨hno', q, hq, rfl⟩
  · rw [← hlisted hp, ← hlisted hq]
  · exact absurd hp (hno' p)
  · exact absurd hq (hno q)
  · obtain rfl := Option.some.inj ((hlisted hp).symm.trans (hlisted hq))
    rfl

theorem HasPrices.route_eq {w : World} {prices : Prices} (h : HasPrices w prices)
    {input output : String} {rates rates' : List Rat}
    (hroute : Route w.prices.rows input output rates)
    (hroute' : Route w.prices.rows input output rates') : rates = rates' := by
  rcases hroute.one_or_two with ⟨rate, rfl, hside, hrate⟩ |
      ⟨first, second, rfl, hneither, hfirst, hsecond⟩ <;>
    rcases hroute'.one_or_two with ⟨rate', rfl, hside', hrate'⟩ |
      ⟨first', second', rfl, hneither', hfirst', hsecond'⟩
  · rw [Option.some.inj (h.rated_eq hrate hrate')]
  · exact (hside.elim hneither'.1 hneither'.2).elim
  · exact (hside'.elim hneither.1 hneither.2).elim
  · rw [Option.some.inj (h.rated_eq hfirst hfirst'),
      Option.some.inj (h.rated_eq hsecond hsecond')]

/-- **More is never quoted less**: at the rows two runs of `convert` find alike, or
where every pair of currencies has one price. -/
theorem quote_mono {env : Env} {w t t' : World} {input output chain : String} {a b : Rat}
    {o o' : Nat → Answer} {v u : Amount} {m n : Option Int} (hpos : PositivePrices w)
    (hsame : o = o' ∨ ∃ prices, HasPrices w prices) (hab : a ≤ b)
    (ha : (convert { currency := input, value := some a } output).exec o w = (.ok v, t))
    (hb : (convert { currency := input, value := some b } output).exec o' w = (.ok u, t'))
    (hm : toSatoshis env v.value output chain = .ok m)
    (hn : toSatoshis env u.value output chain = .ok n) :
    ∃ i j, m = some i ∧ n = some j ∧ i ≤ j := by
  have hrates : ∃ rates, Route w.prices.rows input output rates ∧
      v.value = some (along rates a) ∧ u.value = some (along rates b) := by
    rcases hsame with rfl | ⟨prices, hprices⟩
    · rcases convert_exec hpos.nonzero input output o with ⟨rates, hroute, hrun⟩ | ⟨e, hrun⟩
      · rw [hrun] at ha hb
        refine ⟨rates, hroute, ?_, ?_⟩
        · rw [← Except.ok.inj (Prod.mk.inj ha).1]
        · rw [← Except.ok.inj (Prod.mk.inj hb).1]
      · rw [hrun] at ha
        cases (Prod.mk.inj ha).1
    · obtain ⟨rates, hroute, rfl⟩ := route_of_returned hpos ha
      obtain ⟨rates', hroute', rfl⟩ := route_of_returned hpos hb
      obtain rfl := hprices.route_eq hroute hroute'
      exact ⟨rates, hroute, rfl, rfl⟩
  obtain ⟨rates, hroute, hv, hu⟩ := hrates
  have hle : along rates a ≤ along rates b := along_mono (hroute.nonneg hpos) hab
  unfold toSatoshis at hm hn
  cases hfind : find env output chain with
  | error e =>
      rw [hfind] at hm
      cases hm
  | ok plugin =>
      rw [hfind, hv] at hm
      rw [hfind, hu] at hn
      exact ⟨_, _, (Except.ok.inj hm).symm, (Except.ok.inj hn).symm, plugin.toSatoshis_mono hle⟩

/-- These dollars at 50000 for a bitcoin, and what they are in base units. -/
def bitcoins (dollars : Rat) : Except Failure Amount × World :=
  (convert { currency := "USD", value := some dollars } "BTC").exec (fun _ => {})
    (pricedAt "BTC" 50000)

def satoshis (dollars : Rat) : Option Int :=
  (bitcoins dollars).1.toOption.bind fun amount => amount.value.map (BTC.plugin {}).toSatoshis

example : satoshis 10 = some 20000 := by decide +kernel

theorem bitcoins_ok {dollars : Rat} (h : (bitcoins dollars).1.isOk = true) :
    ∃ v, bitcoins dollars = (.ok v, (bitcoins dollars).2) ∧
      satoshis dollars = v.value.map (BTC.plugin {}).toSatoshis := by
  obtain ⟨v, hv⟩ := exists_ok h
  refine ⟨v, Prod.ext hv rfl, ?_⟩
  rw [satoshis, hv]
  rfl

/-- A hundred dollars are more bitcoin than ten. -/
theorem quote_mono_bitcoin : ∃ i j, satoshis 10 = some i ∧ satoshis 100 = some j ∧ i ≤ j := by
  obtain ⟨v, hten, hv⟩ := bitcoins_ok (show (bitcoins 10).1.isOk = true by decide +kernel)
  obtain ⟨u, hhundred, hu⟩ := bitcoins_ok (show (bitcoins 100).1.isOk = true by decide +kernel)
  have hm : toSatoshis registered v.value "BTC" "BTC" = .ok (satoshis 10) := by
    rw [hv]
    rfl
  have hn : toSatoshis registered u.value "BTC" "BTC" = .ok (satoshis 100) := by
    rw [hu]
    rfl
  exact quote_mono (positive_pricedAt (by norm_num)) (.inl rfl) (by norm_num) hten hhundred hm hn

/-! ## How near -/

/-- The exact rate where `convertAt` finds one, and how far off the one is it
multiplies by. -/
inductive Leg (rows : List Price) (input output : String) : Rat → Rat → Prop where
  | direct {price : Rat} (listed : Listed rows output input price) :
      Leg rows input output price 0
  | inverse {price : Rat} (unlisted : ∀ p, ¬ Listed rows output input p)
      (listed : Listed rows input output price) : Leg rows input output (1 / price) (5 / 10 ^ 21)

/-- What an amount is worth exactly, and how far from it the quote may be: through
US dollars the second rate carries the first error along. -/
inductive ExactPrice (rows : List Price) (x : Rat) (input output : String) :
    Rat → Rat → Prop where
  | oneLeg {rate slack : Rat} (usd : input = "USD" ∨ output = "USD")
      (leg : Leg rows input output rate slack) :
      ExactPrice rows x input output (x * rate) (5 / 10 ^ 9 + slack * x)
  | twoLegs {first slack second slack' : Rat} (usd : input ≠ "USD" ∧ output ≠ "USD")
      (leg : Leg rows input "USD" first slack) (leg' : Leg rows "USD" output second slack') :
      ExactPrice rows x input output (x * first * second)
        ((5 / 10 ^ 9 + slack * x) * second +
          (5 / 10 ^ 9 + slack' * (x * first + (5 / 10 ^ 9 + slack * x))))

section Near

variable {rows : List Price} {input output : String}

theorem Leg.nonneg (hpos : ∀ r ∈ rows, 0 < r.value) {rate slack : Rat}
    (h : Leg rows input output rate slack) : 0 ≤ rate ∧ 0 ≤ slack := by
  cases h with
  | direct listed =>
      obtain ⟨r, hr, -, -, rfl⟩ := listed
      exact ⟨(hpos r hr).le, le_rfl⟩
  | inverse _ listed =>
      obtain ⟨r, hr, -, -, rfl⟩ := listed
      exact ⟨(one_div_pos.mpr (hpos r hr)).le, by norm_num⟩

/-- The rate that is found is that of a leg. -/
theorem Rated.leg (hpos : ∀ r ∈ rows, 0 < r.value) {rate : Rat}
    (h : Rated rows input output (some rate)) :
    ∃ exact slack, Leg rows input output exact slack ∧ |rate - exact| ≤ slack := by
  rcases h with ⟨price, hlisted, heq⟩ | ⟨hno, price, hlisted, heq⟩
  · refine ⟨price, 0, .direct hlisted, ?_⟩
    rw [Option.some.inj heq, sub_self, abs_zero]
  · refine ⟨1 / price, 5 / 10 ^ 21, .inverse hno hlisted, ?_⟩
    obtain ⟨r, hr, -, -, rfl⟩ := hlisted
    rw [reciprocal, if_neg (hpos r hr).ne'] at heq
    rw [Option.some.inj heq]
    have hround := abs_dp_sub_le 20 (1 / r.value)
    norm_num at hround ⊢
    exact hround

/-- One multiplication. -/
theorem abs_step_sub_le {x rate exact slack : Rat} (hx : 0 ≤ x) (h : |rate - exact| ≤ slack) :
    |dp 8 (x * rate) - x * exact| ≤ 5 / 10 ^ 9 + slack * x := by
  have hround : |dp 8 (x * rate) - x * rate| ≤ 5 / 10 ^ 9 := by
    have hdp := abs_dp_sub_le 8 (x * rate)
    norm_num at hdp ⊢
    exact hdp
  have hslack : |x * (rate - exact)| ≤ slack * x := by
    rw [abs_mul, abs_of_nonneg hx, mul_comm slack]
    exact mul_le_mul_of_nonneg_left h hx
  have hsplit : dp 8 (x * rate) - x * exact =
      (dp 8 (x * rate) - x * rate) + x * (rate - exact) := by ring
  rw [hsplit]
  exact (abs_add_le _ _).trans (add_le_add hround hslack)

/-- What comes out along a route is near the exact price. -/
theorem Route.near (hpos : ∀ r ∈ rows, 0 < r.value) {x : Rat} (hx : 0 ≤ x) {rates : List Rat}
    (h : Route rows input output rates) :
    ∃ exact bound, ExactPrice rows x input output exact bound ∧
      |along rates x - exact| ≤ bound := by
  match rates, h with
  | [rate], ⟨husd, hrated⟩ =>
      obtain ⟨exact, slack, hleg, hle⟩ := hrated.leg hpos
      exact ⟨_, _, .oneLeg husd hleg, abs_step_sub_le hx hle⟩
  | [rate, rate'], ⟨husd, hrated, hrated'⟩ =>
      obtain ⟨first, slack, hleg, hle⟩ := hrated.leg hpos
      obtain ⟨second, slack', hleg', hle'⟩ := hrated'.leg hpos
      refine ⟨_, _, .twoLegs husd hleg hleg', ?_⟩
      obtain ⟨hsecond, hslack'⟩ := hleg'.nonneg hpos
      have husd0 : 0 ≤ dp 8 (x * rate) := dp_nonneg (mul_nonneg hx (hrated.nonneg hpos))
      have hfirst := abs_step_sub_le hx hle
      have hlast := abs_step_sub_le husd0 hle'
      show |dp 8 (dp 8 (x * rate) * rate') - x * first * second| ≤ _
      generalize dp 8 (x * rate) = v at husd0 hfirst hlast ⊢
      -- the dollars are no more than they are worth and their error
      have hv : slack' * v ≤ slack' * (x * first + (5 / 10 ^ 9 + slack * x)) := by
        have hupper := (abs_le.mp hfirst).2
        exact mul_le_mul_of_nonneg_left (by linarith) hslack'
      have hcarried : |(v - x * first) * second| ≤ (5 / 10 ^ 9 + slack * x) * second := by
        rw [abs_mul, abs_of_nonneg hsecond]
        exact mul_le_mul_of_nonneg_right hfirst hsecond
      have hsplit : dp 8 (v * rate') - x * first * second =
          (v - x * first) * second + (dp 8 (v * rate') - v * second) := by ring
      calc |dp 8 (v * rate') - x * first * second|
          ≤ |(v - x * first) * second| + |dp 8 (v * rate') - v * second| := by
            rw [hsplit]
            exact abs_add_le _ _
        _ ≤ _ := add_le_add hcarried (hlast.trans (add_le_add_right hv _))

theorem along_nonneg {rates : List Rat} (hrates : ∀ rate ∈ rates, 0 ≤ rate) {x : Rat}
    (hx : 0 ≤ x) : 0 ≤ along rates x := by
  induction rates generalizing x with
  | nil => exact hx
  | cons rate rates ih =>
      exact ih (fun r hr => hrates r (by simp [hr]))
        (dp_nonneg (mul_nonneg hx (hrates rate (by simp))))

end Near

/-- From which amount on at least `least` comes out at these rates. -/
def leastAmount (rates : List Rat) (least : Rat) : Rat :=
  rates.foldr (fun rate y => (((y * 10 ^ 8).ceil : Rat) - 1 / 2) / 10 ^ 8 / rate) least

example : leastAmount [1 / 50000] (1 / 10 ^ 8) = 1 / 4000 := by decide +kernel

@[simp] theorem leastAmount_cons (rate : Rat) (rates : List Rat) (least : Rat) :
    leastAmount (rate :: rates) least =
      (((leastAmount rates least * 10 ^ 8).ceil : Rat) - 1 / 2) / 10 ^ 8 / rate := rfl

theorem leastAmount_pos {rates : List Rat} (hrates : ∀ rate ∈ rates, 0 < rate) {least : Rat}
    (hleast : 0 < least) : 0 < leastAmount rates least := by
  induction rates with
  | nil => exact hleast
  | cons rate rates ih =>
      have hrest := ih fun r hr => hrates r (by simp [hr])
      have hscaled : 0 < leastAmount rates least * 10 ^ 8 := by positivity
      have hceil : 0 < (leastAmount rates least * 10 ^ 8).ceil := by
        exact_mod_cast hscaled.trans_le Rat.le_ceil
      rw [leastAmount_cons]
      generalize (leastAmount rates least * 10 ^ 8).ceil = k at hceil ⊢
      have hk : (1 : Rat) ≤ k := by exact_mod_cast hceil
      have hunits : 0 < (k : Rat) - 1 / 2 := by linarith
      exact div_pos (div_pos hunits (by positivity)) (hrates rate (by simp))

theorem le_along_iff {rates : List Rat} (hrates : ∀ rate ∈ rates, 0 ≤ rate) {least x : Rat}
    (hleast : 0 < least) :
    least ≤ along rates x ↔ (∀ rate ∈ rates, 0 < rate) ∧ leastAmount rates least ≤ x := by
  induction rates generalizing x with
  | nil => simp [leastAmount]
  | cons rate rates ih =>
      have hrest := ih (x := dp 8 (x * rate)) fun r hr => hrates r (by simp [hr])
      rw [along_cons, hrest, List.forall_mem_cons, leastAmount_cons, and_assoc]
      have hstep : (∀ r ∈ rates, 0 < r) → (leastAmount rates least ≤ dp 8 (x * rate) ↔
          0 < rate ∧
            (((leastAmount rates least * 10 ^ 8).ceil : Rat) - 1 / 2) / 10 ^ 8 / rate ≤ x) := by
        intro hall
        have hpos := leastAmount_pos hall hleast
        rcases (hrates rate (by simp)).eq_or_lt with rfl | hrate
        · simp [dp_zero, hpos]
        · rw [le_dp_iff_ceil hpos, div_le_iff₀ hrate]
          exact ⟨fun h => ⟨hrate, h⟩, fun h => h.2⟩
      constructor
      · rintro ⟨hall, hle⟩
        obtain ⟨hrate, hx⟩ := (hstep hall).mp hle
        exact ⟨hrate, hall, hx⟩
      · rintro ⟨hrate, hall, hx⟩
        exact ⟨hall, (hstep hall).mpr ⟨hrate, hx⟩⟩

/-- The amount comes to a base unit at these rates: none of them was rounded to
nothing, and nothing is lost on the way that the first unit needs. -/
def Suffices (plugin : Plugin) (rates : List Rat) (x : Rat) : Prop :=
  (∀ rate ∈ rates, 0 < rate) ∧
    leastAmount rates (plugin.leastUnit / 10 ^ plugin.decimals) ≤ x

/-- **A quote is more than nothing** where the amount suffices, and only there. -/
theorem quote_pos_iff {env : Env} {w t : World} {input output chain : String} {x : Rat}
    {o : Nat → Answer} {amount : Amount} {plugin : Plugin} (hpos : PositivePrices w)
    (hrun : (convert { currency := input, value := some x } output).exec o w = (.ok amount, t))
    (hfind : find env output chain = .ok plugin) :
    ∃ rates n, Route w.prices.rows input output rates ∧ amount.value = some (along rates x) ∧
      toSatoshis env amount.value output chain = .ok (some n) ∧
      (0 < n ↔ Suffices plugin rates x) := by
  obtain ⟨rates, hroute, rfl⟩ := route_of_returned hpos hrun
  refine ⟨rates, plugin.toSatoshis (along rates x), hroute, rfl, ?_, ?_⟩
  · rw [toSatoshis, hfind]
    rfl
  · have hleast : 0 < plugin.leastUnit / 10 ^ plugin.decimals :=
      div_pos plugin.leastUnit_pos (by positivity)
    rw [plugin.toSatoshis_pos_iff, le_along_iff (hroute.nonneg hpos) hleast]
    rfl

/-- Ten dollars at 150 for a SOL, which has no base units smaller than one. -/
theorem sol_for_nothing : ¬ ∀ (env : Env) (libraries : ChainLibraries),
    env.plugins = plugins libraries → ∀ (w t : World), PositivePrices w →
      ∀ (input output chain : String) (x : Rat) (o : Nat → Answer) (amount : Amount),
        0 < x →
        (convert { currency := input, value := some x } output).exec o w = (.ok amount, t) →
        ∀ n, toSatoshis env amount.value output chain = .ok (some n) → 0 < n := by
  intro h
  have hrun : ∃ amount t, (convert { currency := "USD", value := some 10 } "SOL").exec
      (fun _ => {}) (pricedAt "SOL" 150) = (.ok amount, t) ∧
        amount.value.map (SOL.plugin {}).toSatoshis = some 0 := by
    have hzero : (((convert { currency := "USD", value := some 10 } "SOL").exec (fun _ => {})
        (pricedAt "SOL" 150)).1.toOption.bind fun amount =>
          amount.value.map (SOL.plugin {}).toSatoshis) = some 0 := by decide +kernel
    obtain ⟨amount, hamount, hunits⟩ := Option.bind_eq_some_iff.mp hzero
    exact ⟨amount, _, Prod.ext (ok_of_toOption hamount) rfl, hunits⟩
  obtain ⟨amount, t, hrun, hunits⟩ := hrun
  have hpos := h registered {} rfl _ t (positive_pricedAt (by norm_num)) "USD" "SOL" "SOL" 10 _
    amount (by norm_num) hrun 0 (by rw [← hunits]; rfl)
  exact absurd hpos (by decide)

/-- Ten dollars are more than no bitcoin. -/
theorem quote_pos_bitcoin : ∃ rates n, satoshis 10 = some n ∧
    (0 < n ↔ Suffices (BTC.plugin {}) rates 10) := by
  obtain ⟨amount, hrun, hunits⟩ := bitcoins_ok (show (bitcoins 10).1.isOk = true by decide +kernel)
  have hfind : find registered "BTC" "BTC" = .ok (BTC.plugin {}) := rfl
  obtain ⟨rates, n, -, -, hn, hiff⟩ :=
    quote_pos_iff (positive_pricedAt (by norm_num)) hrun hfind
  refine ⟨rates, n, ?_, hiff⟩
  rw [hunits]
  exact Except.ok.inj hn

end Anypay
