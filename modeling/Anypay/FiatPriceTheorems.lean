/-
Anypay.FiatPriceTheorems — whether the stored prices mean fixer's rates.

`MeansRates` says what the prices have to do: a conversion from US dollars
multiplies by the rate, one to US dollars divides by it, with the rate or its
inverse rounded to the eight digits `setPrice` keeps and the result to the eight
digits of `convert`. `setAllFiatPrices` stores a price as it is fetched;
`updateUSDPrices` exchanges its base and its currency and not its value.
`both_mean_rates_iff` says when the two come to the same: where no price differs
from one dollar in eight digits.

* `reaches_calls` — what calls side by side do to the price rows.
* `exists_returned` — they can all return.
* `gives_of_rows` — what `convert` makes of the rows.
* `priced_eq_one` — the only price that multiplies like its rate.
-/
import Anypay.FiatPrices
import Anypay.LedgerTheorems
import Anypay.QuoteTheorems

namespace Anypay.FiatPrices

open Store Async Proc Pool

variable {w w' : World} {rates : Rates}

/-! ## Writing prices -/

/-- The row is the price of this pair. -/
def HasKey (r : Price) (base currency : String) : Prop :=
  r.base_currency = some base ∧ r.currency = currency

/-- Every row is there still, with its pair. -/
def SameKeys (w w' : World) : Prop := ∀ r ∈ w.prices.rows, ∃ r' ∈ w'.prices.rows,
  r'.id = r.id ∧ r'.base_currency = r.base_currency ∧ r'.currency = r.currency

/-- A row that is not as it was is `allowed`. -/
def Writes (allowed : Price → Prop) (w w' : World) : Prop :=
  ∀ r ∈ w'.prices.rows, r ∈ w.prices.rows ∨ allowed r

theorem SameKeys.refl (w : World) : SameKeys w w := fun r hr => ⟨r, hr, rfl, rfl, rfl⟩

theorem SameKeys.trans {w'' : World} (h : SameKeys w w') (h' : SameKeys w' w'') :
    SameKeys w w'' := by
  intro r hr
  obtain ⟨r', hr', hid, hbase, hcurrency⟩ := h r hr
  obtain ⟨r'', hr'', hid', hbase', hcurrency'⟩ := h' r' hr'
  exact ⟨r'', hr'', hid'.trans hid, hbase'.trans hbase, hcurrency'.trans hcurrency⟩

/-- Calls that write allowed rows, and leave every row its pair. The ghost value is
what the call is. -/
def writing (γ : Type) (allowed : Price → Prop) : Contract World Answer γ where
  answers _ _ _ := True
  rely _ := SameKeys
  guar g w w' g' := g' = g ∧ SameKeys w w' ∧ Writes allowed w w'
  guar_refl _ w := ⟨rfl, .refl w, fun _ hr => .inl hr⟩
  rely_refl _ := SameKeys.refl
  rely_trans := SameKeys.trans

/-- The price of this pair is stored. -/
def Stored (base currency : String) (w : World) : Prop :=
  ∃ r ∈ w.prices.rows, HasKey r base currency

theorem Stored.sameKeys {base currency : String} (h : Stored base currency w)
    (hkeys : SameKeys w w') : Stored base currency w' := by
  obtain ⟨r, hr, hbase, hcurrency⟩ := h
  obtain ⟨r', hr', -, hbase', hcurrency'⟩ := hkeys r hr
  exact ⟨r', hr', hbase'.trans hbase, hcurrency'.trans hcurrency⟩

/-- The rows `setPrice` may leave. -/
def Price.OfCall (price : SetPrice) (r : Price) : Prop :=
  HasKey r price.base_currency price.currency ∧ r.value = dp 8 price.value

theorem hasKey_of_found {base currency : String} {r : Price}
    (h : (r.base_currency == some base && r.currency == currency) = true) :
    HasKey r base currency := by
  simpa [HasKey] using h

/-- A row more keeps the others. -/
theorem writes_create {allowed : Price → Prop} {r : Price} {t : Table Price}
    (hrows : t.rows = w.prices.rows ++ [r]) (hr : allowed r) :
    SameKeys w { w with prices := t } ∧ Writes allowed w { w with prices := t } := by
  constructor
  · intro x hx
    exact ⟨x, hrows ▸ List.mem_append_left _ hx, rfl, rfl, rfl⟩
  · intro x hx
    rw [show ({ w with prices := t } : World).prices.rows = _ from hrows] at hx
    rcases List.mem_append.mp hx with hx | hx
    · exact .inl hx
    · exact .inr (List.mem_singleton.mp hx ▸ hr)

/-- A new value for a row keeps its pair. -/
theorem writes_update {allowed : Price → Prop} {r : Price} {t : Table Price} (value : Rat)
    (hr : r ∈ w.prices.rows)
    (hrows : t.rows = Table.patch r.id (fun r => { r with value }) w.prices.rows)
    (hallowed : allowed { r with value }) :
    SameKeys w { w with prices := t } ∧ Writes allowed w { w with prices := t } := by
  constructor
  · intro x hx
    refine ⟨if x.id = r.id then { x with value } else x, ?_, ?_, ?_, ?_⟩
    · rw [show ({ w with prices := t } : World).prices.rows = _ from hrows]
      exact List.mem_map_of_mem hx
    all_goals split <;> rfl
  · intro x hx
    rw [show ({ w with prices := t } : World).prices.rows = _ from hrows] at hx
    obtain ⟨y, hy, rfl⟩ := List.mem_map.mp hx
    by_cases hid : Record.id y = r.id
    · rw [if_pos hid, Table.eq_of_id hy hr hid]
      exact .inr hallowed
    · rw [if_neg hid]
      exact .inl hy

theorem meets_writePrice {γ : Type} {allowed : Price → Prop} {price : SetPrice} {value : Rat}
    (hallowed : ∀ r, HasKey r price.base_currency price.currency → r.value = value → allowed r)
    (g : γ) (w : World) :
    (writePrice price value).Meets (writing γ allowed)
      (fun _ _ => Stored price.base_currency price.currency) (fun _ _ _ => True) g w := by
  refine Delegate.meets_findFirst_bind (fun s _ record hrecord hfound => ?_) fun s _ _ => ?_
  · have hkey := hasKey_of_found hfound
    refine Delegate.meets_update_bind (fun t hst now tb r hr hid hrows _ => ?_)
      fun _ _ _ _ _ _ _ => trivial
    obtain ⟨r', hr', hid', hbase, hcurrency⟩ := hst record hrecord
    obtain rfl := Table.eq_of_id hr hr' (hid.trans hid'.symm)
    have hkey' : HasKey r price.base_currency price.currency :=
      ⟨hbase.trans hkey.1, hcurrency.trans hkey.2⟩
    have hwrites := writes_update value hr (hid ▸ hrows) (hallowed _ hkey' rfl)
    have hstored : Stored price.base_currency price.currency t := ⟨r, hr, hkey'⟩
    exact ⟨g, ⟨rfl, hwrites⟩, fun u hu => (hstored.sameKeys hwrites.1).sameKeys hu⟩
  · rw [← Proc.bind_done (prisma.prices.create _ _)]
    refine Delegate.meets_create_bind (fun t hst now tb hrows => ?_) fun _ _ => trivial
    have hwrites := writes_create hrows (hallowed _ ⟨rfl, rfl⟩ rfl)
    refine ⟨g, ⟨rfl, hwrites⟩, fun u hu => ?_⟩
    have hnew : Stored price.base_currency price.currency { t with prices := tb } :=
      ⟨_, hrows ▸ List.mem_append_right _ List.mem_cons_self, rfl, rfl⟩
    exact hnew.sameKeys hu

theorem meets_setPrice {γ : Type} {allowed : Price → Prop} {price : SetPrice}
    (hallowed : ∀ r, Price.OfCall price r → allowed r) (g : γ) (w : World) :
    (setPrice price).Meets (writing γ allowed)
      (fun _ _ => Stored price.base_currency price.currency) (fun _ _ _ => True) g w := by
  refine meets_bind (meets_mono (fun record g s hs => ?_) (fun _ _ _ _ => trivial)
    (meets_writePrice (fun r hkey hvalue => hallowed r ⟨hkey, hvalue⟩) g w))
  have hdone : ∀ t, SameKeys s t → (Proc.done record : Task Price).Meets (writing γ allowed)
      (fun _ _ => Stored price.base_currency price.currency) (fun _ _ _ => True) g t :=
    fun t hst u hu => (hs.sameKeys hst).sameKeys hu
  refine Delegate.meets_findFirst_bind (fun t hst updated _ _ => ?_) fun t hst _ => hdone t hst
  have hpublish : (detached (publishEvent "price.updated" (priceUpdated updated))).Keeps
      World.prices := keeps_detached (keeps_publishEvent _ _)
  refine meets_keeps_bind hpublish
    (fun u v huv => ?_) (fun u hu _ => hdone u (hst.trans hu)) fun _ _ _ => trivial
  have hsame : SameKeys u v ∧ Writes allowed u v := by
    constructor
    · intro r hr
      exact ⟨r, huv ▸ hr, rfl, rfl, rfl⟩
    · intro r hr
      exact .inl (huv ▸ hr)
  exact ⟨⟨rfl, hsame⟩, hsame.1⟩

/-! ## Calls side by side -/

/-- The prices a call sets. -/
def PriceCall.prices : PriceCall → List SetPrice
  | .setPrice price => [price]
  | .setAllFiatPrices rates => fetchCurrencies "USD" rates

/-- Everything a call sets is stored. -/
def AllStored (call : PriceCall) (w : World) : Prop :=
  ∀ price ∈ call.prices, Stored price.base_currency price.currency w

theorem meets_setPrices {γ : Type} {allowed : Price → Prop} {prices : List SetPrice}
    (hallowed : ∀ price ∈ prices, ∀ r, Price.OfCall price r → allowed r) (g : γ) (w : World) :
    (forEach prices fun price => discard (setPrice price) : Task Unit).Meets (writing γ allowed)
      (fun _ _ t => ∀ price ∈ prices, Stored price.base_currency price.currency t)
      (fun _ _ _ => True) g w := by
  induction prices generalizing g w with
  | nil => exact fun t _ price hprice => by cases hprice
  | cons price prices ih =>
      have hfirst := meets_setPrice (hallowed price List.mem_cons_self) g w
      refine meets_bind (meets_mono (fun _ g s hs => ?_) (fun _ _ _ h => h)
        (meets_discard_of_stable (fun _ _ _ hs hst => hs.sameKeys hst) hfirst))
      have hrest := ih (fun price hprice => hallowed price (List.mem_cons_of_mem _ hprice)) g s
      have hboth := meets_frame (C := writing γ allowed)
        (F := Stored price.base_currency price.currency)
        (fun hF hst => hF.sameKeys hst) (fun hF hguar => hF.sameKeys hguar.2.1) hs hrest
      refine meets_mono (fun _ g t ht x hx => ?_) (fun _ _ _ _ => trivial) hboth
      rcases List.mem_cons.mp hx with rfl | hx
      · exact ht.2
      · exact ht.1 x hx

theorem meets_handle {allowed : Price → Prop} {call : PriceCall}
    (hallowed : ∀ price ∈ call.prices, ∀ r, Price.OfCall price r → allowed r) (w : World) :
    (handle call).Meets (writing PriceCall allowed) (fun _ => AllStored) (fun _ _ _ => True)
      call w := by
  have hprices : (handle call).Meets (writing PriceCall allowed)
      (fun _ _ t => ∀ price ∈ call.prices, Stored price.base_currency price.currency t)
      (fun _ _ _ => True) call w := by
    cases call with
    | setPrice price =>
        have hset := meets_setPrice (hallowed price List.mem_cons_self)
          (PriceCall.setPrice price) w
        refine meets_mono (fun _ g s hs price' hprice' => ?_) (fun _ _ _ h => h)
          (meets_discard_of_stable (fun _ _ _ hs hst => hs.sameKeys hst) hset)
        rw [List.mem_singleton.mp hprice']
        exact hs
    | setAllFiatPrices rates => exact meets_setPrices hallowed _ w
  refine meets_mono (fun _ g s hs => ?_) (fun _ _ _ h => h)
    (meets_fixed (C := writing PriceCall allowed) (fun hguar => hguar.1) hprices)
  rw [hs.2]
  exact hs.1

/-- The rows the calls may leave. -/
def OfCalls (calls : List PriceCall) (r : Price) : Prop :=
  ∃ call ∈ calls, ∃ price ∈ call.prices, Price.OfCall price r

/-- What calls side by side do to the price rows. -/
theorem reaches_calls {calls : List PriceCall} {q : Calls}
    (h : Reaches handle runs (started w calls) q) :
    SameKeys w q.state ∧ Writes (OfCalls calls) w q.state ∧
      (Returned q → ∀ call ∈ calls, AllStored call q.state) := by
  have hinv : SameKeys w q.state ∧ Writes (OfCalls calls) w q.state ∧
      Kept (writing PriceCall (OfCalls calls)) AllStored (fun _ _ => True) q calls := by
    refine reaches_inv (I := fun q : Calls => SameKeys w q.state ∧ Writes (OfCalls calls) w q.state ∧
      Kept (writing PriceCall (OfCalls calls)) AllStored (fun _ _ => True) q calls)
      (fun p m q' hp hm hmv => ?_) ⟨.refl w, fun _ hr => .inl hr, ?_⟩ h
    · obtain ⟨hkeys, hwrites, hkept⟩ := hp
      cases m with
      | start call => exact hm.elim
      | run i c =>
          obtain ⟨_, _, g, g', -, -, hg, ⟨rfl, hkeys', hwrites'⟩, hall⟩ :=
            kept_run hkept hmv fun _ _ => trivial
          have hcalls : calls.set i g' = calls := by
            obtain ⟨hlt, rfl⟩ := List.getElem?_eq_some_iff.mp hg
            exact List.set_getElem_self hlt
          have hkept' := hall fun _ _ _ _ => hkeys'
          rw [hcalls] at hkept'
          refine ⟨hkeys.trans hkeys', fun r hr => ?_, hkept'⟩
          rcases hwrites' r hr with hr | hr
          · exact hwrites r hr
          · exact .inr hr
    · refine List.forall₂_map_left_iff.mpr (List.forall₂_same.mpr fun call hcall => ?_)
      exact meets_handle (fun price hprice r hr => ⟨call, hcall, price, hprice, hr⟩) w
  obtain ⟨hkeys, hwrites, hkept⟩ := hinv
  refine ⟨hkeys, hwrites, fun hreturned call hcall => ?_⟩
  obtain ⟨i, hlt, rfl⟩ := List.getElem_of_mem hcall
  have hlt' : i < q.threads.length := hkept.length_eq ▸ hlt
  have hmeets := List.Forall₂.get hkept hlt' hlt
  have hdone : (q.threads.get ⟨i, hlt'⟩).2 = .done () := hreturned _ (List.get_mem _ _)
  rw [hdone] at hmeets
  exact hmeets q.state (SameKeys.refl _)

/-- Alone, `setPrice` throws nowhere and leaves its row. -/
theorem wp_setPrice {A : Answer → Prop} (price : SetPrice) (w : World) :
    (setPrice price).wp A (fun _ t => ∃ r ∈ t.prices.rows, Price.OfCall price r)
      (fun _ _ => False) w := by
  have hwrite : (writePrice price (dp 8 price.value)).wp A
      (fun _ t => ∃ r ∈ t.prices.rows, Price.OfCall price r) (fun _ _ => False) w := by
    unfold writePrice findPrice
    simp only [bind_eq, wp_bind]
    apply Delegate.wp_findFirst
    · intro record hrecord hfound
      rw [wp_bind]
      apply Delegate.wp_update
      · intro now t r hr hid hrows _
        refine ⟨{ r with value := dp 8 price.value }, ?_, ?_, rfl⟩
        · show _ ∈ t.rows
          rw [hrows]
          exact List.mem_map.mpr ⟨r, hr, if_pos hid⟩
        · obtain rfl := Table.eq_of_id hr hrecord hid
          exact hasKey_of_found hfound
      · intro now te hte
        exact Table.update?_ne_error hrecord rfl rfl hte
    · intro _
      apply Delegate.wp_create
      · intro now t hrows _
        refine ⟨⟨w.prices.next, price.currency, dp 8 price.value, some price.base_currency⟩, ?_,
          ⟨rfl, rfl⟩, rfl⟩
        show _ ∈ t.rows
        rw [hrows]
        exact List.mem_append_right _ List.mem_cons_self
      · rintro now ⟨_, _, _, hkey⟩
        exact hkey rfl
  unfold setPrice
  simp only [bind_eq, wp_bind]
  refine wp_mono (fun record t ht => ?_) (fun _ _ h => h) hwrite
  apply Delegate.wp_findFirst
  · intro updated _ _
    simp only [detached, wp_bind, wp_tryCatch]
    refine wp_of_keeps (keeps_publishEvent _ _ : (publishEvent _ _).Keeps World.prices)
      (fun _ u hu => ?_) (fun _ u hu => ?_)
    all_goals
      show ∃ r ∈ u.prices.rows, _
      rw [hu]
      exact ht
  · intro _
    exact ht

theorem exec_setPrice (price : SetPrice) (o : Nat → Answer) (w : World) :
    ((discard (setPrice price) : Task Unit).exec o w).1 = .ok () ∧
      ∃ r ∈ ((discard (setPrice price) : Task Unit).exec o w).2.prices.rows,
        Price.OfCall price r := by
  have hwp : (discard (setPrice price) : Task Unit).wp AnyAnswer
      (fun _ t => ∃ r ∈ t.prices.rows, Price.OfCall price r) (fun _ _ => False) w := by
    rw [discard_eq, wp_bind]
    exact wp_setPrice price w
  have hend := wp_exec hwp (anyAnswer o)
  cases hr : ((discard (setPrice price) : Task Unit).exec o w).1 with
  | ok _ =>
      rw [hr] at hend
      exact ⟨rfl, hend⟩
  | error e =>
      rw [hr] at hend
      exact hend.elim

/-- Calls of `setPrice` can all return. -/
theorem exists_returned (prices : List SetPrice) (w : World) :
    ∃ p, Reaches handle runs (started w (prices.map .setPrice)) p ∧ Returned p := by
  have hends : ∃ s, Reaches handle runs (started w (prices.map .setPrice))
      ⟨s, [] ++ ((prices.map PriceCall.setPrice).map fun call => (call, handle call)).map
        fun th => (th.1, .done ())⟩ := by
    refine exists_reaches_done (fun _ _ _ => trivial) [] _ w fun th hth s => ?_
    simp only [List.map_map, List.mem_map] at hth
    obtain ⟨price, -, rfl⟩ := hth
    exact ⟨fun _ => {}, (exec_setPrice price _ s).1⟩
  obtain ⟨s, hs⟩ := hends
  refine ⟨_, hs, fun th hth => ?_⟩
  obtain ⟨_, _, rfl⟩ := List.mem_map.mp hth
  rfl

/-! ## Converting at the rows -/

/-- `convert` of `x` returns, whatever rows it finds, a value with `P`. -/
def Gives (w : World) (input output : String) (x : Rat) (P : Rat → Prop) : Prop :=
  ∀ o, ∃ y, ((convert { currency := input, value := some x } output).exec o w).1 =
    .ok { currency := output, value := some y } ∧ P y

/-- With USD on one side the conversion takes one step: by the row of the output
in the input, or by the inverse of the row of the input in the output. -/
theorem gives_of_rows {input output : String} {x : Rat} {P : Rat → Prop}
    (husd : input = "USD" ∨ output = "USD")
    (hstored : Stored output input w ∨ Stored input output w)
    (hrow : ∀ r ∈ w.prices.rows, HasKey r output input → P (dp 8 (x * r.value)))
    (hinverse : ¬ Stored output input w → ∀ r ∈ w.prices.rows, HasKey r input output →
      ∃ i, reciprocal r.value = some i ∧ P (dp 8 (i * x))) : Gives w input output x P := by
  intro o
  have hwp : (convert { currency := input, value := some x } output).wp AnyAnswer
      (fun a _ => ∃ y, a = { currency := output, value := some y } ∧ P y) (fun _ _ => False)
      w := by
    unfold convert
    rw [if_neg (by simpa [or_iff_not_imp_left] using husd)]
    unfold convertAt findPrice
    simp only [bind_eq, pure_eq, wp_bind]
    apply Delegate.wp_findFirst
    · intro r hr hfound
      exact ⟨_, rfl, hrow r hr (hasKey_of_found hfound)⟩
    · intro hnone
      have hno : ¬ Stored output input w := by
        rintro ⟨r, hr, hbase, hcurrency⟩
        have hfound := hnone r hr
        simp [hbase, hcurrency] at hfound
      rw [wp_bind]
      apply Delegate.wp_findFirst
      · intro r hr hfound
        obtain ⟨i, hi, hP⟩ := hinverse hno r hr (hasKey_of_found hfound)
        refine ⟨_, ?_, hP⟩
        simp [hi]
      · intro hnone'
        obtain ⟨r, hr, hbase, hcurrency⟩ := hstored.resolve_left hno
        have hfound := hnone' r hr
        simp [hbase, hcurrency] at hfound
  have hend := wp_exec hwp (anyAnswer o)
  cases hr : ((convert { currency := input, value := some x } output).exec o w).1 with
  | ok a =>
      rw [hr] at hend
      obtain ⟨y, rfl, hy⟩ := hend
      exact ⟨y, rfl, hy⟩
  | error e =>
      rw [hr] at hend
      exact hend.elim

/-- Where the row of the output in the input is stored, it can be found. -/
theorem Gives.of_row {input output : String} {x : Rat} {P : Rat → Prop}
    (h : Gives w input output x P) (husd : input = "USD" ∨ output = "USD") {r : Price}
    (hr : r ∈ w.prices.rows) (hkey : HasKey r output input) : P (dp 8 (x * r.value)) := by
  have hpick : ∃ n, w.prices.pick
      (fun r => r.base_currency == some output && r.currency == input) n = some r :=
    Table.exists_pick hr (by simp [hkey.1, hkey.2])
  obtain ⟨n, hn⟩ := hpick
  obtain ⟨y, hy, hP⟩ := h fun _ => { row := n }
  unfold convert at hy
  rw [if_neg (by simpa [or_iff_not_imp_left] using husd), convertAt, bind_eq, findPrice,
    Delegate.exec_findFirst_bind, show prisma.prices.get w = w.prices from rfl, hn] at hy
  obtain rfl : dp 8 (x * r.value) = y := by simpa using hy
  exact hP

/-! ## What the rates mean -/

/-- The price of a currency of this rate, as `setPrice` keeps it. -/
def priced (rate : Rat) : Rat := dp 8 (dp 20 (1 / rate))

/-- `x` times the rate: the rate is rounded, or the price it was inverted to is. -/
def Times (rate x y : Rat) : Prop :=
  y = dp 8 (x * dp 8 rate) ∨ ∃ i, reciprocal (priced rate) = some i ∧ y = dp 8 (i * x)

/-- `x` over the rate: the price is rounded, or the rate it is inverted from is. -/
def Over (rate x y : Rat) : Prop :=
  y = dp 8 (x * priced rate) ∨ ∃ i, reciprocal (dp 8 rate) = some i ∧ y = dp 8 (i * x)

/-- Currencies are converted at fixer's rates, US dollars to themselves as they are. -/
def MeansRates (rates : Rates) (w : World) : Prop :=
  (∀ entry ∈ rates.entries, ∀ x, Gives w "USD" entry.1 x (Times entry.2 x) ∧
    Gives w entry.1 "USD" x (Over entry.2 x)) ∧
  ("USD" ∈ rates.entries.map Prod.fst → ∀ x, Gives w "USD" "USD" x fun y => y = dp 8 x)

/-- No price differs from one dollar in eight digits, nor one that is inverted again. -/
def OneDollar (rates : Rates) : Prop :=
  (∀ entry ∈ rates.entries, priced entry.2 = 1) ∧
  ("USD" ∈ rates.entries.map Prod.fst →
    ∀ entry ∈ rates.entries, dp 8 (1 / dp 20 (1 / entry.2)) = 1)

/-- Rates that some number tells apart. -/
theorem dp_mul_ne {p q x : Rat} (hpq : p ≠ q) (hx : 1 / |p - q| ≤ x) :
    dp 8 (x * p) ≠ dp 8 (x * q) := by
  have hpos : 0 < |p - q| := abs_pos.mpr (sub_ne_zero.mpr hpq)
  have hx0 : 0 ≤ x := le_trans (by positivity) hx
  apply dp_ne_of_far
  calc (1 : Rat) = 1 / |p - q| * |p - q| := (one_div_mul_cancel hpos.ne').symm
    _ ≤ x * |p - q| := mul_le_mul_of_nonneg_right hx hpos.le
    _ = |x * p - x * q| := by rw [← mul_sub, abs_mul, abs_of_nonneg hx0]

theorem reciprocal_one : reciprocal 1 = some 1 := by
  rw [reciprocal, if_neg one_ne_zero, div_one, dp_one]

/-- Where multiplying by the price comes to multiplying by the rate, the price is the
rate or its own inverse. -/
theorem priced_eq_or {rate : Rat} (h : ∀ x, Times rate x (dp 8 (x * priced rate))) :
    priced rate = dp 8 rate ∨ reciprocal (priced rate) = some (priced rate) := by
  by_contra hno
  rw [not_or] at hno
  cases hi : reciprocal (priced rate) with
  | none =>
      rcases h (1 / |priced rate - dp 8 rate|) with hx | ⟨_, hnone, -⟩
      · exact dp_mul_ne hno.1 le_rfl hx
      · rw [hi] at hnone
        cases hnone
  | some i =>
      have hne : priced rate ≠ i := fun heq => hno.2 (hi.trans (congrArg some heq.symm))
      have hfirst : 0 ≤ 1 / |priced rate - dp 8 rate| := by positivity
      have hsecond : 0 ≤ 1 / |priced rate - i| := by positivity
      rcases h (1 / |priced rate - dp 8 rate| + 1 / |priced rate - i|) with hx | ⟨j, hj, hx⟩
      · exact dp_mul_ne hno.1 (by linarith) hx
      · obtain rfl := Option.some.inj (hi.symm.trans hj)
        rw [mul_comm i] at hx
        exact dp_mul_ne hne (by linarith) hx

/-- Only one is its own inverse, and only about one is a rate its own price. -/
theorem priced_eq_one {rate : Rat} (hrate : 0 < rate)
    (h : ∀ x, Times rate x (dp 8 (x * priced rate))) : priced rate = 1 := by
  rcases priced_eq_or h with heq | hself
  · rcases le_total rate 1 with hle | hge
    · have hrounded : dp 8 rate ≤ 1 := dp_le_one hle
      have hprice : 1 ≤ priced rate := one_le_dp (one_le_dp ((one_le_div hrate).mpr hle))
      linarith
    · have hrounded : 1 ≤ dp 8 rate := one_le_dp hge
      have hprice : priced rate ≤ 1 := dp_le_one (dp_le_one ((div_le_one hrate).mpr hge))
      linarith
  · unfold reciprocal at hself
    split at hself
    · cases hself
    · rename_i hne
      have heq := Option.some.inj hself
      have hnonneg : 0 ≤ priced rate := dp_nonneg (dp_nonneg (by positivity))
      have hpos : 0 < priced rate := lt_of_le_of_ne hnonneg (Ne.symm hne)
      rcases le_total (priced rate) 1 with hle | hge
      · have hinner : 1 ≤ dp 20 (1 / priced rate) := one_le_dp ((one_le_div hpos).mpr hle)
        linarith
      · have hinner : dp 20 (1 / priced rate) ≤ 1 := dp_le_one ((div_le_one hpos).mpr hge)
        linarith

/-! ## The rows the two leave -/

/-- The rows `setAllFiatPrices` leaves. -/
theorem setAllFiatPrices_rows (hw : w.prices.rows = [])
    (h : AfterSetAllFiatPrices rates w w') :
    (∀ r ∈ w'.prices.rows, ∃ entry ∈ rates.entries, HasKey r "USD" entry.1 ∧
      r.value = priced entry.2) ∧ ∀ entry ∈ rates.entries, Stored "USD" entry.1 w' := by
  obtain ⟨p, hreach, hreturned, rfl⟩ := h
  obtain ⟨-, hwrites, hall⟩ := reaches_calls hreach
  constructor
  · intro r hr
    rcases hwrites r hr with hbefore | ⟨call, hcall, price, hprice, hkey, hvalue⟩
    · rw [hw] at hbefore
      cases hbefore
    · rw [List.mem_singleton.mp hcall] at hprice
      obtain ⟨entry, hentry, rfl⟩ := List.mem_map.mp hprice
      exact ⟨entry, hentry, hkey, hvalue⟩
  · intro entry hentry
    exact hall hreturned _ List.mem_cons_self _ (List.mem_map_of_mem hentry)

/-- The rows calls of `setPrice` may leave. -/
theorem ofCalls_setPrice {prices : List SetPrice} {r : Price} :
    OfCalls (prices.map .setPrice) r ↔ ∃ price ∈ prices, Price.OfCall price r := by
  simp [OfCalls, PriceCall.prices]

/-- What the calls `updateUSDPrices` waits for set. -/
theorem mem_exchanged {price : SetPrice} : price ∈ exchanged rates ↔
    ∃ entry ∈ rates.entries, price =
      { base_currency := entry.1, currency := "USD", value := dp 20 (1 / entry.2) } := by
  simp only [exchanged, fetchCurrencies, List.map_map, List.mem_map, Function.comp, eq_comm]

/-- What the calls set that it does not wait for. -/
theorem mem_inverted {price : SetPrice} : price ∈ inverted rates ↔
    ∃ entry ∈ rates.entries, dp 20 (1 / entry.2) ≠ 0 ∧ price =
      { base_currency := "USD", currency := "USD", value := 1 / dp 20 (1 / entry.2) } := by
  constructor
  · intro h
    simp only [inverted, fetchCurrencies, List.map_map, List.mem_map, List.mem_filter,
      Function.comp, decide_eq_true_eq] at h
    obtain ⟨_, ⟨⟨entry, hentry, rfl⟩, hne⟩, rfl⟩ := h
    exact ⟨entry, hentry, hne, rfl⟩
  · rintro ⟨entry, hentry, hne, rfl⟩
    simp only [inverted, fetchCurrencies, List.map_map, List.mem_map, List.mem_filter,
      Function.comp, decide_eq_true_eq]
    exact ⟨_, ⟨⟨entry, hentry, rfl⟩, hne⟩, rfl⟩

/-- The rows there are once the calls `updateUSDPrices` waits for have returned. -/
theorem exchanged_rows (hw : w.prices.rows = []) {p : Calls}
    (h : Reaches handle runs (started w ((exchanged rates).map .setPrice)) p)
    (hreturned : Returned p) :
    (∀ r ∈ p.state.prices.rows, ∃ entry ∈ rates.entries, HasKey r entry.1 "USD" ∧
      r.value = priced entry.2) ∧ ∀ entry ∈ rates.entries, Stored entry.1 "USD" p.state := by
  obtain ⟨-, hwrites, hall⟩ := reaches_calls h
  constructor
  · intro r hr
    rcases hwrites r hr with hbefore | hset
    · rw [hw] at hbefore
      cases hbefore
    · obtain ⟨price, hprice, hkey, hvalue⟩ := ofCalls_setPrice.mp hset
      obtain ⟨entry, hentry, rfl⟩ := mem_exchanged.mp hprice
      exact ⟨entry, hentry, hkey, hvalue⟩
  · intro entry hentry
    exact hall hreturned _ (List.mem_map_of_mem (mem_exchanged.mpr ⟨entry, hentry, rfl⟩)) _
      List.mem_cons_self

/-- The rows `updateUSDPrices` leaves, however far its last calls have come. -/
theorem updateUSDPrices_rows (hw : w.prices.rows = [])
    (h : AfterUpdateUSDPrices rates w w') :
    (∀ r ∈ w'.prices.rows, (∃ entry ∈ rates.entries, HasKey r entry.1 "USD" ∧
      r.value = priced entry.2) ∨ (HasKey r "USD" "USD" ∧ ∃ entry ∈ rates.entries,
        r.value = dp 8 (1 / dp 20 (1 / entry.2)))) ∧
      ∀ entry ∈ rates.entries, Stored entry.1 "USD" w' := by
  obtain ⟨p, q, hfirst, hreturned, hsecond, rfl⟩ := h
  obtain ⟨hrows, hstored⟩ := exchanged_rows hw hfirst hreturned
  obtain ⟨hkeys, hwrites, -⟩ := reaches_calls hsecond
  constructor
  · intro r hr
    rcases hwrites r hr with hbefore | hset
    · exact .inl (hrows r hbefore)
    · obtain ⟨price, hprice, hkey, hvalue⟩ := ofCalls_setPrice.mp hset
      obtain ⟨entry, hentry, -, rfl⟩ := mem_inverted.mp hprice
      exact .inr ⟨hkey, entry, hentry, hvalue⟩
  · intro entry hentry
    exact (hstored entry hentry).sameKeys hkeys

/-! ## One dollar -/

theorem Gives.mono {input output : String} {x : Rat} {P Q : Rat → Prop}
    (h : Gives w input output x P) (hPQ : ∀ y, P y → Q y) : Gives w input output x Q := by
  intro o
  obtain ⟨y, hy, hP⟩ := h o
  exact ⟨y, hy, hPQ y hP⟩

theorem HasKey.unique {r : Price} {base base' currency currency' : String}
    (h : HasKey r base currency) (h' : HasKey r base' currency') :
    base = base' ∧ currency = currency' :=
  ⟨Option.some.inj (h.1.symm.trans h'.1), h.2.symm.trans h'.2⟩

/-- Where the prices of two currencies are one, they convert to each other as they are. -/
theorem gives_same {input output : String} (husd : input = "USD" ∨ output = "USD")
    (hstored : Stored output input w ∨ Stored input output w)
    (hrows : ∀ r ∈ w.prices.rows, HasKey r output input ∨ HasKey r input output →
      r.value = 1) (x : Rat) : Gives w input output x fun y => y = dp 8 x := by
  refine gives_of_rows husd hstored (fun r hr hkey => ?_) fun _ r hr hkey => ⟨1, ?_, ?_⟩
  · rw [hrows r hr (.inl hkey), mul_one]
  · rw [hrows r hr (.inr hkey), reciprocal_one]
  · rw [one_mul]

/-- Where every price between a listed currency and the dollar is one, the rates are
meant. -/
theorem meansRates_of_ones (hone : ∀ entry ∈ rates.entries, priced entry.2 = 1)
    (hrows : ∀ r ∈ w.prices.rows, ∀ entry ∈ rates.entries,
      HasKey r entry.1 "USD" ∨ HasKey r "USD" entry.1 → r.value = 1)
    (hstored : ∀ entry ∈ rates.entries, Stored entry.1 "USD" w ∨ Stored "USD" entry.1 w) :
    MeansRates rates w := by
  constructor
  · intro entry hentry x
    constructor
    · refine (gives_same (.inl rfl) (hstored entry hentry)
        (fun r hr hkey => hrows r hr entry hentry hkey) x).mono fun y hy => .inr ⟨1, ?_, ?_⟩
      · rw [hone entry hentry, reciprocal_one]
      · rw [hy, one_mul]
    · refine (gives_same (.inr rfl) (hstored entry hentry).symm
        (fun r hr hkey => hrows r hr entry hentry hkey.symm) x).mono fun y hy => .inl ?_
      rw [hy, hone entry hentry, mul_one]
  · intro husd x
    obtain ⟨entry, hentry, hcurrency⟩ := List.mem_map.mp husd
    have hstoredUsd := hstored entry hentry
    have hrowsUsd := fun r hr => hrows r hr entry hentry
    rw [hcurrency] at hstoredUsd hrowsUsd
    exact gives_same (.inl rfl) hstoredUsd hrowsUsd x

theorem meansRates_of_setAllFiatPrices (hw : w.prices.rows = []) (hone : OneDollar rates)
    (h : AfterSetAllFiatPrices rates w w') : MeansRates rates w' := by
  obtain ⟨hrows, hstored⟩ := setAllFiatPrices_rows hw h
  refine meansRates_of_ones hone.1 (fun r hr _ _ _ => ?_) fun entry hentry =>
    .inr (hstored entry hentry)
  obtain ⟨entry, hentry, -, hvalue⟩ := hrows r hr
  rw [hvalue, hone.1 entry hentry]

theorem meansRates_of_updateUSDPrices (hw : w.prices.rows = []) (hone : OneDollar rates)
    (h : AfterUpdateUSDPrices rates w w') : MeansRates rates w' := by
  obtain ⟨hrows, hstored⟩ := updateUSDPrices_rows hw h
  refine meansRates_of_ones hone.1 (fun r hr entry hentry hkey => ?_) fun entry hentry =>
    .inl (hstored entry hentry)
  rcases hrows r hr with ⟨entry', hentry', -, hvalue⟩ | ⟨husd, entry', hentry', hvalue⟩
  · rw [hvalue, hone.1 entry' hentry']
  · have hcurrency : entry.1 = "USD" := by
      rcases hkey with hkey | hkey
      · exact (hkey.unique husd).1
      · exact (hkey.unique husd).2
    have hlisted : "USD" ∈ rates.entries.map Prod.fst :=
      hcurrency ▸ List.mem_map_of_mem hentry
    rw [hvalue, hone.2 hlisted entry' hentry']

/-- Once a price is inverted it is not zero. -/
theorem ne_zero_of_priced {rate : Rat} (h : priced rate = 1) : dp 20 (1 / rate) ≠ 0 := by
  intro hzero
  rw [priced, hzero, dp_zero] at h
  exact zero_ne_one h

/-- `updateUSDPrices` has returned, and none of its last calls has taken a step. -/
theorem exists_exchanged (rates : Rates) (w : World) :
    ∃ p : Calls, Reaches handle runs (started w ((exchanged rates).map .setPrice)) p ∧
      Returned p ∧ AfterUpdateUSDPrices rates w p.state := by
  obtain ⟨p, hreach, hreturned⟩ := exists_returned (exchanged rates) w
  exact ⟨p, hreach, hreturned, p, _, hreach, hreturned, .refl, rfl⟩

/-- One of the calls nobody waits for can be the first to return. -/
theorem exists_inverted {entry : String × Rat} (hentry : entry ∈ rates.entries)
    (hne : dp 20 (1 / entry.2) ≠ 0) (w : World) :
    ∃ w', AfterUpdateUSDPrices rates w w' ∧ ∃ r ∈ w'.prices.rows, HasKey r "USD" "USD" ∧
      r.value = dp 8 (1 / dp 20 (1 / entry.2)) := by
  obtain ⟨p, hreach, hreturned, -⟩ := exists_exchanged rates w
  obtain ⟨i, hlt, hi⟩ := List.getElem_of_mem (mem_inverted.mpr ⟨entry, hentry, hne, rfl⟩)
  have hthread : (started p.state ((inverted rates).map .setPrice)).threads[i]? =
      some (.setPrice (inverted rates)[i], handle (.setPrice (inverted rates)[i])) := by
    simp [started, hlt]
  have hrun : Reaches handle runs (started p.state ((inverted rates).map .setPrice)) _ :=
    reaches_exec (fun _ _ _ => trivial) hthread fun _ => {}
  obtain ⟨-, r, hr, hkey, hvalue⟩ := exec_setPrice (inverted rates)[i] (fun _ => {}) p.state
  rw [hi] at hkey hvalue
  exact ⟨_, ⟨p, _, hreach, hreturned, hrun, rfl⟩, r, hr, hkey, hvalue⟩

theorem oneDollar_of_updateUSDPrices (hw : w.prices.rows = [])
    (h : ∀ w', AfterUpdateUSDPrices rates w w' → MeansRates rates w') : OneDollar rates := by
  have hone : ∀ entry ∈ rates.entries, priced entry.2 = 1 := by
    intro entry hentry
    obtain ⟨p, hreach, hreturned, hafter⟩ := exists_exchanged rates w
    obtain ⟨hrows, hstored⟩ := exchanged_rows hw hreach hreturned
    obtain ⟨r, hr, hkey⟩ := hstored entry hentry
    obtain ⟨entry', hentry', hkey', hvalue⟩ := hrows r hr
    obtain rfl : entry' = entry := List.inj_on_of_nodup_map rates.distinct hentry' hentry
      (hkey'.unique hkey).1
    refine priced_eq_one (rates.positive _ hentry) fun x => ?_
    have htimes := (((h _ hafter).1 _ hentry x).1).of_row (.inl rfl) hr hkey
    rwa [hvalue] at htimes
  refine ⟨hone, fun husd entry hentry => ?_⟩
  obtain ⟨w', hafter, r, hr, hkey, hvalue⟩ :=
    exists_inverted hentry (ne_zero_of_priced (hone entry hentry)) w
  by_contra hne
  have hsame := ((h w' hafter).2 husd (1 / |dp 8 (1 / dp 20 (1 / entry.2)) - 1|)).of_row
    (.inl rfl) hr hkey
  rw [hvalue] at hsame
  refine dp_mul_ne hne le_rfl ?_
  rw [hsame, mul_one]

/-- The two ways the prices are taken in mean fixer's rates exactly where no price
differs from one dollar. -/
theorem both_mean_rates_iff (rates : Rates) (w : World) (hw : w.prices.rows = []) :
    ((∀ w', AfterSetAllFiatPrices rates w w' → MeansRates rates w') ∧
      ∀ w', AfterUpdateUSDPrices rates w w' → MeansRates rates w') ↔ OneDollar rates := by
  constructor
  · intro h
    exact oneDollar_of_updateUSDPrices hw h.2
  · intro hone
    exact ⟨fun _ => meansRates_of_setAllFiatPrices hw hone,
      fun _ => meansRates_of_updateUSDPrices hw hone⟩

/-- Half a euro to the dollar. -/
def euroRates : Rates where
  entries := [("EUR", 1 / 2)]
  distinct := by simp
  positive := by
    intro entry hentry
    rw [List.mem_singleton.mp hentry]
    norm_num

theorem both_mean_rates_euro :
    ((∀ w', AfterSetAllFiatPrices euroRates {} w' → MeansRates euroRates w') ∧
      ∀ w', AfterUpdateUSDPrices euroRates {} w' → MeansRates euroRates w') ↔
      OneDollar euroRates :=
  both_mean_rates_iff euroRates {} rfl

/-- Ten dollars are five euros; after `updateUSDPrices` they are twenty. -/
theorem euros_doubled : ∃ w', AfterUpdateUSDPrices euroRates {} w' ∧
    (Gives w' "USD" "EUR" 10 fun y => y = 20) ∧ ¬ MeansRates euroRates w' := by
  obtain ⟨p, hreach, hreturned, hafter⟩ := exists_exchanged euroRates {}
  obtain ⟨hrows, hstored⟩ := exchanged_rows rfl hreach hreturned
  have heuro : ("EUR", (1 / 2 : Rat)) ∈ euroRates.entries := List.mem_cons_self
  have hvalue : ∀ r ∈ p.state.prices.rows, r.value = 2 := by
    intro r hr
    obtain ⟨entry, hentry, -, hvalue⟩ := hrows r hr
    rw [hvalue, List.mem_singleton.mp hentry]
    decide +kernel
  have htwenty : Gives p.state "USD" "EUR" 10 fun y => y = 20 := by
    refine gives_of_rows (.inl rfl) (.inl (hstored _ heuro)) (fun r hr _ => ?_)
      fun hno => absurd (hstored _ heuro) hno
    rw [hvalue r hr]
    decide +kernel
  refine ⟨p.state, hafter, htwenty, fun hmeans => ?_⟩
  obtain ⟨y, hy, htimes⟩ := (hmeans.1 _ heuro 10).1 fun _ => {}
  obtain ⟨y', hy', rfl⟩ := htwenty fun _ => {}
  obtain rfl : y = 20 := by simpa using hy.symm.trans hy'
  rcases htimes with hrate | ⟨i, hi, hprice⟩
  · exact absurd hrate (by decide +kernel)
  · have hinverse : reciprocal (priced (1 / 2)) = some (1 / 2) := by decide +kernel
    obtain rfl := Option.some.inj (hinverse.symm.trans hi)
    exact absurd hprice (by decide +kernel)

end Anypay.FiatPrices
