/-
Anypay.PriceUpdateTheorems — whether a price can be zero.

Nothing stops a zero on its way into the table: not the source, which in `FB.getPrice`
even makes one of an error, nor `setPrice`, which rounds what is too small to one.
`prices_nonzero` says when it does not happen: in every interleaving of updates none
of which sets a number below half a unit of the eighth digit, no price is zero, and
`convert` returns a number wherever there is a price.
-/
import Anypay.PriceUpdates
import Anypay.RouteTheorems

namespace Anypay.PriceUpdates

open Store Async Proc Pool

/-! ## One price -/

/-- The number, where it is one, keeps a digit. -/
def KeepsDigit (value : Option Rat) : Prop := ∀ q, value = some q → 1 / 2 / 10 ^ 8 ≤ |q|

/-- No price becomes zero. -/
def StaysNonzero (s t : World) : Prop := NonzeroPrices s → NonzeroPrices t

theorem StaysNonzero.refl (s : World) : StaysNonzero s s := id

theorem always_of_keeps {α : Type} {p : Task α} (h : p.Keeps World.prices) :
    p.Always StaysNonzero fun _ => True := by
  refine always_mono h (fun s t hst hs => ?_) fun _ h => h
  unfold NonzeroPrices
  rw [show t.prices = s.prices from hst]
  exact hs

theorem always_writePrice (price : SetPrice) {value : Rat} (hvalue : value ≠ 0) :
    (writePrice price value).Always StaysNonzero fun _ => True := by
  unfold writePrice findPrice
  simp only [bind_eq, pure_eq]
  refine always_bind (always_of_keeps keeps_query) fun found _ => ?_
  cases found with
  | none =>
      refine Delegate.always_create StaysNonzero.refl fun s now t hrows hs r hr => ?_
      change r ∈ t.rows at hr
      rw [hrows] at hr
      rcases List.mem_append.mp hr with hr | hr
      · exact hs r hr
      · rw [List.mem_singleton.mp hr]
        exact hvalue
  | some record =>
      refine always_bind (Delegate.always_update StaysNonzero.refl fun s now t hrows hs r hr => ?_)
        fun _ _ => trivial
      change r ∈ t.rows at hr
      rw [hrows] at hr
      obtain ⟨x, hx, rfl⟩ := List.mem_map.mp hr
      split
      · exact hvalue
      · exact hs x hx

theorem always_setPrice {price : SetPrice} (h : 1 / 2 / 10 ^ 8 ≤ |price.value|) :
    (setPrice price).Always StaysNonzero fun _ => True := by
  unfold setPrice findPrice
  simp only [bind_eq, pure_eq]
  refine always_bind (always_writePrice price (dp_ne_zero_iff.mpr h)) fun record _ => ?_
  refine always_bind (always_of_keeps keeps_query) fun updated _ => ?_
  cases updated with
  | none => exact trivial
  | some updatedRecord =>
      refine always_bind (always_of_keeps ?_) fun _ _ => trivial
      exact keeps_detached (keeps_publishEvent _ _)

theorem always_setNumber {base_currency currency : String} {value : Option Rat}
    (h : KeepsDigit value) :
    (setNumber base_currency currency value).Always StaysNonzero fun _ => True := by
  cases value with
  | none =>
      unfold setNumber findPrice
      simp only [bind_eq]
      refine always_bind (always_of_keeps keeps_query) fun found _ => ?_
      cases found <;> exact trivial
  | some value => exact always_bind (always_setPrice (h value rfl)) fun _ _ => trivial

/-! ## Whole updates -/

/-- The prices an update of the world's currencies comes to: up to the one that is no
number, at which it throws. -/
def reached (quotes : List Quote) : List Quote := quotes.takeWhile fun quote => quote.value.isSome

/-- No number the update sets is rounded to zero. -/
def Sound : Update → Prop
  | .setAllCryptoPrices responses => ∀ source ∈ sources, ∀ quote,
      source.2 (responses source.1) = .ok quote → KeepsDigit quote.value
  | .setAllFiatPrices response => ∀ quotes, fetchCurrencies response = .ok quotes →
      ∀ quote ∈ reached quotes, KeepsDigit quote.value

/-- Any update may begin at any time, and any go on, as long as it is sound. -/
def sound (_ : Updates) : Move Answer Update → Prop
  | .start update => Sound update
  | .run _ _ => True

theorem always_outcomeOf {p : Task Unit} (h : p.Always StaysNonzero fun _ => True) :
    (outcomeOf p).Always StaysNonzero fun _ => True :=
  always_tryCatch (always_bind h fun _ _ => trivial) fun _ => trivial

theorem always_setQuotes {quotes : List Quote}
    (h : ∀ quote ∈ reached quotes, KeepsDigit quote.value) :
    (forEach quotes fun price => setNumber "USD" price.currency price.value : Task Unit).Always
      StaysNonzero fun _ => True := by
  induction quotes with
  | nil => exact trivial
  | cons quote quotes ih =>
      rw [forEach]
      cases hvalue : quote.value with
      | none =>
          -- it throws: the rest is not reached
          unfold setNumber findPrice
          simp only [bind_eq, bind_assoc]
          refine always_bind (always_of_keeps keeps_query) fun found _ => ?_
          cases found <;> exact trivial
      | some value =>
          have hreached : reached (quote :: quotes) = quote :: reached quotes :=
            List.takeWhile_cons_of_pos (by simp [hvalue])
          rw [hreached, List.forall_mem_cons, hvalue] at h
          exact always_bind (always_setNumber h.1) fun _ _ => ih h.2

theorem always_handle {update : Update} (h : Sound update) :
    (handle update).Always StaysNonzero fun _ => True := by
  have hone : KeepsDigit (some 1) := by
    intro q hq
    rw [← Option.some.inj hq]
    norm_num
  cases update with
  | setAllCryptoPrices responses =>
      unfold handle PriceUpdates.setAllCryptoPrices
      simp only [bind_eq]
      refine always_bind (P := fun _ => True) (always_mono (always_mapAll (P := fun _ => True)
        fun source hsource => always_outcomeOf ?_) (fun _ _ h => h) fun _ _ => trivial)
        fun outcomes _ => ?_
      · cases hquote : source.2 (responses source.1) with
        | error e => exact trivial
        | ok quote => exact always_setNumber (h source hsource quote hquote)
      · refine always_bind (always_ofExcept fun _ _ => trivial) fun _ (_ : True) => ?_
        exact always_bind (always_setNumber hone) fun _ _ => always_setNumber hone
  | setAllFiatPrices response =>
      unfold handle PriceUpdates.setAllFiatPrices
      simp only [bind_eq]
      refine always_bind (always_ofExcept
        (P := fun quotes => fetchCurrencies response = .ok quotes) fun _ hquotes => hquotes) fun quotes hquotes => ?_
      exact always_setQuotes (h quotes hquotes)

/-! ## Runs -/

/-- **No price is zero** in a run whose updates are sound, and `convert` returns a
number wherever there is a price: it never divides by zero. -/
theorem prices_nonzero {w : World} {p : Updates} (hw : NonzeroPrices w)
    (h : Reaches handle sound (init w) p) :
    NonzeroPrices p.state ∧ ∀ input output, HasPrice p.state.prices.rows input output →
      ∀ o x, ∃ v, (convert { currency := input, value := some x } output).exec o p.state =
        (.ok { currency := output, value := some v }, p.state) := by
  have hnonzero : NonzeroPrices p.state :=
    inv_of_always (fun _ _ hstart => always_handle hstart) (fun _ _ _ _ _ _ hst hs => hst hs) hw h
  refine ⟨hnonzero, fun input output hprice o x => ?_⟩
  obtain ⟨rates, -, hrun⟩ := convert_returns hnonzero hprice o
  exact ⟨along rates x, hrun x⟩

/-- One update, from its beginning to its end. -/
theorem reaches_update {admits : Updates → Move Answer Update → Prop}
    (hrun : ∀ p i c, admits p (.run i c)) (w : World) (update : Update)
    (hstart : admits (init w) (.start update)) (o : Nat → Answer) :
    ∃ p, Reaches handle admits (init w) p ∧ p.state = ((handle update).exec o w).2 := by
  have hfirst : (init w : Updates).move handle (.start update) =
      some ⟨w, [(update, handle update)]⟩ := rfl
  exact ⟨_, .head ⟨_, hstart, hfirst⟩ (reaches_exec hrun (i := 0) rfl o), rfl⟩

/-- No service answers. -/
def offline : Update := .setAllCryptoPrices fun _ => .error (.error "timeout of 0ms exceeded")

/-- Without an answer the price of FB is zero. -/
theorem fb_worth_nothing : ¬ ∀ (w : World) (p : Updates), NonzeroPrices w →
    Reaches handle (fun _ _ => True) (init w) p → NonzeroPrices p.state ∧
      ∀ input output, HasPrice p.state.prices.rows input output → ∀ o x, ∃ v,
        (convert { currency := input, value := some x } output).exec o p.state =
          (.ok { currency := output, value := some v }, p.state) := by
  intro h
  have hrun : ∃ p, Reaches handle (fun _ _ => True) (init {}) p ∧
      p.state = ((handle offline).exec (fun _ => {}) {}).2 :=
    reaches_update (fun _ _ _ => trivial) {} offline trivial fun _ => {}
  obtain ⟨p, hreach, hstate⟩ := hrun
  have hzero : (((handle offline).exec (fun _ => {}) ({} : World)).2.prices.rows.any
      fun r => r.value == 0) = true := by decide +kernel
  rw [← hstate] at hzero
  obtain ⟨r, hr, hvalue⟩ := List.any_eq_true.mp hzero
  exact (h {} p nofun hreach).1 r hr (by simpa using hvalue)

/-- Fixer's answer: two euros for a dollar. -/
def twoEuros : Response := .ok (.obj [("rates", .obj [("EUR", .num 2)])])

example : (fetchCurrencies twoEuros).toOption.map List.length = some 1 := by decide +kernel

theorem sound_twoEuros : Sound (.setAllFiatPrices twoEuros) := by
  have hquotes : (fetchCurrencies twoEuros).toOption.map
      (List.map fun quote => quote.value) = some [some (1 / 2)] := by decide +kernel
  intro quotes hfetch quote hquote q hq
  rw [hfetch] at hquotes
  have hvalues : quotes.map (fun quote => quote.value) = [some (1 / 2)] :=
    Option.some.inj hquotes
  have hmem : quote.value ∈ quotes.map fun quote => quote.value :=
    List.mem_map_of_mem (List.takeWhile_subset _ hquote)
  rw [hvalues, List.mem_singleton, hq] at hmem
  rw [Option.some.inj hmem]
  norm_num

/-- After an update with fixer's answer there is a price of the euro, and none is zero. -/
theorem prices_nonzero_euro : ∃ p : Updates, p.state.prices.rows ≠ [] ∧ NonzeroPrices p.state := by
  have hrun : ∃ p, Reaches handle sound (init {}) p ∧
      p.state = ((handle (.setAllFiatPrices twoEuros)).exec (fun _ => {}) {}).2 :=
    reaches_update (fun _ _ _ => trivial) {} _ sound_twoEuros fun _ => {}
  obtain ⟨p, hreach, hstate⟩ := hrun
  have hempty : NonzeroPrices {} := nofun
  refine ⟨p, ?_, (prices_nonzero hempty hreach).1⟩
  rw [hstate]
  have hrows : (((handle (.setAllFiatPrices twoEuros)).exec (fun _ => {})
      ({} : World)).2.prices.rows.isEmpty) = false := by decide +kernel
  simpa using hrows

end Anypay.PriceUpdates
