/-
Anypay.FeeTheorems — how much `getFee` asks for at least.

It is to be a thousandth of the amount, for BTC the dust limit, in whole units. That
is so exactly where the process has a finite fee of the currency when `getFee` reads
it (`fee_iff`), or has none of a currency other than BTC and the amount is below a
thousand units: a comparison with `undefined` is false, so without an entry the fee is
zero. Ether, XRP, SOL and AVAX have an address and never an entry (`unlisted_fee_iff`),
and a price of zero makes an entry infinite.

The database and the entries of other calls may change in any way meanwhile.
-/
import Anypay.Async.Among
import Anypay.Fees
import Mathlib.Algebra.Field.Rat
import Mathlib.Tactic.Linarith
import Mathlib.Tactic.Ring

namespace Anypay

open Async Proc

namespace Fees

/-- In whole units, a thousandth of the amount at least, and for BTC the dust limit. -/
def Covers (currency : String) (amount : Rat) (fee : Fee) : Prop :=
  ∃ n : Int, fee.amount = n ∧ 0 ≤ n ∧ (amount / 1000).floor ≤ n ∧
    (currency = "BTC" → 546 ≤ n)

/-- There is a finite entry; or none, and nothing to ask for. -/
def Known (currency : String) (amount : Rat) (cached : Option (WithTop Int)) : Prop :=
  (∃ n : Int, cached = some (n : WithTop Int)) ∨
    (cached = none ∧ currency ≠ "BTC" ∧ amount < 1000)

variable {R : FeeWorld → FeeWorld → Prop} {env : Env} {currency : String} {amount : Rat}

/-! ## The fee of an entry -/

/-- Nothing is larger than what is undefined, so it stays. -/
theorem raised_none : raised currency amount none = none := by
  simp [raised, greater]

theorem raised_infinite : raised currency amount (some ⊤) = some ⊤ := by
  simp [raised, greater]

@[simp] theorem greater_finite (x y : Rat) :
    greater (some (x : WithTop Rat)) (some (y : WithTop Rat)) = decide (y < x) := by
  simp [greater, WithTop.coe_lt_coe]

/-- What is finite is raised as it should be. -/
theorem exists_raised (q : Rat) : ∃ r : Rat, raised currency amount (some (q : WithTop Rat)) =
    some (r : WithTop Rat) ∧ amount / 1000 ≤ r ∧ (currency = "BTC" → 546 ≤ r) := by
  have hthousandth : amount * (1 / 1000) = amount / 1000 := by ring
  have hlarger : ∃ r : Rat, (if greater (some ((amount / 1000 : Rat) : WithTop Rat))
      (some (q : WithTop Rat)) then some ((amount / 1000 : Rat) : WithTop Rat)
      else some (q : WithTop Rat)) = some (r : WithTop Rat) ∧ amount / 1000 ≤ r := by
    by_cases h : q < amount / 1000
    · exact ⟨amount / 1000, by simp [h], le_refl _⟩
    · exact ⟨q, by simp [h], not_lt.mp h⟩
  obtain ⟨r, hr, hamount⟩ := hlarger
  simp only [raised, hthousandth]
  rw [hr]
  by_cases hdust : currency = "BTC" ∧ r < 546
  · refine ⟨546, ?_, by linarith [hdust.2], fun _ => le_refl _⟩
    rw [if_pos]
    simpa only [greater_finite, decide_eq_true_eq] using hdust
  · refine ⟨r, ?_, hamount, fun hbtc => not_lt.mp fun h => hdust ⟨hbtc, h⟩⟩
    rw [if_neg]
    simpa only [greater_finite, decide_eq_true_eq] using hdust

theorem feeFor_amount (hpos : 0 < amount) (cached : Option (WithTop Int)) :
    (feeFor currency (some amount) cached).amount =
      truncOrZero (raised currency amount
        (cached.map (WithTop.map fun n : Int => (n : Rat)))) := by
  have hfilter : (some amount).filter (· ≠ 0) = some amount := by simp [hpos.ne']
  rw [feeFor, hfilter]

/-- Without an entry nothing is asked for. -/
theorem covers_none (hpos : 0 < amount) :
    Covers currency amount (feeFor currency (some amount) none) ↔
      currency ≠ "BTC" ∧ amount < 1000 := by
  have hzero : (feeFor currency (some amount) none).amount = ((0 : Int) : WithTop Int) := by
    rw [feeFor_amount hpos, Option.map_none, raised_none]
    rfl
  have hfloor : (amount / 1000).floor ≤ 0 ↔ amount < 1000 := by
    rw [← Int.lt_add_one_iff, Rat.floor_lt_iff]
    constructor <;> intro h
    · norm_num at h
      linarith
    · norm_num
      linarith
  constructor
  · rintro ⟨n, hn, -, hcovers, hbtc⟩
    obtain rfl : 0 = n := WithTop.coe_injective (hzero.symm.trans hn)
    exact ⟨fun h => absurd (hbtc h) (by decide), hfloor.mp hcovers⟩
  · rintro ⟨hbtc, hamount⟩
    exact ⟨0, hzero, le_refl _, hfloor.mpr hamount, fun h => absurd h hbtc⟩

/-- An infinite fee is no whole number. -/
theorem not_covers_infinite (hpos : 0 < amount) :
    ¬ Covers currency amount (feeFor currency (some amount) (some ⊤)) := by
  rintro ⟨n, hn, -⟩
  rw [feeFor_amount hpos, Option.map_some, WithTop.map_top, raised_infinite] at hn
  exact WithTop.coe_ne_top hn.symm

theorem covers_finite (hpos : 0 < amount) (n : Int) :
    Covers currency amount (feeFor currency (some amount) (some (n : WithTop Int))) := by
  obtain ⟨r, hr, hamount, hbtc⟩ := @exists_raised currency amount n
  have hnonneg : 0 ≤ r := by linarith
  have hfee : (feeFor currency (some amount) (some (n : WithTop Int))).amount =
      (r.floor : WithTop Int) := by
    rw [feeFor_amount hpos, Option.map_some, WithTop.map_coe, hr]
    show ((if r < 0 then r.ceil else r.floor : Int) : WithTop Int) = _
    rw [if_neg (not_lt.mpr hnonneg)]
  refine ⟨r.floor, hfee, Rat.le_floor_iff.mpr hnonneg, Rat.floor_monotone hamount, fun h => ?_⟩
  exact Rat.le_floor_iff.mpr (hbtc h)

/-- The fee is enough exactly if the entry is finite, or there is none and nothing to
ask for. -/
theorem covers_feeFor_iff (hpos : 0 < amount) (cached : Option (WithTop Int)) :
    Covers currency amount (feeFor currency (some amount) cached) ↔
      Known currency amount cached := by
  match cached with
  | none =>
      rw [covers_none hpos]
      simp [Known]
  | some ⊤ =>
      refine iff_of_false (not_covers_infinite hpos) ?_
      rintro (⟨n, hn⟩ | ⟨hn, -⟩)
      · exact WithTop.coe_ne_top (Option.some.inj hn).symm
      · cases hn
  | some (some n) => exact iff_of_true (covers_finite hpos n) (Or.inl ⟨n, rfl⟩)

/-! ## One call among others -/

theorem updateFees_returns {s t : FeeWorld} {out : Except Failure Unit}
    (h : (updateFees env).Among R s out t) : out = .ok () :=
  among_forEach (fun _ _ _ _ => among_caught) h

/-- A call returns the fee of the entry it reads at its end. -/
theorem getFee_among {amount : Option Rat} {s t : FeeWorld} {out : Except Failure Fee}
    (h : (getFee env currency amount).Among R s out t) :
    out = .ok (feeFor currency amount (t.fees currency)) := by
  unfold getFee feeAt at h
  simp only [bind_eq, pure_eq] at h
  obtain ⟨s', -, hrest⟩ := among_query_bind h
  split at hrest
  · obtain ⟨hout, rfl⟩ := hrest
    exact hout
  · rcases among_bind hrest with ⟨e, hupdate, -⟩ | ⟨_, u, -, hread⟩
    · cases updateFees_returns hupdate
    · obtain ⟨u', -, hout, rfl⟩ := among_query_bind hread
      exact hout

/-- However others change the database and the entries meanwhile, a call returns, and what
it returns covers the fee exactly if the entry it reads is finite, or there is none and
nothing to ask for. -/
theorem fee_iff {s t : FeeWorld} {out : Except Failure Fee} (hpos : 0 < amount)
    (h : (getFee env currency (some amount)).Among R s out t) :
    ∃ fee, out = .ok fee ∧
      (Covers currency amount fee ↔ Known currency amount (t.fees currency)) :=
  ⟨_, getFee_among h, covers_feeFor_iff hpos _⟩

/-- The BTC fee is read where there is one. -/
theorem fee_iff_btc : ∃ fee, ((getFee {} "BTC" (some 1000000)).exec (fun _ => {})
    { fees := fun key => if key = "BTC" then some (20 : Int) else none }).1 = .ok fee ∧
      Covers "BTC" 1000000 fee := by
  obtain ⟨fee, hfee, hiff⟩ := fee_iff (by decide) (among_exec (R := Eq) (fun _ => rfl)
    (getFee {} "BTC" (some 1000000)) (fun _ => {})
    { fees := fun key => if key = "BTC" then some (20 : Int) else none })
  exact ⟨fee, hfee, hiff.mpr (Or.inl ⟨20, rfl⟩)⟩

/-- A fee of SOL is zero, whatever the amount. -/
theorem unlisted_unasked : ¬ ∀ (env : Env) (s : FeeWorld) (o : Nat → Answer) (currency : String)
    (amount : Rat), (feeAddresses.lookup currency).isSome → 0 < amount →
    ∃ fee, ((getFee env currency (some amount)).exec o s).1 = .ok fee ∧
      Covers currency amount fee := by
  intro h
  obtain ⟨fee, hfee, n, hn, -, hcovers, -⟩ :=
    h {} {} (fun _ => {}) "SOL" 1000000 (by decide) (by decide)
  have hzero : ((getFee {} "SOL" (some 1000000)).exec (fun _ => {}) {}).1.toOption.map
      Fee.amount = some ((0 : Int) : WithTop Int) := by decide +kernel
  rw [hfee] at hzero
  have hn0 := WithTop.coe_injective (hn.symm.trans (Option.some.inj hzero))
  rw [hn0] at hcovers
  exact absurd hcovers (by decide +kernel)

/-! ## Currencies without an entry -/

theorem keeps_convert (key : String) (fiat : Amount) (output : String) :
    (query (convert fiat output)).Keeps fun s => s.fees key := by
  have hrest : ∀ w (s : FeeWorld), ({ s with db := w } : FeeWorld).fees key = s.fees key :=
    fun _ _ => rfl
  exact keeps_within hrest _

/-- `updateFees` fills in the entries of `feesFiat` only. -/
theorem keeps_updateFees {key : String} (hkey : key ∉ feesFiat.map Prod.fst) :
    (updateFees env).Keeps fun s => s.fees key := by
  refine keeps_forEach fun entry hentry => keeps_tryCatch ?_ fun _ => trivial
  have hne : key ≠ entry.1 := fun h => hkey (h ▸ List.mem_map_of_mem hentry)
  simp only [bind_eq]
  refine keeps_bind (keeps_convert key entry.2 _) fun fee => ?_
  refine keeps_bind (keeps_ofExcept _) fun units => ?_
  refine keeps_step fun _ s => ?_
  exact Function.update_of_ne hne _ _

theorem keeps_getFee (hkey : currency ∉ feesFiat.map Prod.fst) (amount : Option Rat) :
    (getFee env currency amount).Keeps fun s => s.fees currency := by
  unfold getFee feeAt
  refine keeps_bind keeps_query fun cached => ?_
  split
  · exact trivial
  · refine keeps_bind (keeps_updateFees hkey) fun _ => ?_
    exact keeps_bind keeps_query fun _ => trivial

/-- Where `feesFiat` does not list the currency and no one else fills its entry in, the fee
is zero: enough only of amounts below a thousand. -/
theorem unlisted_fee_iff (hkey : currency ∉ feesFiat.map Prod.fst)
    (hR : ∀ s t, R s t → s.fees currency = none → t.fees currency = none) {s t : FeeWorld}
    {out : Except Failure Fee} (hs : s.fees currency = none) (hpos : 0 < amount)
    (h : (getFee env currency (some amount)).Among R s out t) :
    ∃ fee, out = .ok fee ∧ (Covers currency amount fee ↔ currency ≠ "BTC" ∧ amount < 1000) := by
  have hkeeps : (getFee env currency (some amount)).Always
      (fun s t => s.fees currency = none → t.fees currency = none) fun _ => True :=
    always_mono (keeps_getFee hkey (some amount)) (fun _ _ hst hnone => hst.trans hnone)
      fun _ h => h
  have ht : t.fees currency = none :=
    among_always (K := fun s => s.fees currency = none) hkeeps hR h hs
  refine ⟨_, getFee_among h, ?_⟩
  rw [ht]
  exact covers_none hpos

end Fees

end Anypay
