/-
Anypay.LatestPriceTheorems — which price `convert` uses after calls of `setPrice`.

`setPrice` looks for the row of its pair, makes one where there is none and writes to
the one it found otherwise. Nothing keeps two calls for one pair apart: two that both
find no row make two, and one that started first may write last (`overlapping_lost`).
The runs of the price crons are such calls, made at their own times.

Where a call starts only while no other of its pair is under way, and sets a number,
each pair has one row at most, and once the calls have ended it holds the number of the
last one (`latest_used`): the rule is `latest_reaches`, the key of a call its pair.
-/
import Anypay.Async.Latest
import Anypay.LedgerTheorems
import Anypay.PriceUpdates

namespace Anypay.LatestPrice

open Store Async Proc Pool PriceUpdates

/-! ## Calls -/

/-- A call of `setPrice`: its pair, and its number where it is one. -/
structure Call where
  base_currency : String
  currency : String
  value : Option Rat
  deriving DecidableEq

def Call.pair (call : Call) : String × String := (call.base_currency, call.currency)

def code (call : Call) : Task Unit := setNumber call.base_currency call.currency call.value

/-- Calls and what is left of them. -/
abbrev Calls := Pool World Answer Failure Call

/-- Calls may begin at any time. -/
def anyTime (_ : Calls) (_ : Move Answer Call) : Prop := True

/-- A call begins only while no other of its pair is under way, and sets a number. -/
def oneAtATime (p : Calls) : Move Answer Call → Prop
  | .start call => (p.Idle fun call' => call'.pair = call.pair) ∧ call.value.isSome = true
  | .run _ _ => True

/-- No pair has two rows. -/
def OnePrice (w : World) : Prop := ∀ r ∈ w.prices.rows, ∀ r' ∈ w.prices.rows,
  r.base_currency = r'.base_currency → r.currency = r'.currency → r = r'

/-- No call is under way. -/
def AllEnded (p : Calls) : Prop := ∀ th ∈ p.threads, th.2.running = false

/-- Whatever row a lookup of `convert` takes for the pair, this is its value, and what
`convert` multiplies with where one side is USD. -/
def Uses (w : World) (base_currency currency : String) (value : Rat) : Prop := ∀ o,
  (∃ r, (findPrice base_currency currency).exec o w = (.ok (some r), w) ∧ r.value = value) ∧
  (currency = "USD" ∨ base_currency = "USD" → ∀ x,
    (convert { currency, value := x } base_currency).exec o w =
      (.ok { currency := base_currency, value := x.map fun n => dp 8 (n * value) }, w))

/-- For each pair the value of the call that started last is used. -/
def LatestUsed (p : Calls) : Prop := ∀ (i : Nat) th, p.threads[i]? = some th →
  LastOfKey Call.pair p i th.1 → ∃ value, th.1.value = some value ∧
    Uses p.state th.1.base_currency th.1.currency (dp 8 value)

/-! ## The rows of a pair -/

def rowsAt (pair : String × String) (w : World) : List Price :=
  w.prices.select fun r => r.base_currency == some pair.1 && r.currency == pair.2

variable {w s t : World} {call : Call}

theorem rowsAt_eq_of_prices (h : t.prices = s.prices) (pair : String × String) :
    rowsAt pair t = rowsAt pair s := by
  unfold rowsAt
  rw [h]

theorem mem_rowsAt {pair : String × String} {r : Price} :
    r ∈ rowsAt pair w ↔ r ∈ w.prices.rows ∧ r.base_currency = some pair.1 ∧
      r.currency = pair.2 := by
  unfold rowsAt
  simp

/-- One row of a pair at most. -/
theorem OnePrice.rowsAt_eq (h : OnePrice w) {pair : String × String} {r : Price}
    (hr : r ∈ rowsAt pair w) : rowsAt pair w = [r] := by
  have hnodup : (rowsAt pair w).Nodup := (w.prices.id_nodup.of_map _).filter _
  have hall : ∀ x ∈ rowsAt pair w, x = r := by
    intro x hx
    obtain ⟨hx, hbase, hcurrency⟩ := mem_rowsAt.mp hx
    obtain ⟨hr, hbase', hcurrency'⟩ := mem_rowsAt.mp hr
    exact h x hx r hr (hbase.trans hbase'.symm) (hcurrency.trans hcurrency'.symm)
  exact List.perm_singleton.mp ((List.perm_ext_iff_of_nodup hnodup (List.nodup_singleton r)).mpr
    fun x => ⟨fun hx => List.mem_singleton.mpr (hall x hx), fun hx => List.mem_singleton.mp hx ▸ hr⟩)

/-- A new row for a pair that has none. -/
theorem rowsAt_create {r : Price} {tb : Table Price} {base currency : String}
    (hrows : tb.rows = s.prices.rows ++ [r]) (hbase : r.base_currency = some base)
    (hcurrency : r.currency = currency) (hnone : rowsAt (base, currency) s = []) :
    rowsAt (base, currency) { s with prices := tb } = [r] ∧
      (∀ pair, pair ≠ (base, currency) →
        rowsAt pair { s with prices := tb } = rowsAt pair s) ∧
      (OnePrice s → OnePrice { s with prices := tb }) := by
  have happend : ∀ pair, rowsAt pair { s with prices := tb } = rowsAt pair s ++
      [r].filter fun r => r.base_currency == some pair.1 && r.currency == pair.2 := by
    intro pair
    show tb.rows.filter _ = _
    rw [hrows, List.filter_append]
    rfl
  have hold : ∀ x ∈ s.prices.rows, x.base_currency = some base → x.currency ≠ currency := by
    intro x hx hxbase hxcurrency
    have hmem : x ∈ rowsAt (base, currency) s := mem_rowsAt.mpr ⟨hx, hxbase, hxcurrency⟩
    rw [hnone] at hmem
    cases hmem
  refine ⟨?_, fun pair hpair => ?_, fun hone x hx y hy hxy hxy' => ?_⟩
  · rw [happend, hnone, List.filter_cons_of_pos (by simp [hbase, hcurrency])]
    rfl
  · rw [happend, List.filter_cons_of_neg, List.filter_nil, List.append_nil]
    intro hmatch
    simp only [hbase, hcurrency, Bool.and_eq_true, beq_iff_eq, Option.some.injEq] at hmatch
    exact hpair (Prod.ext hmatch.1.symm hmatch.2.symm)
  · rcases List.mem_append.mp (show x ∈ s.prices.rows ++ [r] from hrows ▸ hx) with hxold | hxnew
    · rcases List.mem_append.mp (show y ∈ s.prices.rows ++ [r] from hrows ▸ hy) with hyold | hynew
      · exact hone x hxold y hyold hxy hxy'
      · rw [List.mem_singleton.mp hynew] at hxy hxy'
        exact absurd (hxy'.trans hcurrency) (hold x hxold (hxy.trans hbase))
    · rw [List.mem_singleton.mp hxnew] at hxy hxy' ⊢
      rcases List.mem_append.mp (show y ∈ s.prices.rows ++ [r] from hrows ▸ hy) with hyold | hynew
      · exact absurd (hxy'.symm.trans hcurrency) (hold y hyold (hxy.symm.trans hbase))
      · exact (List.mem_singleton.mp hynew).symm

/-- A new value for the row of a pair. -/
theorem rowsAt_update {r : Price} {tb : Table Price} {base currency : String} (value : Rat)
    (hrows : tb.rows = Table.patch r.id (fun r => { r with value }) s.prices.rows)
    (hone : rowsAt (base, currency) s = [r]) :
    rowsAt (base, currency) { s with prices := tb } = [{ r with value }] ∧
      (∀ pair, pair ≠ (base, currency) →
        rowsAt pair { s with prices := tb } = rowsAt pair s) ∧
      (OnePrice s → OnePrice { s with prices := tb }) := by
  have hpatch : ∀ pair, rowsAt pair { s with prices := tb } =
      Table.patch r.id (fun r => { r with value }) (rowsAt pair s) := by
    intro pair
    show tb.rows.filter _ = _
    rw [hrows]
    exact Table.filter_patch_comm fun _ _ _ => rfl
  obtain ⟨hr, hbase, hcurrency⟩ := mem_rowsAt.mp (show r ∈ rowsAt (base, currency) s by simp [hone])
  refine ⟨?_, fun pair hpair => ?_, fun hs x hx y hy hxy hxy' => ?_⟩
  · rw [hpatch, hone]
    exact congrArg (· :: []) (if_pos rfl)
  · rw [hpatch]
    apply Table.patch_eq_self
    intro x hx hid
    obtain ⟨hx, hxbase, hxcurrency⟩ := mem_rowsAt.mp hx
    obtain rfl := Table.eq_of_id hx hr hid
    exact absurd (Prod.ext (Option.some.inj (hxbase.symm.trans hbase))
      (hxcurrency.symm.trans hcurrency)) hpair
  · obtain ⟨x', hx', rfl⟩ := List.mem_map.mp (show x ∈ Table.patch _ _ _ from hrows ▸ hx)
    obtain ⟨y', hy', rfl⟩ := List.mem_map.mp (show y ∈ Table.patch _ _ _ from hrows ▸ hy)
    have hsame : x' = y' := by
      apply hs x' hx' y' hy'
      · split at hxy <;> split at hxy <;> exact hxy
      · split at hxy' <;> split at hxy' <;> exact hxy'
    rw [hsame]

/-! ## One call among others -/

/-- A call writes to the rows of its pair only, which no other writes to meanwhile. -/
def keeping : Contract World Answer (Option Call) where
  answers _ _ _ := True
  rely g s t := ∀ call, g = some call → rowsAt call.pair t = rowsAt call.pair s
  guar g s t g' := g' = g ∧
    (∀ pair, (∀ call, g = some call → pair ≠ call.pair) → rowsAt pair t = rowsAt pair s) ∧
    (OnePrice s → OnePrice t)
  guar_refl _ _ := ⟨rfl, fun _ _ => rfl, id⟩
  rely_refl _ _ _ _ := rfl
  rely_trans h h' call hcall := (h' call hcall).trans (h call hcall)

theorem byPair : ByKey keeping OnePrice Call.pair where
  same h := h.1
  keep h := h.2.2
  apart := by
    rintro t t' s s' ⟨-, hothers, -⟩ hne call hcall
    obtain rfl := Option.some.inj hcall
    exact hothers _ fun call' hcall' => Option.some.inj hcall' ▸ hne
  free := nofun

/-- The row of the pair has the number of the call. -/
def Set (call : Call) (w : World) : Prop :=
  ∃ r value, rowsAt call.pair w = [r] ∧ call.value = some value ∧ r.value = dp 8 value

theorem Set.relied (h : Set call s) (hst : keeping.rely (some call) s t) : Set call t := by
  obtain ⟨r, value, hrows, hvalue⟩ := h
  exact ⟨r, value, (hst call rfl).trans hrows, hvalue⟩

/-- The first half of a call writes its number. -/
theorem meets_writePrice {value : Rat} (hvalue : call.value = some value) (hs : OnePrice s) :
    (writePrice { base_currency := call.base_currency, currency := call.currency, value }
        (dp 8 value)).Meets keeping (fun _ g w => g = some call ∧ Set call w) (fun _ => Never)
      (some call) s := by
  unfold writePrice findPrice
  simp only [bind_eq, pure_eq]
  refine Delegate.meets_findFirst_bind (fun t hst record hrecord hmatch => ?_) fun t hst hnone => ?_
  · have hmem : record ∈ rowsAt call.pair t := List.mem_filter.mpr ⟨hrecord, hmatch⟩
    have hone : rowsAt call.pair t = [record] := by
      rw [hst call rfl] at hmem ⊢
      exact hs.rowsAt_eq hmem
    refine Delegate.meets_update_bind (fun u htu now tb r hr hid hrows _ => ?_)
      fun u htu now te hte => ?_
    · have honeu : rowsAt call.pair u = [record] := (htu call rfl).trans hone
      have hmemu : record ∈ u.prices.rows :=
        (mem_rowsAt.mp (show record ∈ rowsAt call.pair u by simp [honeu])).1
      obtain rfl := Table.eq_of_id hr hmemu hid
      obtain ⟨hrow, hothers, hkeep⟩ := rowsAt_update (dp 8 value) hrows honeu
      refine ⟨some call, ⟨rfl, fun pair hpair => hothers pair (hpair call rfl), hkeep⟩, ?_⟩
      intro v hv
      exact ⟨rfl, Set.relied ⟨_, value, hrow, hvalue, rfl⟩ hv⟩
    · have honeu : rowsAt call.pair u = [record] := (htu call rfl).trans hone
      have hmemu : record ∈ u.prices.rows :=
        (mem_rowsAt.mp (show record ∈ rowsAt call.pair u by simp [honeu])).1
      exact absurd hte (Table.update?_ne_error hmemu rfl rfl)
  · have hempty : rowsAt call.pair t = [] :=
      List.filter_eq_nil_iff.mpr fun r hr => by simpa [Call.pair] using hnone r hr
    rw [← Proc.bind_done (prisma.prices.create _ _)]
    refine Delegate.meets_create_free_bind (fun _ _ => rfl) fun u htu now tb hrows => ?_
    obtain ⟨hrow, hothers, hkeep⟩ := rowsAt_create hrows rfl rfl ((htu call rfl).trans hempty)
    refine ⟨some call, ⟨rfl, fun pair hpair => hothers pair (hpair call rfl), hkeep⟩, ?_⟩
    intro v hv
    exact ⟨rfl, Set.relied ⟨_, value, hrow, hvalue, rfl⟩ hv⟩

theorem meets_code (hvalue : call.value.isSome = true) (hs : OnePrice s) :
    (code call).Meets keeping (fun _ => LeftBy Set) (fun _ => Never) (some call) s := by
  obtain ⟨value, hvalue⟩ := Option.isSome_iff_exists.mp hvalue
  unfold code setNumber setPrice
  simp only [hvalue, discard_eq, bind_eq, pure_eq, Proc.bind_assoc]
  apply meets_bind
  refine meets_mono (fun record g t ht => ?_) (fun _ _ _ h => h) (meets_writePrice hvalue hs)
  obtain ⟨rfl, hset⟩ := ht
  have hdone : ∀ u, keeping.rely (some call) t u →
      (Proc.done () : Task Unit).Meets keeping (fun _ => LeftBy Set) (fun _ => Never)
        (some call) u := by
    intro u hu v hv call' hcall
    obtain rfl := Option.some.inj hcall
    exact (hset.relied hu).relied hv
  unfold findPrice
  refine Delegate.meets_findFirst_bind (fun u hu record _ _ => ?_) fun u hu _ => hdone u hu
  have hpublish : (publishEvent "price.updated" (priceUpdated record)).Keeps World.prices :=
    keeps_publishEvent _ _
  have hview : ∀ v v' : World, v'.prices = v.prices →
      keeping.guar (some call) v v' (some call) ∧ keeping.rely (some call) v v' := by
    intro v v' hprices
    refine ⟨⟨rfl, fun pair _ => rowsAt_eq_of_prices hprices pair, fun hv => ?_⟩,
      fun _ _ => rowsAt_eq_of_prices hprices _⟩
    unfold OnePrice
    rwa [hprices]
  -- nobody sees whether the event was published
  apply meets_bind
  apply meets_bind
  unfold detached
  apply meets_tryCatch
  rw [← Proc.bind_done (publishEvent _ _)]
  have hend : ∀ v v' v'', keeping.rely (some call) u v → keeping.rely (some call) v v' →
      keeping.rely (some call) v' v'' → (Proc.done () : Task Unit).Meets keeping
        (fun _ => LeftBy Set) (fun _ => Never) (some call) v'' := by
    intro v v' v'' hv hv' hv''
    exact hdone _ (keeping.rely_trans hu
      (keeping.rely_trans hv (keeping.rely_trans hv' hv'')))
  refine meets_keeps_bind hpublish hview (fun v hv _ v' hv' => ?_) (fun v hv _ v' hv' => ?_)
  · exact fun v'' hv'' => hend v v' v'' hv hv' hv''
  · exact fun v'' hv'' => hend v v' v'' hv hv' hv''

/-! ## What is used afterwards -/

theorem exec_findPrice_bind {α : Type} {base currency : String} {r : Price}
    (h : rowsAt (base, currency) w = [r]) (f : Option Price → Task α) (o : Nat → Answer) :
    ((findPrice base currency).bind f).exec o w = (f (some r)).exec (tail o) w := by
  have hpick : ∀ n, w.prices.pick
      (fun r => r.base_currency == some base && r.currency == currency) n = some r := by
    intro n
    unfold Table.pick
    rw [show w.prices.select (fun r => r.base_currency == some base && r.currency == currency) =
      [r] from h]
    simp [Nat.mod_one]
  unfold findPrice
  rw [Delegate.exec_findFirst_bind]
  exact congrArg (fun found => (f found).exec (tail o) w) (hpick _)

theorem uses_of_rowsAt {base currency : String} {r : Price}
    (h : rowsAt (base, currency) w = [r]) : Uses w base currency r.value := by
  intro o
  refine ⟨⟨r, ?_, rfl⟩, fun husd x => ?_⟩
  · rw [← Proc.bind_done (findPrice base currency), exec_findPrice_bind h]
    rfl
  · have hdirect : ¬ (currency ≠ "USD" ∧ base ≠ "USD") := by
      rintro ⟨hcurrency, hbase⟩
      exact husd.elim hcurrency hbase
    unfold convert
    rw [if_neg hdirect]
    unfold convertAt
    rw [bind_eq, exec_findPrice_bind h]
    rfl

/-- **The last price is used**: where calls for one pair take turns and set numbers, no pair
ever has two rows, and once all calls have ended `convert` uses, for each pair, what the
last one set. -/
theorem latest_used {w : World} {p : Calls} (hw : OnePrice w)
    (h : Reaches code oneAtATime (init w) p) :
    OnePrice p.state ∧ (AllEnded p → LatestUsed p) := by
  obtain ⟨hone, hlast⟩ := latest_reaches byPair
    (fun q call hq hstart => ⟨hstart.1, meets_code hstart.2 hq⟩)
    (fun _ _ _ _ _ => trivial) hw h
  refine ⟨hone, fun hended i th hi hlatest => ?_⟩
  obtain ⟨-, r, value, hrows, hvalue, hr⟩ :=
    hlast i th hi (hended th (List.mem_of_getElem? hi)) hlatest
  exact ⟨value, hvalue, hr ▸ uses_of_rowsAt hrows⟩

/-! ## Calls that overlap -/

def bitcoin (value : Rat) : Call :=
  { base_currency := "USD", currency := "BTC", value := some value }

/-- A table with one price of bitcoin. -/
def priced : World where
  prices := .single { id := 1, currency := "BTC", base_currency := some "USD", value := 1 }

def quietly : Answer := {}

/-- Two calls look for the row, before either writes. -/
def bothLook : List (Move Answer Call) :=
  [.start (bitcoin 2), .start (bitcoin 3)] ++ steps 0 1 quietly ++ steps 1 1 quietly

def bothWrite : List (Move Answer Call) := bothLook ++ steps 0 1 quietly ++ steps 1 1 quietly

/-- The call that started first writes last. -/
def firstLast : List (Move Answer Call) := bothLook ++ steps 1 4 quietly ++ steps 0 4 quietly

/-- The ids of the rows of bitcoin. -/
def bitcoinRows (p : Calls) : List Nat := (rowsAt (bitcoin 2).pair p.state).map Price.id

/-- The price of bitcoin that `convert` finds. -/
def bitcoinPrice (p : Calls) : Option Rat :=
  (((findPrice "USD" "BTC").exec (fun _ => quietly) p.state).1.toOption.bind id).map Price.value

theorem onePrice_priced : OnePrice priced := by
  intro r hr r' hr' _ _
  exact (List.mem_singleton.mp hr).trans (List.mem_singleton.mp hr').symm

/-- Two calls that find no row make two; and where there is one, the call that started first
may write last. -/
theorem overlapping_lost :
    (¬ ∀ (w : World) (p : Calls), OnePrice w → Reaches code anyTime (init w) p →
      OnePrice p.state) ∧
    ¬ ∀ (w : World) (p : Calls), OnePrice w → Reaches code anyTime (init w) p →
      AllEnded p → LatestUsed p := by
  have hadm : ∀ (ms : List (Move Answer Call)) p, Admitted code anyTime ms p :=
    fun _ _ => admitted_all (fun _ _ _ => trivial) _
  constructor
  · intro h
    obtain ⟨p, hp, htest⟩ := exists_reaches (fun p : Calls => decide (bitcoinRows p = [1, 2]))
      (hadm bothWrite (init {})) (by decide +kernel)
    have hids : bitcoinRows p = [1, 2] := by simpa using htest
    obtain ⟨r, hr⟩ : ∃ r, r ∈ rowsAt (bitcoin 2).pair p.state :=
      List.exists_mem_of_ne_nil _ fun hnone => by simp [bitcoinRows, hnone] at hids
    have hone := (h {} p nofun hp).rowsAt_eq hr
    simp [bitcoinRows, hone] at hids
  · intro h
    obtain ⟨p, hp, htest⟩ := exists_reaches (fun p : Calls =>
        p.threads.all (fun th => !th.2.running) && decide (bitcoinPrice p = some 2) &&
        decide (p.threads.map Prod.fst = [bitcoin 2, bitcoin 3]))
      (hadm firstLast (init priced)) (by decide +kernel)
    simp only [Bool.and_eq_true, decide_eq_true_eq, List.all_eq_true, Bool.not_eq_true'] at htest
    obtain ⟨⟨hended, hprice⟩, hcalls⟩ := htest
    have hlength : p.threads.length = 2 := by simpa using congrArg List.length hcalls
    have hsecond : p.threads[1]? = some p.threads[1] := List.getElem?_eq_getElem (by omega)
    have hcall : p.threads[1].1 = bitcoin 3 := by
      have hget : (p.threads.map Prod.fst)[1]? = some (bitcoin 3) := by rw [hcalls]; rfl
      rw [List.getElem?_map, hsecond] at hget
      exact Option.some.inj hget
    have hlast : LastOfKey Call.pair p 1 p.threads[1].1 := by
      intro j th hj hth
      obtain ⟨hlt, -⟩ := List.getElem?_eq_some_iff.mp hth
      omega
    obtain ⟨value, hvalue, huses⟩ := h priced p onePrice_priced hp hended 1 _ hsecond hlast
    rw [hcall] at hvalue huses
    obtain rfl : 3 = value := Option.some.inj hvalue
    obtain ⟨⟨r, hfound, hr⟩, -⟩ := huses fun _ => quietly
    have hfound : ((findPrice "USD" "BTC").exec (fun _ => quietly) p.state).1 = .ok (some r) :=
      congrArg Prod.fst hfound
    unfold bitcoinPrice at hprice
    rw [hfound] at hprice
    have hthree : dp 8 3 = 2 := hr.symm.trans (Option.some.inj hprice)
    exact absurd hthree (by decide +kernel)

/-- One call after the other. -/
def inTurn : List (Move Answer Call) :=
  .start (bitcoin 2) :: steps 0 5 quietly ++ .start (bitcoin 3) :: steps 1 5 quietly

/-- Nothing is under way when a call starts. -/
def quiet (p : Calls) : Move Answer Call → Bool
  | .start call => p.threads.all (fun th => !th.2.running) && call.value.isSome
  | .run _ _ => true

theorem oneAtATime_of_quiet (p : Calls) (m : Move Answer Call) (h : quiet p m = true) :
    oneAtATime p m := by
  cases m with
  | run i c => exact trivial
  | start call =>
      simp only [quiet, Bool.and_eq_true, List.all_eq_true, Bool.not_eq_true'] at h
      refine ⟨fun th hth hrun => ?_, h.2⟩
      rw [h.1 th hth] at hrun
      cases hrun

/-- One after the other they leave one price, the second one's. -/
theorem latest_used_in_turn : ∃ p : Calls, Reaches code oneAtATime (init {}) p ∧
    p.threads.map Prod.fst = [bitcoin 2, bitcoin 3] ∧ OnePrice p.state ∧ LatestUsed p := by
  have hadm : Admitted code oneAtATime inTurn (init {}) :=
    admitted_of_checks oneAtATime_of_quiet (by decide +kernel)
  obtain ⟨p, hp, htest⟩ := exists_reaches (fun p : Calls =>
      p.threads.all (fun th => !th.2.running) &&
      decide (p.threads.map Prod.fst = [bitcoin 2, bitcoin 3])) hadm (by decide +kernel)
  simp only [Bool.and_eq_true, decide_eq_true_eq, List.all_eq_true, Bool.not_eq_true'] at htest
  have hempty : OnePrice {} := nofun
  obtain ⟨hone, hlatest⟩ := latest_used hempty hp
  exact ⟨p, hp, htest.2, hone, hlatest htest.1⟩

end Anypay.LatestPrice
