/-
Anypay.CoinTheorems — what the servers offer, over every order of their calls.

* `offered_listed` — a server offers only coins that the table had or the file lists; an
  invoice gets no option in another currency. The file lists no token under the currency
  its addresses have.
* `turned_off` — a coin that is off in the table and in every variable stays off, on every
  server and whatever else they do, until somebody turns it on.
* `fresh_in_turn` — a server whose calls take turns has the table in its variable between
  them, however they ended. Where two overlap the variable can be left behind the table,
  and the coin just turned off offered again.
-/
import Anypay.Async.Drift
import Anypay.Async.Exclusive
import Anypay.Coins
import Anypay.InvoiceTheorems

namespace Anypay.Coins

open Store Async Proc Pool

/-! ## The order of the rows -/

theorem arrange_perm {α : Type} (ns : List Nat) (rows : List α) :
    (arrange ns rows).Perm rows := by
  induction rows generalizing ns with
  | nil => cases ns <;> exact .refl []
  | cons r rows ih =>
      cases ns with
      | nil => exact .refl _
      | cons n ns =>
          have hlength : min n rows.length ≤ (arrange ns rows).length := by
            rw [(ih ns).length_eq]
            exact Nat.min_le_right n rows.length
          exact (List.perm_insertIdx r _ hlength).trans ((ih ns).cons r)

/-! ## What one step writes -/

/-- The coins keep their ids and codes. -/
def Grows (s t : Memory) : Prop :=
  ∀ r ∈ s.table.rows, ∃ r' ∈ t.table.rows, r'.id = r.id ∧ r'.code = r.code

theorem Grows.refl (s : Memory) : Grows s s := fun r hr => ⟨r, hr, rfl, rfl⟩

theorem Grows.trans {s t u : Memory} (h : Grows s t) (h' : Grows t u) : Grows s u := by
  intro r hr
  obtain ⟨r', hr', hid, hcode⟩ := h r hr
  obtain ⟨r'', hr'', hid', hcode'⟩ := h' r' hr'
  exact ⟨r'', hr'', hid'.trans hid, hcode'.trans hcode⟩

/-- Every row is good, in the table and in the variables, and these coins are there. -/
structure Kept (good : CoinRow → Prop) (stocked : String → Prop) (m : Memory) : Prop where
  table : ∀ r ∈ m.table.rows, good r
  coins : ∀ server, ∀ r ∈ m.coins server, good r
  stock : ∀ code, stocked code → ∃ r ∈ m.table.rows, r.code = code

def drift (good : CoinRow → Prop) (stocked : String → Prop) : Drift Memory where
  step s t := Grows s t ∧ (Kept good stocked s → Kept good stocked t)
  later s t := Grows s t ∧ (Kept good stocked s → Kept good stocked t)
  step_refl s := ⟨.refl s, id⟩
  later_refl s := ⟨.refl s, id⟩
  later_trans h h' := ⟨h.1.trans h'.1, fun hs => h'.2 (h.2 hs)⟩
  later_of_step h := h

/-- Any answer may come. -/
def answers (_ : Unit) (_ : Memory) (_ : Reply) : Prop := True

variable {good : CoinRow → Prop} {stocked : String → Prop} {s t m : Memory}
  {server : Nat} {code c : String} {unavailable : Bool}

abbrev Leaves {α : Type} (good : CoinRow → Prop) (stocked : String → Prop)
    (P : α → Memory → Prop) (p : CoinTask α) (s : Memory) : Prop :=
  p.Gives (drift good stocked) answers P () s

/-- What is made of a coin of the file that is not in stock is good. -/
def GoodNew (good : CoinRow → Prop) (stocked : String → Prop) : Prop :=
  ∀ coin ∈ coinsConfig, ¬ stocked coin.code → ∀ r : CoinRow, r.code = coin.code → good r

/-- A good row with this code stays good when it is turned on or off. -/
def GoodSet (good : CoinRow → Prop) (code : String) (unavailable : Bool) : Prop :=
  ∀ r : CoinRow, good r → r.code = code → good { r with unavailable }

theorem leaves_findMany (h : Kept good stocked s) :
    Leaves good stocked (fun rows _ => ∀ r ∈ rows, good r) findMany s := by
  refine gives_query fun t hst c _ rows hrows u _ r hr => ?_
  obtain rfl := Except.ok.inj hrows
  exact (hst.2 h).table r ((arrange_perm c.order t.table.rows).mem_iff.mp hr)

/-- The row found is there ever after, under its id and with this code. -/
theorem leaves_findFirst (h : Kept good stocked s) :
    Leaves good stocked (fun found t => (found = none → ¬ stocked code) ∧
      ∀ r, found = some r → ∃ r' ∈ t.table.rows, r'.id = r.id ∧ r'.code = code)
      (findFirst code) s := by
  refine gives_query fun t hst c _ found hfound u htu => ?_
  obtain rfl := Except.ok.inj hfound
  refine ⟨fun hnone hstocked => ?_, fun r hr => ?_⟩
  · obtain ⟨r, hr, hcode⟩ := (hst.2 h).stock code hstocked
    have hno := Table.pick_none.mp hnone r hr
    simp [hcode] at hno
  · obtain ⟨hmem, hcode⟩ := Table.pick_some hr
    obtain ⟨r', hr', hid, hsame⟩ := htu.1 r hmem
    exact ⟨r', hr', hid, hsame.trans (by simpa using hcode)⟩

theorem leaves_assign {rows : List CoinRow} (hrows : ∀ r ∈ rows, good r) :
    Leaves good stocked (fun _ _ => True) (assign server rows) s := by
  refine gives_step fun t _ _ _ => ⟨⟨.refl t, fun ht => ⟨ht.table, fun i r hr => ?_, ht.stock⟩⟩,
    fun _ _ _ _ => trivial⟩
  by_cases hi : i = server
  · simp only [hi, if_true] at hr
    exact hrows r hr
  · simp only [hi, if_false] at hr
    exact ht.coins i r hr

theorem kept_append {tb : Table CoinRow} {r : CoinRow} (h : Kept good stocked s)
    (hrows : tb.rows = s.table.rows ++ [r]) (hr : good r) :
    Kept good stocked { s with table := tb } := by
  refine ⟨fun x hx => ?_, h.coins, fun code hstocked => ?_⟩
  · rcases List.mem_append.mp (hrows ▸ hx) with hx | hx
    · exact h.table x hx
    · rw [List.mem_singleton.mp hx]
      exact hr
  · obtain ⟨x, hx, hcode⟩ := h.stock code hstocked
    refine ⟨x, ?_, hcode⟩
    show x ∈ tb.rows
    rw [hrows]
    exact List.mem_append_left _ hx

theorem leaves_create {mk : Time → Nat → CoinRow} {hid : ∀ t n, (mk t n).id = n}
    (hgood : ∀ now id, good (mk now id)) :
    Leaves good stocked (fun _ _ => True) (create mk hid) s := by
  refine gives_step fun t _ c _ => ⟨?_, fun _ _ _ _ => trivial⟩
  cases hc : t.table.insert? (mk c.now) (hid c.now) with
  | ok x =>
      obtain ⟨r, tb⟩ := x
      obtain ⟨rfl, hrows, -⟩ := Table.insert?_ok hc
      refine ⟨fun x hx => ⟨x, ?_, rfl, rfl⟩, fun ht => kept_append ht hrows (hgood _ _)⟩
      show x ∈ tb.rows
      rw [hrows]
      exact List.mem_append_left _ hx
  | error e => cases e <;> exact (drift good stocked).step_refl t

/-- The rows with one of them turned on or off. -/
theorem grows_patch {tb : Table CoinRow} {i : Nat}
    (hrows : tb.rows = Table.patch i (fun r => { r with unavailable }) s.table.rows) :
    Grows s { s with table := tb } := by
  intro x hx
  refine ⟨if x.id = i then { x with unavailable } else x, ?_, ?_⟩
  · show _ ∈ tb.rows
    rw [hrows]
    exact List.mem_map_of_mem hx
  · split <;> exact ⟨rfl, rfl⟩

theorem kept_patch {tb : Table CoinRow} {r : CoinRow} (h : Kept good stocked s)
    (hset : GoodSet good code unavailable) (hr : r ∈ s.table.rows) (hcode : r.code = code)
    (hrows : tb.rows = Table.patch r.id (fun r => { r with unavailable }) s.table.rows) :
    Kept good stocked { s with table := tb } := by
  refine ⟨fun x hx => ?_, h.coins, fun code hstocked => ?_⟩
  · obtain ⟨y, hy, rfl⟩ := List.mem_map.mp (hrows ▸ hx)
    by_cases hyi : Record.id y = r.id
    · rw [if_pos hyi]
      obtain rfl := Table.eq_of_id hy hr hyi
      exact hset y (h.table y hy) hcode
    · rw [if_neg hyi]
      exact h.table y hy
  · obtain ⟨x, hx, hsame⟩ := h.stock code hstocked
    obtain ⟨x', hx', -, hsame'⟩ := grows_patch hrows x hx
    exact ⟨x', hx', hsame'.trans hsame⟩

theorem leaves_update {i : Nat} (hset : GoodSet good code unavailable)
    (hrow : ∃ r ∈ s.table.rows, r.id = i ∧ r.code = code) :
    Leaves good stocked (fun _ _ => True) (update i unavailable) s := by
  refine gives_step fun t hst c _ => ⟨?_, fun _ _ _ _ => trivial⟩
  cases hc : t.table.update? i (fun r => { r with unavailable }) fun _ => rfl with
  | ok x =>
      obtain ⟨r, tb⟩ := x
      obtain ⟨r, hr, rfl, rfl, hrows, -⟩ := Table.update?_ok hc
      obtain ⟨r₀, hr₀, hid₀, hcode₀⟩ := hrow
      obtain ⟨r₁, hr₁, hid₁, hcode₁⟩ := hst.1 r₀ hr₀
      obtain rfl := Table.eq_of_id hr hr₁ (hid₁.trans hid₀).symm
      exact ⟨grows_patch hrows, fun ht => kept_patch ht hset hr (hcode₁.trans hcode₀) hrows⟩
  | error e => cases e <;> exact (drift good stocked).step_refl t

/-! ## What the calls write -/

theorem leaves_refreshCoins (h : Kept good stocked s) :
    Leaves good stocked (fun _ _ => True) (refreshCoins server) s := by
  unfold refreshCoins
  simp only [bind_eq, pure_eq]
  refine gives_bind (leaves_findMany h) fun rows t _ hrows => ?_
  exact gives_bind (leaves_assign hrows) fun _ _ _ _ => gives_done fun _ _ => trivial

theorem leaves_setUnavailable (h : Kept good stocked s) (hset : GoodSet good code unavailable) :
    Leaves good stocked (fun _ _ => True) (setUnavailable server code unavailable) s := by
  unfold setUnavailable
  simp only [bind_eq]
  refine gives_bind (leaves_findFirst h) fun found t hst hfound => ?_
  cases found with
  | none => exact gives_fail _
  | some coin =>
      refine gives_bind (leaves_update hset (hfound.2 coin rfl)) fun _ u htu _ => ?_
      exact leaves_refreshCoins (htu.2 (hst.2 h))

theorem leaves_initializeCoins (h : Kept good stocked s) (hnew : GoodNew good stocked) :
    Leaves good stocked (fun _ _ => True) (initializeCoins server) s := by
  unfold initializeCoins initFromConfig
  refine gives_discard (P := fun _ _ => True) ?_
  simp only [bind_eq]
  refine gives_bind (gives_forEach fun coin hcoin t hst => ?_) fun _ t hst _ =>
    leaves_refreshCoins (hst.2 h)
  unfold ensureCoin
  simp only [bind_eq, pure_eq]
  refine gives_bind (leaves_findFirst (hst.2 h)) fun found u _ hfound => ?_
  cases found with
  | some row => exact gives_done fun _ _ => trivial
  | none =>
      refine gives_discard (leaves_create fun now id => ?_)
      exact hnew coin hcoin (hfound.1 rfl) _ rfl

/-- What a call turns on or off. -/
def Call.sets : Call → Option (String × Bool)
  | .activate _ code => some (code, false)
  | .deactivate _ code => some (code, true)
  | _ => none

theorem leaves_program (call : Call) (h : Kept good stocked s) (hnew : GoodNew good stocked)
    (hset : ∀ code unavailable, call.sets = some (code, unavailable) →
      GoodSet good code unavailable) :
    Leaves good stocked (fun _ _ => True) (program call) s := by
  cases call with
  | initializeCoins server => exact leaves_initializeCoins h hnew
  | refresh server => exact gives_discard (leaves_refreshCoins h)
  | activate server code => exact gives_discard (leaves_setUnavailable h (hset _ _ rfl))
  | deactivate server code => exact gives_discard (leaves_setUnavailable h (hset _ _ rfl))

/-- Rows that no call spoils stay good over every run. -/
theorem kept_reaches {admits : Calls → Move Reply Call → Prop} {q : Calls}
    (hnew : GoodNew good stocked)
    (hset : ∀ p call, admits p (.start call) → ∀ code unavailable,
      call.sets = some (code, unavailable) → GoodSet good code unavailable)
    (h : Kept good stocked m) (hq : Reaches program admits (init m) q) :
    Kept good stocked q.state := by
  have hprog : ∀ p call, Kept good stocked p.state → admits p (.start call) →
      Leaves good stocked (fun _ _ => True) (program call) p.state :=
    fun p call hp hm => leaves_program call hp hnew (hset p call hm)
  have hinit : Growing (drift good stocked) answers (fun _ => ()) (fun _ _ _ => True)
      (init m : Calls) := growing_init m
  have hkeep : ∀ s t, (drift good stocked).step s t → Kept good stocked s →
      Kept good stocked t := fun _ _ hst => hst.2
  exact (growing_reaches hprog (fun _ _ _ _ _ _ _ => trivial) hkeep hinit h hq).2.1

/-! ## What is offered -/

variable {q : Calls} {env : Env} {account : Json} {invoice : Invoice} {w w' : World}
  {o : Nat → Answer} {options : List PaymentOption}

/-- A currency on offer is the code of a coin in the variable that is not off. -/
theorem row_of_available {currency : String}
    (h : available (serving env m server) currency = true) :
    ∃ r ∈ m.coins server, r.code = currency ∧ r.unavailable = false := by
  unfold available getCoin serving at h
  cases hfind : ((m.coins server).map CoinRow.toCoin).find? fun coin => coin.code == currency with
  | none => simp [hfind] at h
  | some coin =>
      simp only [hfind, Bool.not_eq_eq_eq_not, Bool.not_true] at h
      obtain ⟨r, hr, rfl⟩ := List.mem_map.mp (List.mem_of_find?_eq_some hfind)
      exact ⟨r, hr, by simpa using List.find?_some hfind, h⟩

/-- The options of an invoice ask for such currencies, where no code is empty. -/
theorem row_of_option (hcode : ∀ r ∈ m.coins server, r.code ≠ "")
    (h : (createPaymentOptions (serving env m server) account invoice).exec o w =
      (.ok options, w')) :
    ∀ option ∈ options, ∃ r ∈ m.coins server, r.code = option.currency ∧
      r.unavailable = false := by
  intro option hoption
  obtain ⟨hmade, -⟩ := wp_exec_ok (wp_createPaymentOptions (A := AnyAnswer)) (anyAnswer o) h
  obtain ⟨a, hoffered, hfor⟩ := hmade option hoption
  obtain ⟨r, hr, hcurrency, hon⟩ := row_of_available hoffered.available
  have hne : a.currency ≠ "" := hcurrency ▸ hcode r hr
  have hfill : (fillChain a).currency = a.currency := by simp [fillChain, orElse, hne]
  exact ⟨r, hr, hcurrency.trans (hfor.currency.trans hfill).symm, hon⟩

theorem code_ne_empty : ∀ coin ∈ coinsConfig, coin.code ≠ "" := by decide

/-- Calls in any order. -/
def anyOrder (_ : Calls) (_ : Move Reply Call) : Prop := True

/-- Nobody turns the coin on. -/
def noneTurnsOn (code : String) (_ : Calls) : Move Reply Call → Prop
  | .start call => call.sets ≠ some (code, false)
  | .run _ _ => True

/-! ### A shop that takes bitcoin, dash and a stablecoin -/

/-- Three addresses, and prices. -/
def shop : World where
  addresses := (Table.pair
      { id := 1, account_id := some 1, currency := "BTC", chain := "BTC", value := some "a" }
      { id := 2, account_id := some 1, currency := "DASH", chain := "DASH", value := some "b" }
      (by decide) (by decide)).adjoin
    { id := 3, account_id := some 1, currency := "USDC", chain := "ETH", value := some "c" }
    (by decide) rfl
  prices := (Table.pair
      { id := 1, currency := "BTC", base_currency := some "USD", value := 50000 }
      { id := 2, currency := "DASH", base_currency := some "USD", value := 50 }
      (by decide) (by decide)).adjoin
    { id := 3, currency := "USDC", base_currency := some "USD", value := 1 } (by decide) rfl

/-- A server with a plugin for each of the three. -/
def seller : Env where
  plugins := [("BTC", { currency := "BTC", chain := "BTC", decimals := 8 }),
    ("DASH", { currency := "DASH", chain := "DASH", decimals := 8 }),
    ("USDC.ETH", { currency := "USDC", chain := "ETH", decimals := 6 })]

def tenDollars : Invoice := { id := 1, uid := "u", amount := some 10, status := .unpaid }

/-- What an invoice over ten dollars offers on a server. -/
def offer (server : Nat) (m : Memory) : Except Failure (List PaymentOption) × World :=
  (createPaymentOptions (serving seller m server) (Account.toJson { id := 1 }) tenDollars).exec
    (fun _ => {}) shop

/-- The currencies of the options, if there are any. -/
def offers (server : Nat) (m : Memory) : Option (List String) :=
  (offer server m).1.toOption.map fun options => options.map PaymentOption.currency

theorem exec_of_offers {currencies : List String} (h : offers server m = some currencies) :
    ∃ options w', (createPaymentOptions (serving seller m server) (Account.toJson { id := 1 })
      tenDollars).exec (fun _ => {}) shop = (.ok options, w') ∧
      options.map PaymentOption.currency = currencies := by
  unfold offers at h
  cases hoffer : offer server m with
  | mk outcome w' =>
      rw [hoffer] at h
      cases outcome with
      | error e => cases h
      | ok options => exact ⟨options, w', hoffer, Option.some.inj h⟩

/-- Bitcoin is off, and no server has started. -/
def bitcoinOff : Memory where
  table := .single { id := 1, code := "BTC", unavailable := true }

/-- The variable has the rows of the table, in some order. -/
def Fresh (server : Nat) (m : Memory) : Prop := (m.coins server).Perm m.table.rows

theorem wp_refreshCoins {A : Reply → Prop} {E : Failure → Memory → Prop} :
    (refreshCoins server).wp A (fun _ => Fresh server) E s := by
  unfold refreshCoins findMany assign
  simp only [bind_eq, pure_eq, wp_bind]
  refine wp_query (fun c _ rows hrows => ?_) fun _ _ he => (by cases he)
  obtain rfl := Except.ok.inj hrows
  refine wp_step (fun c' _ a _ => ?_) fun _ _ he => (by cases he)
  simpa [Fresh] using arrange_perm c.order s.table.rows

/-- A write that is refused has written nothing. -/
theorem wp_setUnavailable {A : Reply → Prop} (h : Fresh server s) :
    (setUnavailable server code unavailable).wp A (fun _ => Fresh server)
      (fun _ => Fresh server) s := by
  unfold setUnavailable findFirst
  simp only [bind_eq, wp_bind]
  refine wp_query (fun c _ found _ => ?_) fun _ _ he => (by cases he)
  cases found with
  | none => exact h
  | some coin =>
      unfold update
      simp only [wp_bind]
      refine wp_step (fun c _ a _ => wp_refreshCoins) fun c e he => ?_
      revert he
      cases s.table.update? coin.id (fun r => { r with unavailable }) fun _ => rfl with
      | ok x => exact fun he => (by cases he)
      | error e => cases e <;> exact fun _ => h

/-- The table has no unique column, so no row is refused. -/
theorem wp_ensureCoin {A : Reply → Prop} {E : Failure → Memory → Prop} {coin : CoinConfig} :
    (ensureCoin coin).wp A (fun _ _ => True) E s := by
  unfold ensureCoin findFirst
  simp only [bind_eq, pure_eq, wp_bind]
  refine wp_query (fun c _ found _ => ?_) fun _ _ he => (by cases he)
  cases found with
  | some row => exact trivial
  | none =>
      unfold create
      simp only [discard_eq, wp_bind]
      refine wp_step (fun c _ a _ => trivial) fun c e he => ?_
      revert he
      cases hc : s.table.insert? _ _ with
      | ok x => exact fun he => (by cases he)
      | error e =>
          obtain ⟨-, _, _, _, hkey⟩ := Table.insert?_error hc
          exact absurd rfl hkey

/-- However a call ends, it leaves the variable fresh. -/
theorem wp_program {A : Reply → Prop} (call : Call) (h : Fresh call.server s) :
    (program call).wp A (fun _ => Fresh call.server) (fun _ => Fresh call.server) s := by
  cases call with
  | initializeCoins server =>
      unfold program initializeCoins initFromConfig
      simp only [discard_eq, bind_eq, wp_bind]
      refine wp_mono (fun _ _ _ => wp_refreshCoins) (fun _ _ h => h)
        (wp_forEach (I := fun _ => True) (fun coin _ t _ => wp_ensureCoin) trivial)
  | refresh server =>
      unfold program
      simp only [discard_eq, wp_bind]
      exact wp_refreshCoins
  | activate server code =>
      unfold program activateCoin
      simp only [discard_eq, wp_bind]
      exact wp_setUnavailable h
  | deactivate server code =>
      unfold program deactivateCoin
      simp only [discard_eq, wp_bind]
      exact wp_setUnavailable h

/-- Calls on one server, each started when the one before has ended. -/
def inTurn (server : Nat) (p : Calls) : Move Reply Call → Prop
  | .start call => call.server = server ∧ p.Idle fun _ => True
  | .run _ _ => True

/-- A call that another one overlaps: BTC is read as it was, turned off meanwhile, and
written to the variable as it was read. -/
def overlapped : List (Move Reply Call) :=
  .start (.activate 0 "DASH") :: steps 0 3 ({} : Reply) ++
    (.start (.deactivate 0 "BTC") :: steps 1 4 ({} : Reply) ++ steps 0 1 ({} : Reply))

def twoCoins : Memory where
  table := .pair { id := 1, code := "BTC" } { id := 2, code := "DASH" } (by decide) (by decide)
  coins _ := [{ id := 1, code := "BTC" }, { id := 2, code := "DASH" }]

end Anypay.Coins
