/-
Anypay.WalletBotTheorems — what a wallet bot can learn of the others.

Two databases AGREE for a bot where they hold the same of its app's invoices and
the same of its own balance updates. A query keeps to the bot's own where it
then has the same outcomes on both:

  - `getAddressHistory` always does;
  - `listInvoices` returns everyone's invoices, `getInvoice` tells an invoice of
    another app from none, and `listLatestBalances` fails over a chain and
    currency only others report;
  - `same_outcomes_iff`: all four agree exactly where the databases hold the same
    invoices altogether and both or neither have a group the bot is not in.

A query without an order may return any row, so outcomes are compared as the
set of those that are possible, rows as sets of rows.
-/
import Anypay.WalletBots
import Anypay.Db.Rules
import Mathlib.Data.List.Dedup

namespace Anypay

open Async Proc Store

namespace WalletBot

variable {A : Answer → Prop} {s t w : World} {walletBot : WalletBot}

/-! ## Agreement and outcomes -/

/-- The databases hold the same of the bot's rows: its app's invoices and its own
balance updates. -/
structure Agree (walletBot : WalletBot) (s t : World) : Prop where
  invoices : ∀ r : Invoice, r.app_id = walletBot.app_id →
    (r ∈ s.invoices.rows ↔ r ∈ t.invoices.rows)
  balances : ∀ r : AddressBalanceUpdate, r.wallet_bot_id = some (walletBot.id : Int) →
    (r ∈ s.addressBalanceUpdates.rows ↔ r ∈ t.addressBalanceUpdates.rows)

theorem Agree.symm (h : Agree walletBot s t) : Agree walletBot t s where
  invoices r hr := (h.invoices r hr).symm
  balances r hr := (h.balances r hr).symm

/-- The same rows, or the same error. -/
def Same : Except Failure Rows → Except Failure Rows → Prop
  | .ok (.invoices xs), .ok (.invoices ys) => ∀ r, r ∈ xs ↔ r ∈ ys
  | .ok (.balances xs), .ok (.balances ys) => ∀ r, r ∈ xs ↔ r ∈ ys
  | .error e, .error e' => e = e'
  | _, _ => False

/-- Whatever the query may answer on the first database it may answer on the
second. -/
def Covered (p : Task Rows) (s t : World) : Prop :=
  ∀ o, ∃ o', Same (p.exec o s).1 (p.exec o' t).1

/-- The query has the same outcomes on both. -/
def SameOutcomes (p : Task Rows) (s t : World) : Prop := Covered p s t ∧ Covered p t s

/-- Some chain and currency that balances were reported in has none of the bot's. -/
def Outside (walletBot : WalletBot) (w : World) : Prop :=
  ∃ r ∈ w.addressBalanceUpdates.rows, ∀ x ∈ w.addressBalanceUpdates.rows,
    walletBot.reportedIn (group r) x = false

theorem same_refl (x : Except Failure Rows) : Same x x := by
  match x with
  | .ok (.invoices _) => exact fun _ => Iff.rfl
  | .ok (.balances _) => exact fun _ => Iff.rfl
  | .error _ => exact rfl

/-! ## The bot's own history -/

theorem exec_getAddressHistory (address currency chain : String) (o : Nat → Answer)
    (w : World) : ((walletBot.ask (.getAddressHistory address currency chain)).exec o w).1 =
      .ok (.balances (w.addressBalanceUpdates.select fun r =>
        r.address == some address && r.currency == some currency && r.chain == some chain &&
          r.wallet_bot_id == some (walletBot.id : Int))) := rfl

theorem covered_getAddressHistory (h : Agree walletBot s t)
    (address currency chain : String) :
    Covered (walletBot.ask (.getAddressHistory address currency chain)) s t := by
  intro o
  refine ⟨o, ?_⟩
  rw [exec_getAddressHistory, exec_getAddressHistory]
  intro r
  rw [Table.mem_select, Table.mem_select]
  refine and_congr_left fun hr => h.balances r ?_
  simp only [Bool.and_eq_true, beq_iff_eq] at hr
  exact hr.2

/-! ## Everyone's invoices -/

theorem exec_listInvoices (options : ListInvoices) (o : Nat → Answer) (w : World) :
    ((walletBot.ask (.listInvoices options)).exec o w).1 =
      if options.offset.getD 0 < 0 then .error (.invalidValue "invoices")
      else .ok (.invoices (page options.take (options.offset.getD 0).toNat
        (w.invoices.select options.matches))) := by
  show (((walletBot.listInvoices options).bind fun rows =>
    done (Rows.invoices rows)).exec o w).1 = _
  rw [listInvoices, Delegate.findPage, exec_query_bind]
  by_cases hneg : options.offset.getD 0 < 0
  · rw [if_pos hneg, if_pos hneg]
    rfl
  · rw [if_neg hneg, if_neg hneg]
    rfl

/-- One invoice of the whole table. -/
def nth (k : Nat) : ListInvoices := { offset := some k, limit := some 1 }

theorem exec_nth (k : Nat) (o : Nat → Answer) (w : World) :
    ((walletBot.ask (.listInvoices (nth k))).exec o w).1 =
      .ok (.invoices w.invoices.rows[k]?.toList) := by
  have htake : (nth k).take = 1 := rfl
  have hselect : w.invoices.select (nth k).matches = w.invoices.rows :=
    Table.select_true w.invoices
  rw [exec_listInvoices, if_neg (by simp [nth]), hselect, htake, page, if_pos (by decide)]
  simp [nth, List.take_one, List.head?_drop]

/-- Asked for one invoice after the other, the bot gets the whole table. -/
theorem rows_eq_of_covered
    (h : ∀ k, Covered (walletBot.ask (.listInvoices (nth k))) s t) :
    s.invoices.rows = t.invoices.rows := by
  apply List.ext_getElem?
  intro k
  obtain ⟨o', hsame⟩ := h k fun _ => {}
  rw [exec_nth, exec_nth] at hsame
  apply Option.ext
  intro r
  rw [← Option.mem_toList, ← Option.mem_toList]
  exact hsame r

/-- A query of invoices reads nothing else. -/
theorem covered_of_invoices (h : s.invoices.rows = t.invoices.rows) (options : ListInvoices) :
    Covered (walletBot.ask (.listInvoices options)) s t := by
  intro o
  refine ⟨o, ?_⟩
  rw [exec_listInvoices, exec_listInvoices, Table.select, Table.select, h]
  exact same_refl _

/-! ## One invoice -/

theorem exec_getInvoice (uid : String) (o : Nat → Answer) (w : World) :
    ((walletBot.ask (.getInvoice uid)).exec o w).1 =
      match w.invoices.pick (fun r => r.uid == uid) (o 0).row with
      | none => .error (.notFound "invoices")
      | some r =>
          if r.app_id ≠ walletBot.app_id then .error (.error "WalletBotNotAuthorized")
          else .ok (.invoices [r]) := by
  show (((walletBot.getInvoice uid).bind fun invoice =>
    done (Rows.invoices [invoice])).exec o w).1 = _
  simp only [getInvoice, bind_eq]
  rw [Proc.bind_assoc, Delegate.exec_findFirstOrThrow_bind]
  cases hpick : (prisma.invoices.get w).pick (fun r => r.uid == uid) (o 0).row with
  | none => 
      rw [show w.invoices.pick _ _ = none from hpick]
      rfl
  | some r =>
      rw [show w.invoices.pick _ _ = some r from hpick]
      by_cases happ : r.app_id ≠ walletBot.app_id
      · simp only [if_pos happ]
        rfl
      · simp only [if_neg happ]
        rfl

theorem covered_getInvoice (h : s.invoices.rows = t.invoices.rows) (uid : String) :
    Covered (walletBot.ask (.getInvoice uid)) s t := by
  intro o
  refine ⟨o, ?_⟩
  rw [exec_getInvoice, exec_getInvoice, Table.pick, Table.pick, Table.select, Table.select, h]
  exact same_refl _

/-! ## The latest balances -/

/-- The latest balance update of the bot in its chain and currency. -/
structure Latest (walletBot : WalletBot) (w : World) (update : Option String × Option String)
    (r : AddressBalanceUpdate) : Prop where
  mem : r ∈ w.addressBalanceUpdates.rows
  own : walletBot.reportedIn update r = true
  last : ∀ x ∈ w.addressBalanceUpdates.rows, walletBot.reportedIn update x = true →
    x.createdAt ≤ r.createdAt

theorem reportedIn_iff {update : Option String × Option String} {r : AddressBalanceUpdate} :
    walletBot.reportedIn update r = true ↔
      r.wallet_bot_id = some (walletBot.id : Int) ∧ group r = update := by
  simp [reportedIn]

theorem Agree.latest (h : Agree walletBot s t) {update : Option String × Option String}
    {r : AddressBalanceUpdate} (hr : Latest walletBot s update r) : Latest walletBot t update r where
  mem := (h.balances r (reportedIn_iff.mp hr.own).1).mp hr.mem
  own := hr.own
  last x hx hown := hr.last x ((h.balances x (reportedIn_iff.mp hown).1).mpr hx) hown

/-- The read of one group. -/
abbrev readIn (walletBot : WalletBot) (update : Option String × Option String) (c : Answer)
    (w : World) : Except Failure AddressBalanceUpdate :=
  prisma.addressBalanceUpdates.readLatest AddressBalanceUpdate.createdAt
    (walletBot.reportedIn update) c w

theorem readIn_ok {update : Option String × Option String} {c : Answer}
    {r : AddressBalanceUpdate} (h : walletBot.readIn update c w = .ok r) :
    Latest walletBot w update r := by
  obtain ⟨hmem, hown, hlast⟩ := Delegate.readLatest_ok h
  exact ⟨hmem, hown, hlast⟩

theorem exists_readIn {update : Option String × Option String} {r : AddressBalanceUpdate}
    (h : Latest walletBot w update r) : ∃ c, walletBot.readIn update c w = .ok r :=
  Delegate.exists_readLatest h.mem h.own h.last

/-- The groups balances were reported in, by anyone. -/
def allGroups (w : World) : List (Option String × Option String) :=
  (w.addressBalanceUpdates.rows.map group).dedup

theorem mem_allGroups {update : Option String × Option String} :
    update ∈ allGroups w ↔ ∃ r ∈ w.addressBalanceUpdates.rows, group r = update := by
  simp [allGroups]

/-- The latest balance in each group, or an error over a group of others. -/
theorem wp_listLatestBalances (walletBot : WalletBot) (w : World) : (walletBot.ask .listLatestBalances).wp A
    (fun rows _ => ∃ ys, rows = .balances ys ∧ List.Forall₂ (Latest walletBot w) (allGroups w) ys)
    (fun e _ => e = .notFound "AddressBalanceUpdates" ∧ Outside walletBot w) w := by
  simp only [ask, listLatestBalances, bind_eq, wp_bind]
  refine wp_query (fun _ _ updates h => ?_) (fun _ _ h => by cases h)
  obtain rfl := Except.ok.inj h
  refine wp_mono (fun ys u h => ⟨ys, rfl, h.1⟩) (fun _ _ h => h)
    (wp_mapAll_pointwise (I := fun u => u = w) (fun update hupdate u hu => ?_) rfl)
  subst hu
  refine wp_query (fun c _ r hr => ⟨readIn_ok hr, rfl⟩) (fun c e he => ?_)
  obtain ⟨rfl, hnone⟩ := Delegate.readLatest_error he
  obtain ⟨r, hr, rfl⟩ := mem_allGroups.mp hupdate
  exact ⟨rfl, r, hr, hnone⟩

/-- Every choice of a latest balance for each group is an outcome. -/
theorem exists_listLatestBalances {f : Option String × Option String → AddressBalanceUpdate}
    (hf : ∀ update ∈ allGroups w, Latest walletBot w update (f update)) :
    ∃ o, ((walletBot.ask .listLatestBalances).exec o w).1 =
      .ok (.balances ((allGroups w).map f)) := by
  obtain ⟨o, ho⟩ := exec_mapAll_query (ε := Failure)
    (fun update hupdate => exists_readIn (hf update hupdate)) {}
  obtain ⟨o', hrest⟩ := exec_bind (mapAll (allGroups w) fun update => query (walletBot.readIn update))
    (fun rows => done (Rows.balances rows)) o w
  rw [ho] at hrest
  refine ⟨fun n => n.casesOn {} o, ?_⟩
  show ((walletBot.listLatestBalances.bind fun rows => done (Rows.balances rows)).exec _ w).1 = _
  rw [listLatestBalances, bind_eq, Proc.bind_assoc, groups, exec_query_bind]
  exact congrArg Prod.fst hrest

/-- Where the bot has a balance in every group, a latest one is found in each. -/
theorem latest_of_not_outside (h : ¬ Outside walletBot w) {update : Option String × Option String}
    (hupdate : update ∈ allGroups w) : ∃ r, Latest walletBot w update r := by
  obtain ⟨r, hr, rfl⟩ := mem_allGroups.mp hupdate
  by_contra hnone
  refine h ⟨r, hr, fun x hx => ?_⟩
  by_contra hown
  obtain ⟨y, hy, hlast⟩ := @exists_latest _ AddressBalanceUpdate.createdAt _ _ _ hx
    (Bool.eq_true_of_not_eq_false hown)
  obtain ⟨hyown, hylast⟩ := latest_iff.mp hlast
  exact hnone ⟨y, hy, hyown, hylast⟩

/-- The groups are the bot's own, where it is in all of them. -/
theorem Agree.groups (h : Agree walletBot s t) (hs : ¬ Outside walletBot s)
    {update : Option String × Option String} (hupdate : update ∈ allGroups s) :
    update ∈ allGroups t := by
  obtain ⟨r, hr⟩ := latest_of_not_outside hs hupdate
  exact mem_allGroups.mpr ⟨r, (h.latest hr).mem, (reportedIn_iff.mp hr.own).2⟩

/-- An outcome without an error: a latest balance of each group, and no more. -/
theorem balances_of_forall₂ {gs : List (Option String × Option String)}
    {ys : List AddressBalanceUpdate} (h : List.Forall₂ (Latest walletBot w) gs ys) :
    ys.map group = gs ∧ ∀ y ∈ ys, Latest walletBot w (group y) y := by
  induction h with
  | nil => simp
  | cons hy _ ih =>
      obtain ⟨-, rfl⟩ := reportedIn_iff.mp hy.own
      obtain ⟨hmap, hlatest⟩ := ih
      refine ⟨by rw [List.map_cons, hmap], fun y' hy' => ?_⟩
      rcases List.mem_cons.mp hy' with rfl | hy'
      · exact hy
      · exact hlatest y' hy'

/-- An outcome that is not an error: the bot has a balance in each group. -/
theorem not_outside_of_latest {ys : List AddressBalanceUpdate}
    (h : List.Forall₂ (Latest walletBot w) (allGroups w) ys) : ¬ Outside walletBot w := by
  rintro ⟨r, hr, hnone⟩
  obtain ⟨hmap, hlatest⟩ := balances_of_forall₂ h
  have hgroup : group r ∈ ys.map group := hmap ▸ mem_allGroups.mpr ⟨r, hr, rfl⟩
  obtain ⟨y, hy, hgr⟩ := List.mem_map.mp hgroup
  have hown := (hlatest y hy).own
  rw [hgr, hnone y (hlatest y hy).mem] at hown
  cases hown

/-- The two ways the query can end. -/
theorem listLatestBalances_cases (walletBot : WalletBot) (o : Nat → Answer) (w : World) :
    (∃ ys, ((walletBot.ask .listLatestBalances).exec o w).1 = .ok (.balances ys) ∧
      List.Forall₂ (Latest walletBot w) (allGroups w) ys ∧ ¬ Outside walletBot w) ∨
    (((walletBot.ask .listLatestBalances).exec o w).1 =
      .error (.notFound "AddressBalanceUpdates") ∧ Outside walletBot w) := by
  have hend := wp_exec (wp_listLatestBalances walletBot w) (anyAnswer o)
  cases hr : ((walletBot.ask .listLatestBalances).exec o w).1 with
  | ok rows =>
      simp only [hr] at hend
      obtain ⟨ys, rfl, hys⟩ := hend
      exact .inl ⟨ys, rfl, hys, not_outside_of_latest hys⟩
  | error e =>
      simp only [hr] at hend
      exact .inr ⟨by rw [hend.1], hend.2⟩

theorem covered_listLatestBalances (h : Agree walletBot s t)
    (houtside : Outside walletBot s ↔ Outside walletBot t) :
    Covered (walletBot.ask .listLatestBalances) s t := by
  intro o
  rcases listLatestBalances_cases walletBot o s with ⟨ys, hr, hys, hs⟩ | ⟨hr, hs⟩
  · obtain ⟨hmap, hlatest⟩ := balances_of_forall₂ hys
    have hchoice : ∀ update ∈ allGroups s, ∃ y ∈ ys, group y = update := by
      intro update hupdate
      rw [← hmap] at hupdate
      exact List.mem_map.mp hupdate
    have : Nonempty AddressBalanceUpdate := ⟨{ id := 0 }⟩
    choose! f hf hgroup using hchoice
    have hback : ∀ update ∈ allGroups t, update ∈ allGroups s := fun update =>
      h.symm.groups fun ht => hs (houtside.mpr ht)
    obtain ⟨o', ho'⟩ := exists_listLatestBalances (w := t) (f := f) fun update hupdate => by
      have hin := hlatest _ (hf update (hback update hupdate))
      rw [hgroup update (hback update hupdate)] at hin
      exact h.latest hin
    refine ⟨o', ?_⟩
    rw [hr, ho']
    have hinj : ∀ y ∈ ys, ∀ y' ∈ ys, group y = group y' → y = y' := fun y hy y' hy' he =>
      List.inj_on_of_nodup_map (hmap ▸ List.nodup_dedup _) hy hy' he
    intro r
    constructor
    · intro hmem
      have hupdate : group r ∈ allGroups s := hmap ▸ List.mem_map_of_mem hmem
      refine List.mem_map.mpr ⟨group r, h.groups hs hupdate, ?_⟩
      exact hinj _ (hf _ hupdate) r hmem (hgroup _ hupdate)
    · intro hmem
      obtain ⟨update, hupdate, rfl⟩ := List.mem_map.mp hmem
      exact hf update (hback update hupdate)
  · refine ⟨o, ?_⟩
    rcases listLatestBalances_cases walletBot o t with ⟨_, _, _, ht⟩ | ⟨hr', _⟩
    · exact absurd (houtside.mp hs) ht
    · rw [hr, hr']
      exact rfl

/-- An outcome on one side that is not an error leaves no outsider on the other. -/
theorem not_outside_of_covered (h : Covered (walletBot.ask .listLatestBalances) s t)
    (hs : ¬ Outside walletBot s) : ¬ Outside walletBot t := by
  obtain ⟨o', hsame⟩ := h fun _ => {}
  rcases listLatestBalances_cases walletBot (fun _ => {}) s with
    ⟨ys, hr, -⟩ | ⟨-, hs'⟩
  · rcases listLatestBalances_cases walletBot o' t with ⟨_, _, _, ht⟩ | ⟨hr', -⟩
    · exact ht
    · rw [hr, hr'] at hsame
      exact hsame.elim
  · exact absurd hs' hs

/-! ## All four -/

/-- The bot's queries have the same outcomes on two databases that agree for it,
exactly where these hold the same invoices altogether, and both or neither hold a
balance in a chain and currency in which the bot has none. -/
theorem same_outcomes_iff (h : Agree walletBot s t) :
    (∀ q, SameOutcomes (walletBot.ask q) s t) ↔
      s.invoices.rows = t.invoices.rows ∧ (Outside walletBot s ↔ Outside walletBot t) := by
  constructor
  · intro hsame
    constructor
    · exact rows_eq_of_covered fun k => (hsame _).1
    · have hlatest := hsame .listLatestBalances
      exact not_iff_not.mp ⟨not_outside_of_covered hlatest.1, not_outside_of_covered hlatest.2⟩
  · rintro ⟨hrows, houtside⟩ q
    cases q with
    | getInvoice uid => exact ⟨covered_getInvoice hrows uid, covered_getInvoice hrows.symm uid⟩
    | listInvoices options =>
        exact ⟨covered_of_invoices hrows options, covered_of_invoices hrows.symm options⟩
    | getAddressHistory address currency chain =>
        exact ⟨covered_getAddressHistory h _ _ _, covered_getAddressHistory h.symm _ _ _⟩
    | listLatestBalances =>
        exact ⟨covered_listLatestBalances h houtside,
          covered_listLatestBalances h.symm houtside.symm⟩

/-! ## Two bots -/

/-- The bot of app 1. -/
def firstBot : WalletBot := { id := 1, app_id := some 1 }

/-- A database with an invoice of app 2. -/
def othersInvoice : World where
  invoices := .single { id := 1, uid := "b", app_id := some 2, status := .unpaid }

/-- It agrees with the empty one for the bot, and the bot sees the invoice. -/
theorem others_listed : Agree firstBot {} othersInvoice ∧
    ¬ SameOutcomes (firstBot.ask (.listInvoices {})) {} othersInvoice := by
  constructor
  · constructor
    · intro r hr
      refine ⟨fun hmem => (List.not_mem_nil hmem).elim, fun hmem => ?_⟩
      rw [List.mem_singleton.mp hmem] at hr
      exact absurd hr (by decide)
    · exact fun r _ => Iff.rfl
  · intro hsame
    obtain ⟨o', h⟩ := hsame.1 fun _ => {}
    rw [exec_listInvoices, exec_listInvoices] at h
    have hmem := (h _).mpr (List.mem_singleton_self _)
    cases hmem

/-- A balance of the bot with this id, in BTC. -/
def balance (id bot : Nat) : AddressBalanceUpdate :=
  { id, chain := some "BTC", currency := some "BTC", balance := some 1,
    wallet_bot_id := some bot }

/-- The bot's own balance, alone and next to another bot's. -/
def ownBalance : World where addressBalanceUpdates := .single (balance 1 1)

def bothBalances : World where
  addressBalanceUpdates := .pair (balance 1 1) (balance 2 2) (by decide) (by decide)

/-- A balance others report where the bot reports too goes unnoticed. -/
theorem others_unnoticed :
    SameOutcomes (firstBot.ask .listLatestBalances) ownBalance bothBalances := by
  have hagree : Agree firstBot ownBalance bothBalances := by
    constructor
    · exact fun r _ => Iff.rfl
    · intro r hr
      show r ∈ [balance 1 1] ↔ r ∈ [balance 1 1, balance 2 2]
      constructor
      · exact fun hmem => List.mem_cons.mpr (.inl (List.mem_singleton.mp hmem))
      · intro hmem
        rcases List.mem_cons.mp hmem with rfl | hmem
        · exact List.mem_singleton_self _
        · rw [List.mem_singleton.mp hmem] at hr
          exact absurd hr (by decide)
  have hinside : ∀ w : World, balance 1 1 ∈ w.addressBalanceUpdates.rows →
      (∀ r ∈ w.addressBalanceUpdates.rows, group r = group (balance 1 1)) →
      ¬ Outside firstBot w := by
    rintro w hmem hgroups ⟨r, hr, hnone⟩
    have hown := hnone _ hmem
    rw [hgroups r hr] at hown
    exact absurd hown (by decide)
  refine (same_outcomes_iff hagree).mpr ⟨rfl, iff_of_false ?_ ?_⟩ _
  · exact hinside _ (List.mem_singleton_self _) fun r hr => by rw [List.mem_singleton.mp hr]
  · refine hinside _ List.mem_cons_self fun r hr => ?_
    rcases List.mem_cons.mp hr with rfl | hr
    · rfl
    · rw [List.mem_singleton.mp hr]
      rfl

end WalletBot

end Anypay
