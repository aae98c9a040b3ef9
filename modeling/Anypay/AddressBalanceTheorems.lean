/-
Anypay.AddressBalanceTheorems — which balances `setAddressBalance` records.

A report is to make a new row exactly where the balance differs from the one reported
before, so that the latest row of an address has the balance last reported. The code
compares with a row it finds without an order. It is right in a whole sequence of
reports exactly where at each of them the row found shows no difference just when the
balance last reported is the same (`balances_iff`).

Where the earliest row is found that is a matter of the reports alone: each balance is
the first one ever reported just when it is the last one. A balance that comes back to
the first is lost (`returned_unrecorded`), and one that stays at another is recorded
again with each report.
-/
import Anypay.WalletBots
import Anypay.Db.Rules

namespace Anypay

open Async Proc Store

namespace WalletBot

/-! ## Reports -/

/-- A key of the table: the bot, chain, currency and address. -/
abbrev BalanceKey := Option Int × Option String × Option String × Option String

def keyOf (r : AddressBalanceUpdate) : BalanceKey :=
  (r.wallet_bot_id, r.chain, r.currency, r.address)

/-- A call of `setAddressBalance`, and what it is answered at its steps. -/
structure Report where
  walletBot : WalletBot
  params : SetAddressBalance
  answers : Nat → Answer

namespace Report

def key (c : Report) : BalanceKey :=
  (some (c.walletBot.id : Int), c.params.chain, c.params.currency, c.params.address)

def balance (c : Report) : Option Rat := c.params.balance

def next (c : Report) (w : World) : World :=
  ((c.walletBot.setAddressBalance c.params).exec c.answers w).2

/-- The row the call finds. -/
def found (c : Report) (w : World) : Option AddressBalanceUpdate :=
  w.addressBalanceUpdates.pick (c.params.matches c.walletBot) (c.answers 0).row

/-- The row it finds shows no difference. -/
def Same (c : Report) (w : World) : Prop :=
  ∃ r, c.found w = some r ∧ difference c.balance r = some 0

/-- A row with the balance has been added. -/
def Recorded (c : Report) (s t : World) : Prop := ∃ r, keyOf r = c.key ∧ r.balance = c.balance ∧
  t.addressBalanceUpdates.rows = s.addressBalanceUpdates.rows ++ [r]

end Report

/-- The calls, one after the other. -/
def after (w : World) (calls : List Report) : World := calls.foldl (fun w c => c.next w) w

/-- The balances of the rows of a key, in the order they were created. -/
def balancesAt (key : BalanceKey) (w : World) : List (Option Rat) :=
  (w.addressBalanceUpdates.select fun r => keyOf r == key).map AddressBalanceUpdate.balance

/-- The balances reported for a key: those in the database, then those of the calls. -/
def history (w : World) (calls : List Report) (key : BalanceKey) : List (Option Rat) :=
  balancesAt key w ++ (calls.filter fun c => c.key == key).map Report.balance

/-- What a report does after others: the latest row of its key has its balance, and a
row was added exactly if the balance differs from the one reported last. -/
structure Right (w : World) (before : List Report) (c : Report) : Prop where
  latest : (balancesAt c.key (after w (before ++ [c]))).getLast? = some c.balance
  recorded : c.Recorded (after w before) (after w (before ++ [c])) ↔
    (history w before c.key).getLast? ≠ some c.balance

/-- The row found shows no difference exactly if the balance last reported is the same. -/
def FoundAsLast (w : World) (before : List Report) (c : Report) : Prop :=
  c.Same (after w before) ↔ (history w before c.key).getLast? = some c.balance

/-- Holds of each report, with those before it. -/
def Throughout (calls : List Report) (P : List Report → Report → Prop) : Prop :=
  ∀ before c, before ++ [c] <+: calls → P before c

variable {w s : World} {before calls : List Report} {c : Report} {key : BalanceKey}

theorem throughout_concat {P : List Report → Report → Prop} :
    Throughout (calls ++ [c]) P ↔ Throughout calls P ∧ P calls c := by
  constructor
  · intro h
    refine ⟨fun before d hinit => ?_, h calls c (List.prefix_refl _)⟩
    exact h before d (hinit.trans (List.prefix_append _ _))
  · rintro ⟨h, hlast⟩ before d hinit
    rcases List.prefix_concat_iff.mp hinit with heq | hshort
    · obtain ⟨rfl, hd⟩ := List.append_inj' heq rfl
      obtain rfl := List.singleton_inj.mp hd
      exact hlast
    · exact h before d hshort

theorem throughout_nil {P : List Report → Report → Prop} : Throughout [] P := by
  intro before d hinit
  simp at hinit

theorem after_concat : after w (before ++ [c]) = c.next (after w before) := by
  simp [after]

theorem history_concat_same : history w (before ++ [c]) c.key =
    history w before c.key ++ [c.balance] := by
  simp [history]

theorem history_concat_other (h : c.key ≠ key) :
    history w (before ++ [c]) key = history w before key := by
  simp [history, h]

/-! ## One report -/

theorem not_recorded_self : ¬ c.Recorded s s := by
  rintro ⟨r, -, -, hrows⟩
  have hlength := congrArg List.length hrows
  simp at hlength

/-- A row with no difference is the one the call goes on with. -/
theorem same_iff : c.Same s ↔
    ∃ r, ((c.found s).filter fun r => difference c.balance r = some 0) = some r := by
  simp [Report.Same, Option.filter_eq_some_iff]

/-- The row that is created. -/
theorem wp_balanceUpdate (c : Report) (s : World) :
    ((prisma.addressBalanceUpdates.create (c.walletBot.balanceUpdate c.params)).bind
        fun update => done (update, true)).wp (fun _ => True) (fun _ => c.Recorded s)
      (fun _ => c.Recorded s) s := by
  rw [wp_bind]
  apply Delegate.wp_create
  · intro now t hrows _
    exact ⟨_, rfl, rfl, hrows⟩
  · rintro now ⟨r, -, -, hkey⟩
    exact absurd rfl hkey

/-- Nothing is done where the row found shows no difference, a row is added otherwise. -/
theorem next_cases (c : Report) (s : World) :
    (c.Same s ∧ c.next s = s) ∨ (¬ c.Same s ∧ c.Recorded s (c.next s)) := by
  rw [same_iff]
  unfold Report.next setAddressBalance
  simp only [bind_eq, pure_eq]
  rw [Delegate.exec_findFirst_bind]
  cases hfound : (c.found s).filter fun r => difference c.balance r = some 0 with
  | some r =>
      rw [Report.found, Report.balance] at hfound
      rw [show prisma.addressBalanceUpdates.get s = s.addressBalanceUpdates from rfl, hfound]
      exact Or.inl ⟨⟨r, rfl⟩, rfl⟩
  | none =>
      rw [Report.found, Report.balance] at hfound
      rw [show prisma.addressBalanceUpdates.get s = s.addressBalanceUpdates from rfl, hfound]
      exact Or.inr ⟨nofun, wp_exec_state (wp_balanceUpdate c s) fun _ => trivial⟩

theorem recorded_next (c : Report) (s : World) : c.Recorded s (c.next s) ↔ ¬ c.Same s := by
  rcases next_cases c s with ⟨hsame, hnext⟩ | ⟨hsame, hrecorded⟩
  · rw [hnext]
    exact iff_of_false not_recorded_self (not_not_intro hsame)
  · exact iff_of_true hrecorded hsame

/-- The balances of the report's key are those there were and its own, the others stay. -/
theorem balancesAt_recorded {t : World} (h : c.Recorded s t) (key : BalanceKey) :
    balancesAt key t = balancesAt key s ++ if c.key = key then [c.balance] else [] := by
  obtain ⟨r, hkey, hbalance, hrows⟩ := h
  unfold balancesAt Table.select
  rw [hrows, List.filter_append, List.map_append, ← hkey]
  by_cases hr : keyOf r = key
  · simp [hr, hbalance]
  · simp [hr]

/-! ## A sequence of reports -/

/-- For each key the first and the last balance in the table are those of its history. -/
def Synced (w : World) (before : List Report) : Prop := ∀ key,
  (balancesAt key (after w before)).head? = (history w before key).head? ∧
  (balancesAt key (after w before)).getLast? = (history w before key).getLast?

theorem synced_nil : Synced w [] := by
  intro key
  simp [history, after]

/-- A report that finds a row like the last one keeps them so. -/
theorem Synced.concat (h : Synced w before) (htold : FoundAsLast w before c) :
    Synced w (before ++ [c]) := by
  intro key
  obtain ⟨hhead, hlast⟩ := h key
  rw [after_concat]
  by_cases hkey : c.key = key
  · subst hkey
    rw [history_concat_same]
    rcases next_cases c (after w before) with ⟨hsame, hnext⟩ | ⟨-, hrecorded⟩
    · have hreported := htold.mp hsame
      rw [hnext, hhead, hlast, hreported]
      obtain ⟨hs, hhistory⟩ := List.getLast?_eq_some_iff.mp hreported
      simp [hhistory]
    · rw [balancesAt_recorded hrecorded, if_pos rfl]
      simp [List.head?_append, hhead]
  · rw [history_concat_other hkey]
    rcases next_cases c (after w before) with ⟨-, hnext⟩ | ⟨-, hrecorded⟩
    · rw [hnext]
      exact ⟨hhead, hlast⟩
    · rw [balancesAt_recorded hrecorded, if_neg hkey, List.append_nil]
      exact ⟨hhead, hlast⟩

/-- A report among right ones is right exactly if it finds a row like the last one. -/
theorem right_iff (h : Synced w before) : Right w before c ↔ FoundAsLast w before c := by
  have hrecorded := recorded_next c (after w before)
  rw [← after_concat] at hrecorded
  constructor
  · intro hright
    have hnot := hrecorded.symm.trans hright.recorded
    exact not_iff_not.mp hnot
  · intro htold
    refine ⟨?_, hrecorded.trans (not_congr htold)⟩
    rw [((h.concat htold) c.key).2, history_concat_same, List.getLast?_concat]

theorem throughout_synced (h : Throughout calls (FoundAsLast w)) : Synced w calls := by
  induction calls using List.reverseRecOn with
  | nil => exact synced_nil
  | append_singleton before c ih =>
      obtain ⟨hbefore, hlast⟩ := throughout_concat.mp h
      exact (ih hbefore).concat hlast

theorem right_throughout_iff : Throughout calls (Right w) ↔ Throughout calls (FoundAsLast w) := by
  induction calls using List.reverseRecOn with
  | nil => exact iff_of_true throughout_nil throughout_nil
  | append_singleton calls c ih =>
      rw [throughout_concat, throughout_concat, ih]
      exact and_congr_right fun h => right_iff (throughout_synced h)

/-! ## Where the earliest row is found -/

/-- The report names its key, and the earliest row of it is found. -/
structure Report.Earliest (c : Report) : Prop where
  chain : c.params.chain ≠ none
  currency : c.params.currency ≠ none
  address : c.params.address ≠ none
  row : (c.answers 0).row = 0

/-- The balance is the first one reported for the key exactly if it is the last one; an
undefined first one counts as zero. -/
def FirstAsLast (w : World) (before : List Report) (c : Report) : Prop :=
  (∃ first, (history w before c.key).head? = some first ∧ c.balance = some (first.getD 0)) ↔
    (history w before c.key).getLast? = some c.balance

theorem difference_eq_zero {balance : Option Rat} {r : AddressBalanceUpdate} :
    difference balance r = some 0 ↔ balance = some (r.balance.getD 0) := by
  cases balance with
  | none => simp [difference]
  | some n =>
      simp only [difference, Option.map_some, Option.some.injEq]
      grind

/-- A report that names its key looks for the rows of that key. -/
theorem matches_eq (h : c.Earliest) (r : AddressBalanceUpdate) :
    c.params.matches c.walletBot r = (keyOf r == c.key) := by
  have hchain := Option.isNone_eq_false_iff.mpr (Option.isSome_iff_ne_none.mpr h.chain)
  have hcurrency := Option.isNone_eq_false_iff.mpr (Option.isSome_iff_ne_none.mpr h.currency)
  have haddress := Option.isNone_eq_false_iff.mpr (Option.isSome_iff_ne_none.mpr h.address)
  simp only [SetAddressBalance.matches, hchain, hcurrency, haddress, Bool.false_or]
  rw [Bool.eq_iff_iff]
  simp only [keyOf, Report.key, Bool.and_eq_true, beq_iff_eq, Prod.mk.injEq]
  tauto

theorem found_eq_head (h : c.Earliest) :
    (c.found s).map AddressBalanceUpdate.balance = (balancesAt c.key s).head? := by
  have hselect : s.addressBalanceUpdates.select (c.params.matches c.walletBot) =
      s.addressBalanceUpdates.select fun r => keyOf r == c.key :=
    List.filter_congr fun r _ => matches_eq h r
  rw [Report.found, Table.pick, hselect, h.row, Nat.zero_mod, balancesAt, List.head?_map,
    List.head?_eq_getElem?]

theorem same_iff_first (h : c.Earliest) (hsynced : Synced w before) :
    c.Same (after w before) ↔
      ∃ first, (history w before c.key).head? = some first ∧ c.balance = some (first.getD 0) := by
  rw [← (hsynced c.key).1, ← found_eq_head h]
  simp only [Report.Same, difference_eq_zero, Option.map_eq_some_iff]
  constructor
  · rintro ⟨r, hfound, hbalance⟩
    exact ⟨r.balance, ⟨r, hfound, rfl⟩, hbalance⟩
  · rintro ⟨first, ⟨r, hfound, rfl⟩, hbalance⟩
    exact ⟨r, hfound, hbalance⟩

theorem told_throughout_iff (h : ∀ c ∈ calls, c.Earliest) :
    Throughout calls (FoundAsLast w) ↔ Throughout calls (FirstAsLast w) := by
  induction calls using List.reverseRecOn with
  | nil => exact iff_of_true throughout_nil throughout_nil
  | append_singleton calls c ih =>
      have hcalls : ∀ d ∈ calls, d.Earliest := fun d hd => h d (List.mem_append_left _ hd)
      have hc := h c (List.mem_append_right _ (List.mem_singleton_self c))
      rw [throughout_concat, throughout_concat, ← ih hcalls]
      refine and_congr_right fun hbefore => ?_
      exact iff_congr (same_iff_first hc (throughout_synced hbefore)) Iff.rfl

/-! ## The theorem -/

/-- Each report of a sequence does what it should exactly where at each the row found
shows no difference just when the balance is the last one reported. Where the earliest
row is found: where each balance is the first one reported just when it is the last. -/
theorem balances_iff (w : World) (calls : List Report) :
    (Throughout calls (Right w) ↔ Throughout calls (FoundAsLast w)) ∧
    ((∀ c ∈ calls, c.Earliest) →
      (Throughout calls (Right w) ↔ Throughout calls (FirstAsLast w))) :=
  ⟨right_throughout_iff, fun h => right_throughout_iff.trans (told_throughout_iff h)⟩

/-! ## A balance that comes back -/

/-- A report of the balance, which finds the earliest row. -/
def tells (balance : Rat) : Report where
  walletBot := { id := 1 }
  params := { chain := some "BSV", currency := some "BSV", address := some "1A",
              balance := some balance }
  answers _ := {}

theorem earliest_tells (balance : Rat) : (tells balance).Earliest := by
  constructor <;> first | rfl | nofun

/-- 1, then 2, then 1 again: the third report records nothing, and the latest row still
has the balance 2. -/
theorem returned_unrecorded : ¬ ∀ (w : World) (calls : List Report),
    (∀ c ∈ calls, c.Earliest) → Throughout calls (Right w) := by
  intro h
  have hright := h {} [tells 1, tells 2, tells 1] (by simp [earliest_tells])
  have hlatest := (hright [tells 1, tells 2] (tells 1) (List.prefix_refl _)).latest
  have hleft : (balancesAt (tells 1).key (after {} [tells 1, tells 2, tells 1])).getLast? =
      some (some 2) := by decide +kernel
  have hback := Option.some.inj (Option.some.inj (hleft.symm.trans hlatest))
  exact absurd hback (by decide)

/-- 1, 1 again, then 2: all three are recorded rightly. -/
theorem balances_iff_changed : Throughout [tells 1, tells 1, tells 2] (Right {}) := by
  have hhistory : history {} [] (tells 1).key = [] ∧
      history {} [tells 1] (tells 1).key = [some 1] ∧
      history {} [tells 1, tells 1] (tells 2).key = [some 1, some 1] := by decide +kernel
  refine ((balances_iff {} _).2 (by simp [earliest_tells])).mpr ?_
  rw [show [tells 1, tells 1, tells 2] = [] ++ [tells 1] ++ [tells 1] ++ [tells 2] from rfl,
    throughout_concat, throughout_concat, throughout_concat]
  refine ⟨⟨⟨throughout_nil, ?_⟩, ?_⟩, ?_⟩
  · simp [FirstAsLast, hhistory]
  · simp [FirstAsLast, hhistory]
    rfl
  · simp [FirstAsLast, hhistory]
    decide

end WalletBot

end Anypay
