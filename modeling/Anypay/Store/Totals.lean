/-
Anypay.Store.Totals — sums by key in a list of entries, and what membership
alone says about them.

A check that looks for each asked-for entry SEPARATELY shows that the entries
asked for are among the entries given. `ListedOnce.total_le` and `covered_iff`
say when that is enough for the sums: no entry of positive amount may be asked
for twice.
-/
import Mathlib.Algebra.BigOperators.Group.Finset.Piecewise
import Mathlib.Algebra.Order.BigOperators.Group.Finset
import Mathlib.Data.Rat.Defs
import Mathlib.Algebra.Order.Ring.Rat
import Mathlib.Tactic.Linarith

namespace Anypay.Store

open Finset

variable {κ : Type} [DecidableEq κ]

/-- An amount under a key. -/
structure Entry (κ : Type) where
  key : κ
  amount : ℚ
  deriving DecidableEq

/-- What an entry adds to the sum of a key. -/
def share (a : κ) (e : Entry κ) : ℚ := if e.key = a then e.amount else 0

/-- The sum of a key. -/
def total (a : κ) (l : List (Entry κ)) : ℚ := (l.map (share a)).sum

@[simp] theorem total_nil (a : κ) : total a [] = 0 := rfl

@[simp] theorem total_cons (a : κ) (e : Entry κ) (l : List (Entry κ)) :
    total a (e :: l) = share a e + total a l := by
  simp [total]

theorem share_nonneg {a : κ} {e : Entry κ} (h : 0 ≤ e.amount) : 0 ≤ share a e := by
  unfold share
  split
  · exact h
  · exact le_rfl

/-- The sum of a key over the distinct entries, each as often as it is there. -/
theorem total_eq_sum (a : κ) (l : List (Entry κ)) :
    total a l = ∑ e ∈ l.toFinset, l.count e • share a e := by
  rw [total, sum_list_map_count]

theorem total_dedup (a : κ) (l : List (Entry κ)) :
    total a l.dedup = ∑ e ∈ l.toFinset, share a e := by
  have hsame : l.dedup.toFinset = l.toFinset := by
    ext e
    simp
  rw [total_eq_sum, hsame]
  refine sum_congr rfl fun e he => ?_
  have hmem : e ∈ l := by simpa using he
  rw [List.count_dedup, if_pos hmem, one_nsmul]

/-- Once or more often adds at least once. -/
theorem share_le_count {a : κ} {l : List (Entry κ)} {e : Entry κ} (he : e ∈ l)
    (hpos : 0 ≤ e.amount) : share a e ≤ l.count e • share a e := by
  have hcount : 1 ≤ l.count e := List.count_pos_iff.mpr he
  calc share a e = 1 • share a e := (one_nsmul _).symm
    _ ≤ l.count e • share a e := nsmul_le_nsmul_left (share_nonneg hpos) hcount

/-- Nothing of positive amount is listed twice. -/
def ListedOnce (l : List (Entry κ)) : Prop := ∀ e ∈ l, 0 < e.amount → l.count e = 1

theorem ListedOnce.total_eq {l : List (Entry κ)} (h : ListedOnce l) (hpos : ∀ e ∈ l, 0 ≤ e.amount)
    (a : κ) : total a l = total a l.dedup := by
  rw [total_eq_sum, total_dedup]
  refine sum_congr rfl fun e he => ?_
  have hmem : e ∈ l := by simpa using he
  rcases (hpos e hmem).lt_or_eq with hlt | heq
  · rw [h e hmem hlt, one_nsmul]
  · simp [share, ← heq]

theorem total_dedup_le {l : List (Entry κ)} (hpos : ∀ e ∈ l, 0 ≤ e.amount) (a : κ) :
    total a l.dedup ≤ total a l := by
  rw [total_eq_sum a l, total_dedup]
  exact sum_le_sum fun e he =>
    share_le_count (by simpa using he) (hpos e (by simpa using he))

/-- A key that no entry has. -/
theorem total_eq_zero {a : κ} {l : List (Entry κ)} (h : ∀ e ∈ l, e.key ≠ a) :
    total a l = 0 := by
  induction l with
  | nil => rfl
  | cons e l ih =>
      rw [total_cons, ih fun x hx => h x (List.mem_cons_of_mem _ hx), share,
        if_neg (h e (List.mem_cons_self ..)), add_zero]

theorem total_nonneg {l : List (Entry κ)} (hpos : ∀ e ∈ l, 0 ≤ e.amount) (a : κ) :
    0 ≤ total a l := by
  induction l with
  | nil => exact le_rfl
  | cons e l ih =>
      rw [total_cons]
      exact add_nonneg (share_nonneg (hpos e (List.mem_cons_self ..)))
        (ih fun x hx => hpos x (List.mem_cons_of_mem _ hx))

/-- Entries that are all among others sum up to no more, listed once. -/
theorem ListedOnce.total_le {l outs : List (Entry κ)} (h : ListedOnce l)
    (hpos : ∀ e ∈ l, 0 ≤ e.amount) (houts : ∀ e ∈ outs, 0 ≤ e.amount) (hsub : l ⊆ outs) (a : κ) :
    total a l ≤ total a outs := by
  have hle : total a l.dedup ≤ total a outs.dedup := by
    rw [total_dedup, total_dedup]
    refine sum_le_sum_of_subset_of_nonneg (fun e he => ?_) fun e he _ => ?_
    · simpa using hsub (by simpa using he)
    · exact share_nonneg (houts e (by simpa using he))
  rw [h.total_eq hpos]
  exact hle.trans (total_dedup_le houts a)

/-- If listing each entry once sums up to as much for every key, nothing of
positive amount is listed twice. -/
theorem listedOnce_of_total {l : List (Entry κ)} (hpos : ∀ e ∈ l, 0 ≤ e.amount)
    (h : ∀ a, total a l ≤ total a l.dedup) : ListedOnce l := by
  intro e he hlt
  have heq : ∑ x ∈ l.toFinset, share e.key x = ∑ x ∈ l.toFinset, l.count x • share e.key x := by
    refine le_antisymm (sum_le_sum fun x hx => ?_) ?_
    · have hmem : x ∈ l := by simpa using hx
      exact share_le_count hmem (hpos x hmem)
    · rw [← total_eq_sum, ← total_dedup]
      exact h e.key
  have hle : ∀ x ∈ l.toFinset, share e.key x ≤ l.count x • share e.key x := fun x hx =>
    have hmem : x ∈ l := by simpa using hx
    share_le_count hmem (hpos x hmem)
  have hshare := (sum_eq_sum_iff_of_le hle).mp heq e (by simpa using he)
  rw [share, if_pos rfl, nsmul_eq_mul] at hshare
  have hone : (l.count e : ℚ) = 1 := by
    have := mul_right_cancel₀ hlt.ne' ((one_mul e.amount).trans hshare)
    exact this.symm
  exact_mod_cast hone

/-- The sums of all keys of a finite set add up to the sum of the entries with
such a key. -/
theorem sum_total {S : Finset κ} {l : List (Entry κ)} (h : ∀ e ∈ l, e.key ∈ S) :
    ∑ a ∈ S, total a l = (l.map Entry.amount).sum := by
  induction l with
  | nil => simp
  | cons e l ih =>
      have hshare : ∑ a ∈ S, share a e = e.amount := by
        simp only [share]
        rw [sum_ite_eq S e.key fun _ => e.amount, if_pos (h e (List.mem_cons_self ..))]
      simp only [total_cons, sum_add_distrib, List.map_cons, List.sum_cons]
      rw [hshare, ih fun x hx => h x (List.mem_cons_of_mem _ hx)]

/-- The same amounts under other keys: sums that are never larger are equal. -/
theorem total_eq_of_le {l m : List (Entry κ)} (hsnd : l.map Entry.amount = m.map Entry.amount)
    (h : ∀ a, total a l ≤ total a m) (a : κ) : total a l = total a m := by
  let S : Finset κ := insert a ((l ++ m).map Entry.key).toFinset
  have hS : ∀ e ∈ l ++ m, e.key ∈ S := by
    intro e he
    refine mem_insert_of_mem ?_
    rw [List.mem_toFinset]
    exact List.mem_map_of_mem he
  have hsum : ∑ b ∈ S, total b l = ∑ b ∈ S, total b m := by
    rw [sum_total fun e he => hS e (List.mem_append_left _ he),
      sum_total fun e he => hS e (List.mem_append_right _ he), hsnd]
  exact (sum_eq_sum_iff_of_le fun b _ => h b).mp hsum a (mem_insert_self ..)

/-- `asked` is looked for entry by entry, and `owed` are the same amounts under
the keys they are owed to. The entries asked for, each given ONCE, cover what is
owed just where no positive entry is asked for twice and every key is asked for
what it is owed. -/
theorem covered_iff {owed asked : List (Entry κ)}
    (hamounts : owed.map Entry.amount = asked.map Entry.amount)
    (hpos : ∀ e ∈ asked, 0 ≤ e.amount) :
    (∀ a, total a owed ≤ total a asked.dedup) ↔
    ListedOnce asked ∧ ∀ a, total a owed = total a asked := by
  constructor
  · intro h
    have hself : ∀ a, total a owed = total a asked :=
      total_eq_of_le hamounts fun a => (h a).trans (total_dedup_le hpos a)
    refine ⟨listedOnce_of_total hpos fun a => ?_, hself⟩
    rw [← hself a]
    exact h a
  · intro h a
    rw [h.2 a, h.1.total_eq hpos]

end Anypay.Store
