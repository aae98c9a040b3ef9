/-
Anypay.SinglePaymentTheorems — how many payments an invoice can get.

`recordPayment` refuses a second payment of an invoice, and `submitPayment`
refuses an invoice that is not unpaid; but both look before they write, BIP70
looks at another column, and a submission may list several transactions. So
two submissions that overlap, or two transactions in one, leave an invoice with
two payments that have not failed (`two_live_payments`).

`live_le_one` is the exact boundary: as long as every submission that its own
check would let through brings at most one transaction and starts while no
other submission for its invoice is under way and no payment of it stands, no
invoice ever has two. The proof is a budget argument: such a submission starts
with the right to insert ONE payment, every other with none, and inserting uses
the right up.
-/
import Mathlib.Algebra.Order.BigOperators.Group.List
import Anypay.Async.Budget
import Anypay.PayTheorems

namespace Anypay

open Store Async Proc

/-- The payments of an invoice that have not failed. -/
def World.live (w : World) (uid : String) : Nat :=
  w.payments.rows.countP fun p => p.invoice_uid == uid && p.status != .failed

namespace SinglePayment

/-- Payment submissions, started and run in any order. -/
def submissions (_ : Calls) : Move Answer Op → Prop
  | .start op => op.pays ≠ none
  | .run _ _ => True

/-- A submission starts only where its own check refuses it anyway, or with at
most one transaction while nothing else pays the invoice and nothing has. -/
def oneAtATime (p : Calls) : Move Answer Op → Prop
  | .start op => ∃ uid, op.pays = some uid ∧
      (¬ op.Passes p.state ∨
        (op.transactionCount ≤ 1 ∧ p.Idle (fun other => other.pays = some uid) ∧
          p.state.live uid = 0))
  | .run _ _ => True

/-! ## The contract -/

/-- Nothing that was refused becomes acceptable. -/
structure Tightens (uid : String) (s t : World) : Prop where
  grows : Grows s t
  refuses : ∀ op : Op, op.pays = some uid → op.Passes t → op.Passes s

theorem Tightens.refl (uid : String) (s : World) : Tightens uid s s :=
  ⟨.refl s, fun _ _ h => h⟩

theorem Tightens.trans {uid : String} {s t u : World} (h : Tightens uid s t)
    (h' : Tightens uid t u) : Tightens uid s u :=
  ⟨h.grows.trans h'.grows, fun op hop hp => h.refuses op hop (h'.refuses op hop hp)⟩

/-- A step inserts at most what its budget allows. -/
def contract (uid : String) : Contract World Answer Nat where
  answers _ _ _ := True
  rely _ := Tightens uid
  guar g s t g' := Tightens uid s t ∧ t.live uid + g' ≤ s.live uid + g ∧ g' ≤ g
  guar_refl _ s := ⟨.refl uid s, le_refl _, le_refl _⟩
  rely_refl _ s := .refl uid s
  rely_trans h h' := h.trans h'

/-- Writing invoices cannot make a refused submission pass, if it only moves
rows away from 'unpaid' and keeps their cancelled flag. -/
theorem tightens_of_patch {uid : String} {i : Nat} {f : Invoice → Invoice} {t u : World}
    (hrows : u.invoices.rows = Table.patch i f t.invoices.rows)
    (hpay : u.payments = t.payments)
    (hf : ∀ r, (f r).id = r.id ∧ (f r).uid = r.uid ∧ (f r).cancelled = r.cancelled ∧
      ((f r).status = .unpaid → r.status = .unpaid)) : Tightens uid t u := by
  have hback : ∀ r ∈ u.invoices.rows, ∃ r₀ ∈ t.invoices.rows, r₀.uid = r.uid ∧
      r₀.cancelled = r.cancelled ∧ (r.status = .unpaid → r₀.status = .unpaid) := by
    intro r hr
    rw [hrows] at hr
    obtain ⟨r₀, hr₀, rfl⟩ := List.mem_map.mp hr
    refine ⟨r₀, hr₀, ?_⟩
    split
    · exact ⟨(hf r₀).2.1.symm, (hf r₀).2.2.1.symm, (hf r₀).2.2.2⟩
    · exact ⟨rfl, rfl, id⟩
  refine ⟨.of_invoices hrows hpay fun r => ⟨(hf r).1, (hf r).2.1⟩, fun op hop hp => ?_⟩
  cases op with
  | bip70Payment uid' code txs =>
      obtain ⟨r, hr, hu, hc⟩ := hp
      obtain ⟨r₀, hr₀, hu₀, hc₀, -⟩ := hback r hr
      exact ⟨r₀, hr₀, hu₀.trans hu, hc₀.trans hc⟩
  | recordPayment invoice details => exact fun p hp' => hp p (hpay ▸ hp')
  | submitPayment _ | jsonV2Payment _ _ _ _ | jsonPaymentRequest _ _ _ _ _
  | bip270Payment _ _ _ =>
      obtain ⟨r, hr, hu, hs⟩ := hp
      obtain ⟨r₀, hr₀, hu₀, -, hs₀⟩ := hback r hr
      exact ⟨r₀, hr₀, by rw [hu₀]; exact hu, hs₀ hs⟩
  | _ => cases hop

/-- Neither can writing payments, which keep their invoice. -/
theorem tightens_of_payments {uid : String} {t u : World} (hinv : u.invoices = t.invoices)
    (hgrows : Grows t u) : Tightens uid t u := by
  refine ⟨hgrows, fun op hop hp => ?_⟩
  cases op with
  | recordPayment invoice details =>
      intro p hp'
      obtain ⟨p', hpu, -, hu, -⟩ := hgrows.payments p hp'
      exact hu ▸ hp p' hpu
  | submitPayment _ | jsonV2Payment _ _ _ _ | jsonPaymentRequest _ _ _ _ _
  | bip270Payment _ _ _ | bip70Payment _ _ _ =>
      obtain ⟨r, hr, hrest⟩ := hp
      exact ⟨r, hinv ▸ hr, hrest⟩
  | _ => cases hop

theorem live_append {t u : World} {p : Payment} (uid : String)
    (h : u.payments.rows = t.payments.rows ++ [p]) (hs : p.status = .confirming) :
    u.live uid = t.live uid + if p.invoice_uid = uid then 1 else 0 := by
  simp only [World.live, h, List.countP_append, List.countP_singleton, hs]
  by_cases hu : p.invoice_uid = uid
  · simp [hu]
  · simp [hu]

theorem live_patch {t : World} {i : Nat} {f : Payment → Payment} {tb : Table Payment}
    (uid : String) (h : tb.rows = Table.patch i f t.payments.rows)
    (hf : ∀ p, (f p).invoice_uid = p.invoice_uid ∧ (f p).status = p.status) :
    World.live { t with payments := tb } uid = t.live uid := by
  simp only [World.live, h]
  exact Table.countP_patch fun r _ _ => by rw [(hf r).1, (hf r).2]

/-- The insert of a payment takes one from the budget of its invoice. -/
theorem guar_insert {uid uid₀ : String} {g : Nat} {t : World} {p : Payment} {tb : Table Payment}
    (hb : uid₀ = uid → 1 ≤ g) (hu : p.invoice_uid = uid₀) (hs : p.status = .confirming)
    (hrows : tb.rows = t.payments.rows ++ [p]) :
    (contract uid).guar g t { t with payments := tb } (if uid₀ = uid then g - 1 else g) := by
  have hlive := live_append (u := { t with payments := tb }) uid hrows hs
  rw [hu] at hlive
  refine ⟨?_, ?_, ?_⟩
  · exact tightens_of_payments rfl (.of_create rfl hrows)
  · by_cases hsame : uid₀ = uid
    · have hbudget := hb hsame
      simp only [if_pos hsame] at hlive ⊢
      omega
    · simp only [if_neg hsame] at hlive ⊢
      omega
  · split <;> omega

/-- A submission for `uid₀` under the contract of `uid`: before the insert it
must hold a budget if the two are one invoice. -/
def discipline (uid uid₀ : String) :
    Discipline (contract uid) uid₀ fun _ _ _ => True where
  before g _ := uid₀ = uid → 1 ≤ g
  between _ _ := True
  after _ _ := True
  silent {g s t} h := by
    simp only [World.ledger, Prod.mk.injEq] at h
    obtain ⟨hi, hp, -⟩ := h
    have htight : Tightens uid s t :=
      tightens_of_payments hi ⟨fun r hr => ⟨r, hi ▸ hr, rfl, rfl⟩, fun p hp' =>
        ⟨p, hp ▸ hp', rfl, rfl, rfl⟩⟩
    have hlive : t.live uid = s.live uid := by rw [World.live, hp, World.live]
    exact ⟨⟨htight, by rw [hlive], le_refl _⟩, htight⟩
  grows h := h.grows
  guar_grows h := h.1.grows
  before_stable h _ := h
  between_stable _ _ := trivial
  after_stable _ _ := trivial
  hash {g t} hb r _ _ h now tb hrows := by
    refine ⟨g, ⟨?_, le_refl _, le_refl _⟩, hb⟩
    exact tightens_of_patch hrows rfl fun x => ⟨rfl, rfl, rfl, id⟩
  create hb _ _ _ _ _ _ hu hs _ hrows := ⟨_, guar_insert hb hu hs hrows, trivial⟩
  settle {g t} _ r _ _ option transaction txid status f tb ss _ hf _ hrows _ := by
    refine ⟨g, ⟨?_, le_refl _, le_refl _⟩, trivial⟩
    refine tightens_of_patch hrows rfl fun x => ⟨(hf x).id, (hf x).uid, (hf x).cancelled, ?_⟩
    intro hunpaid
    rw [(hf x).status_eq] at hunpaid
    rcases (hf x).pays with h | h <;> rw [h] at hunpaid <;> cases hunpaid
  wallet {g t} _ i w tb hrows := by
    refine ⟨g, ⟨tightens_of_payments rfl (.of_payments rfl hrows fun _ => ⟨rfl, rfl, rfl⟩), ?_,
      le_refl _⟩, trivial⟩
    exact (congrArg (· + g) (live_patch uid hrows fun _ => ⟨rfl, rfl⟩)).le

theorem thrifty (uid : String) :
    Pool.Thrifty (contract uid) (fun w => w.live uid) 1 fun _ => True where
  spend h := h.2.1
  le h := h.2.2
  rely _ h := h.1
  keep _ _ _ := trivial

/-- Whatever is submitted, a call keeps the contract with the budget it starts
with. -/
theorem meets_start (env : Env) (uid : String) {p : Calls} {op : Op}
    (h : oneAtATime p (.start op)) : ∃ g,
      (program env op).Meets (contract uid) (fun _ _ _ => True) (fun _ _ _ => True) g
        p.state ∧
      (g ≠ 0 → op.pays = some uid ∧ (program env op).running = true ∧
        p.Idle (fun other => other.pays = some uid) ∧ p.state.live uid + g ≤ 1) := by
  obtain ⟨uid₀, hpays, hcase⟩ := h
  have hanything := op.stores_anything env
  by_cases hsame : uid₀ = uid
  · subst hsame
    rcases hcase with hrefused | ⟨hcount, hidle, hlive⟩
    · refine ⟨0, ?_, fun h => absurd rfl h⟩
      exact (discipline uid₀ uid₀).meets_refused env hpays fun t hst hp =>
        hrefused (hst.refuses op hpays hp)
    · cases hrun : (program env op).running with
      | false => exact ⟨0, meets_of_ended hrun _ _, fun h => absurd rfl h⟩
      | true =>
          refine ⟨1, ?_, fun _ => ⟨hpays, rfl, hidle, by omega⟩⟩
          exact (discipline uid₀ uid₀).meets_program env hpays hanything (.inl hcount)
            fun _ _ _ _ => le_refl 1
  · refine ⟨0, ?_, fun h => absurd rfl h⟩
    exact (discipline uid uid₀).meets_program env hpays hanything
      (.inr fun _ h => absurd h hsame) fun _ _ _ h => absurd h hsame

/-- **One payment at a time.** If every submission that its own check lets
through brings at most one transaction, and starts while nothing else pays that
invoice and no payment of it stands, then no invoice ever has two payments that
have not failed. -/
theorem live_le_one (env : Env) (w : World) (hw : ∀ uid, w.live uid ≤ 1) (p : Calls)
    (h : Pool.Reaches (program env) oneAtATime (Pool.init w) p) (uid : String) :
    p.state.live uid ≤ 1 :=
  (Pool.budget_reaches (thrifty uid) (fun _ _ hm _ => meets_start env uid hm)
    (fun _ _ _ _ _ => trivial) (hw uid) trivial h).1

/-! ## One invoice, paid twice -/

/-- A server that takes BTC. -/
def shop : Env := { plugins := [("BTC", { currency := "BTC", chain := "BTC", decimals := 8 })] }

/-- One unpaid invoice that can be paid in BTC. -/
def quoted : World :=
  { invoices := .single { id := 1, uid := "inv", status := .unpaid },
    paymentOptions := .single
      { id := 1, invoice_uid := "inv", currency := "BTC", chain := "BTC" } }

/-- A JSON v2 payment of that invoice with one transaction. -/
def pay (txid : String) : Op :=
  .jsonV2Payment "inv" "BTC" (some "BTC") [{ txhex := "0100", txid := some txid }]

/-- The next `n` steps of call `i`, all going well. -/
def steps (i n : Nat) : List (Move Answer Op) := Pool.steps i n {}

theorem admitted_steps (env : Env) (admits : Calls → Move Answer Op → Prop)
    (h : ∀ p i c, admits p (.run i c)) (i n : Nat) (p : Calls) :
    Pool.Admitted (program env) admits (steps i n) p :=
  Pool.admitted_steps h i n _ p

/-- Both clients are past the status check before either has written. -/
def overlapping : List (Move Answer Op) :=
  .start (pay "t1") :: .start (pay "t2") ::
    (steps 0 3 ++ (steps 1 3 ++ (steps 0 5 ++ steps 1 5)))

/-- Both submissions go through. -/
theorem two_live_payments :
    ¬ ∀ (env : Env) (w : World) (p : Calls), (∀ uid, w.live uid ≤ 1) →
      Pool.Reaches (program env) submissions (Pool.init w) p → ∀ uid, p.state.live uid ≤ 1 := by
  intro h
  have hsteps := admitted_steps shop submissions fun _ _ _ => trivial
  have hadm : Pool.Admitted (program shop) submissions overlapping (Pool.init quoted) := by
    refine ⟨nofun, fun _ _ => ⟨nofun, fun _ _ => ?_⟩⟩
    exact (hsteps 0 3 _).append fun _ _ => (hsteps 1 3 _).append fun _ _ =>
      (hsteps 0 5 _).append fun _ _ => hsteps 1 5 _
  obtain ⟨p, hreach, htwo⟩ := Pool.exists_reaches (fun p => p.state.live "inv" == 2) hadm
    (by decide +kernel)
  have hone := h shop quoted p (fun _ => Nat.zero_le 1) hreach "inv"
  rw [beq_iff_eq] at htwo
  omega

/-- One of them alone pays the invoice once. -/
theorem live_le_one_alone : ∃ p : Calls,
    Pool.Reaches (program shop) oneAtATime (Pool.init quoted) p ∧
      p.state.live "inv" = 1 ∧ ∀ uid, p.state.live uid ≤ 1 := by
  have hadm : Pool.Admitted (program shop) oneAtATime (.start (pay "t1") :: steps 0 8)
      (Pool.init quoted) := by
    refine ⟨⟨"inv", rfl, .inr ⟨by decide, fun _ h => (nomatch h), by decide⟩⟩, fun q _ => ?_⟩
    exact admitted_steps shop oneAtATime (fun _ _ _ => trivial) 0 8 q
  obtain ⟨p, hreach, hlive⟩ := Pool.exists_reaches (fun p => p.state.live "inv" == 1) hadm
    (by decide +kernel)
  rw [beq_iff_eq] at hlive
  exact ⟨p, hreach, hlive, live_le_one shop quoted (fun _ => Nat.zero_le 1) p hreach⟩

end SinglePayment

end Anypay
