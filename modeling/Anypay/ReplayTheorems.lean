/-
Anypay.ReplayTheorems — one transaction, two invoices.

What keeps a transaction from paying twice is the unique column `invoices.hash`, and a
client has much to say about what is written there: its own `txid`, or the hash it spells
as it likes. `replayed` pays two invoices with one transfer, by its hash in two spellings.

`settled_apart` is what it takes for the column to do its work. Every id that is stored
for a transaction has to be the one spelling of that transaction; a submission may bring
one transaction only, because the next one overwrites the hash; and it must find the
invoice unpaid, with no other submission for it under way, because that overwrites the
hash as well. The proof is a budget argument: a submission starts with the right to settle
its invoice ONCE, every other with none, and while the right lasts the invoice was not
settled. So no settled invoice loses its hash (`Stamped`).
-/
import Anypay.IdTheorems
import Anypay.SinglePaymentTheorems

namespace Anypay.Replay

open Store Async Proc
open Ids (kindOf idOf)
open SinglePayment (Tightens tightens_of_patch tightens_of_payments)

section Ids

variable (libraries : ChainLibraries) (ids : String → String → Option String)

/-! ## Transactions -/

/-- The id of the transaction on its chain: what the chain's library makes of a signed
one, and a hash as the nodes write it. -/
def onChain (currency chain : String) (transaction : Transaction) : Option String :=
  (kindOf currency chain).bind (idOf libraries ids transaction)

/-- No transaction has brought two invoices to 'confirming' or 'paid'. -/
def Apart (w : World) : Prop :=
  ∀ x ∈ w.settlements, ∀ y ∈ w.settlements, x.invoice ≠ y.invoice → ∀ id,
    onChain libraries ids x.currency x.chain x.transaction = some id →
      onChain libraries ids y.currency y.chain y.transaction ≠ some id

variable (spelled : String → String)

/-- A transaction is stored under the one spelling of its id. -/
def SpelledOut (option : PaymentOption) (transaction : Transaction) (txid : String) : Prop :=
  ∀ id, onChain libraries ids option.currency option.chain transaction = some id →
    txid = spelled id

/-- Payment submissions, started and run in any order; the nodes know a transaction by its
hash in either case. -/
def submissions (_ : Calls) : Move Answer Op → Prop
  | .start op => op.pays ≠ none
  | .run _ c => ∀ chain hash hash', toLowerCase hash = toLowerCase hash' →
      c.chainTransaction chain hash = c.chainTransaction chain hash'

/-- The invoice a call may settle: `recordPayment` only writes a payment. -/
def settles : Op → Option String
  | .recordPayment _ _ => none
  | op => op.pays

/-- A submission that could settle an invoice starts only where its own check refuses it
anyway, or with at most one transaction, stored under its one spelling, while nothing else
may settle the invoice and it is neither confirming nor paid. -/
def oneSpelling (env : Env) (p : Calls) : Move Answer Op → Prop
  | .start op => op.pays ≠ none ∧ ∀ uid, settles op = some uid →
      ¬ op.Passes p.state ∨
        (op.transactionCount ≤ 1 ∧ op.Stores env (SpelledOut libraries ids spelled) ∧
          p.Idle (fun other => settles other = some uid) ∧
          ∀ r ∈ p.state.invoices.rows, r.uid = uid → r.status ≠ .confirming ∧ r.status ≠ .paid)
  | .run _ _ => True

/-! ## The contract -/

/-- How often invoices of the uid were settled. -/
def settled (uid : String) (w : World) : Nat := w.settlements.countP fun x => x.uid == uid

/-- What settled an invoice is still its hash. -/
def Stamped (uid : String) (w : World) : Prop :=
  ∀ x ∈ w.settlements, x.uid = uid → ∃ r ∈ w.invoices.rows, r.id = x.invoice ∧ r.uid = uid ∧
    (r.status = .confirming ∨ r.status = .paid) ∧
      ∀ id, onChain libraries ids x.currency x.chain x.transaction = some id →
        r.hash = some (spelled id)

/-- A step settles at most as often as its budget allows. -/
def contract (uid : String) : Contract World Answer Nat where
  answers _ _ _ := True
  rely _ := Tightens uid
  guar g s t g' := Tightens uid s t ∧ settled uid t + g' ≤ settled uid s + g ∧ g' ≤ g ∧
    (settled uid s + g ≤ 1 → Stamped libraries ids spelled uid s →
      Stamped libraries ids spelled uid t)
  guar_refl _ s := ⟨.refl uid s, le_refl _, le_refl _, fun _ h => h⟩
  rely_refl := (SinglePayment.contract uid).rely_refl
  rely_trans {g _ _ _} h h' := (SinglePayment.contract uid).rely_trans (g := g) h h'

variable {libraries ids spelled} {uid uid₀ : String} {s t : World}

theorem stamped_of_settled (h : settled uid s = 0) : Stamped libraries ids spelled uid s := by
  intro x hx hu
  have hno := List.countP_eq_zero.mp h x hx
  simp [hu] at hno

theorem Stamped.settled_eq (h : Stamped libraries ids spelled uid s)
    (hopen : ∀ r ∈ s.invoices.rows, r.uid = uid → r.status ≠ .confirming ∧ r.status ≠ .paid) :
    settled uid s = 0 := by
  refine List.countP_eq_zero.mpr fun x hx hu => ?_
  obtain ⟨r, hr, -, hru, hstatus, -⟩ := h x hx (by simpa using hu)
  obtain ⟨hconfirming, hpaid⟩ := hopen r hr hru
  rcases hstatus with hstatus | hstatus
  · exact hconfirming hstatus
  · exact hpaid hstatus

/-- Invoices of another uid were written. -/
theorem Stamped.of_patch {row : Invoice} {f : Invoice → Invoice}
    (h : Stamped libraries ids spelled uid s) (hrow : row ∈ s.invoices.rows)
    (hne : row.uid ≠ uid) (hrows : t.invoices.rows = Table.patch row.id f s.invoices.rows)
    (hsettlements : ∀ x ∈ t.settlements, x.uid = uid → x ∈ s.settlements) :
    Stamped libraries ids spelled uid t := by
  intro x hx hu
  obtain ⟨r, hr, hid, hru, hrest⟩ := h x (hsettlements x hx hu) hu
  refine ⟨r, ?_, hid, hru, hrest⟩
  rw [hrows]
  refine Table.mem_patch_of_ne hr fun hsame => hne ?_
  rw [show row = r from (Table.eq_of_id hr hrow hsame).symm, hru]

theorem Stamped.of_same (h : Stamped libraries ids spelled uid s)
    (hinvoices : t.invoices = s.invoices) (hsettlements : t.settlements = s.settlements) :
    Stamped libraries ids spelled uid t := by
  rw [Stamped, hinvoices, hsettlements]
  exact h

theorem settled_append {x : Settlement} (h : t.settlements = s.settlements ++ [x]) :
    settled uid t = settled uid s + if x.uid = uid then 1 else 0 := by
  simp only [settled, h, List.countP_append, List.countP_singleton, beq_iff_eq]

/-- A submission for `uid₀` under the contract of `uid`: if the two are one, it must hold
a budget until it has settled the invoice, and spell its ids out. -/
def discipline (libraries : ChainLibraries) (ids : String → String → Option String)
    (spelled : String → String) (uid uid₀ : String)
    {Stored : PaymentOption → Transaction → String → Prop}
    (hstored : uid₀ = uid → ∀ option transaction txid, Stored option transaction txid →
      SpelledOut libraries ids spelled option transaction txid) :
    Discipline (contract libraries ids spelled uid) uid₀ Stored where
  before g _ := uid₀ = uid → 1 ≤ g
  between g _ := uid₀ = uid → 1 ≤ g
  after _ _ := True
  silent {g s t} h := by
    simp only [World.ledger, Prod.mk.injEq] at h
    obtain ⟨hinvoices, hpayments, hsettlements⟩ := h
    have htight : Tightens uid s t :=
      tightens_of_payments hinvoices ⟨fun r hr => ⟨r, hinvoices ▸ hr, rfl, rfl⟩, fun p hp =>
        ⟨p, hpayments ▸ hp, rfl, rfl, rfl⟩⟩
    refine ⟨⟨htight, ?_, le_refl _, fun _ hs => hs.of_same hinvoices hsettlements⟩, htight⟩
    rw [settled, hsettlements, settled]
  grows h := h.grows
  guar_grows h := h.1.grows
  before_stable h _ := h
  between_stable h _ := h
  after_stable _ _ := trivial
  hash {g t} hb r hr hu h now tb hrows := by
    refine ⟨g, ⟨?_, le_refl _, le_refl _, fun hlimit hs => ?_⟩, hb⟩
    · exact tightens_of_patch hrows rfl fun x => ⟨rfl, rfl, rfl, id⟩
    · -- who still may settle the invoice knows that nobody has
      by_cases hsame : uid₀ = uid
      · have hbudget := hb hsame
        have hnever : settled uid t = 0 := by omega
        exact stamped_of_settled hnever
      · exact hs.of_patch hr (fun hru => hsame (hu.symm.trans hru)) hrows fun _ hx _ => hx
  create {g t} hb option _ p tb _ _ _ _ _ hrows := by
    refine ⟨g, ⟨tightens_of_payments rfl (.of_create rfl hrows), le_refl _, le_refl _,
      fun _ hs => hs.of_same rfl rfl⟩, hb⟩
  settle {g t} hb r hr hu option transaction txid status f tb ss hid hf _ hrows hss := by
    have hcount := @settled_append uid t { t with invoices := tb, settlements := ss } _ hss
    refine ⟨if uid₀ = uid then g - 1 else g, ⟨?_, ?_, ?_, fun hlimit hs => ?_⟩, trivial⟩
    · refine tightens_of_patch hrows rfl fun x =>
        ⟨(hf x).id, (hf x).uid, (hf x).cancelled, fun hunpaid => ?_⟩
      rw [(hf x).status_eq] at hunpaid
      rcases (hf x).pays with h | h <;> rw [h] at hunpaid <;> cases hunpaid
    · by_cases hsame : uid₀ = uid
      · have hbudget := hb hsame
        simp only [if_pos hsame] at hcount ⊢
        omega
      · simp only [if_neg hsame] at hcount ⊢
        omega
    · split <;> omega
    · by_cases hsame : uid₀ = uid
      · -- the first settlement of the uid, and its hash is the one just written
        have hbudget := hb hsame
        have hnever : settled uid t = 0 := by omega
        intro x hx hxu
        change x ∈ ss at hx
        rw [hss] at hx
        rcases List.mem_append.mp hx with hold | hnew
        · have hno := List.countP_eq_zero.mp hnever x hold
          simp [hxu] at hno
        · obtain rfl := List.mem_singleton.mp hnew
          refine ⟨f r, ?_, (hf r).id, (hf r).uid.trans (hu.trans hsame), ?_,
            fun id honchain => ?_⟩
          · change f r ∈ tb.rows
            rw [hrows]
            exact Table.mem_patch hr
          · rw [(hf r).status_eq]
            exact (hf r).pays
          · rw [(hf r).hash, hstored hsame option transaction txid hid id honchain]
      · refine hs.of_patch hr (fun hru => hsame (hu.symm.trans hru)) hrows fun x hx hxu => ?_
        change x ∈ ss at hx
        rw [hss] at hx
        rcases List.mem_append.mp hx with hold | hnew
        · exact hold
        · obtain rfl := List.mem_singleton.mp hnew
          exact absurd hxu hsame
  wallet {g t} _ i w tb hrows := by
    refine ⟨g, ⟨tightens_of_payments rfl (.of_payments rfl hrows fun _ => ⟨rfl, rfl, rfl⟩),
      le_refl _, le_refl _, fun _ hs => hs.of_same rfl rfl⟩, trivial⟩

theorem thrifty (libraries : ChainLibraries) (ids : String → String → Option String)
    (spelled : String → String) (uid : String) :
    Pool.Thrifty (contract libraries ids spelled uid) (settled uid) 1
      (Stamped libraries ids spelled uid) where
  spend h := h.2.1
  le h := h.2.2.1
  rely _ h := h.1
  keep h := h.2.2.2

/-- A payment that is only recorded needs no budget. -/
theorem meets_recordPayment (invoice : Invoice) (details : PaymentDetails) {g : Nat} :
    (recordPayment invoice details).Meets (contract libraries ids spelled uid) Anyhow Anyhow
      g s := by
  unfold recordPayment getPayment
  simp only [bind_eq]
  refine Delegate.meets_findFirst_bind (fun _ _ _ _ _ => fun _ _ => trivial) fun t _ _ => ?_
  refine Delegate.meets_findFirstOrThrow_bind (fun u _ option _ _ => ?_) fun _ _ _ _ _ => trivial
  rw [← Proc.bind_done (prisma.payments.create _ _)]
  refine Delegate.meets_create_bind (fun v _ now tb hrows => ?_) fun _ _ => trivial
  exact ⟨g, ⟨tightens_of_payments rfl (.of_create rfl hrows), le_refl _, le_refl _,
    fun _ hs => hs.of_same rfl rfl⟩, fun _ _ => trivial⟩

/-- Whatever is submitted, a call keeps the contract with the budget it starts with. -/
theorem meets_start (env : Env) (uid : String) {p : Calls} {op : Op}
    (h : oneSpelling libraries ids spelled env p (.start op))
    (hstamped : Stamped libraries ids spelled uid p.state) : ∃ g,
      (program env op).Meets (contract libraries ids spelled uid) (fun _ _ _ => True)
        (fun _ _ _ => True) g p.state ∧
      (g ≠ 0 → settles op = some uid ∧ (program env op).running = true ∧
        p.Idle (fun other => settles other = some uid) ∧ settled uid p.state + g ≤ 1) := by
  obtain ⟨hpays, hstart⟩ := h
  by_cases hrecord : ∃ invoice details, op = .recordPayment invoice details
  · obtain ⟨invoice, details, rfl⟩ := hrecord
    exact ⟨0, meets_discard (meets_recordPayment invoice details), fun hne => absurd rfl hne⟩
  obtain ⟨uid₀, hpays⟩ := Option.ne_none_iff_exists'.mp hpays
  have hsettles : settles op = some uid₀ := by
    cases op with
    | recordPayment invoice details => exact absurd ⟨invoice, details, rfl⟩ hrecord
    | _ => exact hpays
  -- whatever is stored for another invoice
  have hother : uid₀ ≠ uid → (program env op).Meets (contract libraries ids spelled uid)
      (fun _ _ _ => True) (fun _ _ _ => True) 0 p.state := by
    intro hne
    exact (@discipline libraries ids spelled uid uid₀ (fun _ _ _ => True) fun hsame =>
      absurd hsame hne).meets_program env hpays (op.stores_anything env)
        (.inr fun _ hsame => absurd hsame hne) fun _ _ _ hsame => absurd hsame hne
  rcases hstart uid₀ hsettles with hrefused | ⟨hcount, hstored, hidle, hopen⟩
  · refine ⟨0, ?_, fun hne => absurd rfl hne⟩
    by_cases hsame : uid₀ = uid
    · subst hsame
      exact (discipline libraries ids spelled uid₀ uid₀ fun _ _ _ _ h => h).meets_refused env
        hpays fun t hst hp => hrefused (hst.refuses op hpays hp)
    · exact hother hsame
  · by_cases hsame : uid₀ = uid
    · subst hsame
      have hnever := hstamped.settled_eq hopen
      cases hrun : (program env op).running with
      | false => exact ⟨0, meets_of_ended hrun _ _, fun hne => absurd rfl hne⟩
      | true =>
          refine ⟨1, ?_, fun _ => ⟨hsettles, rfl, hidle, by omega⟩⟩
          exact (discipline libraries ids spelled uid₀ uid₀ fun _ _ _ _ h => h).meets_program env
            hpays hstored (.inl hcount) fun _ _ _ _ => le_refl 1
    · exact ⟨0, hother hsame, fun hne => absurd rfl hne⟩

end Ids

/-! ## The main result -/

/-- No text reads as a signed transaction. -/
def unsigned : ChainLibraries := {}

def shop : Env := { plugins := plugins unsigned }

/-- Digits with zeros in front. -/
def padded (n : Nat) (digits : List Char) : List Char :=
  List.replicate (n - digits.length) '0' ++ digits

def hash (digits : List Char) : String := String.ofList ('0' :: 'x' :: padded 64 digits)

/-- A hash, the same one in capital letters, and another. -/
def small : String := hash ['a', 'b']
def capital : String := hash ['A', 'B']
def other : String := hash ['c', 'd']

example : toLowerCase capital = small := by decide +kernel

theorem hex_padded {n : Nat} {digits : List Char}
    (h : ∀ c ∈ digits, (digitIn 16 c).isSome = true) :
    ∀ c ∈ padded n digits, (digitIn 16 c).isSome = true := by
  intro c hc
  rcases List.mem_append.mp hc with hzero | hdigit
  · rw [List.eq_of_mem_replicate hzero]
    decide
  · exact h c hdigit

/-- `transfer(0x5a, 1000000)`, one USDC. -/
def transfer : Calldata where
  text := String.ofList ('0' :: 'x' :: (['a', '9', '0', '5', '9', 'c', 'b', 'b'] ++
    padded 64 ['5', 'a'] ++ padded 64 ['f', '4', '2', '4', '0']))
  hex := by
    rw [String.toList_ofList]
    show ∀ c ∈ _ ++ _ ++ _, _
    simp only [List.forall_mem_append]
    exact ⟨⟨List.all_eq_true.mp (by decide), hex_padded (List.all_eq_true.mp (by decide))⟩,
      hex_padded (List.all_eq_true.mp (by decide))⟩

/-- A node that knows every hash, in either case, as that of the transfer. -/
def node : Answer where
  chainTransaction := fun _ hash =>
    some { hash := toLowerCase hash, to_ := USDC_MATIC.token, input := transfer }

def optionFor (id : Nat) (uid : String) : PaymentOption where
  id := id
  invoice_uid := uid
  currency := "USDC"
  chain := "MATIC"
  outputs := some [{
    address := String.ofList ('0' :: 'x' :: padded 40 ['5', 'a']), amount := some 1000000 }]

/-- Two unpaid invoices of one USDC. -/
def tables : World where
  invoices := .pair { id := 1, uid := "a", status := .unpaid }
    { id := 2, uid := "b", status := .unpaid } (by decide) (by decide)
  paymentOptions := .pair (optionFor 1 "a") (optionFor 2 "b") (by decide) (by decide)

/-- A payment by the hash of a transaction. -/
def pay (uid hash : String) : Op :=
  .submitPayment
    { currency := "USDC", chain := some "MATIC", invoice_uid := uid,
      transactions := [{ txhex := hash }] }

/-- One invoice is paid, then the other. -/
def bothPaid (hash hash' : String) : List (Move Answer Op) :=
  (.start (pay "a" hash) :: Pool.steps 0 10 node) ++
    (.start (pay "b" hash') :: Pool.steps 1 10 node)

/-- Which invoice was settled by which transaction. -/
def settledBy (p : Calls) : List (Nat × Option String) :=
  p.state.settlements.map fun x =>
    (x.invoice, onChain unsigned (fun _ _ => none) x.currency x.chain x.transaction)

/-- A hash as the nodes write it is stored under its one spelling. -/
theorem pay_stores (uid : String) {hash : String} (hlength : hash.length = 66)
    (hlower : toLowerCase hash = hash) :
    (pay uid hash).Stores shop (SpelledOut unsigned (fun _ _ => none) id) := by
  intro option transaction transaction' txid _ hcurrency hchain hmem hbroadcast hpays own honchain
  obtain rfl := List.mem_singleton.mp hmem
  replace hchain : option.chain = "MATIC" := hchain
  have hkind : kindOf "USDC" "MATIC" = some (.evm USDC_MATIC) := rfl
  rcases hbroadcast with rfl | ⟨hxrp, -⟩
  swap
  · rw [hchain] at hxrp
    exact absurd hxrp (by decide)
  have hid : toLowerCase hash = own := by
    simpa [onChain, hcurrency, hchain, hkind, idOf, unsigned, orElse, USDC_MATIC] using honchain
  have htxid : txid = hash := by
    simpa [PaysUnder, StoredId, hcurrency, hlength, nonEmpty] using hpays
  exact htxid.trans (hlower.symm.trans hid)

/-- Nothing is under way for the second invoice, and it is open. -/
def ready (p : Calls) : Bool :=
  (p.threads.all fun th => settles th.1 != some "b") &&
    p.state.invoices.rows.all fun r => r.uid != "b" || r.status == .unpaid

example : ready (Pool.init tables) = true := by decide +kernel

/-- No call, no settlement. -/
example : settledBy (Pool.init tables) = [] := by decide +kernel

end Anypay.Replay
