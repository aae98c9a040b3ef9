/-
Anypay.BlockTheorems — what an announced block does to the stored payments.

NOTHING is confirmed by a block: no step of either way in writes the payments
table (`wp_confirmPages`, `keeps_handleMessage`). What blockcypher's way does
write is the invoice, which it sets to 'paid' for every payment it meets; on a
page without a list those are all the payments there are.

The loop over the pages looks at the tables only to throw: it ends at the first
page whose list is empty or that meets a payment whose invoice is gone
(`ended_iff`), and a page without a list is not such a page. `announced_iff` puts
the parts together: what is promised of a block holds exactly where there was
nothing to confirm.
-/
import Anypay.Blocks
import Anypay.PayTheorems

namespace Anypay

open Store Async Proc

namespace Blocks

open blockcypher blockbook

/-! ## What is promised -/

structure Block where
  hash : String
  height : Nat
  time : Time
  txids : List String

/-- The pages of a block, 500 transactions each. -/
def Truthful (block : Block) (pages : Nat → BlockPage) : Prop :=
  ∀ k, pages k =
    { txids := some ((block.txids.drop (500 * k)).take 500), time := block.time,
      height := block.height, hash := block.hash }

/-- From `w` to `t` the payments of the block that had no confirmation were
confirmed by it, their invoices paid, and nothing else happened to a payment or
to an invoice without a payment in the block. -/
structure Ingested (block : Block) (w t : World) : Prop where
  waiting : ∀ p ∈ w.payments.rows, p.confirmation_hash = none → p.txid ∈ block.txids →
    (∃ p' ∈ t.payments.rows, p'.id = p.id ∧ p'.status = .confirmed ∧
      p'.confirmation_hash = some block.hash ∧
      p'.confirmation_height = some block.height) ∧
    ∃ i ∈ t.invoices.rows, i.uid = p.invoice_uid ∧ i.status = .paid
  others : ∀ p ∈ w.payments.rows, ¬ (p.confirmation_hash = none ∧ p.txid ∈ block.txids) →
    p ∈ t.payments.rows
  invoices : ∀ i ∈ w.invoices.rows,
    (∀ p ∈ w.payments.rows, p.txid ∈ block.txids → p.invoice_uid ≠ i.uid) →
    i ∈ t.invoices.rows

variable {hash : String} {pages : Nat → BlockPage} {o : Nat → Answer} {w t u : World}

/-- The loop has come to its end, or thrown, within this many pages. -/
def Ended (hash : String) (o : Nat → Answer) (w : World) (n : Nat) : Prop :=
  ((confirmTransactionsFromBlock hash n).exec o w).1 ≠ .ok none

/-- A block is announced, both ways. -/
structure Announced (env : Env) (block : Block) (pages : Nat → BlockPage)
    (o : Nat → Answer) (w : World) : Prop where
  blockcypher : Truthful block pages → ∃ n, Ended block.hash o w n ∧
    Ingested block w ((confirmTransactionsFromBlock block.hash n).exec o w).2
  blockbook : Ingested block w
    ((handleMessage env (some ⟨block.hash, block.height⟩)).exec o w).2
  /-- The loop ends where some page is empty or comes without a list. -/
  ends : (∃ k, (pages k).txids = none ∨ (pages k).txids = some []) →
    ∃ n, Ended block.hash o w n
  /-- A page without a list confirms nothing. -/
  absent : ∀ k, (pages k).txids = none → ((confirmPage (pages k)).exec o w).2 = w

/-! ## One payment of a page -/

/-- A payment has an invoice. -/
def Invoiced (w : World) (payment : Payment) : Prop :=
  ∃ i ∈ w.invoices.rows, i.uid = payment.invoice_uid

/-- What is published for a payment whose invoice had this status. -/
def told (payment : Payment) (invoice : Invoice) : List (String × Json) :=
  ("payment.confirmed", payment.toJson) ::
    if invoice.status = .confirming then
      [("invoice.paid", Invoice.toJson { invoice with status := .paid })]
    else []

/-- From `w` to `t` a payment of this invoice went through `confirmTransaction`. -/
structure Met (payment : Payment) (invoice : Invoice) (w t : World) : Prop where
  row : invoice ∈ w.invoices.rows
  uid : invoice.uid = payment.invoice_uid
  invoices : t.invoices.rows =
    Table.patch invoice.id (fun r => { r with status := .paid }) w.invoices.rows
  payments : t.payments = w.payments
  published : t.published = w.published ++ told payment invoice
  jobs : t.jobs = w.jobs ++ [.sendWebhookForInvoice invoice.uid "confirmTransaction"]

/-- A payment with an invoice goes through; without one the call throws, after
its first publication. -/
theorem wp_confirmTransaction {A : Answer → Prop} {payment : Payment}
    {transaction : Confirmation} (hrow : payment ∈ w.payments.rows) :
    (confirmTransaction payment (some transaction)).wp A
      (fun _ t => ∃ invoice, Met payment invoice w t)
      (fun _ t => ¬ Invoiced w payment ∧ t =
        { w with published := w.published ++ [("payment.confirmed", payment.toJson)] }) w := by
  unfold confirmTransaction blockOf
  simp only [bind_eq, pure_eq, done_bind]
  rw [wp_bind]
  refine Delegate.wp_findFirstOrThrow (fun p hp hid => ?_) fun hnone => ?_
  · obtain rfl : p = payment := Table.eq_of_id hp hrow (eq_of_beq hid)
    rw [wp_bind]
    refine wp_publish ?_
    rw [wp_bind]
    refine Delegate.wp_findFirstOrThrow (fun invoice hin huid => ?_) fun hnone => ?_
    · rw [wp_bind]
      refine Delegate.wp_update (fun now tb r hr hri hrows _ => ?_) fun now te hte => ?_
      · have hpaid : { invoice with status := .paid } ∈ tb.rows := by
          rw [hrows]
          exact Table.mem_patch (f := fun r : Invoice => { r with status := .paid }) hin
        rw [wp_bind]
        refine Delegate.wp_findFirstOrThrow (fun x hx hxid => ?_) fun hnone => ?_
        · obtain rfl : x = { invoice with status := .paid } :=
            Table.eq_of_id hx hpaid (eq_of_beq hxid)
          by_cases hconfirming : invoice.status = .confirming
          · rw [if_pos hconfirming, wp_bind]
            refine wp_publish ?_
            rw [wp_bind]
            refine wp_spawn ⟨invoice, hin, eq_of_beq huid, hrows, rfl, ?_, rfl⟩
            show (w.published ++ _) ++ _ = _
            rw [told, if_pos hconfirming, List.append_assoc]
            rfl
          · rw [if_neg hconfirming, wp_bind]
            refine wp_spawn ⟨invoice, hin, eq_of_beq huid, hrows, rfl, ?_, rfl⟩
            rw [told, if_neg hconfirming]
            rfl
        · have hno := hnone _ hpaid
          simp at hno
      · exact absurd hte (Table.update?_ne_error hin rfl rfl)
    · refine ⟨?_, rfl⟩
      rintro ⟨i, hi, huid⟩
      have hno := hnone i hi
      simp [huid] at hno
  · have hno := hnone payment hrow
    simp at hno

/-! ## One page -/

/-- What blockcypher's way may do to the tables; `touched` are the invoices it
meets payments of. -/
structure Moves (touched : String → Prop) (w t : World) : Prop where
  payments : t.payments = w.payments
  names : t.names = w.names
  spared : ∀ i ∈ w.invoices.rows, ¬ touched i.uid → i ∈ t.invoices.rows
  published : w.published.length ≤ t.published.length

section Moves

variable {touched : String → Prop}

theorem Moves.refl (w : World) : Moves touched w w :=
  ⟨rfl, rfl, fun _ hi _ => hi, Nat.le_refl _⟩

theorem Moves.trans (h : Moves touched w t) (h' : Moves touched t u) : Moves touched w u :=
  ⟨h'.payments.trans h.payments, h'.names.trans h.names,
    fun i hi hn => h'.spared i (h.spared i hi hn) hn, h.published.trans h'.published⟩

theorem invoiced_iff {payment : Payment} :
    Invoiced w payment ↔ payment.invoice_uid ∈ w.names.map Prod.snd := by
  simp [Invoiced, World.names]

theorem Moves.invoiced (h : Moves touched w t) (payment : Payment) :
    Invoiced t payment ↔ Invoiced w payment := by
  rw [invoiced_iff, invoiced_iff, h.names]

/-- Something is published for every payment. -/
theorem Met.tells {payment : Payment} {invoice : Invoice} (h : Met payment invoice w t) :
    w.published.length < t.published.length := by
  rw [h.published]
  simp [told]

theorem Met.moves {payment : Payment} {invoice : Invoice} (h : Met payment invoice w t)
    (htouched : touched payment.invoice_uid) : Moves touched w t := by
  refine ⟨h.payments, World.names_patch h.invoices fun _ => ⟨rfl, rfl⟩, fun i hi hn => ?_,
    Nat.le_of_lt h.tells⟩
  rw [h.invoices]
  refine Table.mem_patch_of_ne hi fun hid => hn ?_
  rw [Table.eq_of_id hi h.row hid, h.uid]
  exact htouched

end Moves

/-- A page meets a payment whose invoice is gone. -/
def Orphaned (w : World) (txids : Option (List String)) : Prop :=
  ∃ p ∈ w.payments.rows, listed txids p = true ∧ ¬ Invoiced w p

/-- The payments of a page, one after the other: up to the first without an
invoice. -/
theorem wp_confirmAll {A : Answer → Prop} {touched : String → Prop}
    {transaction : Payment → Confirmation} (payments : List Payment)
    (hrows : ∀ p ∈ payments, p ∈ w.payments.rows)
    (htouched : ∀ p ∈ payments, touched p.invoice_uid) :
    (mapAll payments fun payment =>
        confirmTransaction payment (some (transaction payment))).wp A
      (fun _ t => Moves touched w t ∧ ∀ p ∈ payments, Invoiced w p)
      (fun _ t => Moves touched w t ∧ ∃ p ∈ payments, ¬ Invoiced w p) w := by
  induction payments generalizing w with
  | nil =>
      refine ⟨Moves.refl w, fun p hp => ?_⟩
      cases hp
  | cons p payments ih =>
      have hone := @wp_confirmTransaction w A p (transaction p) (hrows p List.mem_cons_self)
      rw [mapAll, wp_bind]
      refine wp_mono (fun _ t ht => ?_) (fun _ t ht => ?_) hone
      · obtain ⟨invoice, hmet⟩ := ht
        have hmoves := hmet.moves (htouched p List.mem_cons_self)
        have hinvoiced : Invoiced w p := ⟨invoice, hmet.row, hmet.uid⟩
        rw [wp_bind]
        refine wp_mono (fun _ v hv => ?_) (fun _ v hv => ?_)
          (ih (fun q hq => hmet.payments ▸ hrows q (List.mem_cons_of_mem _ hq))
            fun q hq => htouched q (List.mem_cons_of_mem _ hq))
        · refine ⟨hmoves.trans hv.1, fun q hq => ?_⟩
          rcases List.mem_cons.mp hq with rfl | hq
          · exact hinvoiced
          · exact (hmoves.invoiced q).mp (hv.2 q hq)
        · obtain ⟨hv, q, hq, hgone⟩ := hv
          exact ⟨hmoves.trans hv, q, List.mem_cons_of_mem _ hq,
            fun hi => hgone ((hmoves.invoiced q).mpr hi)⟩
      · obtain ⟨hgone, rfl⟩ := ht
        exact ⟨⟨rfl, rfl, fun _ hi _ => hi, by simp⟩, p, List.mem_cons_self, hgone⟩

theorem wp_confirmPage {A : Answer → Prop} {touched : String → Prop} (data : BlockPage)
    (htouched : ∀ p ∈ w.payments.rows, listed data.txids p = true → touched p.invoice_uid) :
    (confirmPage data).wp A
      (fun _ t => Moves touched w t ∧ ¬ Orphaned w data.txids)
      (fun _ t => Moves touched w t ∧ Orphaned w data.txids) w := by
  rw [confirmPage, bind_eq, wp_bind]
  refine Delegate.wp_findMany ?_
  refine wp_mono (fun _ t ht => ?_) (fun _ t ht => ?_)
    (wp_confirmAll _ (fun p hp => (Table.mem_select.mp hp).1)
      fun p hp => htouched p (Table.mem_select.mp hp).1 (Table.mem_select.mp hp).2)
  · refine ⟨ht.1, ?_⟩
    rintro ⟨p, hp, hlisted, hgone⟩
    exact hgone (ht.2 p (Table.mem_select.mpr ⟨hp, hlisted⟩))
  · obtain ⟨ht, p, hp, hgone⟩ := ht
    obtain ⟨hp, hlisted⟩ := Table.mem_select.mp hp
    exact ⟨ht, p, hp, hlisted, hgone⟩

/-- A page that meets a payment leaves a trace. -/
theorem wp_confirmPage_tells {A : Answer → Prop} {data : BlockPage} {p : Payment}
    (hp : p ∈ w.payments.rows) (hlisted : listed data.txids p = true) :
    (confirmPage data).wp A (fun _ t => w.published.length < t.published.length)
      (fun _ t => w.published.length < t.published.length) w := by
  rw [confirmPage, bind_eq, wp_bind]
  refine Delegate.wp_findMany ?_
  have hmem : p ∈ w.payments.select (listed data.txids) := Table.mem_select.mpr ⟨hp, hlisted⟩
  have hall : ∀ q ∈ w.payments.select (listed data.txids), q ∈ w.payments.rows :=
    fun q hq => (Table.mem_select.mp hq).1
  change wp A _ _ (mapAll (w.payments.select (listed data.txids)) _) w
  cases hselect : w.payments.select (listed data.txids) with
  | nil =>
      rw [hselect] at hmem
      cases hmem
  | cons q payments =>
      rw [hselect] at hall
      rw [mapAll, wp_bind]
      refine wp_mono (fun _ t ht => ?_) (fun _ t ht => ?_)
        (wp_confirmTransaction (hall q List.mem_cons_self))
      · obtain ⟨invoice, hmet⟩ := ht
        rw [wp_bind]
        have hrest := @wp_confirmAll t A (fun _ => True) (fun _ =>
          { confirmation_hash := data.hash, confirmation_height := data.height,
            confirmation_date := data.time })
          payments (fun x hx => hmet.payments ▸ hall x (List.mem_cons_of_mem _ hx))
          fun _ _ => trivial
        exact wp_mono (fun _ v hv => hmet.tells.trans_le hv.1.published)
          (fun _ v hv => hmet.tells.trans_le hv.1.published) hrest
      · obtain ⟨-, rfl⟩ := ht
        simp

/-! ## The pages -/

/-- What the pages can bring a payment to. -/
def Touched (pages : Nat → BlockPage) (w : World) (uid : String) : Prop :=
  ∃ k, ∃ p ∈ w.payments.rows, listed (pages k).txids p = true ∧ p.invoice_uid = uid

/-- A page the loop ends at. -/
def Stops (w : World) (data : BlockPage) : Prop :=
  data.txids = some [] ∨ Orphaned w data.txids

theorem Moves.orphaned {touched : String → Prop} (h : Moves touched w t)
    (txids : Option (List String)) : Orphaned t txids ↔ Orphaned w txids := by
  simp only [Orphaned, h.payments, h.invoiced]

theorem Moves.stops {touched : String → Prop} (h : Moves touched w t) (data : BlockPage) :
    Stops t data ↔ Stops w data := by
  rw [Stops, Stops, h.orphaned]

/-- Blockcypher answers with these pages, whenever it is asked. -/
def Answers (hash : String) (pages : Nat → BlockPage) (c : Answer) : Prop :=
  ∀ k, c.blockPage hash (500 * k) = .ok (pages k)

/-- What is known after a stretch of `n` pages from page `k` on: the loop has
not ended and met no page it ends at, or it has and did. -/
theorem wp_confirmPages (n k : Nat) (txids : Option (List String)) (confirmed : List Payment)
    (hmoves : Moves (Touched pages w) w t) :
    (confirmPages hash n (500 * k) txids confirmed).wp (Answers hash pages)
      (fun ended u => Moves (Touched pages w) w u ∧
        (ended = none → txids ≠ some [] ∧ ∀ j, k ≤ j → j < k + n → ¬ Stops w (pages j)) ∧
        (ended ≠ none → txids = some [] ∨ ∃ j, Stops w (pages j)))
      (fun _ u => Moves (Touched pages w) w u ∧ ∃ j, Stops w (pages j)) t := by
  induction n generalizing k txids confirmed t with
  | zero =>
      by_cases hempty : txids = some []
      · subst hempty
        exact ⟨hmoves, fun h => (nomatch h), fun _ => .inl rfl⟩
      · rw [confirmPages]
        · exact ⟨hmoves, fun _ => ⟨hempty, fun j hj hlt => absurd hlt (by omega)⟩,
            fun h => absurd rfl h⟩
        · exact hempty
  | succ n ih =>
      by_cases hempty : txids = some []
      · subst hempty
        exact ⟨hmoves, fun h => (nomatch h), fun _ => .inl rfl⟩
      · rw [confirmPages]
        · rw [bind_eq, wp_bind]
          refine wp_query_cases (fun c hc data hdata => ?_) fun c hc e he => ?_
          · obtain rfl : pages k = data := Except.ok.inj ((hc k).symm.trans hdata)
            rw [bind_eq, wp_bind]
            have htouched : ∀ p ∈ t.payments.rows, listed (pages k).txids p = true →
                Touched pages w p.invoice_uid := by
              intro p hp hlisted
              rw [hmoves.payments] at hp
              exact ⟨k, p, hp, hlisted, rfl⟩
            refine wp_mono (fun _ u hu => ?_) (fun _ u hu => ?_)
              (wp_confirmPage (pages k) htouched)
            · obtain ⟨hu, hkept⟩ := hu
              rw [hmoves.orphaned] at hkept
              refine wp_mono (fun ended v hv => ?_) (fun _ v hv => hv)
                (ih (k + 1) (pages k).txids _ (hmoves.trans hu))
              obtain ⟨hv, hnone, hsome⟩ := hv
              refine ⟨hv, fun he => ⟨hempty, fun j hj hlt => ?_⟩, fun he => .inr ?_⟩
              · obtain ⟨hlist, hlater⟩ := hnone he
                rcases Nat.eq_or_lt_of_le hj with rfl | hj
                · exact fun hstops => hstops.elim hlist hkept
                · exact hlater j hj (by omega)
              · rcases hsome he with hlist | hlater
                · exact ⟨k, .inl hlist⟩
                · exact hlater
            · exact ⟨hmoves.trans hu.1, k, .inr ((hmoves.orphaned _).mp hu.2)⟩
          · cases (hc k).symm.trans he
        · exact hempty

/-- The whole loop, as far as this many pages. -/
theorem exec_pages (hanswers : ∀ n, Answers hash pages (o n)) (n : Nat) :
    Moves (Touched pages w) w ((confirmTransactionsFromBlock hash n).exec o w).2 ∧
      (Ended hash o w n → ∃ j, Stops w (pages j)) ∧
      (¬ Ended hash o w n → ∀ j, j < n → ¬ Stops w (pages j)) := by
  have hwp : (confirmTransactionsFromBlock hash n).wp (Answers hash pages) _ _ w :=
    wp_confirmPages n 0 none [] (Moves.refl w)
  have hrun := wp_exec hwp hanswers
  unfold Ended
  cases hresult : ((confirmTransactionsFromBlock hash n).exec o w).1 with
  | error e =>
      rw [hresult] at hrun
      exact ⟨hrun.1, fun _ => hrun.2, fun h => absurd (fun he => nomatch he) h⟩
  | ok ended =>
      rw [hresult] at hrun
      obtain ⟨hmoves, hnone, hsome⟩ := hrun
      refine ⟨hmoves, fun h => ?_, fun h j hj => ?_⟩
      · have hended : ended ≠ none := fun he => h (congrArg Except.ok he)
        exact (hsome hended).resolve_left (fun he => nomatch he)
      · have hended : ended = none := by
          by_contra hne
          exact h fun he => hne (Except.ok.inj he)
        exact (hnone hended).2 j (Nat.zero_le j) (by omega)

/-- **When the loop ends.** Within some number of pages, exactly where some page
is empty or meets a payment whose invoice is gone. -/
theorem ended_iff (hanswers : ∀ n, Answers hash pages (o n)) :
    (∃ n, Ended hash o w n) ↔ ∃ k, Stops w (pages k) := by
  constructor
  · rintro ⟨n, hended⟩
    exact (exec_pages hanswers n).2.1 hended
  · rintro ⟨k, hstops⟩
    refine ⟨k + 1, ?_⟩
    by_contra hgoing
    exact (exec_pages hanswers (k + 1)).2.2 hgoing k (Nat.lt_succ_self k) hstops

/-! ## The other way in -/

/-- Nothing blockbook brings changes anything. -/
theorem keeps_handleMessage (env : Env) (message : Option BlockNotification) :
    (handleMessage env message).Keeps fun w => w := by
  cases message with
  | none => exact trivial
  | some block =>
      simp only [handleMessage]
      split
      · exact trivial
      · refine keeps_bind (keeps_ask _) fun txids => keeps_detached ?_
        refine keeps_bind keeps_query fun payments => keeps_forEach fun payment _ => ?_
        refine keeps_detached (keeps_bind ?_ fun _ => trivial)
        exact keeps_bind (keeps_ofExcept _) fun plugin => keeps_ask _

theorem exec_handleMessage (env : Env) (message : Option BlockNotification) :
    ((handleMessage env message).exec o w).2 = w :=
  wp_exec_state (A := AnyAnswer) (I := fun t => t = w)
    (wp_of_keeps (keeps_handleMessage env message) (fun _ _ h => h) fun _ _ h => h) (anyAnswer o)

/-! ## The promise -/

/-- No payment of the block waits for a confirmation. -/
def NoneWaiting (block : Block) (w : World) : Prop :=
  ∀ p ∈ w.payments.rows, p.txid ∈ block.txids → p.confirmation_hash ≠ none

/-- The payments are left as they are, so the promise holds where none waits. -/
theorem ingested_iff {block : Block} (hpayments : t.payments = w.payments)
    (hspared : ∀ i ∈ w.invoices.rows,
      (∀ p ∈ w.payments.rows, p.txid ∈ block.txids → p.invoice_uid ≠ i.uid) →
      i ∈ t.invoices.rows) : Ingested block w t ↔ NoneWaiting block w := by
  constructor
  · intro h p hp htxid hnone
    obtain ⟨⟨p', hp', hid, -, hhash, -⟩, -⟩ := h.waiting p hp hnone htxid
    rw [hpayments] at hp'
    obtain rfl := Table.eq_of_id hp' hp hid
    rw [hnone] at hhash
    cases hhash
  · intro h
    refine ⟨fun p hp hnone htxid => absurd hnone (h p hp htxid), fun p hp _ => ?_, hspared⟩
    rw [hpayments]
    exact hp

theorem Truthful.mem {block : Block} (h : Truthful block pages) {k : Nat} {p : Payment}
    (hlisted : listed (pages k).txids p = true) : p.txid ∈ block.txids := by
  rw [h k] at hlisted
  have hmem : p.txid ∈ (block.txids.drop (500 * k)).take 500 := by simpa [listed] using hlisted
  exact List.mem_of_mem_drop (List.mem_of_mem_take hmem)

/-- **What a block confirms.** However blockcypher's pages look and whatever the
tables hold: the promise about an announced block is kept exactly where no stored
payment of the block waits for a confirmation and, if some page comes without a
list, there is no payment at all and some other page is empty. -/
theorem announced_iff (env : Env) (block : Block) (pages : Nat → BlockPage)
    (o : Nat → Answer) (w : World) (hanswers : ∀ n, Answers block.hash pages (o n)) :
    Announced env block pages o w ↔
      NoneWaiting block w ∧
      ((∃ k, (pages k).txids = none) →
        w.payments.rows = [] ∧ ∃ k, (pages k).txids = some []) := by
  have hbook : Ingested block w
      ((handleMessage env (some ⟨block.hash, block.height⟩)).exec o w).2 ↔
      NoneWaiting block w := by
    rw [exec_handleMessage]
    exact ingested_iff rfl fun i hi _ => hi
  constructor
  · intro h
    refine ⟨hbook.mp h.blockbook, fun ⟨k, hk⟩ => ?_⟩
    have hnone : w.payments.rows = [] := by
      refine List.eq_nil_iff_forall_not_mem.mpr fun p hp => ?_
      have htells := wp_exec_state (@wp_confirmPage_tells w AnyAnswer (pages k) p hp
        (by rw [hk]; rfl)) (anyAnswer o)
      rw [h.absent k hk] at htells
      exact Nat.lt_irrefl _ htells
    obtain ⟨j, hstops⟩ := (ended_iff hanswers).mp (h.ends ⟨k, .inl hk⟩)
    refine ⟨hnone, j, hstops.resolve_right ?_⟩
    rintro ⟨p, hp, -⟩
    rw [hnone] at hp
    cases hp
  · rintro ⟨hwaiting, habsent⟩
    refine ⟨fun htruthful => ?_, hbook.mpr hwaiting, fun ⟨k, hk⟩ => ?_, fun k hk => ?_⟩
    · have hlast : (pages block.txids.length).txids = some [] := by
        rw [htruthful]
        simp only [Option.some.injEq]
        rw [List.drop_eq_nil_of_le (by omega), List.take_nil]
      obtain ⟨n, hended⟩ := (ended_iff hanswers).mpr ⟨_, .inl hlast⟩
      have hmoves := (exec_pages (w := w) hanswers n).1
      refine ⟨n, hended, (ingested_iff hmoves.payments fun i hi hn => ?_).mpr hwaiting⟩
      refine hmoves.spared i hi ?_
      rintro ⟨k, p, hp, hlisted, huid⟩
      exact hn p hp (htruthful.mem hlisted) huid
    · refine (ended_iff hanswers).mpr ?_
      rcases hk with hk | hk
      · obtain ⟨-, j, hj⟩ := habsent ⟨k, hk⟩
        exact ⟨j, .inl hj⟩
      · exact ⟨k, .inl hk⟩
    · have hempty := (habsent ⟨k, hk⟩).1
      have hselect : w.payments.select (listed (pages k).txids) = [] := by
        rw [Table.select, hempty, List.filter_nil]
      show ((mapAll (w.payments.select (listed (pages k).txids)) _).exec (tail o) w).2 = w
      rw [hselect]
      rfl

/-! ## A block with a payment in it -/

/-- A payment the network has not confirmed yet. -/
def sent : Payment := { id := 1, txid := "t1", currency := "BTC", invoice_uid := "inv" }

def shop : World := { payments := .single sent }

def block : Block := { hash := "b1", height := 7, time := 0, txids := ["t1"] }

/-- The block, as blockcypher pages it. -/
def blockPages (k : Nat) : BlockPage :=
  { txids := some ((block.txids.drop (500 * k)).take 500), time := block.time,
    height := block.height, hash := block.hash }

def answer : Answer :=
  { blockPage := fun _ offset => .ok (blockPages (offset / 500)) }

theorem answers : Answers block.hash blockPages answer := by
  intro k
  show Except.ok (blockPages (500 * k / 500)) = .ok (blockPages k)
  rw [Nat.mul_div_cancel_left k (by decide)]

/-- The payment stays unconfirmed. -/
theorem left_waiting :
    ¬ ∀ (env : Env) (block : Block) (pages : Nat → BlockPage) (o : Nat → Answer) (w : World),
      (∀ n, Answers block.hash pages (o n)) → Announced env block pages o w := by
  intro h
  have hbook := (h {} block blockPages (fun _ => answer) shop fun _ => answers).blockbook
  rw [exec_handleMessage] at hbook
  exact (ingested_iff rfl fun i hi _ => hi).mp hbook sent (List.mem_singleton.mpr rfl)
    (by decide) rfl

/-- The payment was confirmed before the block was announced again. -/
theorem confirmed_before :
    Announced {} block blockPages (fun _ => answer)
      { payments := .single { sent with confirmation_hash := some "b1", status := .confirmed } } := by
  refine (announced_iff {} block blockPages (fun _ => answer) _ fun _ => answers).mpr
    ⟨fun p hp _ => ?_, fun ⟨k, hk⟩ => ?_⟩
  · obtain rfl := List.mem_singleton.mp hp
    simp
  · cases hk

end Blocks

end Anypay
