/-
Anypay.RepeatedRefreshTheorems — refreshing an invoice again, and at the same time.

While prices do not change, what a refresh writes is said by the world it starts in:
`plan` lists it, the outputs for one option row after the other and then the expiry, up
to the option whose amount cannot be converted. Another refresh has the same plan
(`plan_congr`), because it only reads what no refresh writes. Two options of one currency
and chain are written to one row, the one the query for them finds, and are given the
same outputs (`target_unique`). So no write of the plan undoes another, and
`Pool.repeated` says what any number of refreshes come to.
-/
import Anypay.Async.Repeat
import Anypay.Db.Rules
import Anypay.RepeatedRefreshes

namespace Anypay.RepeatedRefreshes

open Store Async Proc Pool

/-! ## What a refresh writes -/

/-- The outputs of an option row, or the expiry of an invoice row. -/
inductive Write where
  | outputs (id : Nat) (outputs : List Output)
  | expiry (id : Nat)

def Does : Write → World → World → Prop
  | .outputs id outputs, s, t => ∃ tb, t = { s with paymentOptions := tb } ∧
      tb.rows = Table.patch id (fun r => { r with outputs := some outputs })
        s.paymentOptions.rows
  | .expiry id, s, t => ∃ tb, ∃ now : Time, t = { s with invoices := tb } ∧
      tb.rows = Table.patch id (fun r => { r with expiry := some now }) s.invoices.rows

/-- The write is there. -/
def Done : Write → World → Prop
  | .outputs id outputs, s => ∀ r ∈ s.paymentOptions.rows, r.id = id → r.outputs = some outputs
  | .expiry _, _ => True

/-- An option row as it was, or with outputs that are to be written there. -/
def SameOption (ws : List Write) (x y : PaymentOption) : Prop :=
  ∃ outputs, y = { x with outputs := outputs } ∧
    (outputs = x.outputs ∨ ∃ v, .outputs x.id v ∈ ws ∧ outputs = some v)

/-- An invoice row as it was, or with another expiry where one is to be written. -/
def SameInvoice (ws : List Write) (x y : Invoice) : Prop :=
  ∃ expiry, y = { x with expiry := expiry } ∧ (expiry = x.expiry ∨ .expiry x.id ∈ ws)

/-- The world `s` is `w` but for some of these writes. -/
structure Within (ws : List Write) (w s : World) : Prop where
  rest : ∃ options invoices, s = { w with paymentOptions := options, invoices := invoices }
  options : List.Forall₂ (SameOption ws) w.paymentOptions.rows s.paymentOptions.rows
  invoices : List.Forall₂ (SameInvoice ws) w.invoices.rows s.invoices.rows

section Within

variable {ws : List Write} {w s : World}

theorem Within.refl (ws : List Write) (w : World) : Within ws w w where
  rest := ⟨_, _, rfl⟩
  options := List.forall₂_same.mpr fun x _ => ⟨x.outputs, rfl, .inl rfl⟩
  invoices := List.forall₂_same.mpr fun x _ => ⟨x.expiry, rfl, .inl rfl⟩

theorem Within.prices (h : Within ws w s) : s.prices = w.prices := by
  obtain ⟨_, _, rfl⟩ := h.rest
  rfl

theorem Within.paymentRequests (h : Within ws w s) : s.paymentRequests = w.paymentRequests := by
  obtain ⟨_, _, rfl⟩ := h.rest
  rfl

theorem Within.does (h : Within ws w s) {k : Write} (hk : k ∈ ws) {t : World}
    (hdoes : Does k s t) : Within ws w t := by
  obtain ⟨options, invoices, hrest⟩ := h.rest
  cases k with
  | outputs id outputs =>
      obtain ⟨tb, rfl, hrows⟩ := hdoes
      refine ⟨⟨tb, invoices, by rw [hrest]⟩, ?_, h.invoices⟩
      show List.Forall₂ _ _ tb.rows
      rw [hrows]
      apply Table.forall₂_patch h.options
      rintro x _ ⟨_, rfl, -⟩ rfl
      exact ⟨some outputs, rfl, .inr ⟨outputs, hk, rfl⟩⟩
  | expiry id =>
      obtain ⟨tb, now, rfl, hrows⟩ := hdoes
      refine ⟨⟨options, tb, by rw [hrest]⟩, h.options, ?_⟩
      show List.Forall₂ _ _ tb.rows
      rw [hrows]
      apply Table.forall₂_patch h.invoices
      rintro x _ ⟨_, rfl, -⟩ rfl
      exact ⟨some now, rfl, .inr hk⟩

theorem Within.mono {ks : List Write} (h : Within ws w s) (hsub : ∀ k ∈ ws, k ∈ ks) :
    Within ks w s where
  rest := h.rest
  options := h.options.imp fun _ _ ⟨outputs, hy, hout⟩ =>
    ⟨outputs, hy, hout.imp_right fun ⟨v, hv, heq⟩ => ⟨v, hsub _ hv, heq⟩⟩
  invoices := h.invoices.imp fun _ _ ⟨expiry, hy, hexp⟩ =>
    ⟨expiry, hy, hexp.imp_right fun hv => hsub _ hv⟩

theorem Within.withPrices (h : Within ws w s) (prices : Table Price) :
    Within ws { w with prices := prices } { s with prices := prices } where
  rest := by
    obtain ⟨options, invoices, rfl⟩ := h.rest
    exact ⟨options, invoices, rfl⟩
  options := h.options
  invoices := h.invoices

end Within

/-! ## The plan -/

section Plan

variable (rows : Lookup → Nat) (env : Env) (uid : String)

/-- The outputs an entry of the template comes to, at the prices of a world. -/
def outputsFor (w : World) (entry : TemplateOption) (o : PaymentOption) :
    Except Failure (List Output) :=
  ((mapAll entry.to_ (refreshedOutputBy (sameRows rows) env o)).exec (fun _ => {}) w).1

/-- The row that is found for the key of an option. -/
def rowFor (w : World) (o : PaymentOption) : Option PaymentOption :=
  w.paymentOptions.pick
    (fun r => r.invoice_uid == uid && r.currency == o.currency && r.chain == o.chain)
    (rows (.option uid o.currency o.chain))

/-- What is written for one option, and how that ends. -/
def writesFor (w : World) (template : List TemplateOption) (o : PaymentOption) :
    List Write × Except Failure Unit :=
  match templateOf template o with
  | none => ([], .ok ())
  | some entry =>
      match outputsFor rows env w entry o with
      | .error e => ([], .error e)
      | .ok outputs =>
          match rowFor rows uid w o with
          | none => ([], .error (.notFound "payment_options"))
          | some record => ([.outputs record.id outputs], .ok ())

/-- What is written for the options, up to one that fails. -/
def writesForAll (w : World) (template : List TemplateOption) :
    List PaymentOption → List Write × Except Failure Unit
  | [] => ([], .ok ())
  | o :: os =>
      match (writesFor rows env uid w template o).2 with
      | .ok () => ((writesFor rows env uid w template o).1 ++ (writesForAll w template os).1,
          (writesForAll w template os).2)
      | .error e => ((writesFor rows env uid w template o).1, .error e)

/-- What `refreshInvoice(uid)` writes, and how it ends. -/
def plan (w : World) : List Write × Except Failure Unit :=
  match w.invoices.pick (fun r => r.uid == uid) (rows (.invoice uid)) with
  | none => ([], .error (.notFound "invoices"))
  | some invoice =>
      match w.paymentRequests.pick (fun r => r.invoice_uid == some uid) (rows (.request uid)) with
      | none => ([], .error (.notFound "PaymentRequests"))
      | some request =>
          match (writesForAll rows env uid w request.template
              (w.paymentOptions.select fun r => r.invoice_uid == uid)) with
          | (ws, .ok ()) => (ws ++ [.expiry invoice.id], .ok ())
          | (ws, .error e) => (ws, .error e)

/-- A refresh, each `findFirst` of which returns the row that `rows` says. -/
def refresh : Task Unit := discard (refreshInvoiceBy (sameRows rows) env uid)

end Plan

section Performs

variable {rows : Lookup → Nat} {env : Env} {uid : String} {ws : List Write} {w s : World}

/-! ## Reading -/

theorem steady_convertAtBy {J : World → Prop} (hJ : ∀ s t, J s → J t → s.prices = t.prices)
    (input : Amount) (output : String) :
    (convertAtBy (sameRows rows) input output).Steady J := by
  have hfind : ∀ n where_, (prisma.prices.findFirstBy (fun _ => n) where_).Steady J := by
    intro n where_
    apply steady_query
    intro c c' s s' hs hs'
    simp only [prisma.prices, hJ s s' hs hs']
  unfold convertAtBy
  simp only [bind_eq, pure_eq]
  apply steady_bind (hfind _ _)
  intro found
  cases found with
  | some price => exact trivial
  | none =>
      apply steady_bind (hfind _ _)
      intro inverse
      cases inverse <;> exact trivial

theorem steady_outputs {J : World → Prop} (hJ : ∀ s t, J s → J t → s.prices = t.prices)
    (entry : TemplateOption) (o : PaymentOption) :
    (mapAll entry.to_ (refreshedOutputBy (sameRows rows) env o)).Steady J := by
  apply steady_mapAll
  intro destination _
  unfold refreshedOutputBy convertBy
  simp only [bind_eq, pure_eq]
  apply steady_bind
  · split
    · exact steady_bind (steady_convertAtBy hJ _ _) fun _ => steady_convertAtBy hJ _ _
    · exact steady_convertAtBy hJ _ _
  · intro conversion
    exact steady_bind (steady_ofExcept _) fun _ => trivial

/-- Only the prices decide. -/
theorem outputsFor_congr (h : s.prices = w.prices) (entry : TemplateOption)
    (o : PaymentOption) : outputsFor rows env s entry o = outputsFor rows env w entry o := by
  have hsteady : (mapAll entry.to_ (refreshedOutputBy (sameRows rows) env o)).Steady
      fun t => t.prices = w.prices :=
    steady_outputs (fun _ _ hs ht => hs.trans ht.symm) entry o
  exact hsteady.exec_eq h rfl _ _

/-! ## A refresh does what is planned -/

/-- What is found is the row that was found, but for what may have been written. -/
theorem reads_found {α : Type} [Record α] {d : Delegate α} {R : α → α → Prop}
    {where_ : α → Bool} {n : Nat}
    (h : ∀ s, Within ws w s → List.Forall₂ R (d.get w).rows (d.get s).rows)
    (hw : ∀ x y, R x y → where_ y = where_ x) :
    (d.findFirstOrThrowBy (fun _ => n) where_).Reads (Within ws w)
      (fun y => ∃ x, (d.get w).pick where_ n = some x ∧ R x y)
      (fun e => (d.get w).pick where_ n = none ∧ e = .notFound d.model) := by
  apply reads_query
  · intro _ s hs y hy
    rcases Table.forall₂_pick (h s hs) hw n with ⟨_, hnone⟩ | ⟨x, y', hx, hy', hxy⟩
    · rw [hnone] at hy
      cases hy
    · rw [hy'] at hy
      obtain rfl := Except.ok.inj hy
      exact ⟨x, hx, hxy⟩
  · intro _ s hs e he
    rcases Table.forall₂_pick (h s hs) hw n with ⟨hnone, hnone'⟩ | ⟨x, y', _, hy', _⟩
    · rw [hnone'] at he
      exact ⟨hnone, (Except.error.inj he).symm⟩
    · rw [hy'] at he
      cases he

/-- An `update` that finds its row and leaves the unique value. -/
theorem performs_update {α β : Type} [Record α] {d : Delegate α} {i : Nat} {f : Time → α → α}
    {hid : ∀ t r, Record.id (f t r) = Record.id r} {g : α → Task β} {k : Write}
    {ks : List Write} {r : Except Failure Unit}
    (hfound : ∀ s, Within ws w s → ∃ x ∈ (d.get s).rows, Record.id x = i)
    (hkey : ∀ now x, Record.key (f now x) = Record.key x)
    (hdoes : ∀ s t now, t.rows = Table.patch i (f now) (d.get s).rows → Does k s (d.put s t))
    (hg : ∀ y, Performs (Within ws w) Does (g y) ks r) :
    Performs (Within ws w) Does ((d.update i f hid).bind g) (k :: ks) r := by
  apply performs_step_bind
  intro c s hs
  obtain ⟨x, hx, hi⟩ := hfound s hs
  obtain ⟨t, ht⟩ : ∃ t, (d.get s).update? i (f c.now) (hid c.now) = .ok (f c.now x, t) :=
    Table.update?_of_key_eq hx hi (hkey c.now x)
  obtain ⟨_, _, _, _, hrows, -⟩ := Table.update?_ok ht
  rw [ht]
  exact ⟨hdoes s t c.now hrows, f c.now x, rfl, hg _⟩

theorem performs_refreshOption {invoice : Invoice} {request : PaymentRequest}
    (huid : invoice.uid = uid) {o o' : PaymentOption} (h : SameOption ws o o') :
    Performs (Within ws w) Does (refreshOptionBy (sameRows rows) env invoice request o')
      (writesFor rows env uid w request.template o).1
      (writesFor rows env uid w request.template o).2 := by
  obtain ⟨old, rfl, -⟩ := h
  unfold refreshOptionBy writesFor
  rw [show templateOf request.template { o with outputs := old } =
    templateOf request.template o from rfl, huid]
  cases templateOf request.template o with
  | none => exact ⟨rfl, rfl⟩
  | some entry =>
      have houtputs : (mapAll entry.to_ (refreshedOutputBy (sameRows rows) env o)).Reads
          (Within ws w) (fun x => outputsFor rows env w entry o = .ok x)
          (fun e => outputsFor rows env w entry o = .error e) :=
        (steady_outputs (fun _ _ hs ht => hs.prices.trans ht.prices.symm) entry o).reads
          (Within.refl ws w) fun _ => {}
      show Performs _ _ ((mapAll entry.to_ (refreshedOutputBy (sameRows rows) env o)).bind _) _ _
      cases hmade : outputsFor rows env w entry o with
      | error e =>
          simp only [hmade] at houtputs ⊢
          apply performs_reads_fail
          exact reads_mono houtputs nofun fun e' he' => (Except.error.inj he').symm
      | ok outputs =>
          simp only [hmade] at houtputs ⊢
          apply performs_reads_bind (reads_mono houtputs (fun x hx => Except.ok.inj hx) nofun)
          rintro _ rfl
          have hfound : (prisma.payment_options.findFirstOrThrowBy
              (sameRows rows (.option uid o.currency o.chain)) fun r =>
                r.invoice_uid == uid && r.currency == o.currency && r.chain == o.chain).Reads
              (Within ws w) (fun y => ∃ x, rowFor rows uid w o = some x ∧ SameOption ws x y)
              (fun e => rowFor rows uid w o = none ∧ e = .notFound "payment_options") :=
            reads_found (fun s hs => hs.options) (by rintro x _ ⟨_, rfl, -⟩; rfl)
          show Performs _ _ ((prisma.payment_options.findFirstOrThrowBy _ _).bind _) _ _
          cases hrow : rowFor rows uid w o with
          | none =>
              apply performs_reads_fail
              exact reads_mono hfound (fun y ⟨x, hx, _⟩ => by cases hx.symm.trans hrow)
                fun e he => he.2
          | some record =>
              apply performs_reads_bind (reads_mono hfound (fun _ hy => hy)
                fun e he => by cases he.1.symm.trans hrow)
              rintro y ⟨x, hx, _, rfl, -⟩
              obtain rfl := Option.some.inj (hrow.symm.trans hx)
              apply performs_update
              · intro s hs
                obtain ⟨y, hy, _, rfl, -⟩ := (mem_of_pointwise hs.options).1 record
                  (Table.pick_some hrow).1
                exact ⟨_, hy, rfl⟩
              · exact fun _ _ => rfl
              · exact fun s t _ hrows => ⟨t, rfl, hrows⟩
              · exact fun _ => ⟨rfl, rfl⟩

theorem performs_refreshOptions {invoice : Invoice} {request : PaymentRequest}
    (huid : invoice.uid = uid) {os os' : List PaymentOption}
    (h : List.Forall₂ (SameOption ws) os os') :
    Performs (Within ws w) Does
      (forEach os' (refreshOptionBy (sameRows rows) env invoice request))
      (writesForAll rows env uid w request.template os).1
      (writesForAll rows env uid w request.template os).2 := by
  induction h with
  | nil => exact ⟨rfl, rfl⟩
  | @cons o o' os _ hsame _ ih =>
      have hfirst : Performs (Within ws w) Does
          (refreshOptionBy (sameRows rows) env invoice request o')
          (writesFor rows env uid w request.template o).1
          (writesFor rows env uid w request.template o).2 := performs_refreshOption huid hsame
      show Performs _ _ ((refreshOptionBy (sameRows rows) env invoice request o').bind _) _ _
      unfold writesForAll
      cases hended : (writesFor rows env uid w request.template o).2 with
      | ok _ =>
          rw [hended] at hfirst
          exact performs_bind hfirst fun _ => ih
      | error e =>
          rw [hended] at hfirst
          exact performs_bind_error hfirst

/-- **A refresh performs its plan**, in every world that is the one it was made in but for
writes of refreshes. -/
theorem performs_refresh : Performs (Within ws w) Does (refresh rows env uid)
    (plan rows env uid w).1 (plan rows env uid w).2 := by
  have hinvoice : (prisma.invoices.findFirstOrThrowBy (sameRows rows (.invoice uid)) fun r =>
      r.uid == uid).Reads (Within ws w)
      (fun y => ∃ x, w.invoices.pick (fun r => r.uid == uid) (rows (.invoice uid)) = some x ∧
        SameInvoice ws x y)
      (fun e => w.invoices.pick (fun r => r.uid == uid) (rows (.invoice uid)) = none ∧
        e = .notFound "invoices") :=
    reads_found (fun s hs => hs.invoices) (by rintro x _ ⟨_, rfl, -⟩; rfl)
  have hrequest : (prisma.paymentRequests.findFirstOrThrowBy (sameRows rows (.request uid))
      fun r => r.invoice_uid == some uid).Reads (Within ws w)
      (fun y => ∃ x, w.paymentRequests.pick (fun r => r.invoice_uid == some uid)
        (rows (.request uid)) = some x ∧ x = y)
      (fun e => w.paymentRequests.pick (fun r => r.invoice_uid == some uid)
        (rows (.request uid)) = none ∧ e = .notFound "PaymentRequests") := by
    apply reads_found
    · intro s hs
      show List.Forall₂ Eq w.paymentRequests.rows s.paymentRequests.rows
      rw [hs.paymentRequests]
      exact List.forall₂_same.mpr fun _ _ => rfl
    · rintro x _ rfl
      rfl
  have hoptions : (prisma.payment_options.findMany fun r => r.invoice_uid == uid).Reads
      (Within ws w)
      (fun os => List.Forall₂ (SameOption ws)
        (w.paymentOptions.select fun r => r.invoice_uid == uid) os) (fun _ => False) := by
    apply reads_query
    · intro _ s hs os hos
      obtain rfl := Except.ok.inj hos
      exact Table.forall₂_select hs.options (by rintro x _ ⟨_, rfl, -⟩; rfl)
    · exact fun _ _ _ _ he => nomatch he
  unfold refresh refreshInvoiceBy
  simp only [discard_eq, bind_eq, Proc.bind_assoc]
  unfold plan
  cases hi : w.invoices.pick (fun r => r.uid == uid) (rows (.invoice uid)) with
  | none =>
      apply performs_reads_fail
      exact reads_mono hinvoice (fun y ⟨x, hx, _⟩ => by cases hx.symm.trans hi)
        fun e he => he.2
  | some invoice =>
      apply performs_reads_bind (reads_mono hinvoice (fun _ hy => hy)
        fun e he => by cases he.1.symm.trans hi)
      rintro y ⟨x, hx, expiry, rfl, -⟩
      obtain rfl := Option.some.inj (hi.symm.trans hx)
      obtain ⟨hmem, huid⟩ := Table.pick_some hi
      apply performs_reads_bind hoptions
      intro os hos
      cases hr : w.paymentRequests.pick (fun r => r.invoice_uid == some uid)
          (rows (.request uid)) with
      | none =>
          apply performs_reads_fail
          exact reads_mono hrequest (fun y ⟨x, hx, _⟩ => by cases hx.symm.trans hr)
            fun e he => he.2
      | some request =>
          apply performs_reads_bind (reads_mono hrequest (fun _ hy => hy)
            fun e he => by cases he.1.symm.trans hr)
          rintro _ ⟨_, hx, rfl⟩
          obtain rfl := Option.some.inj (hr.symm.trans hx)
          have hloop : Performs (Within ws w) Does
              (forEach os (refreshOptionBy (sameRows rows) env
                { invoice with expiry := expiry } request))
              (writesForAll rows env uid w request.template
                (w.paymentOptions.select fun r => r.invoice_uid == uid)).1
              (writesForAll rows env uid w request.template
                (w.paymentOptions.select fun r => r.invoice_uid == uid)).2 :=
            performs_refreshOptions (by simpa using huid) hos
          simp only
          rcases hwrites : writesForAll rows env uid w request.template
            (w.paymentOptions.select fun r => r.invoice_uid == uid) with ⟨ks, _ | _⟩
          · rw [hwrites] at hloop
            exact performs_bind_error hloop
          · rw [hwrites] at hloop
            apply performs_bind hloop
            intro _
            apply performs_update
            · intro s hs
              obtain ⟨y, hy, _, rfl, -⟩ := (mem_of_pointwise hs.invoices).1 invoice hmem
              exact ⟨_, hy, rfl⟩
            · exact fun _ _ => rfl
            · exact fun s t now hrows => ⟨t, _, rfl, hrows⟩
            · exact fun _ => ⟨rfl, rfl⟩

end Performs

/-! ## What the plan writes -/

section Targets

variable {rows : Lookup → Nat} {env : Env} {uid : String} {w : World}

/-- The outputs written for an option are those of its currency and chain. -/
theorem mem_writesFor {template : List TemplateOption} {o : PaymentOption} {k : Write}
    (h : k ∈ (writesFor rows env uid w template o).1) :
    ∃ entry outputs record, templateOf template o = some entry ∧
      outputsFor rows env w entry o = .ok outputs ∧ rowFor rows uid w o = some record ∧
      k = .outputs record.id outputs := by
  unfold writesFor at h
  cases ht : templateOf template o with
  | none => simp [ht] at h
  | some entry =>
      cases ho : outputsFor rows env w entry o with
      | error e => simp [ht, ho] at h
      | ok outputs =>
          cases hr : rowFor rows uid w o with
          | none => simp [ht, ho, hr] at h
          | some record =>
              simp only [ht, ho, hr, List.mem_singleton] at h
              exact ⟨entry, outputs, record, rfl, ho, rfl, h⟩

theorem mem_writesForAll {template : List TemplateOption} {os : List PaymentOption} {k : Write}
    (h : k ∈ (writesForAll rows env uid w template os).1) :
    ∃ o ∈ os, k ∈ (writesFor rows env uid w template o).1 := by
  induction os with
  | nil => simp [writesForAll] at h
  | cons o os ih =>
      unfold writesForAll at h
      cases hended : (writesFor rows env uid w template o).2 with
      | error e =>
          simp only [hended] at h
          exact ⟨o, by simp, h⟩
      | ok _ =>
          simp only [hended] at h
          rcases List.mem_append.mp h with hfirst | hrest
          · exact ⟨o, by simp, hfirst⟩
          · obtain ⟨o', ho', hk⟩ := ih hrest
            exact ⟨o', by simp [ho'], hk⟩

theorem mem_plan {k : Write} (h : k ∈ (plan rows env uid w).1) :
    (∃ invoice ∈ w.invoices.rows, invoice.uid = uid ∧ k = .expiry invoice.id) ∨
      ∃ request, w.paymentRequests.pick (fun r => r.invoice_uid == some uid)
        (rows (.request uid)) = some request ∧
        ∃ o ∈ w.paymentOptions.select fun r => r.invoice_uid == uid,
          k ∈ (writesFor rows env uid w request.template o).1 := by
  unfold plan at h
  cases hi : w.invoices.pick (fun r => r.uid == uid) (rows (.invoice uid)) with
  | none => simp [hi] at h
  | some invoice =>
      cases hr : w.paymentRequests.pick (fun r => r.invoice_uid == some uid)
          (rows (.request uid)) with
      | none => simp [hi, hr] at h
      | some request =>
          simp only [hi, hr] at h
          rcases hwrites : writesForAll rows env uid w request.template
            (w.paymentOptions.select fun r => r.invoice_uid == uid) with ⟨ks, _ | _⟩
          · simp only [hwrites] at h
            have hmade := mem_writesForAll (k := k) (by rw [hwrites]; exact h)
            exact .inr ⟨request, rfl, hmade⟩
          · simp only [hwrites] at h
            rcases List.mem_append.mp h with hk | hk
            · have hmade := mem_writesForAll (k := k) (by rw [hwrites]; exact hk)
              exact .inr ⟨request, rfl, hmade⟩
            · obtain ⟨hmem, huid⟩ := Table.pick_some hi
              exact .inl ⟨invoice, hmem, by simpa using huid, List.mem_singleton.mp hk⟩

/-- The currency and chain decide, and the row found has them. -/
theorem writesFor_unique {template : List TemplateOption} {o o' : PaymentOption} {id : Nat}
    {v v' : List Output} (h : .outputs id v ∈ (writesFor rows env uid w template o).1)
    (h' : .outputs id v' ∈ (writesFor rows env uid w template o').1) : v = v' := by
  obtain ⟨entry, outputs, record, ht, ho, hr, hk⟩ := mem_writesFor h
  obtain ⟨entry', outputs', record', ht', ho', hr', hk'⟩ := mem_writesFor h'
  obtain ⟨rfl, rfl⟩ := Write.outputs.inj hk
  obtain ⟨hid, rfl⟩ := Write.outputs.inj hk'
  obtain ⟨hmem, hkey⟩ := Table.pick_some hr
  obtain ⟨hmem', hkey'⟩ := Table.pick_some hr'
  obtain rfl : record = record' := Table.eq_of_id hmem hmem' hid
  simp only [Bool.and_eq_true, beq_iff_eq] at hkey hkey'
  have hcurrency : o.currency = o'.currency := hkey.1.2.symm.trans hkey'.1.2
  have hchain : o.chain = o'.chain := hkey.2.symm.trans hkey'.2
  have hentry : templateOf template o = templateOf template o' := by
    unfold templateOf
    rw [hcurrency, hchain]
  rw [ht, ht'] at hentry
  obtain rfl := Option.some.inj hentry
  have houtputs : outputsFor rows env w entry o = outputsFor rows env w entry o' := by
    unfold outputsFor refreshedOutputBy
    rw [hcurrency, hchain]
  rw [ho, ho'] at houtputs
  exact Except.ok.inj houtputs

theorem plan_unique {id : Nat} {v v' : List Output}
    (h : .outputs id v ∈ (plan rows env uid w).1)
    (h' : .outputs id v' ∈ (plan rows env uid w).1) : v = v' := by
  rcases mem_plan h with ⟨_, _, _, hk⟩ | ⟨request, hr, o, -, hk⟩
  · cases hk
  · rcases mem_plan h' with ⟨_, _, _, hk'⟩ | ⟨request', hr', o', -, hk'⟩
    · cases hk'
    · obtain rfl := Option.some.inj (hr.symm.trans hr')
      exact writesFor_unique hk hk'

/-- No write of the plan undoes another. -/
theorem lasting_plan {ws : List Write} (hws : ∀ k ∈ (plan rows env uid w).1, k ∈ ws) :
    Pool.Lasting (Within ws w) Does Done (plan rows env uid w).1 where
  inside k hk s t hs hdoes := hs.does (hws k hk) hdoes
  sets k _ s t _ hdoes := by
    cases k with
    | expiry id => exact trivial
    | outputs id v =>
        obtain ⟨tb, rfl, hrows⟩ := hdoes
        intro r hr hid
        obtain ⟨x, hx, rfl⟩ := List.mem_map.mp (show r ∈ Table.patch _ _ _ from hrows ▸ hr)
        split
        · rfl
        · rename_i hne
          rw [if_neg hne] at hid
          exact absurd hid hne
  keeps k hk k' hk' s t _ hdoes hdone := by
    cases k with
    | expiry id => exact trivial
    | outputs id v =>
        cases k' with
        | expiry id' =>
            obtain ⟨tb, now, rfl, -⟩ := hdoes
            exact hdone
        | outputs id' v' =>
            obtain ⟨tb, rfl, hrows⟩ := hdoes
            intro r hr hid
            obtain ⟨x, hx, rfl⟩ := List.mem_map.mp (show r ∈ Table.patch _ _ _ from hrows ▸ hr)
            by_cases hx' : Record.id x = id'
            · rw [if_pos hx'] at hid ⊢
              obtain rfl : id' = id := hx'.symm.trans hid
              rw [plan_unique hk hk']
            · rw [if_neg hx'] at hid ⊢
              exact hdone x hx hid

end Targets

/-! ## Any number of refreshes -/

section Refreshes

/-- The outputs that are to be written to a row. -/
def outputsIn (ks : List Write) (x : PaymentOption) : Option (List Output) :=
  ks.findSome? fun
    | .outputs id v => if id = x.id then some v else none
    | .expiry _ => none

/-- A row with the outputs that are to be written to it. -/
def finished (ks : List Write) (x : PaymentOption) : PaymentOption :=
  match outputsIn ks x with
  | some v => { x with outputs := some v }
  | none => x

theorem outputsIn_some {ks : List Write} {x : PaymentOption} {v : List Output}
    (h : outputsIn ks x = some v) : .outputs x.id v ∈ ks := by
  obtain ⟨k, hk, hv⟩ := List.exists_of_findSome?_eq_some h
  cases k with
  | expiry id => cases hv
  | outputs id v' =>
      have hv : (if id = x.id then some v' else none) = some v := hv
      by_cases hid : id = x.id
      · rw [if_pos hid] at hv
        rwa [← hid, ← Option.some.inj hv]
      · rw [if_neg hid] at hv
        cases hv

theorem outputsIn_none {ks : List Write} {x : PaymentOption} {v : List Output}
    (h : outputsIn ks x = none) : .outputs x.id v ∉ ks := by
  intro hk
  have hnone := List.findSome?_eq_none_iff.mp h _ hk
  simp at hnone

variable {rows : Lookup → Nat} {env : Env} {uid : String} {ws ks : List Write} {w s t : World}

/-- Once all is written, the option rows are these. -/
theorem rows_of_done (hs : Within ws w s)
    (hids : ∀ id v, .outputs id v ∈ ws → ∃ v', .outputs id v' ∈ ks)
    (hdone : ∀ k ∈ ks, Done k s) :
    s.paymentOptions.rows = w.paymentOptions.rows.map (finished ks) := by
  have hrow : ∀ y ∈ s.paymentOptions.rows, ∀ x, SameOption ws x y → y = finished ks x := by
    rintro _ hy x ⟨outputs, rfl, hout⟩
    unfold finished
    cases hin : outputsIn ks x with
    | some v =>
        have hv : outputs = some v := hdone _ (outputsIn_some hin) _ hy rfl
        rw [hv]
    | none =>
        rcases hout with rfl | ⟨v, hv, -⟩
        · rfl
        · obtain ⟨v', hv'⟩ := hids _ _ hv
          exact absurd hv' (outputsIn_none hin)
  have hall := hs.options
  generalize s.paymentOptions.rows = ys at hall hrow ⊢
  generalize w.paymentOptions.rows = xs at hall ⊢
  induction hall with
  | nil => rfl
  | @cons x y _ _ hxy _ ih =>
      rw [List.map_cons, ← hrow y (by simp) x hxy,
        ih fun y hy => hrow y (by simp [hy])]

/-- The pool of any number of refreshes, started in a world. -/
def Refreshes (rows : Lookup → Nat) (env : Env) (uid : String) (w : World)
    (q : Pool World Answer Failure Unit) : Prop :=
  Pool.Reaches (fun _ => refresh rows env uid) (fun _ _ => True) (Pool.init w) q

/-- What the refreshes come to where they start from a world some of the writes were
done in. -/
theorem refreshes_from (hplan : ∀ k ∈ (plan rows env uid w).1, k ∈ ws) (hs : Within ws w s)
    {q : Pool World Answer Failure Unit} (hreach : Refreshes rows env uid s q) :
    Within ws w q.state ∧ ∀ th ∈ q.threads, th.2.running = false →
      th.2 = Proc.ofExcept (plan rows env uid w).2 ∧
        ∀ k ∈ (plan rows env uid w).1, Done k q.state :=
  Pool.repeated (lasting_plan hplan) (fun _ => performs_refresh) hs hreach

/-- One refresh alone. -/
theorem refresh_alone (o : Nat → Answer) :
    Within (plan rows env uid w).1 w ((refresh rows env uid).exec o w).2 ∧
      ((refresh rows env uid).exec o w).1 = (plan rows env uid w).2 ∧
      ∀ k ∈ (plan rows env uid w).1, Done k ((refresh rows env uid).exec o w).2 := by
  obtain ⟨hin, hthreads⟩ := refreshes_from (fun _ hk => hk) (Within.refl _ w)
    (Pool.reaches_alone (fun _ _ => trivial) (fun _ _ _ => trivial) w () o)
  obtain ⟨hended, hdone⟩ := hthreads _ (List.mem_singleton.mpr rfl) (by
    cases ((refresh rows env uid).exec o w).1 <;> rfl)
  exact ⟨hin, ofExcept_inj hended, hdone⟩

/-- A loop that ends well has worked on every option. -/
theorem writesForAll_ok {template : List TemplateOption} {os : List PaymentOption}
    (h : (writesForAll rows env uid w template os).2 = .ok ()) :
    ∀ o ∈ os, (writesFor rows env uid w template o).2 = .ok () ∧
      ∀ k ∈ (writesFor rows env uid w template o).1,
        k ∈ (writesForAll rows env uid w template os).1 := by
  induction os with
  | nil => simp
  | cons o os ih =>
      unfold writesForAll at h ⊢
      cases hended : (writesFor rows env uid w template o).2 with
      | error e => simp [hended] at h
      | ok _ =>
          simp only [hended] at h ⊢
          intro o' ho'
          rcases List.mem_cons.mp ho' with rfl | ho'
          · exact ⟨hended, fun k hk => List.mem_append.mpr (.inl hk)⟩
          · obtain ⟨hok, hmem⟩ := ih h o' ho'
            exact ⟨hok, fun k hk => List.mem_append.mpr (.inr (hmem k hk))⟩

theorem plan_ok (h : (plan rows env uid w).2 = .ok ()) {request : PaymentRequest}
    (hr : w.paymentRequests.pick (fun r => r.invoice_uid == some uid) (rows (.request uid)) =
      some request) :
    ∀ o ∈ w.paymentOptions.select fun r => r.invoice_uid == uid,
      (writesFor rows env uid w request.template o).2 = .ok () ∧
      ∀ k ∈ (writesFor rows env uid w request.template o).1,
        k ∈ (plan rows env uid w).1 := by
  unfold plan at h ⊢
  cases hi : w.invoices.pick (fun r => r.uid == uid) (rows (.invoice uid)) with
  | none => simp [hi] at h
  | some invoice =>
      have hloop := @writesForAll_ok rows env uid w request.template
        (w.paymentOptions.select fun r => r.invoice_uid == uid)
      simp only [hi, hr] at h ⊢
      rcases hwrites : writesForAll rows env uid w request.template
        (w.paymentOptions.select fun r => r.invoice_uid == uid) with ⟨ks, _ | _⟩
      · simp [hwrites] at h
      · simp only [hwrites] at hloop ⊢
        intro o ho
        obtain ⟨hok, hmem⟩ := hloop trivial o ho
        exact ⟨hok, fun k hk => List.mem_append.mpr (.inl (hmem k hk))⟩

/-- A refresh that ends well, at other prices, writes to every row that was written to. -/
theorem ids_written {prices : Table Price}
    (hok : (plan rows env uid { w with prices := prices }).2 = .ok ()) {id : Nat}
    {v : List Output} (h : .outputs id v ∈ (plan rows env uid w).1) :
    ∃ v', .outputs id v' ∈ (plan rows env uid { w with prices := prices }).1 := by
  rcases mem_plan h with ⟨_, _, _, hk⟩ | ⟨request, hr, o, ho, hk⟩
  · cases hk
  · obtain ⟨hended, hmem⟩ := plan_ok hok hr o ho
    obtain ⟨entry, _, record, ht, _, hrow, hk⟩ := mem_writesFor hk
    obtain ⟨rfl, rfl⟩ := Write.outputs.inj hk
    have hrow : rowFor rows uid { w with prices := prices } o = some record := hrow
    unfold writesFor at hended hmem
    cases hout : outputsFor rows env { w with prices := prices } entry o with
    | error e => simp [ht, hout] at hended
    | ok outputs =>
        simp only [ht, hout, hrow, List.mem_singleton, forall_eq] at hmem
        exact ⟨outputs, hmem⟩

/-- The world `s` is `w` but for outputs of options of the invoice, and its expiry. -/
structure OnlyRefreshed (uid : String) (w s : World) : Prop where
  rest : ∃ options invoices, s = { w with paymentOptions := options, invoices := invoices }
  options : List.Forall₂
    (fun x y => y = x ∨ x.invoice_uid = uid ∧ ∃ outputs, y = { x with outputs := outputs })
    w.paymentOptions.rows s.paymentOptions.rows
  invoices : List.Forall₂
    (fun x y => y = x ∨ x.uid = uid ∧ ∃ expiry, y = { x with expiry := expiry })
    w.invoices.rows s.invoices.rows

theorem mem_plan_outputs {id : Nat} {v : List Output}
    (h : .outputs id v ∈ (plan rows env uid w).1) :
    ∃ record ∈ w.paymentOptions.rows, record.id = id ∧ record.invoice_uid = uid := by
  rcases mem_plan h with ⟨_, _, _, hk⟩ | ⟨_, _, _, _, hk⟩
  · cases hk
  · obtain ⟨_, _, record, _, _, hrow, hk⟩ := mem_writesFor hk
    obtain ⟨rfl, rfl⟩ := Write.outputs.inj hk
    obtain ⟨hmem, hkey⟩ := Table.pick_some hrow
    simp only [Bool.and_eq_true, beq_iff_eq] at hkey
    exact ⟨record, hmem, rfl, hkey.1.1⟩

theorem mem_plan_expiry {id : Nat} (h : .expiry id ∈ (plan rows env uid w).1) :
    ∃ invoice ∈ w.invoices.rows, invoice.id = id ∧ invoice.uid = uid := by
  rcases mem_plan h with ⟨invoice, hmem, huid, hk⟩ | ⟨_, _, _, _, hk⟩
  · obtain rfl := Write.expiry.inj hk
    exact ⟨invoice, hmem, rfl, huid⟩
  · obtain ⟨_, _, _, _, _, _, hk⟩ := mem_writesFor hk
    cases hk

theorem Within.onlyRefreshed (h : Within (plan rows env uid w).1 w s) :
    OnlyRefreshed uid w s where
  rest := h.rest
  options := by
    apply List.Forall₂.imp _ ((List.forall₂_and_left _ _).mpr ⟨fun x hx => hx, h.options⟩)
    rintro x _ ⟨hx, outputs, rfl, rfl | ⟨v, hv, -⟩⟩
    · exact .inl rfl
    · obtain ⟨record, hrecord, hid, huid⟩ := mem_plan_outputs hv
      obtain rfl : record = x := Table.eq_of_id hrecord hx hid
      exact .inr ⟨huid, outputs, rfl⟩
  invoices := by
    apply List.Forall₂.imp _ ((List.forall₂_and_left _ _).mpr ⟨fun x hx => hx, h.invoices⟩)
    rintro x _ ⟨hx, expiry, rfl, rfl | hv⟩
    · exact .inl rfl
    · obtain ⟨invoice, hinvoice, hid, huid⟩ := mem_plan_expiry hv
      obtain rfl : invoice = x := Table.eq_of_id hinvoice hx hid
      exact .inr ⟨huid, expiry, rfl⟩

/-- **Refreshing again changes nothing**: refreshes of an invoice, any number of them and in
any interleaving, change nothing but the outputs of its options and its expiry. Once one of
them has ended, every option is as a single refresh leaves it, and the refresh has ended as
that one does. Whatever they have written by the time the prices change, rejected half-way
or not, once a refresh after that has ended well every option is as a single refresh at
the new prices leaves it. -/
theorem refreshed_once (rows : Lookup → Nat) (env : Env) (uid : String) (w : World)
    (q : Pool World Answer Failure Unit) (hreach : Refreshes rows env uid w q) :
    OnlyRefreshed uid w q.state ∧
    (∀ th ∈ q.threads, th.2.running = false → ∀ o,
      q.state.paymentOptions.rows = ((refresh rows env uid).exec o w).2.paymentOptions.rows ∧
      th.2 = Proc.ofExcept ((refresh rows env uid).exec o w).1) ∧
    ∀ prices q', Refreshes rows env uid { q.state with prices := prices } q' →
      (∃ th ∈ q'.threads, th.2 = .done ()) → ∀ o,
      ((refresh rows env uid).exec o { w with prices := prices }).1 = .ok () ∧
      q'.state.paymentOptions.rows =
        ((refresh rows env uid).exec o { w with prices := prices }).2.paymentOptions.rows := by
  obtain ⟨hin, hthreads⟩ := refreshes_from (fun _ hk => hk) (Within.refl _ w) hreach
  refine ⟨hin.onlyRefreshed, fun th hth hended o => ?_, fun prices q' hreach' hdone o => ?_⟩
  · obtain ⟨hsingle, hresult, hwritten⟩ := @refresh_alone rows env uid w o
    obtain ⟨hend, hall⟩ := hthreads th hth hended
    rw [rows_of_done hin (fun _ v hv => ⟨v, hv⟩) hall,
      rows_of_done hsingle (fun _ v hv => ⟨v, hv⟩) hwritten, hresult]
    exact ⟨rfl, hend⟩
  · obtain ⟨hsingle, hresult, hwritten⟩ :=
      @refresh_alone rows env uid { w with prices := prices } o
    have hstart : Within ((plan rows env uid w).1 ++
        (plan rows env uid { w with prices := prices }).1)
        { w with prices := prices } { q.state with prices := prices } :=
      (hin.withPrices prices).mono fun k hk => List.mem_append.mpr (.inl hk)
    obtain ⟨hin', hthreads'⟩ := refreshes_from (fun k hk => List.mem_append.mpr (.inr hk))
      hstart hreach'
    obtain ⟨th, hth, hth2⟩ := hdone
    obtain ⟨hend, hall⟩ := hthreads' th hth (by rw [hth2]; rfl)
    have hok : (plan rows env uid { w with prices := prices }).2 = .ok () :=
      (ofExcept_inj (x := .ok ()) (hth2.symm.trans hend)).symm
    have hids : ∀ id v, .outputs id v ∈ (plan rows env uid w).1 ++
        (plan rows env uid { w with prices := prices }).1 →
        ∃ v', .outputs id v' ∈ (plan rows env uid { w with prices := prices }).1 := by
      intro id v hv
      rcases List.mem_append.mp hv with hold | hnew
      · exact ids_written hok hold
      · exact ⟨v, hnew⟩
    refine ⟨hresult.trans hok, ?_⟩
    rw [rows_of_done hin' hids hall, rows_of_done hsingle (fun _ v hv => ⟨v, hv⟩) hwritten]

end Refreshes

/-! ## Two refreshes after a price was missing -/

def shop : Env where
  plugins := [
    ("BTC", { currency := "BTC", chain := "BTC", decimals := 8 }),
    ("LTC", { currency := "LTC", chain := "LTC", decimals := 8 })]

def tenDollars (currency address : String) : TemplateOption where
  currency
  to_ := [{ address, currency := "USD", amount := some 10 }]

def bitcoinPrice : Price :=
  { id := 1, currency := "BTC", base_currency := some "USD", value := 20000 }

/-- Both prices. -/
def bothPrices : Table Price :=
  .pair bitcoinPrice { id := 2, currency := "LTC", base_currency := some "USD", value := 100 }
    (Nat.lt_succ_self 1) fun _ => rfl

/-- An invoice payable in two currencies, only one of which has a price. -/
def quoted : World where
  invoices := .single { id := 1, uid := "inv", status := .unpaid }
  paymentOptions := .pair
    { id := 1, invoice_uid := "inv", currency := "BTC", chain := "BTC" }
    { id := 2, invoice_uid := "inv", currency := "LTC", chain := "LTC" }
    (Nat.lt_succ_self 1) (fun _ => rfl)
  paymentRequests := .single
    { id := 1, invoice_uid := some "inv", app_id := 1,
      template := [tenDollars "BTC" "1Merchant", tenDollars "LTC" "LMerchant"] }
  prices := .single bitcoinPrice

def amounts (w : World) : List (Option (List Output)) :=
  w.paymentOptions.rows.map PaymentOption.outputs

/-- One refresh, to its end. -/
def once : List (Move Answer Unit) := .start () :: steps 0 9 {}

/-- Two refreshes that take turns. -/
def turns : List (Move Answer Unit) :=
  [.start (), .start ()] ++ (List.replicate 12 [.run 0 {}, .run 1 {}]).flatten

/-- Some refresh has ended, well or not. -/
def ended (well : Bool) (q : Pool World Answer Failure Unit) : Bool :=
  q.threads.any fun th =>
    match th.2 with
    | .done _ => well
    | .fail _ => !well
    | .atomic _ _ => false

/-- The first refresh finds no price for the second option. Two more, once there is one,
leave what one would have. -/
theorem refreshed_once_later : ∃ q q',
    Refreshes (fun _ => 0) shop "inv" quoted q ∧ ended false q = true ∧
    amounts q.state = [some [{ address := "1Merchant", amount := some 50000 }], none] ∧
    Refreshes (fun _ => 0) shop "inv" { q.state with prices := bothPrices } q' ∧
    q'.state.paymentOptions.rows = ((refresh (fun _ => 0) shop "inv").exec (fun _ => {})
      { quoted with prices := bothPrices }).2.paymentOptions.rows := by
  have hadm : ∀ (ms : List (Move Answer Unit)) p,
      Admitted (fun _ => refresh (fun _ => 0) shop "inv") (fun _ _ => True) ms p :=
    fun _ _ => admitted_all (fun _ _ _ => trivial) _
  obtain ⟨q, hq, htest⟩ := exists_reaches (fun q => ended false q &&
      decide (amounts q.state = [some [{ address := "1Merchant", amount := some 50000 }], none]) &&
      (run (fun _ => refresh (fun _ => 0) shop "inv") turns
        (Pool.init { q.state with prices := bothPrices })).any (ended true))
    (hadm once (Pool.init quoted)) (by decide +kernel)
  simp only [Bool.and_eq_true, decide_eq_true_eq] at htest
  obtain ⟨q', hq', hwell⟩ := exists_reaches _
    (hadm turns (Pool.init { q.state with prices := bothPrices })) htest.2
  refine ⟨q, q', hq, htest.1.1, htest.1.2, hq', ?_⟩
  apply ((refreshed_once (fun _ => 0) shop "inv" quoted q hq).2.2 bothPrices q' hq' ?_ _).2
  obtain ⟨th, hth, hdone⟩ := List.any_eq_true.mp hwell
  refine ⟨th, hth, ?_⟩
  cases hp : th.2 with
  | done a => rfl
  | fail e => simp [hp] at hdone
  | atomic write next => simp [hp] at hdone

end Anypay.RepeatedRefreshes
