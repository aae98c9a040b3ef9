/-
Anypay.FreshnessTheorems — how old the prices of a shown invoice are.

A refresh is due when the expiry has passed, and only a refresh writes an expiry: an
invoice is created without one, and `isExpired` finds nothing to compare. So its first
prices are shown for as long as it is unpaid. A refresh that comes looks for a template
entry of each option, and then for ANY option of the currency and chain.

`shown_fresh`: prices are never shown older than fifteen minutes, if invoices that were
never refreshed are shown only with options no older than that, and options are alone
with their currency and chain where they are refreshed. `shown_stale` is one that was
created and shown fifteen minutes and a moment later.

* `Inv` — the invariant: what is due by when, and what was read when.
* `preserves_createInvoice`, `preserves_createPaymentRequest` — creating.
* `wp_shownNoted` — a show, with or without a refresh.
-/
import Anypay.Freshness
import Anypay.LifecycleTheorems
import Anypay.OwnershipTheorems

namespace Anypay.Freshness

open Store Async Proc Machine

/-! ## Fresh prices, and showing in time -/

/-- The options of an unpaid invoice that is shown are of prices not older than fifteen
minutes. -/
def Fresh (x : Shown) : Prop :=
  x.invoice.status = .unpaid → ∀ o ∈ x.options, x.now ≤ x.readAt o.id + fifteenMinutes

/-- A refresh reaches every option of the invoice: it has an entry in the template, and no
other one has its currency and chain. -/
structure Reached (w : World) (uid : String) : Prop where
  template : ∀ request ∈ w.paymentRequests.rows, request.invoice_uid = some uid →
    ∀ o ∈ w.paymentOptions.rows, o.invoice_uid = uid →
      templateOf request.template o ≠ none
  alone : ∀ o ∈ w.paymentOptions.rows, ∀ o' ∈ w.paymentOptions.rows, o.invoice_uid = uid →
    o'.invoice_uid = uid → o.currency = o'.currency → o.chain = o'.chain → o.id = o'.id

/-- An unpaid invoice is shown in time: either it was never refreshed and its options were
created at most fifteen minutes ago, or a refresh that is due reaches them all. -/
structure TimelyShow (w : World) (uid : String) (now : Time) : Prop where
  first : ∀ r ∈ w.invoices.rows, r.uid = uid → r.status = .unpaid → r.expiry = none →
    ∀ o ∈ w.paymentOptions.rows, o.invoice_uid = uid → now ≤ o.createdAt + fifteenMinutes
  due : ∀ r ∈ w.invoices.rows, r.uid = uid → r.status = .unpaid → isExpired r now = true →
    Reached w uid

def Timely (s : State) : Event → Prop
  | .refreshInvoice uid _ _ => Reached s.world uid
  | .showInvoice uid now _ => TimelyShow s.world uid now
  | .showPaymentRequest uid _ now _ => TimelyShow s.world uid now
  | _ => True

/-! ## The invariant -/

/-- How the times that are written down fit together. -/
structure Dated (clock : Time) (w : World) (readAt : Nat → Time) : Prop where
  due : ∀ r ∈ w.invoices.rows, ∀ e, r.expiry = some e → e ≤ clock + fifteenMinutes
  read : ∀ o ∈ w.paymentOptions.rows, o.createdAt ≤ readAt o.id ∧ readAt o.id ≤ clock
  current : ∀ r ∈ w.invoices.rows, ∀ o ∈ w.paymentOptions.rows, o.invoice_uid = r.uid →
    ∀ e, r.expiry = some e → e ≤ readAt o.id + fifteenMinutes

structure Inv (s : State) : Prop where
  dated : Dated s.clock s.world s.readAt
  shown : ∀ x ∈ s.shown, Fresh x

/-- The step is taken at this time. -/
def At (now : Time) (c : Answer) : Prop := c.now = now

theorem at_at (now : Time) (o : Nat → Answer) (n : Nat) : At now (at_ now o n) := rfl

/-! ## Creating -/

/-- Since `s`, invoices were added without an expiry, and options at this time. -/
structure Grown (now : Time) (s t : World) : Prop where
  invoices : ∀ r ∈ t.invoices.rows, r.expiry = none ∨
    ∃ r₀ ∈ s.invoices.rows, r₀.uid = r.uid ∧ r₀.expiry = r.expiry
  old : ∀ o ∈ s.paymentOptions.rows, o ∈ t.paymentOptions.rows
  options : ∀ o ∈ t.paymentOptions.rows, o ∈ s.paymentOptions.rows ∨ o.createdAt = now

section Creating

variable {env : Env} {now : Time} {s : World}

theorem Grown.refl : Grown now s s where
  invoices r hr := .inr ⟨r, hr, rfl, rfl⟩
  old _ ho := ho
  options _ ho := .inl ho

/-- What is added and changed beside. -/
def grows (w : World) : Table Invoice × Table PaymentOption := (w.invoices, w.paymentOptions)

theorem Grown.of_grows {t u : World} (h : grows u = grows t) (ht : Grown now s t) :
    Grown now s u := by
  obtain ⟨hinvoices, hoptions⟩ := Prod.mk.inj h
  constructor
  · rw [hinvoices]
    exact ht.invoices
  · rw [hoptions]
    exact ht.old
  · rw [hoptions]
    exact ht.options

theorem preserves_of_grows {α : Type} {p : Task α} (hp : p.Keeps grows) :
    p.Preserves (At now) (Grown now s) :=
  hp.preserves fun _ _ h ht => ht.of_grows h

theorem preserves_createInvoiceRow {mk : Time → Nat → Invoice}
    {hid : ∀ t n, Record.id (mk t n) = n} (hmk : ∀ t n, (mk t n).expiry = none) :
    (prisma.invoices.create mk hid).Preserves (At now) (Grown now s) := by
  intro t ht
  refine Delegate.wp_create (fun at_ tb hrows _ => ⟨?_, ht.old, ht.options⟩) fun _ _ => ht
  intro r hr
  rw [show (prisma.invoices.put t tb).invoices.rows = _ from hrows] at hr
  rcases List.mem_append.mp hr with hr | hr
  · exact ht.invoices r hr
  · rw [List.mem_singleton.mp hr]
    exact .inl (hmk _ _)

theorem preserves_createOptionRow {mk : Time → Nat → PaymentOption}
    {hid : ∀ t n, Record.id (mk t n) = n} (hmk : ∀ t n, (mk t n).createdAt = t) :
    (prisma.payment_options.create mk hid).Preserves (At now) (Grown now s) := by
  intro t ht
  refine Delegate.wp_create_at (fun c tb hc hrows _ => ⟨ht.invoices, ?_, ?_⟩) fun _ _ => ht
  · intro o ho
    show o ∈ tb.rows
    rw [hrows]
    exact List.mem_append_left _ (ht.old o ho)
  · intro o ho
    rw [show (prisma.payment_options.put t tb).paymentOptions.rows = _ from hrows] at ho
    rcases List.mem_append.mp ho with ho | ho
    · exact ht.options o ho
    · rw [List.mem_singleton.mp ho, hmk]
      exact .inr hc

theorem preserves_createPaymentOptions (account : Json) (invoice : Invoice) :
    (createPaymentOptions env account invoice).Preserves (At now) (Grown now s) := by
  unfold createPaymentOptions listAvailableAddresses
  simp only [bind_eq, pure_eq]
  refine preserves_bind ?_ fun addresses => ?_
  · exact preserves_ofExcept_bind fun _ _ => preserves_bind preserves_query fun _ =>
      preserves_done _
  refine preserves_bind (preserves_mapAll fun record _ => ?_) fun _ => preserves_done _
  refine preserves_tryCatch ?_ fun _ => preserves_done _
  unfold paymentOptionFor
  simp only [bind_eq, pure_eq]
  refine preserves_ofExcept_bind fun currency _ => ?_
  refine preserves_bind (preserves_of_grows (keeps_convert _ _)) fun conversion => ?_
  refine preserves_ofExcept_bind fun address _ => ?_
  cases nonEmpty address with
  | none => exact preserves_done _
  | some address =>
      refine preserves_ofExcept_bind fun paymentAmount _ => ?_
      refine preserves_bind ?_ fun _ => preserves_done _
      unfold storeOption
      cases paymentAmount with
      | none => exact preserves_fail _
      | some amount => exact preserves_createOptionRow fun _ _ => rfl

/-- A new invoice has no expiry. -/
theorem newInvoice_expiry {account : Json} {params : List (String × Json)} {uid : String}
    {r : Invoice} (h : newInvoice env account params uid = .ok r) : r.expiry = none := by
  unfold newInvoice at h
  simp only [except_bind_ok] at h
  obtain ⟨_, -, _, -, _, -, _, -, _, -, _, -, _, -, _, -, _, -, _, -, _, -, _, -, h⟩ := h
  rw [← Except.ok.inj h]

theorem preserves_createInvoice (params : List (String × Json)) :
    (createInvoice env params).Preserves (At now) (Grown now s) := by
  unfold createInvoice
  simp only [bind_eq, pure_eq]
  refine preserves_bind preserves_query fun uid => ?_
  refine preserves_ofExcept_bind fun account _ => ?_
  refine preserves_ofExcept_bind fun data hdata => ?_
  have hexpiry : data.expiry = none := newInvoice_expiry hdata
  refine preserves_bind (preserves_createInvoiceRow fun _ _ => hexpiry) fun invoice => ?_
  refine preserves_bind (preserves_of_grows (keeps_spawn _ fun _ => rfl)) fun _ => ?_
  refine preserves_bind (preserves_createPaymentOptions account invoice) fun options => ?_
  refine preserves_bind (preserves_of_grows (Delegate.keeps_create fun _ _ => rfl))
    fun _ => ?_
  refine preserves_bind (preserves_of_grows ?_) fun _ => preserves_done _
  exact keeps_detached (keeps_publishEvent _ _)

theorem emptyInvoice_expiry {app_id : Int} {app : App} {uid : Json}
    {fields : List (String × Json)} {r : Invoice}
    (h : emptyInvoice env app_id app uid fields = .ok r) : r.expiry = none := by
  unfold emptyInvoice at h
  simp only [except_bind_ok] at h
  obtain ⟨_, -, _, -, _, -, _, -, _, -, _, -, _, -, _, -, _, -, _, -, h⟩ := h
  rw [← Except.ok.inj h]

theorem preserves_createEmptyInvoice (app_id : Int) (fields : List (String × Json)) :
    (createEmptyInvoice env app_id fields).Preserves (At now) (Grown now s) := by
  unfold createEmptyInvoice chooseUid
  simp only [bind_eq, pure_eq]
  refine preserves_bind ?_ fun uid => ?_
  · split
    · exact preserves_done _
    · exact preserves_query
  refine preserves_bind preserves_query fun app => ?_
  refine preserves_ofExcept_bind fun data hdata => ?_
  have hexpiry : data.expiry = none := emptyInvoice_expiry hdata
  exact preserves_createInvoiceRow fun _ _ => hexpiry

/-- The options of a request say nothing about the expiry. -/
theorem preserves_updateFromOptions (invoice : Invoice) (options : Json) :
    (updateFromOptions invoice options).Preserves (At now) (Grown now s) := by
  unfold updateFromOptions
  split
  swap
  · exact preserves_done _
  simp only [bind_eq, pure_eq]
  refine preserves_ofExcept_bind fun change _ => ?_
  refine preserves_bind (fun t ht => ?_) fun _ => preserves_done _
  refine Delegate.wp_update (fun at_ tb r _ _ hrows _ => ⟨?_, ht.old, ht.options⟩)
    fun _ _ _ => ht
  intro x hx
  rw [show (prisma.invoices.put t tb).invoices.rows = _ from hrows] at hx
  obtain ⟨r₀, hr₀, rfl⟩ := List.mem_map.mp hx
  split
  · exact ht.invoices r₀ hr₀
  · exact ht.invoices r₀ hr₀

theorem preserves_paymentRequestToPaymentOptions (request : PaymentRequest) :
    (paymentRequestToPaymentOptions env request).Preserves (At now) (Grown now s) := by
  unfold paymentRequestToPaymentOptions
  simp only [bind_eq]
  refine preserves_bind (preserves_of_grows (keeps_mapAll fun entry _ => ?_)) fun options => ?_
  · unfold templateToOption
    refine keeps_bind (keeps_mapAll fun to_ _ => ?_) fun _ => trivial
    exact keeps_bind (keeps_convert _ _) fun _ => keeps_bind (keeps_ofExcept _) fun _ => trivial
  refine preserves_bind (preserves_mapAll fun option _ => ?_) fun _ =>
    preserves_of_grows (keeps_ofExcept _)
  refine preserves_tryCatch (preserves_bind ?_ fun _ => preserves_done _)
    fun _ => preserves_done _
  unfold storeTemplateOption
  split
  · exact preserves_createOptionRow fun _ _ => rfl
  · exact preserves_fail _

theorem preserves_createPaymentRequest (app_id : Int) (template : List Json)
    (options : Option Json) :
    (createPaymentRequest env app_id template options).Preserves (At now) (Grown now s) := by
  unfold createPaymentRequest
  simp only [bind_eq, pure_eq]
  refine preserves_ofExcept_bind fun found _ => ?_
  obtain ⟨currency, amount⟩ := found
  cases env.paymentRequestTemplate template with
  | none => exact preserves_fail _
  | some entries =>
      refine preserves_bind (preserves_of_grows (Delegate.keeps_create fun _ _ => rfl))
        fun request => ?_
      refine preserves_bind (preserves_createEmptyInvoice _ _) fun invoice => ?_
      refine preserves_bind (preserves_updateFromOptions _ _) fun _ => ?_
      refine preserves_ofExcept_bind fun webpage_url _ => ?_
      refine preserves_bind (preserves_of_grows (Delegate.keeps_update fun _ _ => rfl))
        fun _ => ?_
      refine preserves_bind preserves_query fun request => ?_
      exact preserves_bind (preserves_paymentRequestToPaymentOptions _) fun _ =>
        preserves_done _

end Creating

/-! ## Showing -/

/-- What names an option, and when it was created. -/
def key (o : PaymentOption) : Nat × String × String × String × Time :=
  (o.id, o.invoice_uid, o.currency, o.chain, o.createdAt)

def keys (w : World) : List (Nat × String × String × String × Time) :=
  w.paymentOptions.rows.map key

/-- The options are those there were, though perhaps with other outputs. -/
def Repriced (s t : World) : Prop := keys t = keys s ∧ t.invoices = s.invoices

/-- All options of the invoice were rewritten now. -/
structure Refreshed (uid : String) (now : Time) (written : List Nat) (s t : World) :
    Prop where
  keys : keys t = keys s
  invoices : ∀ r ∈ t.invoices.rows, r ∈ s.invoices.rows ∨
    (r.uid = uid ∧ r.expiry = some (now + fifteenMinutes))
  written : ∀ o ∈ s.paymentOptions.rows, o.invoice_uid = uid → o.id ∈ written

section Showing

variable {env : Env} {now : Time} {uid : String} {A : Answer → Prop} {s t : World}

theorem mem_keys (h : keys t = keys s) {o : PaymentOption}
    (ho : o ∈ t.paymentOptions.rows) : ∃ o₀ ∈ s.paymentOptions.rows, key o₀ = key o := by
  have hmem : key o ∈ keys t := List.mem_map.mpr ⟨o, ho, rfl⟩
  rw [h] at hmem
  exact List.mem_map.mp hmem

theorem keeps_refreshedOutput {δ : Type} {view : World → δ} (option : PaymentOption)
    (destination : TemplateTo) : (refreshedOutput env option destination).Keeps view := by
  unfold refreshedOutput
  exact keeps_bind (keeps_convert _ _) fun _ => keeps_bind (keeps_ofExcept _) fun _ => trivial

/-- The option that is refreshed is the one whose row is rewritten. -/
theorem wp_refreshOptionNoted (hreached : Reached s uid) {invoice : Invoice}
    (hinvoice : invoice.uid = uid) {request : PaymentRequest}
    (hrequest : request ∈ s.paymentRequests.rows) (hru : request.invoice_uid = some uid)
    {option : PaymentOption} (ho : option ∈ s.paymentOptions.rows)
    (hou : option.invoice_uid = uid) (ht : Repriced s t) :
    (refreshOptionNoted env invoice request option).wp A
      (fun written u => option.id ∈ written ∧ Repriced s u) (fun _ => Repriced s) t := by
  unfold refreshOptionNoted
  cases hentry : templateOf request.template option with
  | none => exact absurd hentry (hreached.template request hrequest hru option ho hou)
  | some entry =>
      simp only [bind_eq, pure_eq, wp_bind]
      have hkeeps : (mapAll entry.to_ (refreshedOutput env option)).Keeps id :=
        keeps_mapAll fun destination _ => keeps_refreshedOutput option destination
      refine wp_of_keeps hkeeps (fun outputs u hu => ?_) fun _ u hu => ?_
      swap
      · rw [show u = t from hu]
        exact ht
      obtain rfl : u = t := hu
      refine Delegate.wp_findFirstOrThrow (fun record hrecord hw => ?_) fun _ => ht
      simp only [Bool.and_eq_true, beq_iff_eq] at hw
      obtain ⟨⟨hruid, hcurrency⟩, hchain⟩ := hw
      obtain ⟨record₀, hmem, hkey⟩ := mem_keys ht.1 hrecord
      simp only [key, Prod.mk.injEq] at hkey
      obtain ⟨hid, huid, hcurrency₀, hchain₀, -⟩ := hkey
      have hsame : option.id = record.id := by
        rw [← hid]
        apply hreached.alone option ho record₀ hmem hou
        · rw [huid, hruid, hinvoice]
        · rw [hcurrency₀, hcurrency]
        · rw [hchain₀, hchain]
      refine Delegate.wp_update (fun _ tb r _ _ hrows _ => ?_) fun _ _ _ => ht
      refine ⟨by rw [hsame]; exact List.mem_singleton_self _, ?_, ht.2⟩
      rw [← ht.1]
      show tb.rows.map key = u.paymentOptions.rows.map key
      rw [hrows]
      apply Table.map_patch
      intro r
      rfl

/-- A refresh that reaches all options rewrites them all. -/
theorem wp_refreshNoted (env : Env) (hreached : Reached s uid) :
    (refreshNoted env uid).wp (At now) (fun x t => Refreshed uid now x.2 s t)
      (fun _ => Repriced s) s := by
  unfold refreshNoted
  simp only [bind_eq, pure_eq, wp_bind]
  refine Delegate.wp_findFirstOrThrow (fun invoice hinvoice hiu => ?_) fun _ => ⟨rfl, rfl⟩
  refine Delegate.wp_findMany ?_
  refine Delegate.wp_findFirstOrThrow (fun request hrequest hru => ?_) fun _ => ⟨rfl, rfl⟩
  have hiu : invoice.uid = uid := by simpa using hiu
  have hru : request.invoice_uid = some uid := by simpa using hru
  refine wp_mono (fun written t ht => ?_) (fun _ _ h => h) (wp_mapAll_pointwise
    (P := fun option ids => option.id ∈ ids) (I := Repriced s) (fun option ho t ht => ?_)
    ⟨rfl, rfl⟩)
  swap
  · obtain ⟨ho, hou⟩ := Table.mem_select.mp ho
    exact wp_refreshOptionNoted hreached hiu hrequest hru ho (by simpa using hou) ht
  obtain ⟨hwritten, hrepriced⟩ := ht
  refine Delegate.wp_update_at (fun c tb hc r hr hid hrows _ => ?_) fun _ _ _ => hrepriced
  constructor
  · exact hrepriced.1
  · intro x hx
    rw [show (prisma.invoices.put t tb).invoices.rows = _ from hrows] at hx
    obtain ⟨r₀, hr₀, rfl⟩ := List.mem_map.mp hx
    rw [show prisma.invoices.get t = s.invoices from hrepriced.2] at hr₀
    split
    · rename_i hid₀
      obtain rfl : r₀ = invoice := Table.eq_of_id hr₀ hinvoice hid₀
      rw [show c.now = now from hc]
      exact .inr ⟨hiu, rfl⟩
    · exact .inl hr₀
  · intro o ho hou
    have hselect : o ∈ s.paymentOptions.select fun r => r.invoice_uid == uid :=
      Table.mem_select.mpr ⟨ho, by simpa using hou⟩
    obtain ⟨ids, hids, hmem⟩ := (mem_of_pointwise hwritten).1 o hselect
    exact List.mem_flatten.mpr ⟨ids, hids, hmem⟩

/-- The invoice that is shown, as it was found or refreshed. -/
inductive Looked (uid : String) (now : Time) (s t : World) : Invoice × List Nat → Prop where
  | found (invoice : Invoice) (mem : invoice ∈ s.invoices.rows) (own : invoice.uid = uid)
      (current : invoice.status = .unpaid → isExpired invoice now = false)
      (same : grows t = grows s) : Looked uid now s t (invoice, [])
  | refreshed (x : Invoice × List Nat) (refreshed : Refreshed uid now x.2 s t) :
      Looked uid now s t x

theorem Refreshed.of_grows {written : List Nat} {u : World} (h : grows u = grows t)
    (ht : Refreshed uid now written s t) : Refreshed uid now written s u := by
  obtain ⟨hinvoices, hoptions⟩ := Prod.mk.inj h
  constructor
  · rw [← ht.keys, Freshness.keys, Freshness.keys, hoptions]
  · rw [hinvoices]
    exact ht.invoices
  · exact ht.written

theorem Looked.of_grows {x : Invoice × List Nat} {u : World} (h : grows u = grows t)
    (ht : Looked uid now s t x) : Looked uid now s u x := by
  cases ht with
  | found invoice mem own current same => exact .found invoice mem own current (h.trans same)
  | refreshed x refreshed => exact .refreshed x (refreshed.of_grows h)

theorem wp_shownNoted {α : Type} {refused : Invoice → Prop} [DecidablePred refused]
    {respond : Invoice → Task α} (hrespond : ∀ r, (respond r).Keeps grows)
    (htimely : TimelyShow s uid now) : (shownNoted env refused respond uid).wp (At now)
      (fun x t => Looked uid now s t x.1) (fun _ => Repriced s) s := by
  unfold shownNoted
  simp only [bind_eq, pure_eq]
  rw [wp_bind]
  refine Delegate.wp_findFirstOrThrow (fun invoice hinvoice hw => ?_) fun _ => ⟨rfl, rfl⟩
  have huid : invoice.uid = uid := by simpa using hw
  split
  · exact ⟨rfl, rfl⟩
  rw [wp_bind]
  refine wp_mono (Q := fun x t => Looked uid now s t x) (fun x t ht => ?_) (fun _ _ h => h) ?_
  · rw [wp_bind, wp_attempt]
    exact wp_of_keeps (hrespond x.1) (fun _ u hu => ht.of_grows hu) fun _ u hu => ht.of_grows hu
  · unfold currentNoted
    simp only [bind_eq, pure_eq]
    rw [wp_bind]
    refine wp_ask_ok fun c hc => ?_
    rw [show c.now = now from hc]
    split
    · rename_i hexpired
      rw [huid]
      exact wp_mono (fun x _ ht => .refreshed x ht) (fun _ _ h => h)
        (wp_refreshNoted env (htimely.due invoice hinvoice huid hexpired.1 hexpired.2))
    · rename_i hcurrent
      refine .found invoice hinvoice huid (fun hunpaid => ?_) rfl
      simpa [hunpaid] using hcurrent

end Showing

/-! ## The invariant is kept -/

section Keeping

variable {clock now : Time} {uid : String} {readAt : Nat → Time} {s t : World}

theorem mem_newOptions {i : Nat} : i ∈ newOptions s t ↔
    (∃ o ∈ t.paymentOptions.rows, o.id = i) ∧ ∀ o ∈ s.paymentOptions.rows, o.id ≠ i := by
  simp [newOptions]

/-- Time passes, and whatever the invariant says nothing about happens. -/
theorem Dated.elapsed (h : Dated clock s readAt) (hnow : clock ≤ now) (ht : Repriced s t) :
    Dated now t readAt := by
  obtain ⟨hkeys, hinvoices⟩ := ht
  constructor
  · intro r hr e he
    rw [hinvoices] at hr
    exact (h.due r hr e he).trans (Nat.add_le_add_right hnow _)
  · intro o ho
    obtain ⟨o₀, ho₀, hkey⟩ := mem_keys hkeys ho
    simp only [key, Prod.mk.injEq] at hkey
    obtain ⟨hid, -, -, -, hcreated⟩ := hkey
    have hread := h.read o₀ ho₀
    rw [hid, hcreated] at hread
    exact ⟨hread.1, hread.2.trans hnow⟩
  · intro r hr o ho hou e he
    rw [hinvoices] at hr
    obtain ⟨o₀, ho₀, hkey⟩ := mem_keys hkeys ho
    simp only [key, Prod.mk.injEq] at hkey
    obtain ⟨hid, huid, -⟩ := hkey
    rw [← hid]
    exact h.current r hr o₀ ho₀ (huid.trans hou) e he

theorem Dated.created (h : Dated clock s readAt) (hnow : clock ≤ now) (ht : Grown now s t) :
    Dated now t (stamp readAt now (newOptions s t)) := by
  -- an option of `t` is an old one, read when it was, or a new one, read now
  have hread : ∀ o ∈ t.paymentOptions.rows,
      (o ∈ s.paymentOptions.rows ∧ stamp readAt now (newOptions s t) o.id = readAt o.id) ∨
      (o.createdAt = now ∧ stamp readAt now (newOptions s t) o.id = now) := by
    intro o ho
    by_cases hold : ∃ o₀ ∈ s.paymentOptions.rows, o₀.id = o.id
    · obtain ⟨o₀, ho₀, hid⟩ := hold
      obtain rfl : o₀ = o := Table.eq_of_id (ht.old o₀ ho₀) ho hid
      refine .inl ⟨ho₀, if_neg fun hnew => ?_⟩
      exact (mem_newOptions.mp hnew).2 o₀ ho₀ rfl
    · have hnone : ∀ o₀ ∈ s.paymentOptions.rows, o₀.id ≠ o.id := fun o₀ ho₀ hid =>
        hold ⟨o₀, ho₀, hid⟩
      refine .inr ⟨?_, if_pos (mem_newOptions.mpr ⟨⟨o, ho, rfl⟩, hnone⟩)⟩
      exact (ht.options o ho).resolve_left fun hmem => hnone o hmem rfl
  -- an expiry is an old one
  have hexpiry : ∀ r ∈ t.invoices.rows, ∀ e, r.expiry = some e →
      ∃ r₀ ∈ s.invoices.rows, r₀.uid = r.uid ∧ r₀.expiry = some e := by
    intro r hr e he
    rcases ht.invoices r hr with hnone | ⟨r₀, hr₀, huid, hexpiry⟩
    · rw [hnone] at he
      cases he
    · exact ⟨r₀, hr₀, huid, hexpiry.trans he⟩
  have hdue : ∀ r ∈ t.invoices.rows, ∀ e, r.expiry = some e → e ≤ now + fifteenMinutes := by
    intro r hr e he
    obtain ⟨r₀, hr₀, -, he₀⟩ := hexpiry r hr e he
    exact (h.due r₀ hr₀ e he₀).trans (Nat.add_le_add_right hnow _)
  constructor
  · exact hdue
  · intro o ho
    rcases hread o ho with ⟨hold, hstamp⟩ | ⟨hcreated, hstamp⟩
    · rw [hstamp]
      exact ⟨(h.read o hold).1, (h.read o hold).2.trans hnow⟩
    · rw [hstamp, hcreated]
      exact ⟨le_rfl, le_rfl⟩
  · intro r hr o ho hou e he
    rcases hread o ho with ⟨hold, hstamp⟩ | ⟨-, hstamp⟩
    · obtain ⟨r₀, hr₀, huid, he₀⟩ := hexpiry r hr e he
      rw [hstamp]
      exact h.current r₀ hr₀ o hold (hou.trans huid.symm) e he₀
    · rw [hstamp]
      exact hdue r hr e he

/-- Where something was read before, it was read no later now. -/
theorem le_stamp (written : List Nat) {i : Nat} (hi : readAt i ≤ now) :
    readAt i ≤ stamp readAt now written i ∧ stamp readAt now written i ≤ now := by
  unfold stamp
  split
  · exact ⟨hi, le_rfl⟩
  · exact ⟨le_rfl, hi⟩

theorem stamp_of_mem {written : List Nat} {i : Nat} (h : i ∈ written) :
    stamp readAt now written i = now := if_pos h

/-- Rewritten options are of prices read now. -/
theorem Dated.refreshed {written : List Nat} (h : Dated clock s readAt) (hnow : clock ≤ now)
    (ht : Refreshed uid now written s t) : Dated now t (stamp readAt now written) := by
  constructor
  · intro r hr e he
    rcases ht.invoices r hr with hold | ⟨-, hnew⟩
    · exact (h.due r hold e he).trans (Nat.add_le_add_right hnow _)
    · rw [hnew] at he
      exact (Option.some.inj he).ge
  · intro o ho
    obtain ⟨o₀, ho₀, hkey⟩ := mem_keys ht.keys ho
    simp only [key, Prod.mk.injEq] at hkey
    obtain ⟨hid, -, -, -, hcreated⟩ := hkey
    have hread := h.read o₀ ho₀
    rw [hid, hcreated] at hread
    have hstamp := le_stamp written (hread.2.trans hnow)
    exact ⟨hread.1.trans hstamp.1, hstamp.2⟩
  · intro r hr o ho hou e he
    obtain ⟨o₀, ho₀, hkey⟩ := mem_keys ht.keys ho
    simp only [key, Prod.mk.injEq] at hkey
    obtain ⟨hid, huid, -⟩ := hkey
    rcases ht.invoices r hr with hold | ⟨hru, hnew⟩
    · have hcurrent := h.current r hold o₀ ho₀ (huid.trans hou) e he
      have hread := (h.read o₀ ho₀).2
      rw [hid] at hcurrent hread
      exact hcurrent.trans (Nat.add_le_add_right (le_stamp written (hread.trans hnow)).1 _)
    · have hwritten := ht.written o₀ ho₀ (huid.trans (hou.trans hru))
      rw [hid] at hwritten
      rw [hnew] at he
      rw [stamp_of_mem hwritten]
      exact (Option.some.inj he).ge

theorem stamp_nil : stamp readAt now [] = readAt := by
  funext i
  simp [stamp]

/-- What a timely show keeps. -/
theorem Dated.looked {x : Invoice × List Nat} (h : Dated clock s readAt) (hnow : clock ≤ now)
    (ht : Looked uid now s t x) : Dated now t (stamp readAt now x.2) := by
  cases ht with
  | found invoice mem own current same =>
      obtain ⟨hinvoices, hoptions⟩ := Prod.mk.inj same
      rw [stamp_nil]
      refine h.elapsed hnow ⟨?_, hinvoices⟩
      rw [keys, keys, hoptions]
  | refreshed x refreshed => exact h.refreshed hnow refreshed

/-- What a timely show shows. -/
theorem fresh_of_looked {x : Invoice × List Nat} (h : Dated clock s readAt)
    (htimely : TimelyShow s uid now) (ht : Looked uid now s t x) :
    Fresh { now, invoice := x.1, readAt := stamp readAt now x.2,
            options := t.paymentOptions.rows.filter fun o => o.invoice_uid == uid } := by
  intro hunpaid o hshown
  obtain ⟨ho, hou⟩ := List.mem_filter.mp hshown
  have hou : o.invoice_uid = uid := by simpa using hou
  show now ≤ stamp readAt now x.2 o.id + fifteenMinutes
  cases ht with
  | found invoice mem own current same =>
      rw [(Prod.mk.inj same).2] at ho
      rw [stamp_nil]
      cases hexpiry : invoice.expiry with
      | none =>
          have hfirst := htimely.first invoice mem own hunpaid hexpiry o ho hou
          exact hfirst.trans (Nat.add_le_add_right (h.read o ho).1 _)
      | some e =>
          have hcurrent := current hunpaid
          simp only [isExpired, hexpiry, decide_eq_false_iff_not, not_lt] at hcurrent
          exact hcurrent.trans (h.current invoice mem o ho (hou.trans own.symm) e hexpiry)
  | refreshed x refreshed =>
      obtain ⟨o₀, ho₀, hkey⟩ := mem_keys refreshed.keys ho
      simp only [key, Prod.mk.injEq] at hkey
      obtain ⟨hid, huid, -⟩ := hkey
      have hwritten := refreshed.written o₀ ho₀ (huid.trans hou)
      rw [hid] at hwritten
      rw [stamp_of_mem hwritten]
      exact Nat.le_add_right _ _

end Keeping

/-! ## The responses -/

section Responses

variable {δ : Type} {view : World → δ} {env : Env} {scripts : Scripts}

theorem keeps_describe (invoice : Invoice) : (InvoiceShow.describe env invoice).Keeps view := by
  unfold InvoiceShow.describe
  refine keeps_bind (Ownership.keeps_getPaymentOptions env _) fun options => ?_
  exact keeps_bind keeps_query fun notes => trivial

theorem keeps_listOptions (uid : String) :
    (PaymentRequestShow.listOptions env uid).Keeps view := by
  unfold PaymentRequestShow.listOptions ensurePayable listPaymentOptions
  simp only [bind_eq]
  refine keeps_bind (keeps_bind keeps_query fun invoice => ?_) fun invoice => ?_
  · split
    · exact keeps_reject _
    · split
      · exact keeps_reject _
      · exact trivial
  · refine keeps_bind keeps_query fun options => ?_
    refine keeps_bind (keeps_mapAll fun option _ => ?_) fun listed => ?_
    · exact keeps_bind keeps_query fun rate => trivial
    · exact keeps_bind (keeps_ask _) fun now => trivial

theorem keeps_getMerchantData (uid : String) (account_id : Option Int) :
    (Bip270.getMerchantData uid account_id).Keeps view := by
  unfold Bip270.getMerchantData
  cases orUndefined account_id with
  | none => exact trivial
  | some n =>
      refine keeps_bind keeps_query fun invoice => keeps_bind keeps_query fun account => ?_
      split
      · exact trivial
      · exact trivial

theorem keeps_buildPaymentRequestForInvoice (uid currency : String) (protocol : Protocol) :
    (buildPaymentRequestForInvoice env scripts uid currency protocol).Keeps view := by
  unfold buildPaymentRequestForInvoice buildPaymentRequest
  refine keeps_bind keeps_query fun option => keeps_bind keeps_query fun invoice => ?_
  cases protocol with
  | bip70 =>
      refine keeps_bind ?_ fun _ => trivial
      unfold Bip70.buildPaymentRequest
      refine keeps_bind (keeps_ofExcept _) fun outputs => ?_
      exact keeps_bind (keeps_ask _) fun now => trivial
  | bip270 =>
      refine keeps_bind ?_ fun _ => trivial
      unfold Bip270.buildPaymentRequest
      refine keeps_bind keeps_query fun invoice => ?_
      refine keeps_bind (keeps_getMerchantData _ _) fun merchantData => ?_
      exact keeps_bind (keeps_ofExcept _) fun outputs => trivial
  | jsonV2 =>
      refine keeps_bind ?_ fun _ => trivial
      exact keeps_bind (keeps_ask _) fun now => trivial

theorem keeps_respond (uid : String) (accept : PaymentRequestShow.Accept) :
    (PaymentRequestShow.respond env scripts uid accept).Keeps view := by
  cases accept with
  | paymentOptions => exact keeps_bind (keeps_listOptions uid) fun options => trivial
  | content protocol currency =>
      exact keeps_bind (keeps_buildPaymentRequestForInvoice uid currency protocol)
        fun content => trivial

end Responses

/-! ## Every run -/

section Runs

variable {env : Env} {scripts : Scripts} {s t : State}

theorem inv_create {now : Time} {w : World} (h : Inv s) (hnow : s.clock ≤ now)
    (hw : Grown now s.world w) : Inv (s.create now w) where
  dated := h.dated.created hnow hw
  shown := h.shown

theorem inv_refresh {now : Time} {uid : String} (h : Inv s) (hnow : s.clock ≤ now)
    (hreached : Reached s.world uid) (o : Nat → Answer) :
    Inv (s.refresh now ((refreshNoted env uid).exec (at_ now o) s.world)) := by
  have hend := wp_exec (wp_refreshNoted env hreached) (at_at now o)
  cases hrun : (refreshNoted env uid).exec (at_ now o) s.world with
  | mk outcome w =>
      rw [hrun] at hend
      cases outcome with
      | error e => exact ⟨h.dated.elapsed hnow hend, h.shown⟩
      | ok x => exact ⟨h.dated.refreshed hnow hend, h.shown⟩

/-- A timely show, whatever becomes of it. -/
theorem inv_show {α : Type} {now : Time} {uid : String} {refused : Invoice → Prop}
    [DecidablePred refused] {respond : Invoice → Task α}
    (hrespond : ∀ r, (respond r).Keeps grows) (h : Inv s) (hnow : s.clock ≤ now)
    (htimely : TimelyShow s.world uid now) (o : Nat → Answer) :
    Inv (s.show_ now uid ((shownNoted env refused respond uid).exec (at_ now o) s.world)) := by
  have hshow : (shownNoted env refused respond uid).wp (At now)
    (fun x t => Looked uid now s.world t x.1) (fun _ => Repriced s.world) s.world :=
    wp_shownNoted hrespond htimely
  have hend := wp_exec hshow (at_at now o)
  cases hrun : (shownNoted env refused respond uid).exec (at_ now o) s.world with
  | mk outcome w =>
      rw [hrun] at hend
      cases outcome with
      | error e => exact ⟨h.dated.elapsed hnow hend, h.shown⟩
      | ok x =>
          obtain ⟨⟨invoice, written⟩, response⟩ := x
          refine ⟨h.dated.looked hnow hend, fun shown hmem => ?_⟩
          change shown ∈ ite _ _ _ at hmem
          split at hmem
          · rcases List.mem_append.mp hmem with hmem | hmem
            · exact h.shown shown hmem
            · rw [List.mem_singleton.mp hmem]
              exact fresh_of_looked h.dated htimely hend
          · exact h.shown shown hmem

theorem inv_step {e : Event} (h : Inv s) (htimely : Timely s e)
    (hstep : step env scripts s e = some t) : Inv t := by
  unfold step at hstep
  split at hstep
  · cases hstep
  rename_i hclock
  have hnow : s.clock ≤ e.now := Nat.le_of_not_lt hclock
  cases e with
  | createInvoice params now o =>
      obtain rfl := Option.some.inj hstep
      exact inv_create h hnow (wp_exec_state (preserves_createInvoice params _ .refl)
        (at_at now o))
  | createPaymentRequest app_id template options now o =>
      obtain rfl := Option.some.inj hstep
      exact inv_create h hnow (wp_exec_state
        (preserves_createPaymentRequest app_id template options _ .refl) (at_at now o))
  | elsewhere w now =>
      obtain rfl := Option.some.inj hstep
      exact ⟨h.dated.elapsed hnow ⟨rfl, rfl⟩, h.shown⟩
  | refreshInvoice uid now o =>
      obtain rfl := Option.some.inj hstep
      exact inv_refresh h hnow htimely o
  | showInvoice uid now o =>
      obtain rfl := Option.some.inj hstep
      exact inv_show keeps_describe h hnow htimely o
  | showPaymentRequest uid accept now o =>
      obtain rfl := Option.some.inj hstep
      exact inv_show (fun _ => keeps_respond uid accept) h hnow htimely o

end Runs

/-- No invoice and no option was made yet, and none was shown. -/
def Empty (s : State) : Prop :=
  s.world.invoices.rows = [] ∧ s.world.paymentOptions.rows = [] ∧ s.shown = []

/-- **Prices are never shown older than fifteen minutes** in a run from an empty database
whose shows and refreshes are timely. -/
theorem shown_fresh {env : Env} {scripts : Scripts} {s t : State} (hs : Empty s)
    (h : Reach (step env scripts) Timely s t) : ∀ x ∈ t.shown, Fresh x := by
  obtain ⟨hinvoices, hoptions, hshown⟩ := hs
  have hstart : Inv s := by
    constructor
    · constructor <;> simp [hinvoices, hoptions]
    · simp [hshown]
  have hend : Inv t := h.inv (I := fun u : State => Inv u) hstart fun u e v hu htimely hv =>
    inv_step hu htimely hv
  exact hend.shown

/-! ## A quarter of an hour, and a moment more -/

/-- A server that takes BTC. -/
def shop : Env where
  plugins := [("BTC", { currency := "BTC", chain := "BTC", decimals := 8 })]
  coins := [{ code := "BTC" }]

/-- An account with an address, and a bitcoin at 50000 dollars. -/
def opened : State where
  world := {
    accounts := .single { id := 1 }
    addresses := .single
      { id := 1, account_id := some 1, currency := "BTC", chain := "BTC", value := some "a" }
    prices := .single { id := 1, currency := "BTC", base_currency := some "USD", value := 50000 } }

def tenDollars : List (String × Json) :=
  [("account", Account.toJson { id := 1 }), ("amount", .num 10)]

def named (_ : Nat) : Answer := { shortid := "u" }

/-- An invoice over ten dollars is made, and shown at this time. -/
def visit (now : Time) : List Event :=
  [.createInvoice tenDollars 0 named, .showInvoice "u" now fun _ => {}]

def scripts : Scripts := fun _ => ⟨fun _ => none, fun _ => none, fun _ => none⟩

/-- What is seen of a show: when, of what, and when the prices of the options were read. -/
def seen (s : State) : List (Time × InvoiceStatus × List Time) :=
  s.shown.map fun x => (x.now, x.invoice.status, x.options.map fun o => x.readAt o.id)

/-- What is seen of a visit: the prices of the creation. -/
theorem seen_visit {now : Time} {t : State}
    (hseen : (run (step shop scripts) (visit now) opened).map seen =
      some [(now, .unpaid, [0])])
    (ht : run (step shop scripts) (visit now) opened = some t) :
    ∃ x ∈ t.shown, x.now = now ∧ x.invoice.status = .unpaid ∧
      ∃ o ∈ x.options, x.readAt o.id = 0 := by
  rw [ht] at hseen
  have hseen : seen t = [(now, .unpaid, [0])] := Option.some.inj hseen
  have hmem : (now, InvoiceStatus.unpaid, [0]) ∈ seen t := by
    rw [hseen]
    exact List.mem_singleton_self _
  obtain ⟨x, hx, heq⟩ := List.mem_map.mp hmem
  simp only [Prod.mk.injEq] at heq
  obtain ⟨hnow, hstatus, hread⟩ := heq
  have hzero : 0 ∈ x.options.map fun o => x.readAt o.id := by simp [hread]
  obtain ⟨o, ho, hzero⟩ := List.mem_map.mp hzero
  exact ⟨x, hx, hnow, hstatus, o, ho, hzero⟩

/-- A moment after a quarter of an hour the first prices are still shown. -/
theorem shown_stale : ¬ ∀ (env : Env) (scripts : Scripts) (s t : State), Empty s →
    Reach (step env scripts) Unguarded s t → ∀ x ∈ t.shown, Fresh x := by
  intro h
  have hseen : (run (step shop scripts) (visit (fifteenMinutes + 1)) opened).map seen =
      some [(fifteenMinutes + 1, .unpaid, [0])] := by decide +kernel
  obtain ⟨t, ht, -⟩ := Option.map_eq_some_iff.mp hseen
  obtain ⟨x, hx, hnow, hunpaid, o, ho, hread⟩ := seen_visit hseen ht
  have hfresh := h shop scripts opened t ⟨rfl, rfl, rfl⟩
    (reach_of_run (guarded_unguarded _ _) ht) x hx hunpaid o ho
  rw [hnow, hread, Nat.zero_add] at hfresh
  exact Nat.not_succ_le_self _ hfresh

/-- A visit within it is timely. -/
theorem timely_visit : Guarded (step shop scripts) Timely (visit fifteenMinutes) opened := by
  refine ⟨trivial, fun u hu => ⟨?_, fun _ _ => trivial⟩⟩
  obtain rfl := Option.some.inj hu
  have hcreated : ∀ o ∈ ((createInvoice shop tenDollars).exec (at_ 0 named)
      opened.world).2.paymentOptions.rows, fifteenMinutes ≤ o.createdAt + fifteenMinutes := by
    decide +kernel
  have hcurrent : ∀ r ∈ ((createInvoice shop tenDollars).exec (at_ 0 named)
      opened.world).2.invoices.rows, isExpired r fifteenMinutes = false := by decide +kernel
  constructor
  · intro r _ _ _ _ o ho _
    exact hcreated o ho
  · intro r hr _ _ hexpired
    rw [hcurrent r hr] at hexpired
    cases hexpired

theorem shown_fresh_first : ∃ t, run (step shop scripts) (visit fifteenMinutes) opened = some t ∧
    ∃ x ∈ t.shown, x.invoice.status = .unpaid ∧ x.options ≠ [] ∧ Fresh x := by
  have hseen : (run (step shop scripts) (visit fifteenMinutes) opened).map seen =
      some [(fifteenMinutes, .unpaid, [0])] := by decide +kernel
  obtain ⟨t, ht, -⟩ := Option.map_eq_some_iff.mp hseen
  obtain ⟨x, hx, -, hunpaid, o, ho, -⟩ := seen_visit hseen ht
  exact ⟨t, ht, x, hx, hunpaid, List.ne_nil_of_mem ho,
    shown_fresh ⟨rfl, rfl, rfl⟩ (reach_of_run timely_visit ht) x hx⟩

end Anypay.Freshness
