/-
Anypay.PaidEventTheorems — how often a paid invoice is announced.

Four functions bring an invoice to 'paid' or towards it. `completePayment` always
calls `publishEvent`, also for a payment that still waits, whose event the schema
refuses; `confirmPayment` announces nothing; `confirmTransaction` announces an
invoice it finds confirming. So the count is right on some paths only:
`announced_once` says on which, for calls on the invoice that take turns while
any others run beside them.
-/
import Anypay.ActorTheorems
import Anypay.Async.Exclusive
import Anypay.LifecycleTheorems
import Anypay.PayTheorems

namespace Anypay

open Store Async Proc Session Lifecycle

namespace Announcing

/-! ## Messages -/

/-- The invoice a message on 'invoice.paid' announces: a row has the uid on top, an
event inside its payload. A log line announces nothing. -/
def announcedUid (m : Json) : Option String :=
  Json.str? ((m.get "uid").or (Paid.eventUid m))

def announces (uid : String) (m : String × Json) : Bool :=
  m.1 == "invoice.paid" && announcedUid m.2 == some uid

/-- A log line of `publishEvent` for an event of the invoice that the schema then
refuses. -/
def refused (uid : String) (m : String × Json) : Bool :=
  m.1 == "invoice.paid" &&
    match m.2.get "payload" with
    | none => false
    | some event =>
        Json.str? (Paid.eventUid event) == some uid && (InvoicePaidEvent.parse event).isNone

/-- How many messages announce the invoice as paid, and how many attempts failed. -/
def announcements (uid : String) (w : World) : Nat := w.published.countP (announces uid)

def refusals (uid : String) (w : World) : Nat := w.published.countP (refused uid)

/-! ## Calls -/

/-- The functions that write the status of an invoice. -/
inductive Call where
  | completePayment (option : PaymentOption) (transaction : Transaction) (confirming : Bool)
  | handleUnconfirmedPayment (option : PaymentOption) (transaction : Transaction)
  | confirmPayment (payment : Payment) (confirmation : Confirmation)
  | confirmTransaction (payment : Payment) (found : Option Confirmation)
  | revertPayment (txid : String)
  | cancelInvoice (invoice : Invoice)

def code (env : Env) : Call → Task Unit
  | .completePayment option transaction confirming =>
      discard (completePayment env option transaction confirming)
  | .handleUnconfirmedPayment option transaction =>
      discard (handleUnconfirmedPayment env option transaction)
  | .confirmPayment payment confirmation => discard (confirmPayment payment confirmation)
  | .confirmTransaction payment found => discard (confirmTransaction payment found)
  | .revertPayment txid => revertPayment txid
  | .cancelInvoice invoice => discard (cancelInvoice invoice)

abbrev Calls := Pool World Answer Failure Call

/-- The calls that may write the invoice. What `revertPayment` writes only its txid
tells. -/
def concerns (uid : String) : Call → Prop
  | .completePayment option _ _ | .handleUnconfirmedPayment option _ =>
      option.invoice_uid = uid
  | .confirmPayment payment _ | .confirmTransaction payment _ => payment.invoice_uid = uid
  | .revertPayment _ => True
  | .cancelInvoice invoice => invoice.uid = uid

/-- The copy of a row a call was given is a copy of a row. -/
def Genuine (w : World) : Call → Prop
  | .confirmPayment payment _ => HasPayment payment.id payment.invoice_uid w
  | .cancelInvoice invoice => HasInvoice invoice.id invoice.uid w
  | _ => True

/-- The paths on which the count comes out right: an invoice is paid once, at once
or by blockcypher's confirmation, and no payment that waits is completed. -/
def Fits (uid : String) (w : World) : Call → Prop
  | .completePayment _ _ confirming => confirming = false ∧ announcements uid w = 0
  | .handleUnconfirmedPayment _ _ => announcements uid w = 0
  | .confirmPayment payment _ =>
      (nonEmpty payment.confirmation_hash).isSome = true ∨ announcements uid w ≠ 0
  | .confirmTransaction _ _ =>
      announcements uid w ≠ 0 ∨
        ∀ r ∈ w.invoices.rows, r.uid = uid → r.status = .confirming
  | .revertPayment _ | .cancelInvoice _ => True

/-- Any calls, in any order. -/
def anyOrder (p : Calls) : Move Answer Call → Prop
  | .start call => Genuine p.state call
  | .run _ _ => True

/-- The calls on the invoice take turns, and keep to the right paths. -/
def takingTurns (uid : String) (p : Calls) : Move Answer Call → Prop
  | .start call => Genuine p.state call ∧
      (concerns uid call → p.Idle (concerns uid) ∧ Fits uid p.state call)
  | .run _ _ => True

/-- What is promised about the invoice: once it is paid, and no call on it is under
way, it was announced exactly once; while it waits it was not; and no attempt was
refused. -/
structure Promised (uid : String) (p : Calls) : Prop where
  once : p.Idle (concerns uid) →
    ∀ r ∈ p.state.invoices.rows, r.uid = uid → r.status = .paid →
      announcements uid p.state = 1
  never_twice : announcements uid p.state ≤ 1
  not_waiting : ∀ r ∈ p.state.invoices.rows, r.uid = uid → r.status = .confirming →
    announcements uid p.state = 0
  accepted : refusals uid p.state = 0

/-! ## The contract -/

/-- What the calls on an invoice see of it: the statuses of its rows, and the two
counts. -/
structure View where
  statuses : List InvoiceStatus
  announced : Nat
  refused : Nat

def view (uid : String) (w : World) : View where
  statuses := (w.invoices.rows.filter (·.uid == uid)).map Invoice.status
  announced := announcements uid w
  refused := refusals uid w

/-- At every moment. -/
structure View.Busy (v : View) : Prop where
  never_twice : v.announced ≤ 1
  not_waiting : .confirming ∈ v.statuses → v.announced = 0
  accepted : v.refused = 0

/-- While no call is under way. -/
def View.AtRest (v : View) : Prop := .paid ∈ v.statuses → v.announced = 1

/-- Who is outside leaves the invoice alone; who is inside keeps what holds at every
moment, and finds the invoice as it left it. -/
def contract (uid : String) : Contract World Answer Bool where
  answers _ _ _ := True
  rely g s t := Grows s t ∧ t.names = s.names ∧ (g = true → view uid t = view uid s)
  guar g s t g' := g' = g ∧ Grows s t ∧ t.names = s.names ∧
    (g = false → view uid t = view uid s) ∧ ((view uid s).Busy → (view uid t).Busy)
  guar_refl _ s := ⟨rfl, .refl s, rfl, fun _ => rfl, id⟩
  rely_refl _ s := ⟨.refl s, rfl, fun _ => rfl⟩
  rely_trans h h' := ⟨h.1.trans h'.1, h'.2.1.trans h.2.1,
    fun hg => (h'.2.2 hg).trans (h.2.2 hg)⟩

theorem exclusive (uid : String) : Pool.Exclusive (contract uid)
    (fun w => w.OneInvoice uid ∧ (view uid w).Busy) fun w => (view uid w).AtRest where
  same h := h.1
  keep h hs := ⟨hs.1.of_names h.2.2.1, h.2.2.2.2 hs.2⟩
  rest h hs := by
    obtain ⟨-, -, -, hview, -⟩ := h
    rw [hview rfl]
    exact hs
  outside h := ⟨h.2.1, h.2.2.1, fun hg => nomatch hg⟩
  inside h := ⟨h.2.1, h.2.2.1, fun _ => h.2.2.2.1 rfl⟩

/-! ## What a call knows of its invoice -/

section Sees

variable {uid uid₀ : String} {g : Bool} {v : View} {s t : World}

/-- Who is inside sees the invoice like this; who is outside need not know. -/
def Sees (uid : String) (g : Bool) (v : View) (t : World) : Prop :=
  g = true → t.OneInvoice uid ∧ view uid t = v

theorem Sees.stable (h : Sees uid g v s) (hst : (contract uid).rely g s t) :
    Sees uid g v t := by
  intro hg
  obtain ⟨hone, hview⟩ := h hg
  exact ⟨hone.of_names hst.2.1, (hst.2.2 hg).trans hview⟩

theorem Sees.leaves (h : Sees uid g v t) (hrest : g = true → v.AtRest) :
    Pool.Leaves (fun w => (view uid w).AtRest) g t := by
  intro hg
  obtain ⟨-, hview⟩ := h hg
  rw [hview]
  exact hrest hg

/-- A step that shows no difference. -/
theorem guar_of_view (hgrows : Grows s t) (hnames : t.names = s.names)
    (hview : view uid t = view uid s) : (contract uid).guar g s t g :=
  ⟨rfl, hgrows, hnames, fun _ => hview, fun hbusy => hview ▸ hbusy⟩

theorem Sees.of_view (h : Sees uid g v s) (hnames : t.names = s.names)
    (hview : view uid t = view uid s) : Sees uid g v t := by
  intro hg
  obtain ⟨hone, hs⟩ := h hg
  exact ⟨hone.of_names hnames, hview.trans hs⟩

/-- Invoices, payments, and what is seen: the steps that keep all that are silent. -/
def frame (uid : String) (w : World) : Table Invoice × Table Payment × Nat × Nat :=
  (w.invoices, w.payments, announcements uid w, refusals uid w)

theorem silent_of_frame (h : frame uid t = frame uid s) :
    (contract uid).guar g s t g ∧ (contract uid).rely g s t := by
  simp only [frame, Prod.mk.injEq] at h
  obtain ⟨hinvoices, hpayments, hannounced, hrefused⟩ := h
  have hgrows : Grows s t :=
    ⟨fun r hr => ⟨r, hinvoices ▸ hr, rfl, rfl⟩, fun p hp => ⟨p, hpayments ▸ hp, rfl, rfl, rfl⟩⟩
  have hnames : t.names = s.names := by rw [World.names, World.names, hinvoices]
  have hview : view uid t = view uid s := by
    rw [view, view, hinvoices, hannounced, hrefused]
  exact ⟨guar_of_view hgrows hnames hview, hgrows, hnames, fun _ => hview⟩

/-- Silent steps, then the rest. -/
theorem meets_silent_bind {α β : Type} {R : β → Bool → World → Prop}
    {E : Failure → Bool → World → Prop} {p : Task α} {f : α → Task β}
    (hp : p.Keeps (frame uid)) (hs : Sees uid g v s)
    (hok : ∀ t a, Grows s t → Sees uid g v t → (f a).Meets (contract uid) R E g t)
    (herr : ∀ t e, Sees uid g v t → E e g t) :
    (p.bind f).Meets (contract uid) R E g s :=
  meets_keeps_bind hp (fun _ _ h => silent_of_frame h)
    (fun t hst a => hok t a hst.1 (hs.stable hst)) fun t hst e => herr t e (hs.stable hst)

/-- A message on another key. -/
theorem keeps_publish_other {key : String} (body : Json) (hkey : key ≠ "invoice.paid") :
    (publish key body).Keeps (frame uid) := by
  refine keeps_step fun _ w => ?_
  have hne : (key == "invoice.paid") = false := by simpa using hkey
  simp [frame, announcements, refusals, announces, refused, hne]

/-! ## Writes -/

theorem filter_uid {w : World} {r : Invoice} (hone : w.OneInvoice uid)
    (hr : r ∈ w.invoices.rows) (hu : r.uid = uid) :
    w.invoices.rows.filter (·.uid == uid) = [r] := by
  have hmem : r ∈ w.invoices.rows.filter (·.uid == uid) :=
    List.mem_filter.mpr ⟨hr, by simpa using hu⟩
  have hall : ∀ x ∈ w.invoices.rows.filter (·.uid == uid), x = r := by
    intro x hx
    obtain ⟨hx, hxu⟩ := List.mem_filter.mp hx
    exact hone x hx r hr (by simpa using hxu) hu
  have hnodup : (w.invoices.rows.filter (·.uid == uid)).Nodup :=
    (List.Nodup.of_map _ w.invoices.id_nodup).filter _
  revert hmem hall hnodup
  generalize w.invoices.rows.filter (·.uid == uid) = rows
  intro hmem hall hnodup
  match rows, hmem, hall, hnodup with
  | [x], _, hall, _ => rw [hall x (by simp)]
  | x :: y :: rest, _, hall, hnodup =>
      have hx := hall x (by simp)
      have hy := hall y (by simp)
      rw [hx, hy] at hnodup
      exact absurd hnodup (by simp)

/-- The calls that write the invoice `uid₀` are inside where it is the invoice. -/
structure Writes (uid uid₀ : String) (g : Bool) : Prop where
  inside : g = true → uid₀ = uid
  outside : g = false → uid₀ ≠ uid

/-- Another invoice's row is written. -/
theorem view_of_other {r : Invoice} {f : Invoice → Invoice} (hr : r ∈ s.invoices.rows)
    (hne : r.uid ≠ uid) (hrows : t.invoices.rows = Table.patch r.id f s.invoices.rows)
    (hf : ∀ x, (f x).uid = x.uid) (hpublished : t.published = s.published) :
    view uid t = view uid s := by
  have hfilter : t.invoices.rows.filter (·.uid == uid) =
      s.invoices.rows.filter (·.uid == uid) := by
    rw [hrows]
    refine Table.filter_patch fun x hx hi => ?_
    obtain rfl : x = r := Table.eq_of_id hx hr hi
    rw [hf x]
    exact .inl (by simpa using hne)
  rw [view, view, hfilter, announcements, announcements, refusals, refusals, hpublished]

/-- A row of the invoice gets a status. -/
theorem guar_of_status {r : Invoice} {f : Invoice → Invoice} {status : InvoiceStatus}
    (h : Writes uid uid₀ g) (hr : r ∈ s.invoices.rows) (hu : r.uid = uid₀)
    (hrows : t.invoices.rows = Table.patch r.id f s.invoices.rows)
    (hf : ∀ x, (f x).id = x.id ∧ (f x).uid = x.uid ∧ (f x).status = status)
    (hpayments : t.payments = s.payments) (hpublished : t.published = s.published)
    (hs : Sees uid g v s)
    (hbusy : g = true → v.Busy → ({ v with statuses := [status] } : View).Busy) :
    (contract uid).guar g s t g ∧ Sees uid g { v with statuses := [status] } t := by
  have hgrows : Grows s t := .of_invoices hrows hpayments fun x => ⟨(hf x).1, (hf x).2.1⟩
  have hnames : t.names = s.names := World.names_patch hrows fun x => ⟨(hf x).1, (hf x).2.1⟩
  have hannounced : announcements uid t = announcements uid s := by
    rw [announcements, announcements, hpublished]
  have hrefused : refusals uid t = refusals uid s := by rw [refusals, refusals, hpublished]
  cases g with
  | false =>
      have hview := view_of_other hr (hu ▸ h.outside rfl) hrows (fun x => (hf x).2.1) hpublished
      exact ⟨guar_of_view hgrows hnames hview, fun hg => nomatch hg⟩
  | true =>
      obtain ⟨hone, hv⟩ := hs rfl
      have hone' := hone.of_names hnames
      have huid : r.uid = uid := hu.trans (h.inside rfl)
      have hmem : f r ∈ t.invoices.rows := by
        rw [hrows]
        exact Table.mem_patch hr
      have hview : view uid t = { v with statuses := [status] } := by
        rw [← hv, view, view, filter_uid hone' hmem ((hf r).2.1.trans huid), hannounced,
          hrefused]
        simp [(hf r).2.2]
      refine ⟨⟨rfl, hgrows, hnames, fun hg => (nomatch hg), fun hb => ?_⟩,
        fun _ => ⟨hone', hview⟩⟩
      rw [hview]
      exact hbusy rfl (hv ▸ hb)

/-- A payment is added, or changed but for what it is about. -/
theorem guar_of_payments (hgrows : Grows s t) (hinvoices : t.invoices = s.invoices)
    (hpublished : t.published = s.published) (hs : Sees uid g v s) :
    (contract uid).guar g s t g ∧ Sees uid g v t := by
  have hnames : t.names = s.names := by rw [World.names, World.names, hinvoices]
  have hview : view uid t = view uid s := by
    rw [view, view, hinvoices, announcements, announcements, refusals, refusals, hpublished]
  exact ⟨guar_of_view hgrows hnames hview, hs.of_view hnames hview⟩

/-- A message that announces the invoice `uid₀`. -/
theorem guar_of_announcement {m : String × Json} (h : Writes uid uid₀ g)
    (hm : ∀ uid, announces uid m = true ↔ uid₀ = uid) (hnot : refused uid m = false)
    (hpublished : t.published = s.published ++ [m]) (hinvoices : t.invoices = s.invoices)
    (hpayments : t.payments = s.payments) (hs : Sees uid g v s)
    (hbusy : g = true → v.Busy → ({ v with announced := v.announced + 1 } : View).Busy) :
    (contract uid).guar g s t g ∧ Sees uid g { v with announced := v.announced + 1 } t := by
  have hgrows : Grows s t :=
    ⟨fun r hr => ⟨r, hinvoices ▸ hr, rfl, rfl⟩, fun p hp => ⟨p, hpayments ▸ hp, rfl, rfl, rfl⟩⟩
  have hnames : t.names = s.names := by rw [World.names, World.names, hinvoices]
  have hrefused : refusals uid t = refusals uid s := by
    rw [refusals, refusals, hpublished, List.countP_append]
    simp [hnot]
  cases g with
  | false =>
      have hother : announces uid m = false := by
        rw [Bool.eq_false_iff]
        exact fun he => h.outside rfl ((hm uid).mp he)
      have hview : view uid t = view uid s := by
        rw [view, view, hinvoices, hrefused, announcements, announcements, hpublished,
          List.countP_append]
        simp [hother]
      exact ⟨guar_of_view hgrows hnames hview, fun hg => nomatch hg⟩
  | true =>
      obtain ⟨hone, hv⟩ := hs rfl
      have hown : announces uid m = true := (hm uid).mpr (h.inside rfl)
      have hview : view uid t = { v with announced := v.announced + 1 } := by
        rw [← hv, view, view, hinvoices, hrefused, announcements, announcements, hpublished,
          List.countP_append]
        simp [hown]
      refine ⟨⟨rfl, hgrows, hnames, fun hg => (nomatch hg), fun hb => ?_⟩,
        fun _ => ⟨hone.of_names hnames, hview⟩⟩
      rw [hview]
      exact hbusy rfl (hv ▸ hb)

end Sees

/-! ## The two messages -/

section Messages

variable {option : PaymentOption} {txid uid : String} {r : Invoice}

theorem announces_event (uid : String) :
    announces uid ("invoice.paid", (paidEvent option txid r).toJson) = true ↔ r.uid = uid := by
  have huid : announcedUid (paidEvent option txid r).toJson = some r.uid := by
    have hevent : announcedUid (paidEvent option txid r).toJson =
        Json.str? (Paid.eventUid (paidEvent option txid r).toJson) := rfl
    rw [hevent, paidEvent, Paid.eventUid_toJson]
    rfl
  simp [announces, huid]

theorem refused_event : refused uid ("invoice.paid", (paidEvent option txid r).toJson) = false := by
  have hpayload : ∃ event, (paidEvent option txid r).toJson.get "payload" = some event ∧
      Paid.eventUid event = none := by
    cases haccount : orUndefined r.account_id <;> cases happ : orUndefined r.app_id <;>
      simp [paidEvent, Event.toJson, optionalId, haccount, happ, Json.field_cons, Paid.eventUid]
  obtain ⟨event, hget, hnone⟩ := hpayload
  simp [refused, hget, hnone, Json.str?]

theorem announces_logLine :
    announces uid ("invoice.paid", logLine "invoice.paid" (paidEvent option txid r)) = false := by
  have hnone : announcedUid (logLine "invoice.paid" (paidEvent option txid r)) = none := by
    simp [announcedUid, logLine, Paid.eventUid, Event.toJson, Json.field_cons, Json.str?]
  simp [announces, hnone]

/-- The attempt fails where the invoice waits, and only then. -/
theorem refused_logLine (h : r.uid = uid → r.status = .paid) :
    refused uid ("invoice.paid", logLine "invoice.paid" (paidEvent option txid r)) = false := by
  have hget : (logLine "invoice.paid" (paidEvent option txid r)).get "payload" =
      some (paidEvent option txid r).toJson := rfl
  have huid : Json.str? (Paid.eventUid (paidEvent option txid r).toJson) = some r.uid := by
    rw [paidEvent, Paid.eventUid_toJson]
    rfl
  simp only [refused, hget, huid]
  by_cases hu : r.uid = uid
  · have hpasses : passes "invoice.paid" (paidEvent option txid r) = true := by
      rw [paidEvent_passes, h hu]
      decide +kernel
    rw [passes, getSchema_paid] at hpasses
    have hsome : (InvoicePaidEvent.parse (paidEvent option txid r).toJson).isSome = true := hpasses
    simp [hsome]
  · have hne : (some r.uid == some uid) = false := by simpa using hu
    simp [hne]

theorem announces_row (uid : String) :
    announces uid ("invoice.paid", r.toJson) = true ↔ r.uid = uid := by
  have huid : announcedUid r.toJson = some r.uid := by
    simp [announcedUid, Invoice.toJson, Json.field_cons, Json.str?]
  simp [announces, huid]

theorem refused_row : refused uid ("invoice.paid", r.toJson) = false := by
  have hnone : r.toJson.get "payload" = none := by
    simp [Invoice.toJson, Json.field_cons]
  simp [refused, hnone]

/-- Nobody's key is that of a topic. -/
theorem followers_ne {kind topic key : String} {id : Option Int}
    (hkind : kind.toList.head? = some 'a') (h : key ∈ followers kind id topic) :
    key ≠ "invoice.paid" := by
  rintro rfl
  exact absurd (followers_head hkind h) (by decide)

end Messages

section Publish

variable {β : Type} {R : β → Bool → World → Prop} {E : Failure → Bool → World → Prop}
  {uid : String} {g : Bool} {v : View} {s : World}

theorem meets_publish_bind {m : String × Json} {f : Unit → Task β} {v' : View}
    (hguar : ∀ t, Sees uid g v t → (contract uid).guar g t (sending t [m]) g ∧
      Sees uid g v' (sending t [m]))
    (hs : Sees uid g v s)
    (hf : ∀ t, Sees uid g v' t → (f ()).Meets (contract uid) R E g t) :
    ((publish m.1 m.2).bind f).Meets (contract uid) R E g s := by
  intro t hst c _
  obtain ⟨hstep, hsees⟩ := hguar t (hs.stable hst)
  exact ⟨g, hstep, hf _ hsees⟩

theorem keeps_followers {kind topic : String} {id : Option Int} {body : Json}
    (hkind : kind.toList.head? = some 'a') :
    (forEach (followers kind id topic) fun k => publish k body).Keeps (frame uid) :=
  keeps_forEach fun _ hk => keeps_publish_other body (followers_ne hkind hk)

/-- The event is published: to the log, on its key, to the followers. -/
theorem meets_publishPaid_bind {f : Unit → Task β} {option : PaymentOption} {txid : String}
    {r : Invoice} (h : Writes uid r.uid g) (hs : Sees uid g v s)
    (hpaid : g = true → r.status = .paid)
    (hbusy : g = true → v.Busy → ({ v with announced := v.announced + 1 } : View).Busy)
    (hf : ∀ t, Sees uid g { v with announced := v.announced + 1 } t →
      (f ()).Meets (contract uid) R E g t) :
    ((detached (publishEvent "invoice.paid" (paidEvent option txid r))).bind f).Meets
      (contract uid) R E g s := by
  have hrow : r.uid = uid → r.status = .paid := by
    intro hu
    cases g with
    | true => exact hpaid rfl
    | false => exact absurd hu (h.outside rfl)
  have hend : ∀ t, Sees uid g { v with announced := v.announced + 1 } t →
      (done () : Task Unit).Meets (contract uid)
        (fun a g' t => (f a).Meets (contract uid) R E g' t)
        (fun _ g' t => (done () : Task Unit).Meets (contract uid)
          (fun a g' t => (f a).Meets (contract uid) R E g' t) E g' t) g t :=
    fun t ht u hu => hf u (ht.stable hu)
  refine meets_bind (meets_tryCatch ?_)
  unfold publishEvent
  simp only [bind_eq]
  refine @meets_publish_bind _ _ _ uid g v s
    ("invoice.paid", logLine "invoice.paid" (paidEvent option txid r)) _ v (fun t ht => ?_) hs
    fun t ht => ?_
  · have hview : view uid (sending t [("invoice.paid",
        logLine "invoice.paid" (paidEvent option txid r))]) = view uid t := by
      simp [view, announcements, refusals, sending, List.countP_append, announces_logLine,
        refused_logLine hrow]
    exact ⟨guar_of_view (.of_ledger rfl) rfl hview, ht.of_view rfl hview⟩
  rw [getSchema_paid]
  dsimp only
  cases hparse : InvoicePaidEvent.parse (paidEvent option txid r).toJson with
  | none =>
      have hfails : passes "invoice.paid" (paidEvent option txid r) = false := by
        rw [passes, getSchema_paid]
        show (InvoicePaidEvent.parse (paidEvent option txid r).toJson).isSome = false
        rw [hparse]
        rfl
      cases g with
      | false => exact fun u _ => hend u fun hg => by cases hg
      | true =>
          rw [paidEvent_passes, hpaid rfl] at hfails
          exact absurd hfails (by decide +kernel)
  | some _ =>
      refine @meets_publish_bind _ _ _ uid g v t
        ("invoice.paid", (paidEvent option txid r).toJson) _
        { v with announced := v.announced + 1 } (fun u hu => ?_) ht fun u hu => ?_
      · exact guar_of_announcement h announces_event refused_event rfl rfl rfl hu hbusy
      · refine meets_silent_bind (keeps_followers rfl) hu (fun x _ _ hx => ?_)
          fun x _ hx => hend x hx
        rw [← Proc.bind_done (forEach _ _)]
        exact meets_silent_bind (keeps_followers rfl) hx (fun y _ _ hy => hend y hy)
          fun y _ hy => hend y hy

end Publish

/-! ## The functions -/

/-- How a call ends: at rest, if it was inside. -/
def Ends (uid : String) {α : Type} (_ : α) (g : Bool) (s : World) : Prop :=
  Pool.Leaves (fun w => (view uid w).AtRest) g s

section Functions

variable {α β : Type} {env : Env} {uid uid₀ : String} {g : Bool} {v : View} {s : World}

theorem Ends.stable {a : α} {t : World} (h : Ends uid a g s)
    (hst : (contract uid).rely g s t) (b : β) : Ends uid b g t := by
  intro hg
  rw [hst.2.2 hg]
  exact h hg

theorem ends_done {a : α} (hs : Sees uid g v s) (hrest : g = true → v.AtRest) :
    (done a : Task α).Meets (contract uid) (Ends uid) (Ends uid) g s :=
  fun _ hst => (hs.stable hst).leaves hrest

theorem meets_discarded {p : Task α} (h : p.Meets (contract uid) (Ends uid) (Ends uid) g s) :
    (discard p : Task Unit).Meets (contract uid) (Ends uid) (Ends uid) g s :=
  meets_bind (meets_mono (fun _ _ _ hend _ hst => hend.stable hst ()) (fun _ _ _ h => h) h)

/-- The invoice is settled, or its hash is another's. -/
theorem meets_settle_bind {invoice : Invoice} {option : PaymentOption}
    {transaction : Transaction} {status : InvoiceStatus} {f : Time → Invoice → Invoice}
    {hid : ∀ t r, Record.id (f t r) = Record.id r} {k : Invoice → Task β}
    (h : Writes uid option.invoice_uid g) (hhas : HasInvoice invoice.id option.invoice_uid s)
    (hf : ∀ now x, (f now x).id = x.id ∧ (f now x).uid = x.uid ∧ (f now x).status = status)
    (hs : Sees uid g v s) (hrest : g = true → v.AtRest)
    (hbusy : g = true → v.Busy → ({ v with statuses := [status] } : View).Busy)
    (hk : ∀ t r, Grows s t → Sees uid g { v with statuses := [status] } t →
      (k r).Meets (contract uid) (Ends uid) (Ends uid) g t) :
    ((settleInvoice invoice option transaction status f hid).bind k).Meets (contract uid)
      (Ends uid) (Ends uid) g s := by
  refine meets_bind (meets_step fun t hst c _ => ?_)
  cases hupdate : t.invoices.update? invoice.id (f c.now) (hid c.now) with
  | ok q =>
      obtain ⟨row, tb⟩ := q
      obtain ⟨r, hr, hi, rfl, hrows, -, -⟩ := Table.update?_ok hupdate
      obtain ⟨r₀, hr₀, hi₀, hu₀⟩ := hhas.grows hst.1
      obtain rfl : r = r₀ := Table.eq_of_id hr hr₀ (Eq.trans hi hi₀.symm)
      obtain ⟨hguar, hsees⟩ := guar_of_status (t := { t with
        invoices := tb
        settlements := t.settlements ++ [⟨invoice.id, option.invoice_uid, option.chain,
          option.currency, transaction, status⟩] })
        h hr hu₀ (by rw [hrows, hi₀]) (hf c.now) rfl rfl (hs.stable hst) hbusy
      exact ⟨g, hguar, fun a _ u hu =>
        meets_mono_rely (hk _ a (hst.1.trans hguar.2.1) hsees) hu, fun _ he => (nomatch he)⟩
  | error e =>
      exact ⟨g, (contract uid).guar_refl g t, fun _ ha => (nomatch ha),
        fun _ _ u hu => ((hs.stable hst).stable hu).leaves hrest⟩

/-- A row of the invoice gets a status, by an update that takes no hash. -/
theorem meets_status_bind {i : Nat} {status : InvoiceStatus} {f : Time → Invoice → Invoice}
    {hid : ∀ t r, Record.id (f t r) = Record.id r} {k : Invoice → Task β}
    (h : Writes uid uid₀ g) (hhas : HasInvoice i uid₀ s)
    (hf : ∀ now x, (f now x).id = x.id ∧ (f now x).uid = x.uid ∧ (f now x).status = status)
    (hs : Sees uid g v s) (hrest : g = true → v.AtRest)
    (hbusy : g = true → v.Busy → ({ v with statuses := [status] } : View).Busy)
    (hk : ∀ t r, Grows s t → Sees uid g { v with statuses := [status] } t →
      (k r).Meets (contract uid) (Ends uid) (Ends uid) g t) :
    ((prisma.invoices.update i f hid).bind k).Meets (contract uid) (Ends uid) (Ends uid)
      g s := by
  refine Delegate.meets_update_bind (fun t hst now tb r hr hi hrows _ => ?_)
    fun t hst _ _ _ u hu => ((hs.stable hst).stable hu).leaves hrest
  obtain ⟨r₀, hr₀, hi₀, hu₀⟩ := hhas.grows hst.1
  obtain rfl : r = r₀ := Table.eq_of_id hr hr₀ (Eq.trans hi hi₀.symm)
  obtain ⟨hguar, hsees⟩ := guar_of_status (t := { t with invoices := tb }) h hr hu₀
    (by rw [hi₀]; exact hrows) (hf now) rfl rfl (hs.stable hst) hbusy
  exact ⟨g, hguar, hk _ _ (hst.1.trans hguar.2.1) hsees⟩

/-- A payment is added. -/
theorem meets_createPayment_bind {mk : Time → Nat → Payment}
    {hid : ∀ t n, Record.id (mk t n) = n} {k : Payment → Task β} (hs : Sees uid g v s)
    (hrest : g = true → v.AtRest)
    (hk : ∀ t p, Grows s t → Sees uid g v t →
      (k p).Meets (contract uid) (Ends uid) (Ends uid) g t) :
    ((prisma.payments.create mk hid).bind k).Meets (contract uid) (Ends uid) (Ends uid)
      g s := by
  refine Delegate.meets_create_bind (fun t hst now tb hrows => ?_)
    fun t hst => (hs.stable hst).leaves hrest
  have hgrows : Grows t { t with payments := tb } := .of_create rfl hrows
  obtain ⟨hguar, hsees⟩ := guar_of_payments hgrows rfl rfl (hs.stable hst)
  exact ⟨g, hguar, hk _ _ (hst.1.trans hgrows) hsees⟩

/-- A payment is written, but for what it is about. -/
theorem meets_updatePayment_bind {i : Nat} {f : Time → Payment → Payment}
    {hid : ∀ t r, Record.id (f t r) = Record.id r} {k : Payment → Task β}
    (hf : ∀ now x, (f now x).id = x.id ∧ (f now x).invoice_uid = x.invoice_uid ∧
      (f now x).txid = x.txid)
    (hs : Sees uid g v s) (hrest : g = true → v.AtRest)
    (hk : ∀ t p, Grows s t → Sees uid g v t →
      (k p).Meets (contract uid) (Ends uid) (Ends uid) g t) :
    ((prisma.payments.update i f hid).bind k).Meets (contract uid) (Ends uid) (Ends uid)
      g s := by
  refine Delegate.meets_update_bind (fun t hst now tb r _ _ hrows _ => ?_)
    fun t hst _ _ _ u hu => ((hs.stable hst).stable hu).leaves hrest
  have hgrows : Grows t { t with payments := tb } := .of_payments rfl hrows (hf now)
  obtain ⟨hguar, hsees⟩ := guar_of_payments hgrows rfl rfl (hs.stable hst)
  exact ⟨g, hguar, hk _ _ (hst.1.trans hgrows) hsees⟩

/-- A row is looked up. -/
theorem meets_find_bind {α : Type} [Record α] {d : Delegate α} {where_ : α → Bool}
    {k : α → Task β} (hs : Sees uid g v s) (hrest : g = true → v.AtRest)
    (hk : ∀ t, Grows s t → Sees uid g v t → ∀ r ∈ (d.get t).rows, where_ r = true →
      (k r).Meets (contract uid) (Ends uid) (Ends uid) g t) :
    ((d.findFirstOrThrow where_).bind k).Meets (contract uid) (Ends uid) (Ends uid) g s :=
  Delegate.meets_findFirstOrThrow_bind (fun t hst r hr hw => hk t hst.1 (hs.stable hst) r hr hw)
    fun _ hst _ _ hu => ((hs.stable hst).stable hu).leaves hrest

/-- The row read back has the status that was written. -/
theorem Sees.status {r : Invoice} {status : InvoiceStatus}
    (hs : Sees uid g { v with statuses := [status] } s) (hr : r ∈ s.invoices.rows)
    (hu : g = true → r.uid = uid) (hg : g = true) : r.status = status := by
  obtain ⟨-, hview⟩ := hs hg
  have hmem : r.status ∈ (view uid s).statuses :=
    List.mem_map.mpr ⟨r, List.mem_filter.mpr ⟨hr, by simpa using hu hg⟩, rfl⟩
  rw [hview] at hmem
  exact List.mem_singleton.mp hmem

/-- `completePayment` from outside, or of a payment that need not wait, for an
invoice not announced yet. -/
theorem meets_completePayment {option : PaymentOption} {transaction : Transaction}
    {confirming : Bool} (h : Writes uid option.invoice_uid g) (hs : Sees uid g v s)
    (hrest : g = true → v.AtRest)
    (hfits : g = true → confirming = false ∧ v.announced = 0) :
    (completePayment env option transaction confirming).Meets (contract uid) (Ends uid)
      (Ends uid) g s := by
  have hstatus : g = true → (if confirming then InvoiceStatus.confirming else .paid) = .paid := by
    intro hg
    rw [(hfits hg).1]
    rfl
  unfold completePayment
  simp only [bind_eq, pure_eq]
  refine meets_silent_bind (keeps_paymentTxid _ _ _ _) hs (fun t txid _ ht => ?_)
    fun _ _ ht => ht.leaves hrest
  refine meets_find_bind ht hrest fun u _ hu r hr hw => ?_
  have hhas : HasInvoice r.id option.invoice_uid u := ⟨r, hr, rfl, by simpa using hw⟩
  refine meets_createPayment_bind hu hrest fun x _ hgrows hx => ?_
  refine meets_settle_bind h (hhas.grows hgrows) (fun _ _ => ⟨rfl, rfl, rfl⟩) hx hrest
    (fun hg hb => ?_) fun y _ hsettled hy => ?_
  · rw [hstatus hg]
    exact ⟨hb.never_twice, fun hmem => by simp at hmem, hb.accepted⟩
  refine Delegate.meets_findFirstOrThrow_bind (fun z hz r' hr' hw' => ?_)
    fun z hz hnone _ _ => ?_
  swap
  · obtain ⟨x, hx, -, hxu⟩ := ((hhas.grows hgrows).grows hsettled).grows hz.1
    have hno := hnone x hx
    simp [hxu] at hno
  have hu' : r'.uid = option.invoice_uid := by simpa using hw'
  have hpaid : g = true → r'.status = .paid := fun hg =>
    ((hy.stable hz).status hr' (fun hg => hu'.trans (h.inside hg)) hg).trans (hstatus hg)
  refine meets_publishPaid_bind (hu' ▸ h) (hy.stable hz) hpaid (fun hg hb => ?_)
    fun a ha => ?_
  · refine ⟨?_, fun hmem => ?_, hb.accepted⟩
    · show v.announced + 1 ≤ 1
      rw [(hfits hg).2]
    · rw [List.mem_singleton] at hmem
      exact absurd (hmem.trans (hstatus hg)) (by decide)
  · have hend : g = true → View.AtRest ⟨[if confirming then .confirming else .paid],
        v.announced + 1, v.refused⟩ := by
      intro hg _
      show v.announced + 1 = 1
      rw [(hfits hg).2]
    exact meets_silent_bind (keeps_spawn _ fun _ => rfl) ha
      (fun b _ _ hb => ends_done hb hend) fun b _ hb => hb.leaves hend

/-- `handleUnconfirmedPayment` from outside, or for an invoice not announced yet. -/
theorem meets_handleUnconfirmedPayment {option : PaymentOption} {transaction : Transaction}
    (h : Writes uid option.invoice_uid g) (hs : Sees uid g v s) (hrest : g = true → v.AtRest)
    (hfits : g = true → v.announced = 0) :
    (handleUnconfirmedPayment env option transaction).Meets (contract uid) (Ends uid)
      (Ends uid) g s := by
  unfold handleUnconfirmedPayment
  simp only [bind_eq, pure_eq]
  refine meets_silent_bind (keeps_ofExcept _) hs (fun t tx _ ht => ?_)
    fun _ _ ht => ht.leaves hrest
  refine meets_find_bind ht hrest fun u _ hu r hr hw => ?_
  have hhas : HasInvoice r.id option.invoice_uid u := ⟨r, hr, rfl, by simpa using hw⟩
  refine meets_createPayment_bind hu hrest fun x _ hgrows hx => ?_
  refine meets_settle_bind h (hhas.grows hgrows) (fun _ _ => ⟨rfl, rfl, rfl⟩) hx hrest
    (fun hg hb => ⟨hb.never_twice, fun _ => hfits hg, hb.accepted⟩) fun y _ _ hy => ?_
  have hend : g = true → View.AtRest ⟨[.confirming], v.announced, v.refused⟩ := by
    intro _ hmem
    simp at hmem
  exact meets_silent_bind (keeps_publish_other _ (by decide)) hy
    (fun b _ _ hb => ends_done hb hend) fun b _ hb => hb.leaves hend

/-- `confirmPayment` of a genuine copy: it announces nothing. -/
theorem meets_confirmPayment {payment : Payment} {confirmation : Confirmation}
    (h : Writes uid payment.invoice_uid g) (hp : HasPayment payment.id payment.invoice_uid s)
    (hs : Sees uid g v s) (hrest : g = true → v.AtRest)
    (hfits : g = true → (nonEmpty payment.confirmation_hash).isSome = true ∨
      v.announced = 1) :
    (confirmPayment payment confirmation).Meets (contract uid) (Ends uid) (Ends uid) g s := by
  unfold confirmPayment
  split
  · exact ends_done hs hrest
  · rename_i hunconfirmed
    have hannounced : g = true → v.announced = 1 := fun hg =>
      (hfits hg).resolve_left hunconfirmed
    simp only [bind_eq, pure_eq]
    refine meets_updatePayment_bind (fun _ _ => ⟨rfl, rfl, rfl⟩) hs hrest
      fun t _ hst ht => ?_
    refine meets_find_bind ht hrest fun u htu hu p hpu hpid => ?_
    obtain ⟨p₀, hp₀, hid₀, huid₀⟩ := (hp.grows hst).grows htu
    obtain rfl : p = p₀ := Table.eq_of_id hpu hp₀ ((eq_of_beq hpid).trans hid₀.symm)
    refine meets_find_bind hu hrest fun x _ hx r hr hw => ?_
    have hhas : HasInvoice r.id payment.invoice_uid x :=
      ⟨r, hr, rfl, (eq_of_beq hw).trans huid₀⟩
    refine meets_status_bind h hhas (fun _ _ => ⟨rfl, rfl, rfl⟩) hx hrest
      (fun hg hb => ⟨hb.never_twice, fun hmem => by simp at hmem, hb.accepted⟩)
      fun y _ _ hy => ?_
    have hend : g = true → View.AtRest ⟨[.paid], v.announced, v.refused⟩ :=
      fun hg _ => hannounced hg
    refine meets_silent_bind (keeps_publish_other _ (by decide)) hy (fun z _ _ hz => ?_)
      fun _ _ hz => hz.leaves hend
    refine meets_silent_bind (keeps_createAndSendWebhook _ _) hz
      (fun _ _ _ ha => ends_done ha hend) fun _ _ ha => ha.leaves hend

/-- `confirmTransaction` from outside, or for an invoice that waits or was announced. -/
theorem meets_confirmTransaction {payment : Payment} {found : Option Confirmation}
    (h : Writes uid payment.invoice_uid g) (hs : Sees uid g v s) (hbusy : g = true → v.Busy)
    (hrest : g = true → v.AtRest)
    (hfits : g = true → v.announced = 1 ∨ v.announced = 0 ∧ ∀ st ∈ v.statuses, st = .confirming) :
    (confirmTransaction payment found).Meets (contract uid) (Ends uid) (Ends uid) g s := by
  have hblock : (blockOf found).Keeps (frame uid) := by
    cases found with
    | some transaction => exact trivial
    | none => exact keeps_ask _
  unfold confirmTransaction
  simp only [bind_eq, pure_eq]
  refine meets_silent_bind hblock hs (fun t _ _ ht => ?_) fun _ _ ht => ht.leaves hrest
  refine meets_find_bind ht hrest fun u _ hu p _ _ => ?_
  refine meets_silent_bind (keeps_publish_other _ (by decide)) hu (fun x _ _ hx => ?_)
    fun _ _ hx => hx.leaves hrest
  refine meets_find_bind hx hrest fun y _ hy r hr hw => ?_
  have huid : r.uid = payment.invoice_uid := eq_of_beq hw
  have hread : g = true → r.status ∈ v.statuses := by
    intro hg
    obtain ⟨-, hview⟩ := hy hg
    rw [← hview]
    exact List.mem_map.mpr
      ⟨r, List.mem_filter.mpr ⟨hr, by simpa using huid.trans (h.inside hg)⟩, rfl⟩
  have hhas : HasInvoice r.id payment.invoice_uid y := ⟨r, hr, rfl, huid⟩
  refine meets_status_bind h hhas (fun _ _ => ⟨rfl, rfl, rfl⟩) hy hrest
    (fun hg hb => ⟨hb.never_twice, fun hmem => by simp at hmem, hb.accepted⟩)
    fun z _ hgrows hz => ?_
  refine Delegate.meets_findFirstOrThrow_bind (fun a ha r' hr' hid => ?_)
    fun a ha hnone _ _ => ?_
  swap
  · obtain ⟨x, hx, hxi, -⟩ := (hhas.grows hgrows).grows ha.1
    have hno := hnone x hx
    simp [hxi] at hno
  obtain ⟨r₁, hr₁, hid₁, huid₁⟩ := (hhas.grows hgrows).grows ha.1
  obtain rfl : r' = r₁ := Table.eq_of_id hr' hr₁ ((eq_of_beq hid).trans hid₁.symm)
  have hsa := hz.stable ha
  by_cases hconfirming : r.status = .confirming
  · rw [if_pos hconfirming]
    have hzero : g = true → v.announced = 0 := fun hg =>
      (hbusy hg).not_waiting (hconfirming ▸ hread hg)
    have hend : g = true → View.AtRest ⟨[.paid], v.announced + 1, v.refused⟩ := by
      intro hg _
      show v.announced + 1 = 1
      rw [hzero hg]
    refine @meets_publish_bind _ _ _ uid g _ a ("invoice.paid", r'.toJson) _
      ⟨[.paid], v.announced + 1, v.refused⟩ (fun b hb => ?_) hsa fun b hb => ?_
    · refine guar_of_announcement (v := ⟨[.paid], v.announced, v.refused⟩)
        (t := sending b [("invoice.paid", r'.toJson)]) (huid₁ ▸ h) announces_row refused_row
        rfl rfl rfl hb fun hg hbz => ⟨?_, fun hmem => by simp at hmem, hbz.accepted⟩
      show v.announced + 1 ≤ 1
      rw [hzero hg]
    · exact meets_silent_bind (keeps_spawn _ fun _ => rfl) hb
        (fun _ _ _ hc => ends_done hc hend) fun _ _ hc => hc.leaves hend
  · rw [if_neg hconfirming]
    have hend : g = true → View.AtRest ⟨[.paid], v.announced, v.refused⟩ := by
      intro hg _
      rcases hfits hg with hone | ⟨-, hall⟩
      · exact hone
      · exact absurd (hall _ (hread hg)) hconfirming
    exact meets_silent_bind (keeps_spawn _ fun _ => rfl) hsa
      (fun _ _ _ hc => ends_done hc hend) fun _ _ hc => hc.leaves hend

/-- `revertPayment`, whichever invoice has the hash. -/
theorem meets_revertPayment {txid : String} (hs : Sees uid true v s) (hrest : v.AtRest) :
    (revertPayment txid).Meets (contract uid) (Ends uid) (Ends uid) true s := by
  unfold revertPayment
  simp only [bind_eq]
  refine meets_find_bind hs (fun _ => hrest) fun t _ ht r hr _ => ?_
  refine meets_find_bind ht (fun _ => hrest) fun u hgrows hu p _ _ => ?_
  have hhas : HasInvoice r.id r.uid u := HasInvoice.grows ⟨r, hr, rfl, rfl⟩ hgrows
  have hrest' : ∀ (x : World) (v' : View), Sees uid true v' x → v'.AtRest →
      ((prisma.payments.update p.id fun _ p => { p with status := .failed }).bind fun _ =>
        (prisma.payments.findFirstOrThrow fun q => q.id == p.id).bind fun payment =>
          publish "payment.reverted" (.obj [("payment", payment.toJson), ("invoice", r.toJson)])
        ).Meets (contract uid) (Ends uid) (Ends uid) true x := by
    intro x v' hx hv'
    refine meets_updatePayment_bind (fun _ _ => ⟨rfl, rfl, rfl⟩) hx (fun _ => hv')
      fun y _ _ hy => ?_
    refine meets_find_bind hy (fun _ => hv') fun z _ hz q _ _ => ?_
    rw [← Proc.bind_done (publish _ _)]
    exact meets_silent_bind (keeps_publish_other _ (by decide)) hz
      (fun _ _ _ ha => ends_done ha fun _ => hv') fun _ _ ha => ha.leaves fun _ => hv'
  by_cases huid : r.uid = uid
  · have hwrites : Writes uid uid true := ⟨fun _ => rfl, fun hg => by cases hg⟩
    refine meets_status_bind hwrites (huid ▸ hhas) (fun _ _ => ⟨rfl, rfl, rfl⟩) hu
      (fun _ => hrest) (fun _ hb => ⟨hb.never_twice, fun hmem => by simp at hmem, hb.accepted⟩)
      fun x _ _ hx => hrest' x _ hx fun hmem => by simp at hmem
  · refine Delegate.meets_update_bind (fun x hx now tb r' hr' hi hrows _ => ?_)
      fun x hx _ _ _ _ hy => ((hu.stable hx).stable hy).leaves fun _ => hrest
    obtain ⟨r₀, hr₀, hi₀, hu₀⟩ := hhas.grows hx.1
    obtain rfl : r' = r₀ := Table.eq_of_id hr' hr₀ (Eq.trans hi hi₀.symm)
    have hgrows' : Grows x { x with invoices := tb } := .of_invoices hrows rfl fun _ => ⟨rfl, rfl⟩
    have hnames : World.names { x with invoices := tb } = x.names :=
      World.names_patch hrows fun _ => ⟨rfl, rfl⟩
    have hview : view uid { x with invoices := tb } = view uid x :=
      view_of_other (f := fun r => { r with status := .unpaid, hash := none }) hr' (hu₀ ▸ huid)
        (by rw [hi₀]; exact hrows) (fun _ => rfl) rfl
    exact ⟨true, guar_of_view hgrows' hnames hview,
      hrest' _ _ ((hu.stable hx).of_view hnames hview) hrest⟩

theorem keeps_publishEvent_other {key : String} {e : Event} (hkey : key ≠ "invoice.paid") :
    (publishEvent key e).Keeps (frame uid) := by
  have hrest : (Proc.bind (publish key e.toJson) fun _ =>
      (forEach (followers "apps" e.app_id e.topic) fun k => publish k e.toJson).bind fun _ =>
        forEach (followers "accounts" e.account_id e.topic) fun k =>
          publish k e.toJson).Keeps (frame uid) :=
    keeps_bind (keeps_publish_other _ hkey) fun _ =>
      keeps_bind (keeps_followers rfl) fun _ => keeps_followers rfl
  unfold publishEvent
  refine keeps_bind (keeps_publish_other _ hkey) fun _ => ?_
  split
  · split
    · exact hrest
    · exact trivial
  · exact hrest

/-- `cancelInvoice` of a genuine copy. -/
theorem meets_cancelInvoice {invoice : Invoice} (h : Writes uid invoice.uid g)
    (hhas : HasInvoice invoice.id invoice.uid s) (hs : Sees uid g v s)
    (hrest : g = true → v.AtRest) :
    (cancelInvoice invoice).Meets (contract uid) (Ends uid) (Ends uid) g s := by
  unfold cancelInvoice
  split
  · exact fun t hst => (hs.stable hst).leaves hrest
  · simp only [bind_eq, pure_eq]
    refine meets_status_bind h hhas (fun _ _ => ⟨rfl, rfl, rfl⟩) hs hrest
      (fun _ hb => ⟨hb.never_twice, fun hmem => by simp at hmem, hb.accepted⟩)
      fun t _ _ ht => ?_
    have hend : g = true → View.AtRest ⟨[.cancelled], v.announced, v.refused⟩ := by
      intro _ hmem
      simp at hmem
    refine meets_find_bind ht hend fun u _ hu r _ _ => ?_
    exact meets_silent_bind (keeps_detached (keeps_publishEvent_other (by decide))) hu
      (fun _ _ _ hx => ends_done hx hend) fun _ _ hx => hx.leaves hend

end Functions

/-! ## Any number of calls -/

section Calls

variable {env : Env} {uid : String} {w : World}

/-- A call on the invoice that keeps to the right paths. -/
theorem meets_inside {call : Call} (hone : w.OneInvoice uid) (hbusy : (view uid w).Busy)
    (hrest : (view uid w).AtRest) (hgenuine : Genuine w call) (hconcerns : concerns uid call)
    (hfits : Fits uid w call) :
    (code env call).Meets (contract uid) (Ends uid) (Ends uid) true w := by
  have hwrites : ∀ {uid₀ : String}, uid₀ = uid → Writes uid uid₀ true := fun h =>
    ⟨fun _ => h, fun hg => nomatch hg⟩
  have hsees : Sees uid true (view uid w) w := fun _ => ⟨hone, rfl⟩
  have hannounced : announcements uid w ≠ 0 → (view uid w).announced = 1 := by
    intro hne
    have hle : announcements uid w ≤ 1 := hbusy.never_twice
    show announcements uid w = 1
    omega
  cases call with
  | completePayment option transaction confirming =>
      exact meets_discarded (meets_completePayment (hwrites hconcerns) hsees (fun _ => hrest)
        fun _ => hfits)
  | handleUnconfirmedPayment option transaction =>
      exact meets_discarded (meets_handleUnconfirmedPayment (hwrites hconcerns) hsees
        (fun _ => hrest) fun _ => hfits)
  | confirmPayment payment confirmation =>
      exact meets_discarded (meets_confirmPayment (hwrites hconcerns) hgenuine hsees
        (fun _ => hrest) fun _ => hfits.imp_right hannounced)
  | confirmTransaction payment found =>
      refine meets_discarded (meets_confirmTransaction (hwrites hconcerns) hsees
        (fun _ => hbusy) (fun _ => hrest) fun _ => ?_)
      by_cases hzero : announcements uid w = 0
      · refine .inr ⟨hzero, fun st hst => ?_⟩
        obtain ⟨r, hr, rfl⟩ := List.mem_map.mp hst
        obtain ⟨hr, hu⟩ := List.mem_filter.mp hr
        exact hfits.resolve_left (not_not_intro hzero) r hr (by simpa using hu)
      · exact .inl (hannounced hzero)
  | revertPayment txid => exact meets_revertPayment hsees hrest
  | cancelInvoice invoice =>
      exact meets_discarded (meets_cancelInvoice (hwrites hconcerns) hgenuine hsees
        fun _ => hrest)

/-- A call on other invoices. -/
theorem meets_outside {call : Call} (hgenuine : Genuine w call)
    (hconcerns : ¬ concerns uid call) :
    (code env call).Meets (contract uid) (Ends uid) (Ends uid) false w := by
  have hwrites : ∀ {uid₀ : String}, uid₀ ≠ uid → Writes uid uid₀ false := fun h =>
    ⟨fun hg => (nomatch hg), fun _ => h⟩
  have hsees : Sees uid false (view uid w) w := fun hg => nomatch hg
  cases call with
  | completePayment option transaction confirming =>
      exact meets_discarded (meets_completePayment (hwrites hconcerns) hsees
        (fun hg => nomatch hg) fun hg => nomatch hg)
  | handleUnconfirmedPayment option transaction =>
      exact meets_discarded (meets_handleUnconfirmedPayment (hwrites hconcerns) hsees
        (fun hg => nomatch hg) fun hg => nomatch hg)
  | confirmPayment payment confirmation =>
      exact meets_discarded (meets_confirmPayment (hwrites hconcerns) hgenuine hsees
        (fun hg => nomatch hg) fun hg => nomatch hg)
  | confirmTransaction payment found =>
      exact meets_discarded (meets_confirmTransaction (hwrites hconcerns) hsees
        (fun hg => nomatch hg) (fun hg => nomatch hg) fun hg => nomatch hg)
  | revertPayment txid => exact absurd trivial hconcerns
  | cancelInvoice invoice =>
      exact meets_discarded (meets_cancelInvoice (hwrites hconcerns) hgenuine hsees
        fun hg => nomatch hg)

theorem promised_iff {p : Calls} : Promised uid p ↔
    (view uid p.state).Busy ∧ (p.Idle (concerns uid) → (view uid p.state).AtRest) := by
  have hstatus : ∀ st, st ∈ (view uid p.state).statuses ↔
      ∃ r ∈ p.state.invoices.rows, r.uid = uid ∧ r.status = st := by
    intro st
    simp [view, and_assoc]
  constructor
  · intro h
    refine ⟨⟨h.never_twice, fun hmem => ?_, h.accepted⟩, fun hidle hmem => ?_⟩
    · obtain ⟨r, hr, hu, hst⟩ := (hstatus _).mp hmem
      exact h.not_waiting r hr hu hst
    · obtain ⟨r, hr, hu, hst⟩ := (hstatus _).mp hmem
      exact h.once hidle r hr hu hst
  · rintro ⟨hbusy, hrest⟩
    exact ⟨fun hidle r hr hu hst => hrest hidle ((hstatus _).mpr ⟨r, hr, hu, hst⟩),
      hbusy.never_twice,
      fun r hr hu hst => hbusy.not_waiting ((hstatus _).mpr ⟨r, hr, hu, hst⟩),
      hbusy.accepted⟩

end Calls

/-- **One announcement.** In every run whose calls on the invoice take turns and keep
to the right paths, whatever other calls run beside them. -/
theorem announced_once (env : Env) (uid : String) (w : World) (hone : w.OneInvoice uid)
    (hw : Promised uid (Pool.init w)) (p : Calls)
    (h : Pool.Reaches (code env) (takingTurns uid) (Pool.init w) p) : Promised uid p := by
  obtain ⟨hbusy, hrest⟩ := promised_iff.mp hw
  have hidle : (Pool.init w : Calls).Idle (concerns uid) := by
    intro th hth
    simp [Pool.init] at hth
  have hend := Pool.turns_reaches (exclusive uid)
    (fun p call hp hm hkind => ⟨(hm.2 hkind).1, fun hr =>
      meets_inside hp.1 hp.2 hr hm.1 hkind (hm.2 hkind).2⟩)
    (fun p call _ hm hkind => meets_outside hm.1 hkind)
    (fun _ _ _ _ _ => trivial) ⟨hone, hbusy⟩ (hrest hidle) h
  exact promised_iff.mpr ⟨hend.1.2, hend.2⟩

/-! ## An invoice that waits for its block -/

def sent : Payment := { id := 1, txid := "t1", currency := "BTC", invoice_uid := "inv" }

def waiting : World :=
  { invoices := .single { id := 1, uid := "inv", status := .confirming, complete := true,
                          hash := some "t1" },
    payments := .single sent }

def found : Confirmation :=
  { confirmation_hash := "b1", confirmation_height := 7, confirmation_date := 0 }

theorem waiting_one : waiting.OneInvoice "inv" := by
  intro r hr r' hr' _ _
  rw [List.mem_singleton.mp hr, List.mem_singleton.mp hr']

theorem waiting_promised : Promised "inv" (Pool.init waiting) where
  once _ r hr _ hpaid := by
    rw [List.mem_singleton.mp hr] at hpaid
    cases hpaid
  never_twice := Nat.zero_le 1
  not_waiting _ _ _ _ := rfl
  accepted := rfl

/-- The invoice is paid, no call is under way, and this many messages announced it. -/
def endsPaid (n : Nat) (p : Calls) : Bool :=
  p.threads.all (fun th => !th.2.running) &&
    (p.state.invoices.rows.any fun r => r.uid == "inv" && r.status == .paid) &&
    announcements "inv" p.state == n

/-- Confirmed by `confirmPayment` it is paid, and nobody is told. -/
theorem never_announced :
    ¬ ∀ (env : Env) (uid : String) (w : World) (p : Calls), w.OneInvoice uid →
      Promised uid (Pool.init w) → Pool.Reaches (code env) anyOrder (Pool.init w) p →
      Promised uid p := by
  intro h
  have hadm : Pool.Admitted (code {}) anyOrder
      (.start (.confirmPayment sent found) :: Pool.steps 0 5 {}) (Pool.init waiting) :=
    ⟨⟨sent, List.mem_singleton.mpr rfl, rfl, rfl⟩, fun q _ =>
      Pool.admitted_steps (fun _ _ _ => trivial) 0 5 {} q⟩
  obtain ⟨p, hreach, hpaid⟩ := Pool.exists_reaches (endsPaid 0) hadm (by decide +kernel)
  simp only [endsPaid, Bool.and_eq_true, List.all_eq_true, List.any_eq_true, beq_iff_eq] at hpaid
  obtain ⟨⟨hended, r, hr, hu, hstatus⟩, hnone⟩ := hpaid
  have hidle : p.Idle (concerns "inv") := by
    intro th hth hrun
    have hno := hended th hth
    rw [hrun] at hno
    cases hno
  have honce := (h {} "inv" waiting p waiting_one waiting_promised hreach).once hidle r hr hu
    hstatus
  rw [hnone] at honce
  cases honce

/-- Confirmed by blockcypher it is announced once. -/
theorem announced_by_block : ∃ p : Calls,
    Pool.Reaches (code {}) (takingTurns "inv") (Pool.init waiting) p ∧
      endsPaid 1 p = true ∧ Promised "inv" p := by
  have hadm : Pool.Admitted (code {}) (takingTurns "inv")
      (.start (.confirmTransaction sent (some found)) :: Pool.steps 0 7 {})
      (Pool.init waiting) := by
    refine ⟨⟨trivial, fun _ => ⟨fun _ hth => (nomatch hth), .inr fun r hr _ => ?_⟩⟩, fun q _ =>
      Pool.admitted_steps (fun _ _ _ => trivial) 0 7 {} q⟩
    rw [List.mem_singleton.mp hr]
  obtain ⟨p, hreach, hpaid⟩ := Pool.exists_reaches (endsPaid 1) hadm (by decide +kernel)
  exact ⟨p, hreach, hpaid, announced_once {} "inv" waiting waiting_one waiting_promised p hreach⟩

end Announcing

end Anypay
