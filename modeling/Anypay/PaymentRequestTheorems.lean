/-
Anypay.PaymentRequestTheorems — a new payment request beside the invoices there
are.

Every lookup of the server is by uid, and no table has a unique uid. So a new
invoice leaves the others alone just where its uid is new: a uid that is taken
puts rows of its own under every query for the other invoice. The uid comes from
`shortid`, unless the request's options have one, which is then taken as it is.

`Adds` is what creating writes, one function at a time (`wp_…`). A reader of
another uid cannot tell the world before from the world after (`Blind`), so it
returns the same (`Adds.shown`).
-/
import Anypay.QuoteTheorems

namespace Anypay

open Store Async Proc

namespace Requests

/-! ## What is written -/

/-- One invoice more, and perhaps options of it. -/
structure Adds (w t : World) (r : Invoice) : Prop where
  invoices : t.invoices.rows = w.invoices.rows ++ [r]
  id : r.id = w.invoices.next
  options : ∃ added, t.paymentOptions.rows = w.paymentOptions.rows ++ added ∧
    ∀ o ∈ added, o.invoice_uid = r.uid

/-- The world with one invoice more. -/
def WithInvoice (w : World) (r : Invoice) (t : World) : Prop :=
  ∃ tb, t = { w with invoices := tb } ∧ tb.rows = w.invoices.rows ++ [r] ∧
    r.id = w.invoices.next

/-- The uid the options ask for, as the spread copies it. -/
def optionsUid (options : Option Json) : Option Json :=
  Json.field "uid" (Json.spread [] (some (options.getD (.obj []))))

/-- The uid an invoice gets: the options' where that is truthy, else a generated
one. -/
def Chosen (A : Answer → Prop) (given : Option Json) (uid : String) : Prop :=
  if Json.truthy given then given = some (.str uid) else ∃ c, A c ∧ uid = c.shortid

/-- What creating a payment request leaves behind, ended or not. -/
def Outcome (A : Answer → Prop) (given : Option Json) (w t : World) : Prop :=
  (t.invoices = w.invoices ∧ t.paymentOptions = w.paymentOptions) ∨
    ∃ r, Adds w t r ∧ Chosen A given r.uid

/-- What a request that was created offers: for each entry of its template an
option of the invoice. -/
structure Requested (env : Env) (prices : Prices) (template : List Json) (w t : World)
    (r : Invoice) (request : PaymentRequest) : Prop where
  entries : env.paymentRequestTemplate template = some request.template
  uid : request.invoice_uid = some r.uid
  mem : request ∈ t.paymentRequests.rows
  id : request.id = w.paymentRequests.next
  options : ∃ added, t.paymentOptions.rows = w.paymentOptions.rows ++ added ∧
    List.Forall₂ (fun entry o => o.invoice_uid = r.uid ∧ OfEntry env prices entry o)
      request.template added

/-- What a property reads back does not depend on what else was spread over. -/
theorem field_spread_congr {k : String} {fields fields' : List (String × Json)}
    {x : Option Json} (h : Json.field k fields = Json.field k fields') :
    Json.field k (Json.spread fields x) = Json.field k (Json.spread fields' x) := by
  unfold Json.spread
  generalize Json.ownProps x = props
  induction props generalizing fields fields' with
  | nil => exact h
  | cons kv props ih =>
      rw [List.foldl_cons, List.foldl_cons]
      apply ih
      rw [Json.field_assign, Json.field_assign, h]

theorem emptyInvoiceOptions_uid (currency : Option Json) (amount : Option Rat)
    (options : Option Json) :
    Json.field "uid" (emptyInvoiceOptions currency amount (options.getD (.obj []))) =
      optionsUid options := by
  apply field_spread_congr
  cases currency <;> rfl

section Wp

variable {A : Answer → Prop} {env : Env} {s w : World} {fields : List (String × Json)}

theorem emptyInvoice_uid {app_id : Int} {app : App} {uid : Json} {r : Invoice}
    (h : emptyInvoice env app_id app uid fields = .ok r) : uid = .str r.uid := by
  unfold emptyInvoice at h
  obtain ⟨u, hu, h⟩ := except_bind_ok.mp h
  simp only [except_bind_ok] at h
  obtain ⟨_, -, _, -, _, -, _, -, _, -, _, -, _, -, _, -, _, -, h⟩ := h
  obtain rfl := Except.ok.inj h
  cases uid with
  | str text =>
      simp only [requiredText] at hu
      split at hu
      · rw [Except.ok.inj hu]
      · cases hu
  | null => cases hu
  | bool b => cases hu
  | num q => cases hu
  | arr xs => cases hu
  | obj fields => cases hu

theorem wp_chooseUid : (chooseUid fields).wp A
    (fun uid t => t = s ∧ ∀ text, uid = .str text → Chosen A (Json.field "uid" fields) text)
    (fun _ t => t = s) s := by
  unfold chooseUid Chosen
  by_cases hgiven : Json.truthy (Json.field "uid" fields) = true
  · simp only [if_pos hgiven, pure_eq, wp_done, true_and]
    intro text htext
    cases hfield : Json.field "uid" fields with
    | none => simp [hfield, Json.truthy] at hgiven
    | some uid =>
        rw [hfield] at htext
        rw [← htext]
        rfl
  · simp only [if_neg hgiven]
    apply wp_ask
    · intro c hc uid huid
      refine ⟨rfl, fun text htext => ⟨c, hc, ?_⟩⟩
      rw [htext] at huid
      exact (Json.str.inj (Except.ok.inj huid)).symm
    · intro e
      rfl

theorem wp_createEmptyInvoice {app_id : Int} :
    (createEmptyInvoice env app_id fields).wp A
      (fun r t => WithInvoice s r t ∧ Chosen A (Json.field "uid" fields) r.uid)
      (fun _ t => t = s) s := by
  unfold createEmptyInvoice
  simp only [bind_eq]
  rw [wp_bind]
  refine wp_mono (fun uid t ht => ?_) (fun _ _ ht => ht) wp_chooseUid
  obtain ⟨rfl, hchosen⟩ := ht
  rw [wp_bind]
  refine Delegate.wp_findFirstOrThrow (fun app _ _ => ?_) fun _ => rfl
  rw [wp_bind]
  refine wp_ofExcept (fun data hdata => ?_) fun _ _ => rfl
  refine Delegate.wp_create (fun now tb hrows _ => ?_) fun _ _ => rfl
  exact ⟨⟨tb, rfl, hrows, rfl⟩, hchosen data.uid (emptyInvoice_uid hdata)⟩

theorem wp_updateFromOptions {r : Invoice} {options : Json} (h : WithInvoice w r s) :
    (updateFromOptions r options).wp A
      (fun _ t => ∃ r', r'.uid = r.uid ∧ WithInvoice w r' t) (fun _ t => t = s) s := by
  unfold updateFromOptions
  split
  · simp only [bind_eq, pure_eq]
    rw [wp_bind]
    refine wp_ofExcept (fun change _ => ?_) fun _ _ => rfl
    rw [wp_bind]
    refine Delegate.wp_update (fun now tb r' _ _ hrows _ => ?_) fun _ _ _ => rfl
    obtain ⟨tb₀, rfl, hrows₀, hid⟩ := h
    have hpatched : tb.rows = Table.patch r.id (fun r => change.apply r) tb₀.rows := hrows
    rw [hrows₀] at hpatched
    exact ⟨change.apply r, rfl, tb, rfl, hpatched.trans (Table.patch_append_last rfl hid), hid⟩
  · exact ⟨r, rfl, h⟩

theorem wp_templateOutput {prices : Prices} (h : HasPrices s prices) {entry : TemplateOption}
    {to_ : TemplateTo} : (templateOutput env entry to_).wp A
      (fun output t => Converts env prices entry.currency (orElse entry.chain entry.currency)
        to_ output ∧ t = s) (fun _ t => t = s) s := by
  unfold templateOutput
  simp only [bind_eq, pure_eq, wp_bind]
  refine wp_mono (fun conversion t ht => ?_) (fun _ _ ht => ht.1) (wp_convert_quote h)
  obtain ⟨rfl, hquote⟩ := ht
  exact wp_ofExcept (fun amount hamount => ⟨⟨rfl, _, hquote, hamount⟩, rfl⟩) fun _ _ => rfl

/-- An option is computed without writing anything. -/
theorem wp_templateToOption {prices : Prices} {uid : String} {entry : TemplateOption} :
    (templateToOption env uid entry).wp A
      (fun o t => (o.invoice_uid = uid ∧ (HasPrices s prices → OfEntry env prices entry o)) ∧
        t = s) (fun _ t => t = s) s := by
  unfold templateToOption
  simp only [bind_eq, pure_eq, wp_bind]
  by_cases hprices : HasPrices s prices
  · refine wp_mono (fun outputs t ht => ?_) (fun _ _ ht => ht) (wp_mapAll_pointwise
      (P := Converts env prices entry.currency (orElse entry.chain entry.currency))
      (I := fun t => t = s) (fun to_ _ t ht => ?_) rfl)
    · exact ⟨⟨rfl, fun _ => ⟨rfl, rfl, outputs, rfl, ht.1⟩⟩, ht.2⟩
    · subst ht
      exact wp_templateOutput hprices
  · have hkeeps : (mapAll entry.to_ (templateOutput env entry)).Keeps (id : World → World) := by
      apply keeps_mapAll
      intro to_ _
      unfold templateOutput
      simp only [bind_eq, pure_eq]
      apply keeps_bind (keeps_convert _ _)
      intro conversion
      exact keeps_bind (keeps_ofExcept _) fun _ => trivial
    apply wp_of_keeps hkeeps
    · intro outputs t ht
      exact ⟨⟨rfl, fun h => absurd h hprices⟩, ht⟩
    · intro e t ht
      exact ht

/-- The row stored for an option differs in its id and its dates. -/
structure Stores (o stored : PaymentOption) : Prop where
  invoice_uid : stored.invoice_uid = o.invoice_uid
  currency : stored.currency = o.currency
  chain : stored.chain = o.chain
  outputs : stored.outputs = o.outputs

theorem wp_storeTemplateOption {o : PaymentOption} : (storeTemplateOption o).wp A
    (fun stored t => WithOptions s [stored] t ∧ Stores o stored) (fun _ t => t = s) s := by
  unfold storeTemplateOption
  split
  · apply Delegate.wp_create
    · intro now tb hrows _
      exact ⟨⟨tb, rfl, hrows⟩, rfl, rfl, rfl, rfl⟩
    · intro now _
      rfl
  · rfl

/-- One row, or none; the outcome says which. -/
theorem wp_outcomeOf_store {o : PaymentOption} : (outcomeOf (storeTemplateOption o)).wp A
    (fun outcome t => WithOptions s outcome.toOption.toList t ∧
      ∀ stored, outcome = .ok stored → Stores o stored) (fun _ _ => False) s := by
  unfold outcomeOf
  simp only [pure_eq, wp_tryCatch, wp_bind]
  apply wp_mono _ _ wp_storeTemplateOption
  · intro stored t ht
    refine ⟨ht.1, fun stored' h => ?_⟩
    rw [← Except.ok.inj h]
    exact ht.2
  · rintro e t rfl
    refine ⟨⟨t.paymentOptions, rfl, ?_⟩, fun _ h => by cases h⟩
    simp [Except.toOption]

theorem withOptions_append {xs ys : List PaymentOption} {t u : World}
    (h : WithOptions s xs t) (h' : WithOptions t ys u) : WithOptions s (xs ++ ys) u := by
  obtain ⟨tb, rfl, hrows⟩ := h
  obtain ⟨tb', rfl, hrows'⟩ := h'
  refine ⟨tb', rfl, ?_⟩
  rw [hrows', ← List.append_assoc, ← hrows]

theorem wp_storeAll {options : List PaymentOption} :
    (mapAll options fun o => outcomeOf (storeTemplateOption o)).wp A
      (fun outcomes t => WithOptions s (outcomes.filterMap Except.toOption) t ∧
        List.Forall₂ (fun o outcome => ∀ stored, outcome = .ok stored → Stores o stored)
          options outcomes) (fun _ _ => False) s := by
  have hrows : (mapAll options fun o => outcomeOf (storeTemplateOption o)).wp A
      (fun outcomes t => WithOptions s (outcomes.filterMap Except.toOption) t)
      (fun _ _ => False) s := by
    apply wp_mapAll
    · intro o _ outcomes t ht
      apply wp_mono _ (fun _ _ h => h) wp_outcomeOf_store
      intro outcome u hu
      rw [List.filterMap_append]
      apply withOptions_append ht
      cases outcome <;> exact hu.1
    · exact ⟨s.paymentOptions, rfl, by simp⟩
  have hstored : (mapAll options fun o => outcomeOf (storeTemplateOption o)).wp A
      (fun outcomes t => List.Forall₂ (fun o outcome => ∀ stored, outcome = .ok stored →
        Stores o stored) options outcomes ∧ True) (fun _ _ => False) s := by
    apply wp_mapAll_pointwise (I := fun _ => True)
    · intro o _ t _
      apply wp_mono _ (fun _ _ h => h) wp_outcomeOf_store
      intro outcome u hu
      exact ⟨hu.2, trivial⟩
    · trivial
  apply wp_mono _ _ (wp_and hrows hstored)
  · intro outcomes t ht
    exact ⟨ht.1, ht.2.1⟩
  · intro e t ht
    exact ht.1

/-- `Promise.all` returns where none of the outcomes is a failure. -/
theorem outcomes_ok {outcomes : List (Except Failure PaymentOption)}
    {stored : List PaymentOption} (h : outcomes.mapM id = .ok stored) :
    outcomes = stored.map .ok := by
  induction outcomes generalizing stored with
  | nil =>
      obtain rfl := Except.ok.inj h
      rfl
  | cons outcome outcomes ih =>
      rw [List.mapM_cons] at h
      obtain ⟨o, ho, h⟩ := except_bind_ok.mp h
      obtain ⟨rest, hrest, h⟩ := except_bind_ok.mp h
      obtain rfl := Except.ok.inj h
      rw [ih hrest, List.map_cons]
      exact congrArg (· :: rest.map Except.ok) ho

theorem stored_of_forall₂ {options stored : List PaymentOption}
    (h : List.Forall₂ (fun o outcome => ∀ x, outcome = Except.ok (ε := Failure) x → Stores o x)
      options (stored.map .ok)) : List.Forall₂ Stores options stored := by
  rw [List.forall₂_map_right_iff] at h
  exact h.imp fun o x hx => hx x rfl

/-- A row stored for an option of an entry is one itself. -/
theorem Stores.ofEntry {prices : Prices} {entry : TemplateOption} {o stored : PaymentOption}
    (h : Stores o stored) (hentry : OfEntry env prices entry o) :
    OfEntry env prices entry stored := by
  constructor
  · rw [h.currency, hentry.currency]
  · rw [h.chain, hentry.chain]
  · unfold Quoted
    rw [h.outputs, h.currency, h.chain]
    exact hentry.quoted

/-- What an entry of the template becomes. -/
def Made (env : Env) (prices : Prices) (w : World) (uid : String) (entry : TemplateOption)
    (o : PaymentOption) : Prop :=
  o.invoice_uid = uid ∧ (HasPrices w prices → OfEntry env prices entry o)

theorem made_of_stored {prices : Prices} {uid : String} {entries : List TemplateOption}
    {options stored : List PaymentOption}
    (hmade : List.Forall₂ (Made env prices w uid) entries options)
    (hstored : List.Forall₂ Stores options stored) :
    List.Forall₂ (Made env prices w uid) entries stored := by
  induction hmade generalizing stored with
  | nil =>
      cases hstored
      exact .nil
  | cons hhead _ ih =>
      cases hstored with
      | cons hstore hrest =>
          apply List.Forall₂.cons
          · constructor
            · rw [hstore.invoice_uid, hhead.1]
            · intro hprices
              exact hstore.ofEntry (hhead.2 hprices)
          · exact ih hrest

/-- Whichever rows were stored, they are of the invoice. -/
theorem uid_of_stored {prices : Prices} {uid : String} {entries : List TemplateOption}
    {options : List PaymentOption} {outcomes : List (Except Failure PaymentOption)}
    (hmade : List.Forall₂ (Made env prices w uid) entries options)
    (hstored : List.Forall₂ (fun o outcome => ∀ stored, outcome = .ok stored → Stores o stored)
      options outcomes) : ∀ o ∈ outcomes.filterMap Except.toOption, o.invoice_uid = uid := by
  induction hmade generalizing outcomes with
  | nil =>
      cases hstored
      simp
  | cons hhead _ ih =>
      cases hstored with
      | cons hstore hrest =>
          intro o ho
          obtain ⟨outcome, houtcome, hsome⟩ := List.mem_filterMap.mp ho
          rcases List.mem_cons.mp houtcome with rfl | htail
          · cases outcome with
            | error e => cases hsome
            | ok stored =>
                obtain rfl := Option.some.inj hsome
                rw [(hstore stored rfl).invoice_uid, hhead.1]
          · exact ih hrest o (List.mem_filterMap.mpr ⟨outcome, htail, hsome⟩)

theorem uid_of_made {prices : Prices} {uid : String} {entries : List TemplateOption}
    {options : List PaymentOption} (h : List.Forall₂ (Made env prices w uid) entries options) :
    ∀ o ∈ options, o.invoice_uid = uid := by
  induction h with
  | nil => simp
  | cons hhead _ ih =>
      intro o ho
      rcases List.mem_cons.mp ho with rfl | ho
      · exact hhead.1
      · exact ih o ho

theorem toOption_map_ok (stored : List PaymentOption) :
    (stored.map (Except.ok (ε := Failure))).filterMap Except.toOption = stored := by
  rw [List.filterMap_map]
  exact List.filterMap_some

theorem wp_paymentRequestToPaymentOptions (prices : Prices) {request : PaymentRequest} :
    (paymentRequestToPaymentOptions env request).wp A
      (fun _ t => ∃ added, WithOptions s added t ∧
        List.Forall₂ (Made env prices s (nullText request.invoice_uid)) request.template added)
      (fun _ t => ∃ added, WithOptions s added t ∧
        ∀ o ∈ added, o.invoice_uid = nullText request.invoice_uid) s := by
  unfold paymentRequestToPaymentOptions
  simp only [bind_eq, wp_bind]
  have hnothing : ∃ added, WithOptions s added s ∧
      ∀ o ∈ added, o.invoice_uid = nullText request.invoice_uid :=
    ⟨[], ⟨s.paymentOptions, rfl, by simp⟩, fun _ h => by cases h⟩
  have hoptions : (mapAll request.template
      (templateToOption env (nullText request.invoice_uid))).wp A
      (fun options t => List.Forall₂ (Made env prices s (nullText request.invoice_uid))
        request.template options ∧ t = s) (fun _ t => t = s) s := by
    apply wp_mapAll_pointwise (I := fun t => t = s)
    · rintro entry _ t rfl
      exact wp_templateToOption
    · rfl
  apply wp_mono _ _ hoptions
  · rintro options t ⟨hmade, rfl⟩
    apply wp_mono _ (fun _ _ h => h.elim) wp_storeAll
    rintro outcomes u ⟨hrows, hstored⟩
    apply wp_ofExcept
    · intro stored hok
      obtain rfl := outcomes_ok hok
      rw [toOption_map_ok] at hrows
      exact ⟨stored, hrows, made_of_stored hmade (stored_of_forall₂ hstored)⟩
    · intro e _
      exact ⟨_, hrows, uid_of_stored hmade hstored⟩
  · rintro e t rfl
    exact hnothing

theorem wp_createPaymentRequest (prices : Prices) {app_id : Int} {template : List Json}
    {options : Option Json} : (createPaymentRequest env app_id template options).wp A
      (fun request t => ∃ r, Adds w t r ∧ Chosen A (optionsUid options) r.uid ∧
        (HasPrices w prices → Requested env prices template w t r request))
      (fun _ => Outcome A (optionsUid options) w) w := by
  unfold createPaymentRequest
  simp only [bind_eq, pure_eq]
  have hnothing : Outcome A (optionsUid options) w w := .inl ⟨rfl, rfl⟩
  rw [wp_bind]
  apply wp_ofExcept _ fun _ _ => hnothing
  rintro ⟨currency, amount⟩ _
  simp only
  split
  · exact hnothing
  rename_i entries hentries
  rw [wp_bind]
  apply Delegate.wp_create _ fun _ _ => hnothing
  intro now requests hrequests _
  -- an invoice made from here on is made beside those of `w`
  have hadds : ∀ {r : Invoice} {t u : World} (added : List PaymentOption),
      WithInvoice (prisma.paymentRequests.put w requests) r t → u.invoices = t.invoices →
      u.paymentOptions.rows = t.paymentOptions.rows ++ added →
      (∀ o ∈ added, o.invoice_uid = r.uid) → Adds w u r := by
    rintro r t u added ⟨tb, rfl, hrows, hid⟩ hinvoices hoptions huid
    constructor
    · rw [hinvoices]
      exact hrows
    · exact hid
    · exact ⟨added, hoptions, huid⟩
  rw [wp_bind]
  apply wp_mono _ _ wp_createEmptyInvoice
  · rintro invoice t ⟨hwith, hchosen⟩
    rw [emptyInvoiceOptions_uid] at hchosen
    rw [wp_bind]
    apply wp_mono _ _ (wp_updateFromOptions hwith)
    · rintro _ s ⟨r, huid, hwith'⟩
      rw [← huid] at hchosen
      have hcreated : ∀ {u : World} (added : List PaymentOption), u.invoices = s.invoices →
          u.paymentOptions.rows = s.paymentOptions.rows ++ added →
          (∀ o ∈ added, o.invoice_uid = r.uid) → Outcome A (optionsUid options) w u :=
        fun added hinvoices hoptions huids =>
          .inr ⟨r, hadds added hwith' hinvoices hoptions huids, hchosen⟩
      have hbare : ∀ {u : World}, u.invoices = s.invoices →
          u.paymentOptions = s.paymentOptions → Outcome A (optionsUid options) w u := by
        intro u hinvoices hoptions
        apply hcreated [] hinvoices
        · rw [hoptions, List.append_nil]
        · intro o ho
          cases ho
      rw [wp_bind]
      apply wp_ofExcept _ fun _ _ => hbare rfl rfl
      intro webpage_url _
      rw [wp_bind]
      apply Delegate.wp_update _ fun _ _ _ => hbare rfl rfl
      intro now' patched row _ _ hpatched _
      rw [wp_bind]
      apply Delegate.wp_findFirstOrThrow _ fun _ => hbare (by rfl) (by rfl)
      intro request hrequest hid
      -- the row found is the one that was made above, with the invoice written in
      have hsrequests : s.paymentRequests.rows = w.paymentRequests.rows ++
          [{ id := w.paymentRequests.next, app_id, template := entries, createdAt := now,
             updatedAt := now }] := by
        obtain ⟨tb, rfl, -⟩ := hwith'
        exact hrequests
      obtain ⟨last, hrows, hlast, htemplate, hinvoice⟩ : ∃ last : PaymentRequest,
          patched.rows = w.paymentRequests.rows ++ [last] ∧ last.id = w.paymentRequests.next ∧
            last.template = entries ∧ last.invoice_uid = some invoice.uid := by
        have hsame := congrArg (Table.patch w.paymentRequests.next fun r : PaymentRequest =>
          { r with invoice_uid := some invoice.uid, uri := invoice.uri,
                   webpage_url := some webpage_url, status := some "unpaid",
                   updatedAt := now' }) hsrequests
        have hlast := (hpatched.trans hsame).trans (Table.patch_append_last rfl rfl)
        exact ⟨_, hlast, rfl, rfl, rfl⟩
      obtain rfl : request = last := by
        apply Table.eq_of_id (t := patched) hrequest
        · rw [hrows]
          exact List.mem_append_right _ (List.mem_singleton.mpr rfl)
        · exact (beq_iff_eq.mp hid).trans hlast.symm
      have hnull : nullText request.invoice_uid = r.uid := by
        rw [hinvoice, huid]
        rfl
      rw [wp_bind]
      apply wp_mono _ _ (wp_paymentRequestToPaymentOptions prices)
      · rintro _ u ⟨added, ⟨tb, rfl, hoptions⟩, hmade⟩
        have huids : ∀ o ∈ added, o.invoice_uid = r.uid := by
          intro o ho
          rw [uid_of_made hmade o ho, hnull]
        refine ⟨r, hadds added hwith' (by rfl) hoptions huids, hchosen, ?_⟩
        intro hprices
        have hsprices : HasPrices (prisma.paymentRequests.put s patched) prices := by
          apply hprices.congr
          obtain ⟨_, rfl, -⟩ := hwith'
          rfl
        constructor
        · rw [htemplate]
          exact hentries
        · rw [hinvoice, huid]
        · exact hrequest
        · exact beq_iff_eq.mp hid
        · refine ⟨added, ?_, ?_⟩
          · obtain ⟨_, rfl, -⟩ := hwith'
            exact hoptions
          · apply hmade.imp
            intro entry o ho
            exact ⟨ho.1.trans hnull, ho.2 hsprices⟩
      · rintro e u ⟨added, ⟨tb, rfl, hoptions⟩, huids⟩
        apply hcreated added (by rfl) hoptions
        intro o ho
        rw [huids o ho, hnull]
    · rintro e s rfl
      exact .inr ⟨invoice, hadds [] hwith rfl (by simp) (fun _ h => by cases h), hchosen⟩
  · rintro e t rfl
    exact .inl ⟨rfl, rfl⟩

end Wp

/-! ## What is read -/

/-- The rows about a uid are the same in both worlds. -/
structure SameFor (uid : String) (s t : World) : Prop where
  invoices : s.invoices.rows.filter (fun r => r.uid == uid) =
    t.invoices.rows.filter fun r => r.uid == uid
  options : s.paymentOptions.rows.filter (fun o => o.invoice_uid == uid) =
    t.paymentOptions.rows.filter fun o => o.invoice_uid == uid

section Readers

variable {uid : String} {env : Env}

/-- A query that asks for more than a property of the row depends only on the
rows that have the property. -/
theorem select_of_filter {α : Type} [Record α] {s t : Table α} {p where_ : α → Bool}
    (h : s.rows.filter p = t.rows.filter p) (hp : ∀ r, where_ r = true → p r = true) :
    s.select where_ = t.select where_ := by
  have hrefine : ∀ rows : List α, rows.filter where_ = (rows.filter p).filter where_ := by
    intro rows
    rw [List.filter_filter]
    apply List.filter_congr
    intro r _
    cases hw : where_ r with
    | false => simp
    | true => simp [hp r hw]
  unfold Table.select
  rw [hrefine s.rows, hrefine t.rows, h]

theorem pick_of_filter {α : Type} [Record α] {s t : Table α} {p where_ : α → Bool} {n : Nat}
    (h : s.rows.filter p = t.rows.filter p) (hp : ∀ r, where_ r = true → p r = true) :
    s.pick where_ n = t.pick where_ n := by
  unfold Table.pick
  rw [select_of_filter h hp]

theorem blind_getRequiredFeeRate (invoice : Invoice) (chain : String) :
    (getRequiredFeeRate env invoice chain).Blind (SameFor uid) := by
  unfold getRequiredFeeRate ask
  exact blind_query fun _ _ _ _ => rfl

theorem blind_findPaymentOption (currency chain : String) :
    (findPaymentOption uid currency chain).Blind (SameFor uid) := by
  apply blind_query
  intro c s t hst
  have hpick : s.paymentOptions.pick (fun r => r.invoice_uid == uid && r.currency == currency &&
      r.chain == chain) c.row = t.paymentOptions.pick _ c.row :=
    pick_of_filter hst.options fun r hr => by
      simp only [Bool.and_eq_true] at hr
      exact hr.1.1
  exact congrArg Except.ok hpick

theorem blind_getPaymentRequest {invoice : Invoice} (huid : invoice.uid = uid)
    (currency chain : String) :
    (getPaymentRequest env invoice currency chain).Blind (SameFor uid) := by
  unfold getPaymentRequest
  split
  · exact trivial
  split
  · exact trivial
  simp only [bind_eq, pure_eq]
  apply blind_bind
  · apply blind_query
    intro c s t hst
    have hpick : s.paymentOptions.pick (fun r => r.invoice_uid == invoice.uid &&
        r.currency == currency && r.chain == chain) c.row = t.paymentOptions.pick _ c.row :=
      pick_of_filter hst.options fun r hr => by
        simp only [Bool.and_eq_true] at hr
        rw [← huid]
        exact hr.1.1
    simp only [prisma.payment_options, hpick]
  · intro option
    apply blind_bind (blind_getRequiredFeeRate _ _)
    intro rate
    cases option.outputs with
    | none => exact trivial
    | some outputs =>
        apply blind_bind
        · exact blind_query fun _ _ _ _ => rfl
        · intro now
          exact trivial

theorem blind_getPaymentOptions : (getPaymentOptions env uid).Blind (SameFor uid) := by
  unfold getPaymentOptions
  simp only [bind_eq]
  apply blind_bind_of_always (P := fun invoice => (invoice.uid == uid) = true)
    (T := fun _ _ => True)
  · apply blind_query
    intro c s t hst
    have hpick : s.invoices.pick (fun r => r.uid == uid) c.row = t.invoices.pick _ c.row :=
      pick_of_filter hst.invoices fun _ h => h
    simp only [prisma.invoices, hpick]
  · exact Delegate.always_findFirstOrThrow (fun _ => trivial) _
  · intro invoice huid
    apply blind_bind
    · apply blind_query
      intro c s t hst
      have hselect : s.paymentOptions.select (fun r => r.invoice_uid == uid) =
          t.paymentOptions.select _ :=
        select_of_filter hst.options fun _ h => h
      exact congrArg Except.ok hselect
    · intro options
      apply blind_mapAll
      intro option _
      exact blind_getPaymentRequest (by simpa using huid) _ _

/-- What is shown for a uid, and the option its payments are checked against, are
the same in both worlds. -/
structure Shown (env : Env) (uid : String) (s t : World) : Prop where
  getPaymentOptions : ∀ o,
    ((getPaymentOptions env uid).exec o t).1 = ((getPaymentOptions env uid).exec o s).1
  getPaymentRequest : ∀ (invoice : Invoice) currency chain o, invoice.uid = uid →
    ((getPaymentRequest env invoice currency chain).exec o t).1 =
      ((getPaymentRequest env invoice currency chain).exec o s).1
  findPaymentOption : ∀ currency chain o,
    ((findPaymentOption uid currency chain).exec o t).1 =
      ((findPaymentOption uid currency chain).exec o s).1

theorem SameFor.shown {s t : World} (h : SameFor uid t s) : Shown env uid s t where
  getPaymentOptions := fun o => blind_getPaymentOptions.exec_eq h o
  getPaymentRequest := fun _ currency chain o huid =>
    (blind_getPaymentRequest huid currency chain).exec_eq h o
  findPaymentOption := fun currency chain o => (blind_findPaymentOption currency chain).exec_eq h o

/-- Rows of another uid change nothing for this one. -/
theorem Adds.sameFor {s t : World} {r : Invoice} (h : Adds s t r) (hne : r.uid ≠ uid) :
    SameFor uid t s := by
  obtain ⟨added, hoptions, hadded⟩ := h.options
  constructor
  · rw [h.invoices, List.filter_append]
    simp [hne]
  · have hnone : added.filter (fun o => o.invoice_uid == uid) = [] := by
      rw [List.filter_eq_nil_iff]
      intro o ho
      rw [hadded o ho]
      simpa using hne
    rw [hoptions, List.filter_append, hnone, List.append_nil]

end Readers

/-! ## The main result -/

/-- The new invoice has a uid of its own, and is in nobody's way. -/
structure Separate (env : Env) (s t : World) : Prop where
  fresh : ∀ r ∈ t.invoices.rows, r.id = s.invoices.next → Unused s r.uid
  shown : ∀ uid, ¬ Unused s uid → Shown env uid s t

/-- The options leave the uid to the server, or name one that is not used. -/
def OwnUid (options : Option Json) (w : World) : Prop :=
  Json.truthy (optionsUid options) = false ∨
    ∃ uid, optionsUid options = some (.str uid) ∧ Unused w uid

/-- **A payment request keeps to itself just where its options do not name a uid
that is used.** In every run that creates an invoice, with `shortid` generating
unused ids. -/
theorem separate_iff (env : Env) (app_id : Int) (template : List Json) (options : Option Json)
    (o : Nat → Answer) (w : World) (hfresh : ∀ n, Unused w (o n).shortid)
    (hcreated : ∃ r ∈ ((createPaymentRequest env app_id template options).exec o w).2.invoices.rows,
      r.id = w.invoices.next) :
    Separate env w ((createPaymentRequest env app_id template options).exec o w).2 ↔
      OwnUid options w := by
  have hwp : (createPaymentRequest env app_id template options).wp
      (fun c => Unused w c.shortid)
      (fun _ => Outcome (fun c => Unused w c.shortid) (optionsUid options) w)
      (fun _ => Outcome (fun c => Unused w c.shortid) (optionsUid options) w) w := by
    apply wp_mono _ (fun _ _ h => h) (wp_createPaymentRequest fun _ _ => none)
    rintro _ t ⟨r, hadds, hchosen, -⟩
    exact .inr ⟨r, hadds, hchosen⟩
  have hrun := wp_exec_state hwp hfresh
  generalize ((createPaymentRequest env app_id template options).exec o w).2 = t at hcreated hrun
  obtain ⟨x, hx, hxid⟩ := hcreated
  rcases hrun with ⟨hinvoices, -⟩ | ⟨r, hadds, hchosen⟩
  · rw [hinvoices] at hx
    exact absurd hxid (Nat.ne_of_lt (w.invoices.id_lt x hx))
  have hr : r ∈ t.invoices.rows := by
    rw [hadds.invoices]
    simp
  have hown : OwnUid options w ↔ Unused w r.uid := by
    unfold Chosen at hchosen
    unfold OwnUid
    split at hchosen
    · rename_i hgiven
      rw [hgiven, hchosen]
      simp
    · rename_i hgiven
      obtain ⟨c, hc, huid⟩ := hchosen
      rw [Bool.not_eq_true] at hgiven
      rw [huid]
      exact iff_of_true (.inl hgiven) hc
  rw [hown]
  constructor
  · intro h
    exact h.fresh r hr hadds.id
  · intro hunused
    constructor
    · intro y hy hyid
      rw [Table.eq_of_id hy hr (hyid.trans hadds.id.symm)]
      exact hunused
    · intro uid hused
      apply SameFor.shown
      apply hadds.sameFor
      rintro rfl
      exact hused hunused

/-! ## Somebody else's uid -/

/-- A server that takes BTC, and a schema that accepts the template. -/
def shop : Env where
  plugins := [("BTC", { currency := "BTC", chain := "BTC", decimals := 8 })]
  paymentRequestTemplate := fun _ =>
    some [{ currency := "BTC", to_ := [{ address := "mine", currency := "BTC", amount := some 1 }] }]

/-- An app of account 7, an invoice of account 9 and its option, the prices. -/
def counter : World where
  apps := .single { id := 1, account_id := 7 }
  invoices := .single { id := 1, uid := "inv", status := .unpaid, account_id := some 9 }
  paymentOptions := .single
    { id := 1, invoice_uid := "inv", currency := "BTC", chain := "BTC",
      outputs := some [{ address := "theirs", amount := some 100000000 }] }
  prices := .pair { id := 1, currency := "BTC", value := 2, base_currency := some "USD" }
    { id := 2, currency := "USD", value := 1 / 2, base_currency := some "BTC" } (by decide)
    (by decide)

/-- The answers: a fresh uid each time. -/
def fresh : Nat → Answer := fun _ => { shortid := "new" }

/-- One BTC to "mine". -/
def oneBtc : List Json :=
  [.obj [("currency", .str "BTC"), ("to", .arr [.obj
    [("address", .str "mine"), ("currency", .str "BTC"), ("amount", .num 1)]])]]

def requested (options : Json) : Except Failure PaymentRequest × World :=
  (createPaymentRequest shop 1 oneBtc (some options)).exec fresh counter

theorem fresh_unused (n : Nat) : Unused counter (fresh n).shortid := by
  change Unused counter "new"
  constructor
  · intro r hr
    rw [List.mem_singleton.mp hr]
    decide
  · intro r hr
    rw [List.mem_singleton.mp hr]
    decide
  · intro r hr
    exact absurd hr (by simp [counter])

/-- Without a uid in the options the request keeps to itself. -/
theorem separate_requested : Separate shop counter (requested (.obj [])).2 ↔
    OwnUid (some (.obj [])) counter := by
  have hadded : ((requested (.obj [])).2.invoices.rows.any fun r => r.id == 2) = true := by
    decide +kernel
  have hcreated : ∃ r ∈ (requested (.obj [])).2.invoices.rows, r.id = counter.invoices.next := by
    obtain ⟨r, hr, hid⟩ := List.any_eq_true.mp hadded
    exact ⟨r, hr, beq_iff_eq.mp hid⟩
  exact separate_iff shop 1 oneBtc (some (.obj [])) fresh counter fresh_unused hcreated

/-- With the uid of another invoice, payments of that invoice may be checked
against the new option: they go to "mine". -/
theorem paid_to_another :
    ¬ ∀ (env : Env) (app_id : Int) (template : List Json) (options : Option Json)
      (o : Nat → Answer) (w : World), (∀ n, Unused w (o n).shortid) →
      Separate env w ((createPaymentRequest env app_id template options).exec o w).2 := by
  intro h
  have hseparate := h shop 1 oneBtc (some (.obj [("uid", .str "inv")])) fresh counter
    fresh_unused
  have hused : ¬ Unused counter "inv" := by
    intro hunused
    exact hunused.invoices { id := 1, uid := "inv", status := .unpaid, account_id := some 9 }
      (List.mem_singleton.mpr rfl) rfl
  have hsame := (hseparate.shown "inv" hused).findPaymentOption "BTC" "BTC" fun _ => { row := 1 }
  have hoptions := congrArg (fun result => result.map (Option.map PaymentOption.outputs)) hsame
  exact absurd hoptions (by decide +kernel)

end Requests

end Anypay
