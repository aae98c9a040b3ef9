/-
Anypay.OwnershipTheorems — whose invoice a request to create one creates.

The handlers of `POST /invoices` and `POST /api/v1/invoices` build the
parameters of `createInvoice` as `{ account, ...payload }`, and a payload that
fails its schema is only logged. So a payload with an `account` of its own (and
anything invalid besides) speaks for any account there is (`speaks_for_anyone`).

`belongs_iff` gives the exact condition: the account object the parameters end
up with must have the id of the authenticated account, and its defaults where
the payload has none. `actsFor_own` is the way payloads normally meet it: the
payload, as the handler finds it, brings no account; and one that passes its
schema brings none (`received_of_valid`).
-/
import Mathlib.Data.Rat.Cast.Defs
import Anypay.InvoiceTheorems

namespace Anypay.Ownership

open Store Async Proc

/-! ## The property and its condition -/

/-- The invoice and the payment options a call made are the account's. -/
structure BelongsTo (account : Account) (params : List (String × Json)) (w t : World)
    (invoice : Invoice) : Prop where
  account_id : invoice.account_id = some (account.id : Int)
  currency : Json.truthy (Json.field "currency" params) = false →
    invoice.currency = some (orElse account.denomination "USD")
  webhook_url : Json.truthy (Json.field "webhook_url" params) = false →
    nonEmpty invoice.webhook_url = nonEmpty account.webhook_url
  payees : ∀ o ∈ t.paymentOptions.rows, o ∉ w.paymentOptions.rows → ∀ x ∈ payees o,
    ∃ a ∈ w.addresses.rows, a.account_id = some (account.id : Int) ∧ payTo a = x

/-- A value an `||` takes. -/
def given (x : Option Json) : Option Json := if Json.truthy x then x else none

/-- An account object that reads as the account: its id, and its defaults where
the parameters have none. -/
structure ActsFor (account : Account) (params : List (String × Json)) (x : Json) :
    Prop where
  id : x.get "id" = some (.ofNat account.id)
  currency : Json.truthy (Json.field "currency" params) = true ∨
    Json.or (x.get "denomination") (some (.str "USD")) =
      some (.str (orElse account.denomination "USD"))
  webhook_url : Json.truthy (Json.field "webhook_url" params) = true ∨
    given (x.get "webhook_url") = (nonEmpty account.webhook_url).map .str

/-! ## Reading columns back -/

theorem asInt_some {q : Rat} {n : Int} (h : asInt q = some n) : q = n := by
  unfold asInt at h
  split at h
  · rename_i hq
    obtain rfl := Option.some.inj h
    exact (Rat.coe_int_num_of_den_eq_one hq.1).symm
  · cases h

/-- An id as JSON is the number it is. -/
theorem ofNat_eq (n : Nat) : Json.ofNat n = .num ((n : Int) : Rat) := by
  rw [Json.ofNat, Int.cast_natCast]

/-- The value an `Int` column was given. -/
theorem intColumn_some {model : String} {x : Option Json} {n : Int}
    (h : intColumn model x = .ok (some n)) : x = some (.num n) := by
  unfold intColumn at h
  split at h
  · cases h
  · cases h
  · rename_i q
    split at h
    · rename_i m hm
      obtain rfl : m = n := Option.some.inj (Except.ok.inj h)
      rw [asInt_some hm]
    · cases h
  · cases h

/-- The text a text column was given. -/
theorem textColumn_ok {model : String} {x : Option Json} {y : Option String}
    (h : textColumn model x = .ok y) : given x = (nonEmpty y).map .str := by
  unfold textColumn at h
  split at h
  · obtain rfl := Except.ok.inj h
    rfl
  · obtain rfl := Except.ok.inj h
    rfl
  · rename_i s
    split at h
    · obtain rfl := Except.ok.inj h
      by_cases hs : s = "" <;> simp [given, Json.truthy, nonEmpty, hs, Option.filter]
    · cases h
  · cases h

theorem textColumn_some {model : String} {x : Option Json} {s : String}
    (h : textColumn model x = .ok (some s)) : x = some (.str s) := by
  unfold textColumn at h
  split at h
  · cases h
  · cases h
  · split at h
    · rw [Option.some.inj (Except.ok.inj h)]
    · cases h
  · cases h

theorem textColumn_str {model s : String} {y : Option String}
    (h : textColumn model (some (.str s)) = .ok y) : y = some s := by
  simp only [textColumn] at h
  split at h
  · exact (Except.ok.inj h).symm
  · cases h

/-! ## The four parts -/

section Parts

variable {account : Account} {params : List (String × Json)} {x : Json} {uid : String}
  {r : Invoice}

theorem account_id_iff (h : Columns x params uid r) :
    r.account_id = some (account.id : Int) ↔ x.get "id" = some (.ofNat account.id) := by
  have hcolumn := h.account_id
  constructor
  · intro hid
    rw [hid] at hcolumn
    rw [intColumn_some hcolumn, ofNat_eq]
  · intro hid
    rw [hid, ofNat_eq] at hcolumn
    cases hr : r.account_id with
    | none =>
        rw [hr, intColumn] at hcolumn
        split at hcolumn <;> cases hcolumn
    | some n =>
        rw [hr] at hcolumn
        have hn := Json.num.inj (Option.some.inj (intColumn_some hcolumn))
        rw [Int.cast_inj.mp hn]

theorem currency_iff (h : Columns x params uid r) (d : String)
    (hnone : Json.truthy (Json.field "currency" params) = false) :
    r.currency = some d ↔
      Json.or (x.get "denomination") (some (.str "USD")) = some (.str d) := by
  have hcolumn := h.currency
  rw [chosenCurrency, Json.or, hnone] at hcolumn
  simp only [Bool.false_eq_true, if_false] at hcolumn
  constructor
  · intro hr
    rw [hr] at hcolumn
    exact textColumn_some hcolumn
  · intro hd
    rw [hd] at hcolumn
    exact textColumn_str hcolumn

theorem webhook_url_iff (h : Columns x params uid r) (url : Option String)
    (hnone : Json.truthy (Json.field "webhook_url" params) = false) :
    nonEmpty r.webhook_url = nonEmpty url ↔
      given (x.get "webhook_url") = (nonEmpty url).map .str := by
  have hchosen : given (chosenWebhookUrl x params) = given (x.get "webhook_url") := by
    unfold chosenWebhookUrl given
    by_cases hx : Json.truthy (x.get "webhook_url") = true <;> simp [hnone, hx]
  rw [← hchosen, textColumn_ok h.webhook_url]
  constructor
  · intro he
    rw [he]
  · intro he
    exact Option.map_injective (fun _ _ hs => Json.str.inj hs) he

/-- An option of the new invoice pays to an address of the account whose id the
invoice has. -/
theorem own_address {env : Env} {w : World} {a : Address} {n : Int}
    (hid : x.get "id" = some (.num n)) (hint : intColumn "invoices" (x.get "id") = .ok (some n))
    (h : Offered env x w a) : a.account_id = some n := by
  obtain ⟨isAccount, hwhere, hown⟩ := h.own
  simp only [hid, intColumn, whereInt] at hwhere hint
  cases hn : asInt (n : Rat) with
  | none => simp [hn] at hint
  | some m =>
      simp only [hn, Except.ok.injEq, Option.some.injEq] at hwhere hint
      subst hwhere hint
      simpa using hown

end Parts

/-! ## The requests -/

/-- The two routes. -/
def routes (env : Env) (account : Account) (payload : Json) : List (Task Unit) :=
  [discard (create env account payload), discard (createDeprecated env account payload)]

theorem keeps_getPaymentOptions {δ : Type} {view : World → δ} (env : Env) (uid : String) :
    (getPaymentOptions env uid).Keeps view := by
  have hmapAll : ∀ (options : List PaymentOption) (invoice : Invoice),
      (mapAll options fun option =>
        getPaymentRequest env invoice option.currency option.chain).Keeps view := by
    intro options invoice
    induction options with
    | nil => exact trivial
    | cons option options ih =>
        refine keeps_bind ?_ fun _ => keeps_bind ih fun _ => trivial
        unfold getPaymentRequest getRequiredFeeRate
        simp only [bind_eq, pure_eq]
        split
        · exact trivial
        · split
          · exact trivial
          · refine keeps_bind keeps_query fun found => keeps_bind keeps_query fun _ => ?_
            split
            · exact trivial
            · exact keeps_bind keeps_query fun _ => trivial
  unfold getPaymentOptions
  simp only [bind_eq]
  exact keeps_bind keeps_query fun invoice => keeps_bind keeps_query fun options =>
    hmapAll options invoice

/-- What a request leaves: the database as it was, or a new invoice. -/
def Outcome (env : Env) (params : List (String × Json)) (w t : World) : Prop :=
  t = w ∨ ∃ account invoice options, Issued env params account invoice options w t

theorem wp_routes {env : Env} {account : Account} {payload : Json} {w : World}
    {request : Task Unit} (hroute : request ∈ routes env account payload) :
    request.wp AnyAnswer (fun _ => Outcome env (createParams account payload) w)
      (fun _ => Outcome env (createParams account payload) w) w := by
  have hreads : ∀ {β : Type} (f : List JsonV2PaymentRequest → β) (invoice : Invoice) t,
      Outcome env (createParams account payload) w t →
      ((getPaymentOptions env invoice.uid).bind fun options => done (f options)).wp AnyAnswer
        (fun _ => Outcome env (createParams account payload) w)
        (fun _ => Outcome env (createParams account payload) w) t := by
    intro β f invoice t ht
    rw [wp_bind]
    have hkeeps : (getPaymentOptions env invoice.uid).Keeps (id : World → World) :=
      keeps_getPaymentOptions env _
    refine wp_of_keeps hkeeps (fun _ u hu => ?_) fun _ u hu => ?_
    · rw [show u = t from hu]
      exact ht
    · rw [show u = t from hu]
      exact ht
  have hcreate := wp_createInvoice env (createParams account payload) (A := AnyAnswer)
    (s := w)
  simp only [routes, List.mem_cons, List.not_mem_nil, or_false] at hroute
  rcases hroute with rfl | rfl
  all_goals
    simp only [create, createDeprecated, discard_eq, wp_bind, bind_eq]
    refine wp_mono (fun invoice t ht => ?_) (fun _ t ht => .inl ht) hcreate
    obtain ⟨c, x, options, -, -, hissued⟩ := ht
    have hstep := hreads id invoice t (.inr ⟨x, invoice, options, hissued⟩)
    rw [wp_bind] at hstep
    exact hstep

/-- A request makes an invoice of the authenticated account exactly when the
account object its parameters end up with reads as that account. -/
theorem belongs_iff (env : Env) (account : Account) (payload : Json) (w : World)
    (request : Task Unit) (hroute : request ∈ routes env account payload)
    (o : Nat → Answer) (invoice : Invoice)
    (hnew : invoice ∈ (request.exec o w).2.invoices.rows)
    (hold : invoice ∉ w.invoices.rows) :
    BelongsTo account (createParams account payload) w (request.exec o w).2 invoice ↔
      ∃ x, accountOf (createParams account payload) = .ok x ∧
        ActsFor account (createParams account payload) x := by
  generalize hparams : createParams account payload = params
  have hend := wp_exec_state (wp_routes (w := w) hroute) (anyAnswer o)
  rw [hparams] at hend
  generalize (request.exec o w).2 = t at hnew hend
  rcases hend with rfl | ⟨x, invoice', options, h⟩
  · exact absurd hnew hold
  rw [h.invoices] at hnew
  obtain rfl : invoice = invoice' := by
    rcases List.mem_append.mp hnew with hmem | hmem
    · exact absurd hmem hold
    · exact List.mem_singleton.mp hmem
  have hcolumns := h.columns
  constructor
  · intro hbelongs
    refine ⟨x, h.read, (account_id_iff hcolumns).mp hbelongs.account_id, ?_, ?_⟩
    · cases hc : Json.truthy (Json.field "currency" params) with
      | true => exact .inl rfl
      | false => exact .inr ((currency_iff hcolumns _ hc).mp (hbelongs.currency hc))
    · cases hc : Json.truthy (Json.field "webhook_url" params) with
      | true => exact .inl rfl
      | false => exact .inr ((webhook_url_iff hcolumns _ hc).mp (hbelongs.webhook_url hc))
  · rintro ⟨x', hx', hacts⟩
    obtain rfl : x = x' := Except.ok.inj (h.read.symm.trans hx')
    have hid := (account_id_iff hcolumns).mpr hacts.id
    refine ⟨hid, fun hc => ?_, fun hc => ?_, ?_⟩
    · refine (currency_iff hcolumns _ hc).mpr (hacts.currency.resolve_left ?_)
      rw [hc]
      exact Bool.false_ne_true
    · refine (webhook_url_iff hcolumns _ hc).mpr (hacts.webhook_url.resolve_left ?_)
      rw [hc]
      exact Bool.false_ne_true
    · intro option hoption hfresh y hy
      rw [h.paymentOptions] at hoption
      have hmade := (List.mem_append.mp hoption).resolve_left hfresh
      obtain ⟨a, ha, hfor⟩ := h.made option hmade
      rw [hfor.payees_eq] at hy
      have hint := hcolumns.account_id
      rw [hid] at hint
      exact ⟨a, ha.mem, own_address (by rw [hacts.id, ofNat_eq]) hint ha,
        (List.mem_singleton.mp hy).symm⟩

/-! ## Payloads that meet the condition -/

/-- The schema strips an account it does not know. -/
theorem received_of_valid {payload : Json} {y : Json}
    (h : CreateInvoiceRequest.parse payload = some y) :
    received payload = y ∧ y.get "account" = none := by
  refine ⟨by rw [received, h, Option.getD_some], ?_⟩
  exact Schema.parse_get_of_not_field (by decide) h

theorem textColumn_denomination (x : Option String) :
    Json.or (some (Json.orNull .str x)) (some (.str "USD")) = some (.str (orElse x "USD")) := by
  cases x with
  | none => rfl
  | some s => by_cases hs : s = "" <;> simp [Json.or, Json.orNull, Json.truthy, orElse, hs]

theorem given_webhook_url (x : Option String) :
    given (some (Json.orNull .str x)) = (nonEmpty x).map .str := by
  cases x with
  | none => rfl
  | some s =>
      by_cases hs : s = "" <;> simp [given, Json.orNull, Json.truthy, nonEmpty, Option.filter, hs]

/-- A payload without an account of its own acts for the authenticated one. -/
theorem actsFor_own (account : Account) (payload : Json)
    (h : ∀ kv ∈ Json.ownProps (some (received payload)), kv.1 ≠ "account") :
    accountOf (createParams account payload) = .ok account.toJson ∧
      ActsFor account (createParams account payload) account.toJson := by
  have hfield : Json.field "account" (createParams account payload) = some account.toJson := by
    rw [createParams, Json.field_spread_of_none h]
    rfl
  refine ⟨by rw [accountOf, hfield]; rfl, rfl, .inr ?_, .inr ?_⟩
  · exact textColumn_denomination account.denomination
  · exact given_webhook_url account.webhook_url

/-! ## A payload that speaks for another account -/

/-- Two accounts that take BTC, and nothing sold yet. -/
def market : World :=
  { accounts := .pair { id := 1 } { id := 2 } (by decide) (by decide),
    addresses := .pair
      { id := 1, account_id := some 1, currency := "BTC", chain := "BTC", value := some "own" }
      { id := 2, account_id := some 2, currency := "BTC", chain := "BTC", value := some "other" }
      (by decide) (by decide),
    prices := .single { id := 1, currency := "USD", value := 2, base_currency := some "BTC" } }

/-- A server that takes BTC. -/
def seller : Env :=
  { plugins := [("BTC", { currency := "BTC", chain := "BTC", decimals := 8 })],
    coins := [{ code := "BTC", currency := some "BTC", chain := some "BTC" }] }

/-- The memo is not a text, so the payload is not valid; its account is another. -/
def impostor : Json :=
  .obj [("amount", .num 10), ("memo", .null), ("account", .obj [("id", .num 2)])]

/-- The first account sends this payload. -/
def sent (payload : Json) : World :=
  ((discard (create seller { id := 1 } payload) : Task Unit).exec (fun _ => {}) market).2

/-- The invoice is the other account's: requests do not always make invoices of
the account that sent them. -/
theorem speaks_for_anyone :
    ¬ ∀ (env : Env) (account : Account) (payload : Json) (w : World) (request : Task Unit),
      request ∈ routes env account payload → ∀ (o : Nat → Answer) (invoice : Invoice),
      invoice ∈ (request.exec o w).2.invoices.rows → invoice ∉ w.invoices.rows →
      BelongsTo account (createParams account payload) w (request.exec o w).2 invoice := by
  intro h
  have hmade : ∃ r ∈ (sent impostor).invoices.rows, r.account_id = some 2 := by
    decide +kernel
  obtain ⟨r, hr, hid⟩ := hmade
  have hown := h seller { id := 1 } impostor market _ (by simp [routes]) (fun _ => {}) r hr
    (by simp [market])
  rw [hown.account_id] at hid
  exact absurd hid (by decide)

/-- A payload with just an amount. -/
def tenOf : Json := .obj [("amount", .num 10)]

/-- It makes an invoice of the account that sent it. -/
theorem belongs_own : ∃ r ∈ (sent tenOf).invoices.rows,
    BelongsTo { id := 1 } (createParams { id := 1 } tenOf) market (sent tenOf) r := by
  have hmade : ∃ r ∈ (sent tenOf).invoices.rows, r.account_id = some 1 := by
    decide +kernel
  obtain ⟨r, hr, -⟩ := hmade
  refine ⟨r, hr, ?_⟩
  refine (belongs_iff seller { id := 1 } tenOf market _ (by simp [routes]) (fun _ => {}) r hr
    (by simp [market])).mpr ⟨_, actsFor_own { id := 1 } tenOf ?_⟩
  decide +kernel

end Anypay.Ownership
