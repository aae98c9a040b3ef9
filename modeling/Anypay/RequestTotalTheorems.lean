/-
Anypay.RequestTotalTheorems — what the invoice of a payment request is over.

`ensureConsistentCurrencyAmount` looks for a currency and adds amounts in one
breath: only while it has none. So the amount it returns is that of the first
destination (and of those before it whose currency is the empty text).
`invoice_total_iff` says when that, or what the request's options put in its place,
is what each option of the template comes to.

* `ensure_eq` — what the two loops come to.
* `wp_createPaymentRequest_columns` — what becomes of it in the new invoice.
-/
import Anypay.LifecycleTheorems
import Anypay.PaymentRequestTheorems

namespace Anypay.RequestTotals

open Store Async Proc

/-! ## The two loops -/

/-- A destination with its currency and its amount. -/
def Describes (to_ : Json) (p : String × Rat) : Prop :=
  to_.get "currency" = some (.str p.1) ∧ bigNumber (to_.get "amount") = .ok (some p.2)

/-- A template with the destinations of each of its options. -/
def Asks (template : List Json) (pairs : List (List (String × Rat))) : Prop :=
  List.Forall₂ (fun option ps => ∃ tos, option.get "to" = some (.arr tos) ∧
    List.Forall₂ Describes tos ps) template pairs

/-- The error of currencies that differ. -/
def inconsistent : Failure := .error "all template options to.currency must equal the same value"

/-- The body of the inner loop at a destination. -/
def look (found : Option Json × Option Rat) (p : String × Rat) :
    Except Failure (Option Json × Option Rat) :=
  if Json.truthy found.1 then
    if strictEq found.1 (some (.str p.1)) then .ok found else .error inconsistent
  else .ok (some (.str p.1), found.2.map (· + p.2))

theorem property_of_get {k : String} {x v : Json} (h : x.get k = some v) :
    property k x = .ok (some v) := by
  cases x with
  | null => cases h
  | bool b => cases h
  | num q => cases h
  | str s => cases h
  | arr xs => cases h
  | obj fields => exact congrArg Except.ok h

theorem consistentWith_eq {to_ : Json} {p : String × Rat} (h : Describes to_ p)
    (found : Option Json × Option Rat) : consistentWith found to_ = look found p := by
  obtain ⟨hcurrency, hamount⟩ := h
  unfold consistentWith look
  rw [property_of_get hcurrency, hamount]
  show (if Json.truthy found.1 = true then _ else _) = _
  split
  · rfl
  · cases found.2 <;> rfl

theorem foldlM_consistentWith {tos : List Json} {ps : List (String × Rat)}
    (h : List.Forall₂ Describes tos ps) (found : Option Json × Option Rat) :
    tos.foldlM consistentWith found = ps.foldlM look found := by
  induction h generalizing found with
  | nil => rfl
  | cons hhead _ ih =>
      rw [List.foldlM_cons, List.foldlM_cons, consistentWith_eq hhead]
      exact congrArg _ (funext ih)

/-- The loop of loops is one loop over all destinations. -/
theorem foldlM_consistentOption {template : List Json} {pairs : List (List (String × Rat))}
    (h : Asks template pairs) (found : Option Json × Option Rat) :
    template.foldlM consistentOption found = pairs.flatten.foldlM look found := by
  induction h generalizing found with
  | nil => rfl
  | @cons option ps _ _ hhead _ ih =>
      obtain ⟨tos, hto, htos⟩ := hhead
      have hoption : consistentOption found option = ps.foldlM look found := by
        rw [← foldlM_consistentWith htos found]
        unfold consistentOption
        rw [property_of_get hto]
        rfl
      rw [List.foldlM_cons, List.flatten_cons, List.foldlM_append, hoption]
      exact congrArg _ (funext ih)

/-- Once there is a currency it is only compared. -/
theorem look_found {c : String} (hc : c ≠ "") (sum : Option Rat) (ps : List (String × Rat)) :
    ps.foldlM look (some (.str c), sum) =
      if ∀ p ∈ ps, p.1 = c then .ok (some (.str c), sum) else .error inconsistent := by
  induction ps with
  | nil => simp [pure, Except.pure]
  | cons p ps ih =>
      have htruthy : Json.truthy (some (.str c)) = true := by simpa [Json.truthy] using hc
      rw [List.foldlM_cons, look, if_pos htruthy]
      by_cases hp : p.1 = c
      · have heq : strictEq (some (.str c)) (some (.str p.1)) = true := by simp [strictEq, hp]
        rw [if_pos heq]
        show ps.foldlM look (some (.str c), sum) = _
        have hall : (∀ q ∈ p :: ps, q.1 = c) ↔ ∀ q ∈ ps, q.1 = c := by
          rw [List.forall_mem_cons]
          exact and_iff_right hp
        simp only [ih, hall]
      · have hne : ¬ strictEq (some (.str c)) (some (.str p.1)) = true := by
          rw [strictEq, beq_iff_eq]
          exact fun h => hp h.symm
        rw [if_neg hne, if_neg]
        · rfl
        · intro hall
          exact hp (hall p List.mem_cons_self)

/-- The text is empty: no currency for an `if`. -/
def nameless (p : String × Rat) : Bool := p.1 == ""

/-- What is found, and what is added up on the way to it. -/
theorem look_eq {found : Option Json} (hfound : Json.truthy found = false) (sum : Rat)
    (ps : List (String × Rat)) :
    ps.foldlM look (found, some sum) =
      match ps.dropWhile nameless with
      | [] => .ok (if ps = [] then found else some (.str ""), some (sum + (ps.map Prod.snd).sum))
      | p :: rest =>
          if ∀ q ∈ rest, q.1 = p.1 then
            .ok (some (.str p.1),
              some (sum + ((ps.takeWhile nameless).map Prod.snd).sum + p.2))
          else .error inconsistent := by
  induction ps generalizing found sum with
  | nil => simp [pure, Except.pure]
  | cons p ps ih =>
      rw [List.foldlM_cons, look, if_neg (by simp [hfound])]
      show ps.foldlM look (some (.str p.1), some (sum + p.2)) = _
      by_cases hp : p.1 = ""
      · have hnameless : nameless p = true := by simp [nameless, hp]
        rw [List.dropWhile_cons_of_pos hnameless, List.takeWhile_cons_of_pos hnameless, hp,
          ih (by rfl)]
        simp only [List.map_cons, List.sum_cons, add_assoc, if_neg (List.cons_ne_nil p ps),
          ite_self]
      · have hnamed : ¬ nameless p = true := by simpa [nameless] using hp
        rw [List.dropWhile_cons_of_neg hnamed, List.takeWhile_cons_of_neg hnamed, look_found hp]
        simp

/-- The destinations of each option, all in one currency. -/
def allIn (currency : String) (outs : List (List Rat)) : List (List (String × Rat)) :=
  outs.map fun out => out.map fun amount => (currency, amount)

theorem flatten_allIn (currency : String) (outs : List (List Rat)) :
    (allIn currency outs).flatten = outs.flatten.map fun amount => (currency, amount) :=
  List.map_flatten.symm

/-- The amount that is returned where all destinations have one currency. -/
def counted (currency : String) (outs : List (List Rat)) : Rat :=
  if currency = "" then outs.flatten.sum else outs.flatten.head?.getD 0

theorem ensure_eq {template : List Json} {currency : String} {outs : List (List Rat)}
    (h : Asks template (allIn currency outs)) :
    ensureConsistentCurrencyAmount template =
      .ok (if outs.flatten = [] then none else some (.str currency),
        some (counted currency outs)) := by
  unfold ensureConsistentCurrencyAmount
  rw [foldlM_consistentOption h, flatten_allIn, look_eq (by rfl), counted]
  generalize outs.flatten = amounts
  have hsnd : (amounts.map fun amount => (currency, amount)).map Prod.snd = amounts := by
    rw [List.map_map]
    exact List.map_id _
  by_cases hcurrency : currency = ""
  · have hall : (amounts.map fun amount => (currency, amount)).dropWhile nameless = [] := by
      rw [List.dropWhile_eq_nil_iff]
      intro p hp
      obtain ⟨amount, -, rfl⟩ := List.mem_map.mp hp
      simp [nameless, hcurrency]
    simp only [hall, hsnd, if_pos hcurrency, List.map_eq_nil_iff, zero_add]
    rw [hcurrency]
  · rw [if_neg hcurrency]
    cases amounts with
    | nil => simp
    | cons amount amounts =>
        have hnamed : ¬ nameless (currency, amount) = true := by simpa [nameless] using hcurrency
        rw [List.map_cons, List.dropWhile_cons_of_neg hnamed, List.takeWhile_cons_of_neg hnamed]
        simp

/-- Currencies differ, texts that are empty ahead of all others apart. -/
def Differ (ps : List (String × Rat)) : Prop :=
  ∃ p ∈ ps.dropWhile nameless, ∃ q ∈ ps.dropWhile nameless, p.1 ≠ q.1

/-- Currencies that differ are refused, and no others. -/
theorem ensure_error_iff {template : List Json} {pairs : List (List (String × Rat))}
    (h : Asks template pairs) :
    ensureConsistentCurrencyAmount template = .error inconsistent ↔ Differ pairs.flatten := by
  unfold ensureConsistentCurrencyAmount Differ
  rw [foldlM_consistentOption h, look_eq (by rfl)]
  cases pairs.flatten.dropWhile nameless with
  | nil => simp
  | cons p rest =>
      by_cases hall : ∀ q ∈ rest, q.1 = p.1
      · simp only [if_pos hall]
        refine iff_of_false nofun ?_
        rintro ⟨q, hq, r, hr, hne⟩
        have hsame : ∀ x ∈ p :: rest, x.1 = p.1 := by
          rw [List.forall_mem_cons]
          exact ⟨rfl, hall⟩
        exact hne ((hsame q hq).trans (hsame r hr).symm)
      · simp only [if_neg hall, true_iff]
        obtain ⟨q, hq⟩ := not_forall.mp hall
        obtain ⟨hq, hne⟩ := Classical.not_imp.mp hq
        exact ⟨q, List.mem_cons_of_mem _ hq, p, List.mem_cons_self, hne⟩

/-! ## The new invoice -/

/-- What the options of a request have under a name. -/
def named (k : String) (options : Option Json) : Option Json :=
  Json.field k (Json.spread [] (some (options.getD (.obj []))))

/-- A spread value has the last word. -/
theorem field_spread (k : String) (fields : List (String × Json)) (x : Option Json) :
    Json.field k (Json.spread fields x) =
      (Json.field k (Json.spread [] x)).or (Json.field k fields) := by
  unfold Json.spread
  have hfrom : ∀ (props base fields' : List (String × Json)),
      Json.field k fields' = (Json.field k base).or (Json.field k fields) →
      Json.field k (props.foldl (fun acc kv => Json.assign acc kv.1 kv.2) fields') =
        (Json.field k (props.foldl (fun acc kv => Json.assign acc kv.1 kv.2) base)).or
          (Json.field k fields) := by
    intro props
    induction props with
    | nil => exact fun _ _ h => h
    | cons kv props ih =>
        intro base fields' h
        refine ih _ _ ?_
        rw [Json.field_assign, Json.field_assign]
        split
        · rfl
        · exact h
  exact hfrom _ _ _ (by rfl)

/-- The columns of the invoice that come from the template, unless the options name
them. -/
structure Columns (template : List Json) (options : Option Json) (r : Invoice) : Prop where
  found : ∃ currency amount, ensureConsistentCurrencyAmount template = .ok (currency, amount) ∧
    textColumn "invoices" ((named "currency" options).or currency) = .ok r.currency ∧
    decimalColumn "invoices" ((named "amount" options).or (some (orNaN amount))) = .ok r.amount

section Wp

variable {A : Answer → Prop} {env : Env} {s w : World}

theorem emptyInvoice_columns {app_id : Int} {app : App} {uid : Json}
    {fields : List (String × Json)} {r : Invoice}
    (h : emptyInvoice env app_id app uid fields = .ok r) :
    textColumn "invoices" (Json.field "currency" fields) = .ok r.currency ∧
      decimalColumn "invoices" (Json.field "amount" fields) = .ok r.amount := by
  unfold emptyInvoice at h
  simp only [except_bind_ok] at h
  obtain ⟨_, -, _, -, currency, hcurrency, amount, hamount, h⟩ := h
  obtain ⟨_, -, _, -, _, -, _, -, _, -, _, -, h⟩ := h
  obtain rfl := Except.ok.inj h
  exact ⟨hcurrency, hamount⟩

/-- The invoice that is made has the columns its data has. -/
theorem wp_createEmptyInvoice_columns {app_id : Int} {fields : List (String × Json)} :
    (createEmptyInvoice env app_id fields).wp A
      (fun r t => Requests.WithInvoice s r t ∧
        textColumn "invoices" (Json.field "currency" fields) = .ok r.currency ∧
        decimalColumn "invoices" (Json.field "amount" fields) = .ok r.amount)
      (fun _ t => t = s) s := by
  unfold createEmptyInvoice
  simp only [bind_eq]
  rw [wp_bind]
  refine wp_mono (fun uid t ht => ?_) (fun _ _ ht => ht) Requests.wp_chooseUid
  obtain ⟨rfl, -⟩ := ht
  rw [wp_bind]
  refine Delegate.wp_findFirstOrThrow (fun app _ _ => ?_) fun _ => rfl
  rw [wp_bind]
  refine wp_ofExcept (fun data hdata => ?_) fun _ _ => rfl
  have hcolumns := emptyInvoice_columns hdata
  refine Delegate.wp_create (fun now tb hrows _ => ?_) fun _ _ => rfl
  exact ⟨⟨tb, rfl, hrows, rfl⟩, hcolumns⟩

/-- The options do not reach these columns again. -/
theorem wp_updateFromOptions_columns {r : Invoice} {options : Json}
    (h : Requests.WithInvoice w r s) : (updateFromOptions r options).wp A
      (fun _ t => ∃ r', r'.currency = r.currency ∧ r'.amount = r.amount ∧
        Requests.WithInvoice w r' t) (fun _ _ => True) s := by
  unfold updateFromOptions
  split
  · simp only [bind_eq, pure_eq]
    rw [wp_bind]
    refine wp_ofExcept (fun change _ => ?_) fun _ _ => trivial
    rw [wp_bind]
    refine Delegate.wp_update (fun now tb r' _ _ hrows _ => ?_) fun _ _ _ => trivial
    obtain ⟨tb₀, rfl, hrows₀, hid⟩ := h
    have hpatched : tb.rows = Table.patch r.id (fun r => change.apply r) tb₀.rows := hrows
    rw [hrows₀] at hpatched
    exact ⟨change.apply r, rfl, rfl, tb, rfl,
      hpatched.trans (Table.patch_append_last rfl hid), hid⟩
  · exact ⟨r, rfl, rfl, h⟩

/-- A request that was created has made one invoice, with these columns. -/
theorem wp_createPaymentRequest_columns {app_id : Int} {template : List Json}
    {options : Option Json} : (createPaymentRequest env app_id template options).wp A
      (fun _ t => ∃ r, t.invoices.rows = w.invoices.rows ++ [r] ∧ Columns template options r)
      (fun _ _ => True) w := by
  unfold createPaymentRequest
  simp only [bind_eq, pure_eq]
  rw [wp_bind]
  apply wp_ofExcept _ fun _ _ => trivial
  rintro ⟨currency, amount⟩ hensure
  simp only
  split
  · trivial
  rw [wp_bind]
  apply Delegate.wp_create _ fun _ _ => trivial
  intro now requests _ _
  rw [wp_bind]
  refine wp_mono (fun invoice t ht => ?_) (fun _ _ _ => trivial) wp_createEmptyInvoice_columns
  obtain ⟨hwith, hcurrency, hamount⟩ := ht
  rw [emptyInvoiceOptions, field_spread] at hcurrency hamount
  rw [wp_bind]
  refine wp_mono (fun _ u hu => ?_) (fun _ _ h => h) (wp_updateFromOptions_columns hwith)
  obtain ⟨r, hrcurrency, hramount, hwith'⟩ := hu
  have hcolumns : Columns template options r := by
    refine ⟨currency, amount, hensure, ?_, ?_⟩
    · rw [hrcurrency, ← hcurrency]
      cases currency <;> rfl
    · rw [hramount, ← hamount]
      cases currency <;> rfl
  have hrows : u.invoices.rows = w.invoices.rows ++ [r] := by
    obtain ⟨tb, rfl, hrows, -⟩ := hwith'
    exact hrows
  refine wp_of_keeps (?_ : Proc.Keeps World.invoices _) (fun _ v hv => ?_) fun _ _ _ => trivial
  · refine keeps_bind (keeps_ofExcept _) fun _ => ?_
    refine keeps_bind (Delegate.keeps_update fun _ _ => rfl) fun _ => ?_
    refine keeps_bind keeps_query fun request => ?_
    exact keeps_bind (Lifecycle.keeps_paymentRequestToPaymentOptions (fun _ _ => rfl) _)
      fun _ => trivial
  · rw [hv]
    exact ⟨r, hrows, hcolumns⟩

end Wp

/-! ## The total -/

/-- The amount comes to the total: the one that was counted, or the options' own. -/
def TakesTotal (currency : String) (outs : List (List Rat)) (total : Rat)
    (options : Option Json) : Prop :=
  match named "amount" options with
  | none => counted currency outs = total
  | some amount => decimalColumn "invoices" (some amount) = .ok (some total)

/-- The currency is that of the destinations: the options name no other one. -/
def TakesCurrency (currency : String) (options : Option Json) : Prop :=
  named "currency" options = none ∨ named "currency" options = some (.str currency)

theorem textColumn_eq_iff {model currency : String} {x : Json} {found : Option String}
    (h : textColumn model (some x) = .ok found) :
    found = some currency ↔ x = .str currency := by
  cases x with
  | str s =>
      simp only [textColumn] at h
      split at h
      · obtain rfl := Except.ok.inj h
        simp
      · cases h
  | null =>
      obtain rfl := Except.ok.inj h
      simp
  | bool b => cases h
  | num q => cases h
  | arr xs => cases h
  | obj fields => cases h

/-- **The invoice of a payment request** has the currency of its destinations and the
total of an option's outputs exactly where the amount that is counted is that total.
Currencies that differ are refused, unless all before the second are the empty text. -/
theorem invoice_total_iff (env : Env) (w : World) (app_id : Int) (options : Option Json)
    (o : Nat → Answer) :
    (∀ template currency outs total request t, Asks template (allIn currency outs) →
      (∀ out ∈ outs, out.sum = total) →
      (createPaymentRequest env app_id template options).exec o w = (.ok request, t) →
      ∃ r, t.invoices.rows = w.invoices.rows ++ [r] ∧
        ((r.amount = some total ∧ (outs.flatten ≠ [] → r.currency = some currency)) ↔
          TakesTotal currency outs total options ∧
            (outs.flatten ≠ [] → TakesCurrency currency options))) ∧
    ∀ template pairs, Asks template pairs →
      (ensureConsistentCurrencyAmount template = .error inconsistent ↔ Differ pairs.flatten) ∧
      (Differ pairs.flatten →
        (createPaymentRequest env app_id template options).exec o w =
          (.error inconsistent, w)) := by
  constructor
  · intro template currency outs total request t hasks _ hrun
    obtain ⟨r, hrows, hcolumns⟩ := wp_exec_ok wp_createPaymentRequest_columns (anyAnswer o) hrun
    obtain ⟨found, amount, hensure, hcurrency, hamount⟩ := hcolumns.found
    rw [ensure_eq hasks] at hensure
    obtain ⟨rfl, rfl⟩ := Prod.mk.inj (Except.ok.inj hensure)
    refine ⟨r, hrows, and_congr ?_ (forall_congr' fun hsome => ?_)⟩
    · unfold TakesTotal
      cases hnamed : named "amount" options with
      | none =>
          rw [hnamed] at hamount
          rw [← Except.ok.inj hamount]
          exact Option.some_inj
      | some x =>
          rw [hnamed] at hamount
          simp only
          rw [show decimalColumn "invoices" (some x) = .ok r.amount from hamount, Except.ok.injEq]
    · unfold TakesCurrency
      cases hnamed : named "currency" options with
      | none =>
          rw [hnamed, if_neg hsome] at hcurrency
          rw [textColumn_eq_iff hcurrency]
          simp
      | some x =>
          rw [hnamed] at hcurrency
          rw [textColumn_eq_iff hcurrency]
          simp
  · intro template pairs hasks
    refine ⟨ensure_error_iff hasks, fun hdiffer => ?_⟩
    unfold createPaymentRequest
    simp only [bind_eq, exec_ofExcept_bind, (ensure_error_iff hasks).mpr hdiffer]

/-- A destination for so many dollars. -/
def dollars (amount : Rat) : Json :=
  .obj [("address", .str "a"), ("currency", .str "USD"), ("amount", .num amount)]

/-- A bill in BTC, for these amounts of dollars. -/
def bill (amounts : List Rat) : List Json :=
  [.obj [("currency", .str "BTC"), ("to", .arr (amounts.map dollars))]]

/-- A server that takes BTC and accepts bills over these amounts. -/
def till (amounts : List Rat) : Env where
  plugins := [("BTC", { currency := "BTC", chain := "BTC", decimals := 8 })]
  paymentRequestTemplate := fun _ => some [{ currency := "BTC", to_ := amounts.map fun amount =>
    { address := "a", currency := "USD", amount := some amount } }]

/-- An app, and a bitcoin at 50000 dollars. -/
def counter : World where
  apps := .single { id := 1, account_id := 7 }
  prices := .single { id := 1, currency := "BTC", base_currency := some "USD", value := 50000 }

def billed (amounts : List Rat) : Except Failure PaymentRequest × World :=
  (createPaymentRequest (till amounts) 1 (bill amounts) none).exec (fun _ => {}) counter

theorem asks_bill (amounts : List Rat) : Asks (bill amounts) (allIn "USD" [amounts]) := by
  refine .cons ⟨amounts.map dollars, rfl, ?_⟩ .nil
  rw [List.forall₂_map_left_iff, List.forall₂_map_right_iff, List.forall₂_same]
  exact fun _ _ => ⟨rfl, rfl⟩

/-- The invoice of a bill of five and seven dollars is over five. -/
theorem seven_missing : ¬ ∀ (env : Env) (w : World) (app_id : Int) (options : Option Json)
    (o : Nat → Answer) (template : List Json) (currency : String) (outs : List (List Rat))
    (total : Rat) (request : PaymentRequest) (t : World),
    Asks template (allIn currency outs) → (∀ out ∈ outs, out.sum = total) → outs.flatten ≠ [] →
    (createPaymentRequest env app_id template options).exec o w = (.ok request, t) →
    ∃ r, t.invoices.rows = w.invoices.rows ++ [r] ∧ r.amount = some total ∧
      r.currency = some currency := by
  intro h
  obtain ⟨request, hrequest⟩ := exists_ok
    (show (billed [5, 7]).1.isOk = true by decide +kernel)
  obtain ⟨r, hrows, hamount, -⟩ := h (till [5, 7]) counter 1 none (fun _ => {}) (bill [5, 7])
    "USD" [[5, 7]] 12 request (billed [5, 7]).2 (asks_bill _) (by decide +kernel) (by simp)
    (Prod.ext hrequest rfl)
  have hfive : (billed [5, 7]).2.invoices.rows.map Invoice.amount = [some 5] := by decide +kernel
  rw [hrows] at hfive
  have hr : r.amount = some 5 := List.singleton_inj.mp hfive
  rw [hamount] at hr
  exact absurd hr (by decide +kernel)

/-- A bill of twelve dollars to one destination has an invoice over twelve. -/
theorem invoice_total_one : ∃ r, (billed [12]).2.invoices.rows = counter.invoices.rows ++ [r] ∧
    r.amount = some 12 ∧ r.currency = some "USD" := by
  obtain ⟨request, hrequest⟩ := exists_ok (show (billed [12]).1.isOk = true by decide +kernel)
  obtain ⟨r, hrows, hiff⟩ := (invoice_total_iff (till [12]) counter 1 none (fun _ => {})).1
    (bill [12]) "USD" [[12]] 12 request (billed [12]).2 (asks_bill _) (by decide +kernel)
    (Prod.ext hrequest rfl)
  have htotal : TakesTotal "USD" [[12]] 12 none := by
    show counted "USD" [[12]] = 12
    decide +kernel
  obtain ⟨hamount, hcurrency⟩ := hiff.mpr ⟨htotal, fun _ => .inl rfl⟩
  exact ⟨r, hrows, hamount, hcurrency (by simp)⟩

end Anypay.RequestTotals
