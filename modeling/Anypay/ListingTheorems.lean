/-
Anypay.ListingTheorems — whether the listing endpoints list what they are asked for.

The list of payments, of an account or of one linked to it, is to have an entry for
each payment of the page; the list of invoices is to have none outside the dates
given. The rows of the payments are read without their relations, and an entry that
cannot be described is left out, so the list is always empty: right exactly where the
page is. The filter of the end date takes the place of the start date's, so the list
of invoices is right exactly where it is refused or no invoice on it is too early
(`exact_iff`).
-/
import Anypay.AccountReadTheorems

namespace Anypay.AccountReads

open Store Async Proc

/-! ## What is asked for -/

/-- A request for a list. -/
inductive Listing where
  | payments (limit offset : Option Json)
  | linkedAccountPayments (account_id : Json) (limit offset : Option Json)
  | invoices (query : String → List String)

/-- The page of the account's payments asked for, the newest first, or a refusal. -/
def pageAsked (w : World) (a : Int) (limit offset : Option Json) :
    Except Failure (List Payment) := do
  let limit ← pageNumber "payments" limit 1000
  let offset ← pageNumber "payments" offset 0
  if offset < 0 then .error (.invalidValue "payments")
  else .ok (page limit offset.toNat (newestFirst Payment.createdAt
    (w.payments.select fun r => r.account_id == some a)))

/-- The entry is of this payment, has the outputs of its option, where it has one, and
its invoice. -/
structure Describes (w : World) (payment : Payment) (entry : ListedPayment) : Prop where
  same : entry.payment = payment
  outputs : ∀ option ∈ w.paymentOptions.rows, payment.payment_option_id = some option.id →
    entry.outputs = option.outputs
  invoice : entry.invoice ∈ w.invoices.rows ∧ entry.invoice.uid = payment.invoice_uid

/-- One entry for each payment of the page, in its order; or both are refused. -/
def Listed (w : World) (asked : Except Failure (List Payment))
    (outcome : Except Failure (List ListedPayment)) : Prop :=
  match asked with
  | .ok payments => ∃ entries, outcome = .ok entries ∧
      List.Forall₂ (Describes w) payments entries
  | .error _ => outcome.isOk = false

/-- A date that is given. -/
def givenDate (toDate : Json → Option Time) (x : Option Json) : Option Time :=
  if Json.truthy x then x.bind toDate else none

def startDate (toDate : Json → Option Time) (query : String → List String) : Option Time :=
  givenDate toDate (raw (query "start_date_created"))

def endDate (toDate : Json → Option Time) (query : String → List String) : Option Time :=
  givenDate toDate (raw (query "end_date_created"))

/-- At or after the start date and before the end date, of those that are given. -/
def InRange (toDate : Json → Option Time) (query : String → List String) (t : Time) : Prop :=
  (∀ d, startDate toDate query = some d → d ≤ t) ∧ ∀ d, endDate toDate query = some d → t < d

/-- The account in the path, and a link from it to the account of the request. -/
def LinkedTo (w : World) (account : Account) (account_id : Json) (source : Account) : Prop :=
  source ∈ w.accounts.rows ∧ accountId account_id = .ok (source.id : Int) ∧
    ∃ link ∈ w.linkedAccounts.rows, link.source = source.id ∧ link.target = account.id

/-- Whatever the world outside answers, the list is what was asked for. -/
def Exact (toDate : Json → Option Time) (account : Account) (w : World) : Listing → Prop
  | .payments limit offset => ∀ o, Listed w (pageAsked w account.id limit offset)
      ((paymentsIndex account limit offset).exec o w).1
  | .linkedAccountPayments account_id limit offset =>
      ∀ source, LinkedTo w account account_id source →
        ∀ o, Listed w (pageAsked w source.id limit offset)
          ((linkedAccountPaymentsIndex account account_id limit offset).exec o w).1
  | .invoices query => ∀ o invoices t,
      (invoicesIndex toDate account query).exec o w = (.ok invoices, t) →
        ∀ r ∈ invoices, InRange toDate query r.createdAt

/-- The page is refused, or nothing is on it. -/
def Blank (w : World) (a : Int) (limit offset : Option Json) : Prop :=
  ∀ payments, pageAsked w a limit offset = .ok payments → payments = []

/-- When it is. -/
def Harmless (toDate : Json → Option Time) (account : Account) (w : World) : Listing → Prop
  | .payments limit offset => Blank w account.id limit offset
  | .linkedAccountPayments account_id limit offset =>
      ∀ source, LinkedTo w account account_id source → Blank w source.id limit offset
  | .invoices query => Json.truthy (raw (query "limit")) = true ∨
      Json.truthy (raw (query "offset")) = true ∨
      ∀ first last, startDate toDate query = some first → endDate toDate query = some last →
        ∀ r ∈ (w.invoices.select fun r => decide (r.createdAt < last)).take 100,
          first ≤ r.createdAt

variable {toDate : Json → Option Time} {account : Account} {w : World}
  {limit offset : Option Json}

/-! ## The payments -/

/-- No entry, where the page is not refused. -/
def Emptied (asked : Except Failure (List Payment)) :
    Except Failure (List ListedPayment) → Prop
  | .ok entries => entries = [] ∧ asked.isOk = true
  | .error _ => asked.isOk = false

/-- An empty list is right of an empty page only. -/
theorem listed_iff {asked : Except Failure (List Payment)}
    {outcome : Except Failure (List ListedPayment)} (h : Emptied asked outcome) :
    Listed w asked outcome ↔ ∀ payments, asked = .ok payments → payments = [] := by
  match asked, outcome with
  | .ok payments, .ok entries =>
      obtain ⟨rfl, -⟩ := h
      constructor
      · rintro ⟨entries, hentries, hall⟩ payments' hpayments
        obtain rfl := Except.ok.inj hentries
        obtain rfl := Except.ok.inj hpayments
        exact List.forall₂_nil_right_iff.mp hall
      · intro hblank
        obtain rfl := hblank payments rfl
        exact ⟨[], rfl, .nil⟩
  | .error e, .error e' => exact iff_of_true rfl nofun
  | .ok payments, .error e => cases h
  | .error e, .ok entries => cases h.2

/-- Of what is read without its relations nothing is described. -/
theorem wp_paymentsIndex (account : Account) (limit offset : Option Json) (w : World) :
    (paymentsIndex account limit offset).wp AnyAnswer
      (fun entries _ => Emptied (pageAsked w account.id limit offset) (.ok entries))
      (fun e _ => Emptied (pageAsked w account.id limit offset) (.error e)) w := by
  simp only [paymentsIndex, bind_eq, wp_bind]
  unfold pageAsked
  refine wp_ofExcept (fun n hlimit => ?_) fun e hlimit => ?_
  · rw [hlimit]
    refine wp_ofExcept (fun m hoffset => ?_) fun e hoffset => ?_
    · rw [hoffset]
      refine wp_query (fun _ _ payments hread => ?_) fun _ e hread => ?_
      · show _ = [] ∧ Except.isOk (if m < 0 then _ else _) = true
        rw [hread]
        exact ⟨List.filterMap_eq_nil_iff.mpr fun _ _ => rfl, rfl⟩
      · show Except.isOk (if m < 0 then _ else _) = false
        rw [hread]
        rfl
    · rw [hoffset]
      exact rfl
  · rw [hlimit]
    exact rfl

/-- A list that is emptied, whatever is answered. -/
theorem listed_exec_iff {p : Task (List ListedPayment)} {asked : Except Failure (List Payment)}
    (h : p.wp AnyAnswer (fun entries _ => Emptied asked (.ok entries))
      (fun e _ => Emptied asked (.error e)) w) :
    (∀ o, Listed w asked (p.exec o w).1) ↔ ∀ payments, asked = .ok payments → payments = [] := by
  have hemptied : ∀ o, Emptied asked (p.exec o w).1 := by
    intro o
    have hend := wp_exec h (anyAnswer o)
    cases hout : (p.exec o w).1 <;> simpa only [hout] using hend
  constructor
  · intro hlisted
    exact (listed_iff (hemptied fun _ => {})).mp (hlisted fun _ => {})
  · intro hblank o
    exact (listed_iff (hemptied o)).mpr hblank

/-- The list of a linked account is that of the account itself. -/
theorem wp_linkedAccountPaymentsIndex {account_id : Json} {source : Account}
    (h : LinkedTo w account account_id source) :
    (linkedAccountPaymentsIndex account account_id limit offset).wp AnyAnswer
      (fun entries _ => Emptied (pageAsked w source.id limit offset) (.ok entries))
      (fun e _ => Emptied (pageAsked w source.id limit offset) (.error e)) w := by
  obtain ⟨hsource, hid, link, hlink, hfrom, hto⟩ := h
  simp only [linkedAccountPaymentsIndex, bind_eq, wp_bind, wp_tryCatch, hid]
  refine Delegate.wp_findFirst (fun link _ _ => ?_) fun hnone => ?_
  · rw [wp_bind]
    refine Delegate.wp_findFirstOrThrow (fun found _ hfound => ?_) fun hnone => ?_
    · have hsame : (found.id : Int) = source.id := beq_iff_eq.mp hfound
      rw [← hsame]
      exact wp_mono (fun _ _ h => h) (fun _ _ h => h) (wp_paymentsIndex found limit offset w)
    · exact absurd (hnone source hsource) (by simp)
  · have hlinked := hnone link hlink
    simp [hfrom, hto] at hlinked

/-! ## The invoices -/

section Invoices

variable {query : String → List String} {within : Time → Bool}

theorem dateOf_given {x : Option Json} {d : Time} (h : givenDate toDate x = some d) :
    Json.truthy x = true ∧ dateOf toDate x = .ok d := by
  unfold givenDate at h
  split at h
  · rename_i htruthy
    exact ⟨htruthy, by rw [dateOf, h]⟩
  · cases h

/-- A filter of the end date, if there is one. -/
theorem createdWithin_last {last : Time} (h : endDate toDate query = some last) :
    createdWithin toDate (raw (query "start_date_created")) (raw (query "end_date_created")) =
      .ok fun t => decide (t < last) := by
  obtain ⟨htruthy, hdate⟩ := dateOf_given h
  rw [createdWithin, if_pos htruthy, hdate]
  rfl

/-- Otherwise of the start date. -/
theorem createdWithin_first {first : Time} (hfirst : startDate toDate query = some first)
    (hlast : endDate toDate query = none)
    (h : createdWithin toDate (raw (query "start_date_created"))
      (raw (query "end_date_created")) = .ok within) :
    within = fun t => decide (first ≤ t) := by
  obtain ⟨htruthy, hdate⟩ := dateOf_given hfirst
  unfold createdWithin at h
  by_cases hend : Json.truthy (raw (query "end_date_created")) = true
  · have hnone : (raw (query "end_date_created")).bind toDate = none := by
      rwa [endDate, givenDate, if_pos hend] at hlast
    rw [if_pos hend, dateOf, hnone] at h
    cases h
  · rw [if_neg hend, if_pos htruthy, hdate] at h
    exact (Except.ok.inj h).symm

/-- A moment the filter lets through is in range if it is not too early. -/
theorem inRange_of_within {t : Time}
    (h : createdWithin toDate (raw (query "start_date_created"))
      (raw (query "end_date_created")) = .ok within) (ht : within t = true)
    (hfirst : ∀ first last, startDate toDate query = some first →
      endDate toDate query = some last → first ≤ t) : InRange toDate query t := by
  constructor
  · intro first hstart
    cases hend : endDate toDate query with
    | some last => exact hfirst first last hstart hend
    | none =>
        rw [createdWithin_first hstart hend h] at ht
        exact of_decide_eq_true ht
  · intro last hend
    obtain rfl := Except.ok.inj (h.symm.trans (createdWithin_last hend))
    exact of_decide_eq_true ht

/-- The list, where nothing asks for a page. -/
theorem exec_invoicesIndex (hlimit : ¬ Json.truthy (raw (query "limit")) = true)
    (hoffset : ¬ Json.truthy (raw (query "offset")) = true) (o : Nat → Answer) :
    ((invoicesIndex toDate account query).exec o w).1 =
      (createdWithin toDate (raw (query "start_date_created"))
        (raw (query "end_date_created"))).map fun within =>
          (w.invoices.select fun r => within r.createdAt).take 100 := by
  simp only [invoicesIndex, bind_eq, pageNumber_raw, if_neg hlimit, if_neg hoffset]
  cases createdWithin toDate (raw (query "start_date_created"))
    (raw (query "end_date_created")) with
  | error e => rfl
  | ok within => rfl

/-- A text for the limit or the offset is refused. -/
theorem refused_of_page (h : Json.truthy (raw (query "limit")) = true ∨
    Json.truthy (raw (query "offset")) = true) (o : Nat → Answer) :
    ((invoicesIndex toDate account query).exec o w).1.isOk = false := by
  simp only [invoicesIndex, bind_eq, pageNumber_raw]
  by_cases hlimit : Json.truthy (raw (query "limit")) = true
  · rw [if_pos hlimit]
    rfl
  · rw [if_neg hlimit, if_pos (h.resolve_left hlimit)]
    rfl

/-- The list of invoices is right exactly if it is refused or no invoice on it is too
early. -/
theorem exact_invoices_iff (query : String → List String) :
    Exact toDate account w (.invoices query) ↔ Harmless toDate account w (.invoices query) := by
  constructor
  · intro h
    by_cases hlimit : Json.truthy (raw (query "limit")) = true
    · exact .inl hlimit
    by_cases hoffset : Json.truthy (raw (query "offset")) = true
    · exact .inr (.inl hoffset)
    refine .inr (.inr fun first last hfirst hlast r hr => ?_)
    have hexec := @exec_invoicesIndex toDate account w query hlimit hoffset fun _ => {}
    rw [createdWithin_last hlast] at hexec
    exact (h _ _ _ (Prod.ext hexec rfl) r hr).1 first hfirst
  · intro h o invoices t hexec r hr
    have hout := congrArg Prod.fst hexec
    by_cases hpage : Json.truthy (raw (query "limit")) = true ∨
        Json.truthy (raw (query "offset")) = true
    · have hrefused := @refused_of_page toDate account w query hpage o
      rw [hout] at hrefused
      cases hrefused
    · obtain ⟨hlimit, hoffset⟩ := not_or.mp hpage
      rw [exec_invoicesIndex hlimit hoffset] at hout
      cases hwithin : createdWithin toDate (raw (query "start_date_created"))
          (raw (query "end_date_created")) with
      | error e =>
          rw [hwithin] at hout
          cases hout
      | ok within =>
          rw [hwithin] at hout
          obtain rfl := Except.ok.inj hout
          have hmem := List.mem_of_mem_take hr
          refine inRange_of_within hwithin (Table.mem_select.mp hmem).2
            fun first last hfirst hlast => ?_
          obtain rfl := Except.ok.inj (hwithin.symm.trans (createdWithin_last hlast))
          exact (h.resolve_left hlimit).resolve_left hoffset first last hfirst hlast r hr

end Invoices

/-! ## The theorem -/

/-- A list is what was asked for exactly where the page of payments is refused or blank,
and where the list of invoices is refused or has none that is too early. -/
theorem exact_iff (toDate : Json → Option Time) (account : Account) (w : World)
    (listing : Listing) : Exact toDate account w listing ↔ Harmless toDate account w listing := by
  cases listing with
  | payments limit offset => exact listed_exec_iff (wp_paymentsIndex account limit offset w)
  | linkedAccountPayments account_id limit offset =>
      refine forall_congr' fun source => forall_congr' fun hlinked => ?_
      exact listed_exec_iff (wp_linkedAccountPaymentsIndex hlinked)
  | invoices query => exact exact_invoices_iff query

/-! ## A payment and an early invoice -/

/-- The second account's invoice of day 0 with its payment, and a link to the first. -/
def paidInvoice : World :=
  { twoAccounts with
    paymentOptions := .single
      { id := 1, invoice_uid := "b", currency := "BTC", chain := "BTC",
        outputs := some [{ address := "1A", amount := some 1000 }] }
    payments := .single { paymentOfSecond with payment_option_id := some 1 }
    linkedAccounts := .single { id := 1, source := 2, target := 1 } }

/-- A date is the number of a day. -/
def dayOf : Json → Option Time
  | .str "5" => some 5
  | .str "9" => some 9
  | _ => none

/-- From day 5 on and before day 9. -/
def fromFiveToNine (name : String) : List String :=
  if name = "start_date_created" then ["5"]
  else if name = "end_date_created" then ["9"]
  else []

/-- The payment is neither on the second account's list nor on that of the first, which is
linked to it, and the invoice is on the list from day 5 on. -/
theorem lists_not_exact : ¬ Exact dayOf second paidInvoice (.payments none none) ∧
    ¬ Exact dayOf first paidInvoice (.linkedAccountPayments (.num 2) none none) ∧
    ¬ Exact dayOf second paidInvoice (.invoices fromFiveToNine) := by
  obtain ⟨payments, hasked, hsome⟩ : ∃ payments,
      pageAsked paidInvoice second.id none none = .ok payments ∧ payments ≠ [] :=
    ⟨_, rfl, by decide +kernel⟩
  refine ⟨fun h => ?_, fun h => ?_, fun h => ?_⟩
  · exact hsome ((listed_exec_iff (wp_paymentsIndex second none none _)).mp h _ hasked)
  · have hlinked : LinkedTo paidInvoice first (.num 2) second := by
      refine ⟨by simp [paidInvoice, twoAccounts, Table.pair], rfl, ?_⟩
      exact ⟨_, List.mem_singleton_self _, rfl, rfl⟩
    exact hsome ((listed_exec_iff (wp_linkedAccountPaymentsIndex hlinked)).mp
      (h second hlinked) _ hasked)
  · have hearly := (h (fun _ => {}) [invoiceOfSecond] paidInvoice rfl invoiceOfSecond
      (List.mem_singleton_self _)).1 5 (by decide +kernel)
    exact absurd hearly (by decide)

end Anypay.AccountReads
