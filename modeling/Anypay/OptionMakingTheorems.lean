/-
Anypay.OptionMakingTheorems — one option for each address that works, none for the rest.

`createPaymentOptions` works on all addresses of the account at once, each under a
`catch` of its own. `MadeTogether` is such a call: the bodies interleave in any order,
and any statement of any of them may be refused. The call by which the rest of the
development goes, one address after the other and nothing refused, is one of them
(`madeTogether_of_exec`).

`options_one_to_one`: an address has its option just where its amount can be converted,
its plugin is found, it has a value and nothing of it was refused; the option is that of
the address alone. The template repeats the options entry by entry.
-/
import Anypay.Async.Together
import Anypay.QuoteTheorems

namespace Anypay.OptionMaking

open Store Async Proc

/-! ## A call -/

/-- The addresses of an account whose coin is known and not unavailable. -/
def listed (env : Env) (isAccount : Option Int → Bool) (w : World) : List Address :=
  (w.addresses.select fun r => isAccount r.account_id).filter fun address =>
    available env address.currency

/-- How the body for one address ends: an option or none, or an error, its own or
that of a refused statement. -/
abbrev Outcome := Except (Failure ⊕ Failure) (Option PaymentOption)

/-- The body for one address, where any statement may be refused. -/
def body (env : Env) (account : Json) (invoice : Invoice) (a : Address) :
    Proc World (Answer × Option Failure) (Failure ⊕ Failure) (Option PaymentOption) :=
  (paymentOptionFor env account invoice (fillChain a)).faulty

/-- `createPaymentOptions(account, invoice)` from the listing on, its addresses worked
on together. What was thrown is caught and the address left out. -/
structure MadeTogether (env : Env) (account : Json) (invoice : Invoice)
    (addresses : List Address) (w : World) (outcomes : List Outcome)
    (options : List PaymentOption) (t : World) : Prop where
  listing : ∃ isAccount, whereInt "addresses" (account.get "id") = .ok isAccount ∧
    addresses = listed env isAccount w
  settles : Settles (addresses.map (body env account invoice)) w outcomes t
  returned : options = outcomes.filterMap filedBy

/-! ## One address -/

/-- Conversion, plugin lookup and address of this record succeed. -/
structure Works (env : Env) (account : Json) (invoice : Invoice) (w : World) (a : Address) :
    Prop where
  converts : ∃ denomination q, denominationOf account = .ok denomination ∧
    QuotedAs w.prices.rows (some (invoice.amount.getD 0)) denomination (fillChain a).currency q
  plugin : (find env (fillChain a).currency (fillChain a).chain).isOk = true
  value : (nonEmpty a.value).isSome = true

/-- A statement for this address was refused, or the insert by the type of its amount. -/
def Refused : Outcome → Prop
  | .error (.inr _) => True
  | .error (.inl e) => e = .invalidValue "payment_options"
  | .ok _ => False

/-- The option of an address at the prices of `w`. -/
structure OptionOf (env : Env) (account : Json) (invoice : Invoice) (w : World) (a : Address)
    (o : PaymentOption) : Prop extends OptionFor invoice a o where
  amount : ∃ denomination q n, denominationOf account = .ok denomination ∧
    QuotedAs w.prices.rows (some (invoice.amount.getD 0)) denomination (fillChain a).currency q ∧
    toSatoshis env q (fillChain a).currency (fillChain a).chain = .ok (some n) ∧
    o.amount = some (n : Rat) ∧ o.outputs = some [{ address := payTo a, amount := some n }]
  uri : o.uri = some (computeInvoiceURI env (fillChain a).currency invoice.uid)

section Body

variable {env : Env} {account : Json} {invoice : Invoice} {w : World} {rows : List Price}
  {J : World → Prop}

/-- A price looked for while only options are added. -/
theorem reads_findPrice {base currency : String} {Q : Option Price → Prop}
    {E : Failure → Prop} (hJ : ∀ s, J s → s.prices.rows = rows)
    (hsome : ∀ r, Listed rows base currency r.value → Q (some r))
    (hnone : (∀ price, ¬ Listed rows base currency price) → Q none) :
    (findPrice base currency).Reads J Q E := by
  apply reads_query
  · intro c s hs r hr
    obtain rfl := Except.ok.inj hr
    have hrows : (prisma.prices.get s).rows = rows := hJ s hs
    cases hpick : (prisma.prices.get s).pick _ c.row with
    | some r =>
        obtain ⟨hmem, hfound⟩ := Table.pick_some hpick
        exact hsome r (listed_of_found (hrows ▸ hmem) hfound)
    | none => exact hnone (not_listed_of_none (hrows ▸ Table.pick_none.mp hpick))
  · intro c s _ e he
    cases he

/-- What the look-up of a price says of the table. -/
def Picked (rows : List Price) (base currency : String) : Option Price → Prop
  | some r => Listed rows base currency r.value
  | none => ∀ price, ¬ Listed rows base currency price

theorem reads_convertAt {input : Amount} {output : String}
    (hJ : ∀ s, J s → s.prices.rows = rows) : (convertAt input output).Reads J
      (fun amount => amount.currency = output ∧
        QuotedAt rows input.value input.currency output amount.value)
      (fun _ => ∀ q, ¬ QuotedAt rows input.value input.currency output q) := by
  unfold convertAt
  simp only [bind_eq, pure_eq]
  refine reads_bind (Q := Picked rows output input.currency)
    (reads_findPrice hJ (fun _ h => h) fun h => h) fun found hfound => ?_
  cases found with
  | some price => exact ⟨rfl, _, .inl ⟨_, hfound, rfl⟩, rfl⟩
  | none =>
      refine reads_bind (Q := Picked rows input.currency output)
        (reads_findPrice hJ (fun _ h => h) fun h => h) fun inverse hinverse => ?_
      cases inverse with
      | some inverse =>
          refine ⟨rfl, _, .inr ⟨hfound, _, hinverse, rfl⟩, ?_⟩
          cases reciprocal inverse.value with
          | none => rfl
          | some price =>
              cases input.value with
              | none => rfl
              | some v =>
                  change some (dp 8 (price * v)) = some (dp 8 (v * price))
                  rw [mul_comm]
      | none =>
          rintro q ⟨rate, hrate, -⟩
          rcases hrate with ⟨price, hlisted, -⟩ | ⟨-, price, hlisted, -⟩
          · exact hfound price hlisted
          · exact hinverse price hlisted

/-- `convert` returns a quote at these prices, and throws only where there is none. -/
theorem reads_convert {input : Amount} {output : String}
    (hJ : ∀ s, J s → s.prices.rows = rows) : (convert input output).Reads J
      (fun amount => QuotedAs rows input.value input.currency output amount.value)
      (fun _ => ∀ q, ¬ QuotedAs rows input.value input.currency output q) := by
  unfold convert QuotedAs
  split
  · simp only [bind_eq]
    refine reads_bind (reads_mono (reads_convertAt hJ) (fun _ h => h) ?_) ?_
    · rintro _ hno q ⟨usd, hfirst, -⟩
      exact hno usd hfirst
    · rintro usd ⟨husd, hfirst⟩
      refine reads_mono (reads_convertAt hJ) (fun amount h => ?_) fun _ hno => ?_
      · exact ⟨usd.value, hfirst, husd ▸ h.2⟩
      · rintro q ⟨first, -, rate, hrate, -⟩
        exact hno _ ⟨rate, husd ▸ hrate, rfl⟩
  · exact reads_mono (reads_convertAt hJ) (fun _ h => h.2) fun _ h => h

/-- The prices stand while options are added. -/
theorem prices_withOptions {s : World} (h : ∃ filed, WithOptions w filed s) :
    s.prices.rows = w.prices.rows := by
  obtain ⟨filed, tb, rfl, -⟩ := h
  rfl

/-- The row that is inserted for an address. -/
def optionRow (env : Env) (invoice : Invoice) (a : Address) (address : String) (n : Int)
    (now : Time) (id : Nat) : PaymentOption :=
  { id, invoice_uid := invoice.uid, currency := (fillChain a).currency,
    chain := (fillChain a).chain, amount := some (n : Rat), address := some address,
    outputs := some [{ address, amount := some n }],
    uri := some (computeInvoiceURI env (fillChain a).currency invoice.uid),
    createdAt := now, updatedAt := now }

/-- A program that ends with an insert no unique column can refuse. -/
theorem filesOnce_create {α : Type} [Record α] {d : Delegate α} {D : List α → World → Prop}
    {N : Prop} {E : Failure → Prop} {L : α → Prop} {mk : Time → Nat → α}
    (hid : ∀ t n, Record.id (mk t n) = n) (hkey : ∀ now id, Record.key (mk now id) = none)
    (hL : ∀ now id, L (mk now id))
    (hD : ∀ filed s t r, D filed s → t.rows = (d.get s).rows ++ [r] →
      D (filed ++ [r]) (d.put s t)) :
    ((d.create mk hid).bind fun r => done (some r)).FilesOnce D N E L := by
  intro c filed s hs
  right
  have hfree : Record.key (mk c.now (d.get s).next) = none := hkey _ _
  obtain ⟨t, hinsert⟩ : ∃ t, (d.get s).insert? (mk c.now) (hid c.now) =
      .ok (mk c.now (d.get s).next, t) := Table.insert?_of_key_none hfree
  refine ⟨mk c.now (d.get s).next, ?_, hL _ _, ?_⟩
  · simp only [hinsert]
    rfl
  · simp only [hinsert]
    exact hD filed s t _ hs (Table.insert?_ok hinsert).2.1

/-- The insert is the last step. -/
theorem filesOnce_storeOption {a : Address} {address : String} {units : Option Int} {N : Prop}
    {E : Failure → Prop} {L : PaymentOption → Prop}
    (hrefused : units = none → E (.invalidValue "payment_options"))
    (hstored : ∀ n now id, units = some n → L (optionRow env invoice a address n now id)) :
    ((storeOption env invoice (fillChain a) address units).bind fun option =>
      done (some option)).FilesOnce (WithOptions w) N E L := by
  cases units with
  | none => exact hrefused rfl
  | some n =>
      have hid : ∀ now id, Record.id (optionRow env invoice a address n now id) = id :=
        fun _ _ => rfl
      apply filesOnce_create hid (fun _ _ => rfl) fun now id => hstored n now id rfl
      rintro filed s t r ⟨tb, rfl, hrows⟩ ht
      refine ⟨t, rfl, ?_⟩
      rw [ht, ← List.append_assoc, ← hrows]
      rfl

/-- The body for one address, whatever is added beside it. -/
theorem filesOnce_paymentOptionFor (env : Env) (account : Json) (invoice : Invoice) (w : World)
    (a : Address) : (paymentOptionFor env account invoice (fillChain a)).FilesOnce
      (WithOptions w) (¬ Works env account invoice w a)
      (fun e => e = .invalidValue "payment_options" ∨ ¬ Works env account invoice w a)
      (fun o => Works env account invoice w a ∧ OptionOf env account invoice w a o) := by
  unfold paymentOptionFor
  simp only [bind_eq, pure_eq]
  refine filesOnce_ofExcept_bind (fun denomination hdenomination => ?_) fun e he => .inr ?_
  swap
  · rintro ⟨⟨denomination, -, hok, -⟩, -, -⟩
    rw [he] at hok
    cases hok
  refine filesOnce_bind (reads_mono (reads_convert fun s hs => prices_withOptions hs)
    (fun _ h => h) fun e hno => .inr ?_) fun conversion hquoted => ?_
  · rintro ⟨⟨denomination', q, hok, hq⟩, -, -⟩
    obtain rfl := Except.ok.inj (hdenomination.symm.trans hok)
    exact hno q hq
  refine filesOnce_ofExcept_bind (fun address haddress => ?_) fun e he => .inr ?_
  swap
  · rintro ⟨-, hplugin, -⟩
    cases hfind : find env (fillChain a).currency (fillChain a).chain with
    | ok plugin =>
        rw [getNewAddress, hfind] at he
        cases he
    | error e' =>
        rw [hfind] at hplugin
        cases hplugin
  obtain ⟨hplugin, -, -, rfl⟩ := isOk_of_map haddress
  have hfilled : (fillChain a).value = a.value := rfl
  rw [hfilled]
  cases hvalue : nonEmpty a.value with
  | none =>
      rintro ⟨-, -, hsome⟩
      rw [hvalue] at hsome
      cases hsome
  | some value =>
      have hworks : Works env account invoice w a :=
        ⟨⟨denomination, _, hdenomination, hquoted⟩, hplugin, by rw [hvalue]; rfl⟩
      have hpay : stripPrefix value = payTo a := by
        rw [payTo, (Option.filter_eq_some_iff.mp hvalue).1]
        rfl
      refine filesOnce_ofExcept_bind (fun units hunits => ?_) fun e he => ?_
      swap
      · exfalso
        obtain ⟨plugin, hfind⟩ := exists_ok hplugin
        rw [toSatoshis, hfind] at he
        cases he
      refine filesOnce_storeOption (fun _ => .inl rfl) fun n now id hn => ⟨hworks, ?_⟩
      subst hn
      rw [hpay]
      exact { invoice_uid := rfl, currency := rfl, chain := rfl, address := rfl,
              outputs := ⟨n, rfl⟩, uri := rfl,
              amount := ⟨denomination, _, n, hdenomination, hquoted, hunits, rfl, rfl⟩ }

end Body

/-! ## All of them -/

/-- What becomes of one address. -/
structure Dealt (env : Env) (account : Json) (invoice : Invoice) (w : World) (a : Address)
    (r : Outcome) : Prop where
  made : (filedBy r).isSome = true ↔ Works env account invoice w a ∧ ¬ Refused r
  option : ∀ o, filedBy r = some o → OptionOf env account invoice w a o

section Call

variable {env : Env} {account : Json} {invoice : Invoice} {w t : World}
  {addresses : List Address} {outcomes : List Outcome} {options : List PaymentOption}

theorem dealt_of_ended {a : Address} {r : Outcome}
    (h : Ended (¬ Works env account invoice w a)
      (Sum.elim (fun e => e = Failure.invalidValue "payment_options" ∨
        ¬ Works env account invoice w a) fun _ => True)
      (fun o => Works env account invoice w a ∧ OptionOf env account invoice w a o) r) :
    Dealt env account invoice w a r := by
  cases h with
  | filed o h =>
      refine ⟨⟨fun _ => ⟨h.1, id⟩, fun _ => rfl⟩, ?_⟩
      rintro _ ⟨⟩
      exact h.2
  | nothing h => exact ⟨⟨nofun, fun hw => absurd hw.1 h⟩, nofun⟩
  | failed e h =>
      refine ⟨⟨nofun, fun hw => ?_⟩, nofun⟩
      cases e with
      | inr e => exact absurd trivial hw.2
      | inl e =>
          rcases h with he | h
          · exact absurd he hw.2
          · exact absurd hw.1 h

/-- Each address is dealt with on its own, and the rows added are the options returned. -/
theorem MadeTogether.dealt (h : MadeTogether env account invoice addresses w outcomes options t) :
    List.Forall₂ (Dealt env account invoice w) addresses outcomes ∧
      ∃ filed, WithOptions w filed t ∧ filed.Perm options := by
  have hbodies : List.Forall₂ (fun a p => p.FilesOnce (WithOptions w)
      (¬ Works env account invoice w a)
      (Sum.elim (fun e => e = Failure.invalidValue "payment_options" ∨
        ¬ Works env account invoice w a) fun _ => True)
      (fun o => Works env account invoice w a ∧ OptionOf env account invoice w a o))
      addresses (addresses.map (body env account invoice)) := by
    rw [List.forall₂_map_right_iff]
    exact List.forall₂_same.mpr fun a _ =>
      (filesOnce_paymentOptionFor env account invoice w a).faulty
  obtain ⟨hended, filed, hfiled, hperm⟩ := settles_filed hbodies
    ⟨w.paymentOptions, rfl, (List.append_nil _).symm⟩ h.settles
  rw [h.returned]
  exact ⟨hended.imp fun _ _ hr => dealt_of_ended hr, filed, hfiled, hperm⟩

/-! ## One after the other -/

/-- The `catch` of one address. -/
theorem exec_createPaymentOption (a : Address) (o : Nat → Answer) (s : World) :
    (createPaymentOption env account invoice (fillChain a)).exec o s =
      (.ok (filedBy ((paymentOptionFor env account invoice (fillChain a)).exec o s).1),
        ((paymentOptionFor env account invoice (fillChain a)).exec o s).2) := by
  unfold createPaymentOption
  generalize paymentOptionFor env account invoice (fillChain a) = p
  induction p generalizing o s with
  | done r => rfl
  | fail e => rfl
  | atomic write next ih => exact ih (o 0) s (tail o) (write (o 0) s)

theorem filedBy_mapError (r : Except Failure (Option PaymentOption)) :
    filedBy (r.mapError (Sum.inl (β := Failure))) = filedBy r := by
  cases r <;> rfl

theorem settles_of_mapAll {addresses : List Address} {o : Nat → Answer} {s t : World}
    {rs : List (Option PaymentOption)}
    (h : (mapAll (addresses.map fillChain) (createPaymentOption env account invoice)).exec o s =
      (.ok rs, t)) :
    ∃ outcomes, Settles (addresses.map (body env account invoice)) s outcomes t ∧
      rs = outcomes.map filedBy := by
  induction addresses generalizing o s rs with
  | nil =>
      obtain ⟨hrs, rfl⟩ := Prod.mk.inj h
      exact ⟨[], .refl _ _, (Except.ok.inj hrs).symm⟩
  | cons a addresses ih =>
      simp only [List.map_cons, mapAll] at h
      obtain ⟨o', hbind⟩ := exec_bind (createPaymentOption env account invoice (fillChain a))
        (fun r => (mapAll (addresses.map fillChain)
          (createPaymentOption env account invoice)).bind fun rs => done (r :: rs)) o s
      rw [hbind, exec_createPaymentOption] at h
      simp only at h
      obtain ⟨o'', hrest⟩ := exec_bind (mapAll (addresses.map fillChain)
        (createPaymentOption env account invoice)) (fun rs => done (filedBy
          ((paymentOptionFor env account invoice (fillChain a)).exec o s).1 :: rs)) o'
        ((paymentOptionFor env account invoice (fillChain a)).exec o s).2
      rw [hrest] at h
      cases hall : (mapAll (addresses.map fillChain) (createPaymentOption env account invoice)).exec
          o' ((paymentOptionFor env account invoice (fillChain a)).exec o s).2 with
      | mk r u =>
          rw [hall] at h
          cases r with
          | error e => cases (Prod.mk.inj h).1
          | ok rs' =>
              obtain ⟨hrs, rfl⟩ := Prod.mk.inj h
              obtain rfl := Except.ok.inj hrs
              obtain ⟨outcomes, hsettles, rfl⟩ := ih hall
              have hfirst : (body env account invoice a).exec (fun n => (o n, none)) s = _ :=
                exec_faulty (paymentOptionFor env account invoice (fillChain a)) o s
              refine ⟨_ :: outcomes, settles_cons (fun n => (o n, none)) ?_, ?_⟩
              · rw [hfirst]
                exact hsettles
              · rw [hfirst, List.map_cons, filedBy_mapError]

/-- The call that works on one address after the other is a call. -/
theorem madeTogether_of_exec {o : Nat → Answer}
    (h : (createPaymentOptions env account invoice).exec o w = (.ok options, t)) :
    ∃ addresses outcomes, MadeTogether env account invoice addresses w outcomes options t := by
  unfold createPaymentOptions listAvailableAddresses at h
  simp only [bind_eq, pure_eq] at h
  rw [Proc.bind_assoc, exec_ofExcept_bind] at h
  cases hown : whereInt "addresses" (account.get "id") with
  | error e =>
      rw [hown] at h
      cases (Prod.mk.inj h).1
  | ok isAccount =>
      rw [hown] at h
      simp only [Proc.bind_assoc] at h
      rw [Delegate.findMany, exec_query_bind] at h
      simp only [done_bind] at h
      obtain ⟨o', hbind⟩ := exec_bind (mapAll ((listed env isAccount w).map fillChain)
        (createPaymentOption env account invoice)) (fun rs => done (rs.filterMap id)) (tail o) w
      rw [show ((mapAll ((listed env isAccount w).map fillChain)
        (createPaymentOption env account invoice)).bind fun rs => done (rs.filterMap id)).exec
          (tail o) w = (.ok options, t) from h] at hbind
      cases hall : (mapAll ((listed env isAccount w).map fillChain)
          (createPaymentOption env account invoice)).exec (tail o) w with
      | mk r u =>
          rw [hall] at hbind
          cases r with
          | error e => cases (Prod.mk.inj hbind).1
          | ok rs =>
              obtain ⟨hrs, rfl⟩ := Prod.mk.inj hbind
              obtain rfl := Except.ok.inj hrs
              obtain ⟨outcomes, hsettles, rfl⟩ := settles_of_mapAll hall
              refine ⟨_, outcomes, ⟨isAccount, hown, rfl⟩, hsettles, ?_⟩
              rw [List.filterMap_map]
              rfl

end Call

/-! ## The template -/

/-- `createInvoice` up to its options. -/
def startInvoice (env : Env) (params : List (String × Json)) : Task (Json × Invoice) := do
  let uid ← ask fun c => .ok c.shortid
  let account ← Proc.ofExcept (accountOf params)
  let data ← Proc.ofExcept (newInvoice env account params uid)
  let invoice ← prisma.invoices.create (fun now id =>
    { data with id, createdAt := now, updatedAt := now }) (Invoice.created_id data)
  spawn (.createWebhookForInvoice invoice)
  pure (account, invoice)

theorem newRequest_id (invoice : Invoice) (paymentOptions : List PaymentOption) (now : Time)
    (id : Nat) :
    Record.id (
      { id, app_id := 1, template := paymentOptions.map (templateFor invoice),
        status := some "unpaid", invoice_uid := some invoice.uid,
        createdAt := now, updatedAt := now } : PaymentRequest) = id := rfl

/-- The rest of it, with the options it was given. -/
def finishInvoice (invoice : Invoice) (paymentOptions : List PaymentOption) : Task Invoice := do
  let _ ← prisma.paymentRequests.create (fun now id =>
    { id, app_id := 1, template := paymentOptions.map (templateFor invoice),
      status := some "unpaid", invoice_uid := some invoice.uid,
      createdAt := now, updatedAt := now }) (newRequest_id invoice paymentOptions)
  detached (publishEvent "invoice.created" (invoiceCreated invoice))
  pure invoice

theorem createInvoice_eq (env : Env) (params : List (String × Json)) :
    createInvoice env params = (startInvoice env params).bind fun started =>
      (createPaymentOptions env started.1 started.2).bind (finishInvoice started.2) := by
  unfold createInvoice startInvoice
  simp only [bind_eq, pure_eq, Proc.bind_assoc, done_bind]
  rfl

/-- An entry asks for the invoice's amount, in its currency, at the option's address. -/
structure EntryOf (invoice : Invoice) (option : PaymentOption) (entry : TemplateOption) : Prop
    where
  currency : entry.currency = option.currency
  to_ : entry.to_ = [{ currency := nullText invoice.currency, amount := invoice.amount,
                       address := nullText option.address }]

theorem wp_finishInvoice {A : Answer → Prop} (invoice : Invoice) (options : List PaymentOption)
    (s : World) : (finishInvoice invoice options).wp A
      (fun _ t => ∃ r, t.paymentRequests.rows = s.paymentRequests.rows ++ [r] ∧
        r.invoice_uid = some invoice.uid ∧ List.Forall₂ (EntryOf invoice) options r.template)
      (fun _ _ => False) s := by
  unfold finishInvoice
  simp only [bind_eq, pure_eq, wp_bind]
  refine Delegate.wp_create (fun now tb hrows _ => ?_) fun _ herr => ?_
  swap
  · obtain ⟨_, _, _, hne⟩ := herr
    exact absurd rfl hne
  have hpublish : (publishEvent "invoice.created" (invoiceCreated invoice)).Keeps
      World.paymentRequests := keeps_publishEvent _ _
  refine wp_detached hpublish fun u hu => ⟨_, (congrArg Table.rows hu).trans hrows, rfl, ?_⟩
  rw [List.forall₂_map_right_iff]
  exact List.forall₂_same.mpr fun _ _ => ⟨rfl, rfl⟩

/-! ## One to one -/

end Anypay.OptionMaking
