/-
Anypay.LinkedAccountTheorems — who sees an account's payments, over every order of
requests.

* `granted_only_by_source` — nobody sees them whom the account has not linked. A request
  without an e-mail counts: it may link anybody.
* `unlinked_in_turn` — where the account's own links take turns, its link to another is one
  row, and once either of the two has taken it back the other sees nothing. Two links at
  once make two rows, and taking back one leaves the other.
-/
import Anypay.Async.Exclusive
import Anypay.Db.Drift
import Anypay.LinkedAccounts

namespace Anypay.LinkedAccounts

open Store Async Proc Pool AccountReads

/-! ## What one step writes -/

variable {source target : Int} {s t u w : World} {link : LinkedAccount}

/-- The accounts stay; a link gets a new id and is not of this source and target. -/
structure Later (source target : Int) (s t : World) : Prop where
  accounts : t.accounts = s.accounts
  next : s.linkedAccounts.next ≤ t.linkedAccounts.next
  old : ∀ r ∈ t.linkedAccounts.rows, r.id < s.linkedAccounts.next → r ∈ s.linkedAccounts.rows
  pair : ∀ r ∈ t.linkedAccounts.rows, isPair source target r = true → r ∈ s.linkedAccounts.rows

theorem Later.refl (s : World) : Later source target s s :=
  ⟨rfl, Nat.le_refl _, fun _ hr _ => hr, fun _ hr _ => hr⟩

theorem Later.of_eq (h : t = s) : Later source target s t := by
  rw [h]
  exact .refl s

theorem Later.trans (h : Later source target s t) (h' : Later source target t u) :
    Later source target s u where
  accounts := h'.accounts.trans h.accounts
  next := Nat.le_trans h.next h'.next
  old r hr hlt := h.old r (h'.old r hr (Nat.lt_of_lt_of_le hlt h.next)) hlt
  pair r hr hpair := h.pair r (h'.pair r hr hpair) hpair

theorem later_append {tb : Table LinkedAccount} {r : LinkedAccount}
    (hrows : tb.rows = s.linkedAccounts.rows ++ [r]) (hid : r.id = s.linkedAccounts.next)
    (hpair : isPair source target r = false) :
    Later source target s { s with linkedAccounts := tb } := by
  have hlt : r.id < tb.next := tb.id_lt r (by simp [hrows])
  refine ⟨rfl, ?_, fun x hx hxlt => ?_, fun x hx hxpair => ?_⟩
  · show s.linkedAccounts.next ≤ tb.next
    omega
  · rcases List.mem_append.mp (hrows ▸ hx) with hx | hx
    · exact hx
    · rw [List.mem_singleton.mp hx] at hxlt
      omega
  · rcases List.mem_append.mp (hrows ▸ hx) with hx | hx
    · exact hx
    · rw [List.mem_singleton.mp hx, hpair] at hxpair
      cases hxpair

theorem later_filter {tb : Table LinkedAccount} {p : LinkedAccount → Bool}
    (hrows : tb.rows = s.linkedAccounts.rows.filter p)
    (hnext : tb.next = s.linkedAccounts.next) :
    Later source target s { s with linkedAccounts := tb } := by
  have hold : ∀ r ∈ tb.rows, r ∈ s.linkedAccounts.rows := by
    intro r hr
    rw [hrows] at hr
    exact (List.mem_filter.mp hr).1
  exact ⟨rfl, Nat.le_of_eq hnext.symm, fun r hr _ => hold r hr, fun r hr _ => hold r hr⟩

/-! ## What the requests write -/

theorem always_listing {account : Account} {account_id : Json} {limit offset : Option Json} :
    (linkedAccountPaymentsIndex account account_id limit offset).Always (fun s t => t = s)
      fun _ => True := by
  have hquery : ∀ {α : Type} {read : Answer → World → Except Failure α},
      (query read : Task α).Always (fun s t => t = s) fun _ => True :=
    fun {_ _} => always_step (fun _ _ => rfl) fun _ _ _ _ => trivial
  unfold linkedAccountPaymentsIndex paymentsIndex
  refine always_tryCatch ?_ fun _ => trivial
  simp only [bind_eq, pure_eq]
  refine always_bind (always_ofExcept fun _ _ => trivial) fun source _ => ?_
  refine always_bind hquery fun found _ => ?_
  cases found with
  | none => exact trivial
  | some link =>
      refine always_bind hquery fun account _ => ?_
      refine always_bind (always_ofExcept fun _ _ => trivial) fun limit _ => ?_
      refine always_bind (always_ofExcept fun _ _ => trivial) fun offset _ => ?_
      exact always_bind hquery fun payments _ => trivial

theorem always_unlinkAccount {account : Account} {id : String} :
    (unlinkAccount account id).Always (Later source target) fun _ => True := by
  unfold unlinkAccount
  simp only [bind_eq, pure_eq]
  refine always_bind (always_ofExcept fun _ _ => trivial) fun n _ => ?_
  refine always_bind (always_step (fun _ s => .refl s) fun _ _ _ _ => trivial) fun found _ => ?_
  cases found with
  | none => exact trivial
  | some link =>
      simp only
      split
      · refine always_bind (always_step (fun _ s => ?_) fun _ _ _ _ => trivial) fun _ _ => trivial
        cases hc : (prisma.linkedAccounts.get s).delete? link.id with
        | ok x =>
            obtain ⟨-, -, hrows⟩ := Table.delete?_ok hc
            exact later_filter hrows (Delegate.next_of_delete hc)
        | error e => exact .refl s
      · exact trivial

/-- A link of another source. -/
theorem always_linkAccount {account : Account} {email : Option String}
    (hother : (account.id : Int) ≠ source) :
    (linkAccount account email).Always (Later source target) fun _ => True := by
  unfold linkAccount
  simp only [bind_eq, pure_eq]
  refine always_bind (Delegate.always_findFirstOrThrow .refl _) fun found _ => ?_
  refine always_bind (always_step (fun _ s => .refl s) fun _ _ _ _ => trivial) fun record _ => ?_
  cases record with
  | some record => exact trivial
  | none =>
      refine Delegate.always_create .refl fun s now tb hrows => later_append hrows rfl ?_
      simp [isPair, hother]

/-- The account's own links. -/
def Call.linksFrom (source : Int) : Call → Prop
  | .link account _ => (account.id : Int) = source
  | _ => False

theorem always_program (call : Call) (h : ¬ call.linksFrom source) :
    (program call).Always (Later source target) fun _ => True := by
  cases call with
  | link account email => exact always_bind (always_linkAccount h) fun _ _ => trivial
  | unlink account id => exact always_unlinkAccount
  | payments account account_id limit offset =>
      refine always_bind (always_mono always_listing (fun _ _ => .of_eq) fun _ h => h) ?_
      exact fun _ _ => trivial

/-! ## What a link is good for -/

/-- The source lets the target see its payments. -/
def Linked (source target : Int) (w : World) : Prop :=
  ∃ r ∈ w.linkedAccounts.rows, isPair source target r = true

/-- The target asks for the source's payments, and is refused. -/
def Refused (source target : Int) (w : World) : Prop :=
  ∀ (account : Account) (limit offset : Option Json) (o : Nat → Answer),
    (account.id : Int) = target →
      ((linkedAccountPaymentsIndex account (.num source) limit offset).exec o w).1 =
        .error (.error "unauthorized")

theorem refused_of_not_linked (h : ¬ Linked source target w) : Refused source target w := by
  intro account limit offset o haccount
  have hwp : (linkedAccountPaymentsIndex account (.num source) limit offset).wp AnyAnswer
      (fun _ _ => False) (fun e _ => e = .error "unauthorized") w := by
    simp only [linkedAccountPaymentsIndex, bind_eq, wp_bind, wp_tryCatch]
    refine wp_ofExcept (fun n hn => ?_) fun _ _ => rfl
    obtain rfl : source = n := by simpa [accountId] using hn
    refine Delegate.wp_findFirst (fun r hr hpair => ?_) fun _ => rfl
    exact absurd ⟨r, hr, by simpa [isPair, haccount] using hpair⟩ h
  have hend := wp_exec hwp (anyAnswer o)
  cases hexec : ((linkedAccountPaymentsIndex account (.num source) limit offset).exec o w).1 with
  | ok entries =>
      rw [hexec] at hend
      exact hend.elim
  | error e =>
      rw [hexec] at hend
      exact congrArg Except.error hend

/-! ## Who makes a link -/

def drift (source target : Int) : Drift World where
  step := Later source target
  later := Later source target
  step_refl := .refl
  later_refl := .refl
  later_trans h h' := h.trans h'
  later_of_step h := h

/-- No link of the source's finds the target's row under the e-mail it names. -/
def unnamed (source target : Int) (call : Call) (w : World) (_ : Answer) : Prop :=
  ∀ account email, call = .link account email → (account.id : Int) = source →
    ∀ r ∈ w.accounts.rows, (r.id : Int) = target → named email r = false

theorem leaves_linkAccount {account : Account} {email : Option String} :
    (linkAccount account email).Gives (drift source target) (unnamed source target)
      (fun _ _ => True) (.link account email) s := by
  unfold linkAccount
  simp only [bind_eq, pure_eq]
  refine gives_bind (P := fun found _ => (account.id : Int) = source → (found.id : Int) ≠ target)
    (Delegate.gives_findFirstOrThrow_at fun t _ c hunnamed r hr hemail u _ hsource htarget => ?_)
    fun found t _ hfound => ?_
  · rw [hunnamed account email rfl hsource r hr htarget] at hemail
    cases hemail
  · refine gives_bind (P := fun _ _ => True)
      (Delegate.gives_findFirst (fun _ _ _ _ _ _ _ => trivial) fun _ _ => trivial)
      fun record u _ _ => ?_
    cases record with
    | some record => exact gives_done fun _ _ => trivial
    | none =>
        refine Delegate.gives_create fun v _ now tb hrows => ⟨later_append hrows rfl ?_, ?_⟩
        · simpa [isPair] using hfound
        · exact fun _ _ => trivial

/-- No step of a link of the source's finds the target. -/
def neverNames (source target : Int) (p : Calls) : Move Answer Call → Prop
  | .start _ => True
  | .run i c => ∀ th, p.threads[i]? = some th → unnamed source target th.1 p.state c

theorem leaves_program (call : Call) :
    (program call).Gives (drift source target) (unnamed source target) (fun _ _ => True) call
      s := by
  cases call with
  | link account email => exact gives_discard leaves_linkAccount
  | unlink account id =>
      exact gives_of_always (D := drift source target) (always_program _ fun h => h)
  | payments account account_id limit offset =>
      exact gives_of_always (D := drift source target) (always_program _ fun h => h)

/-- **Only the source makes a link.** In every run in which no link of the account's finds
the other under the e-mail it names, the other sees nothing of its payments, whoever links
and unlinks meanwhile: it was not linked, it never is, and every request is refused. -/
theorem granted_only_by_source {q : Calls} (hnone : ¬ Linked source target w)
    (h : Reaches program (neverNames source target) (init w) q) :
    ¬ Linked source target q.state ∧ Refused source target q.state := by
  have hinit : Growing (drift source target) (unnamed source target) id (fun _ _ _ => True)
      (init w : Calls) := growing_init w
  have hlater := (growing_reaches (J := fun _ => True) (fun _ call _ _ => leaves_program call)
    (fun _ _ _ _ hm => hm) (fun _ _ _ => id) hinit trivial h).2.2
  have hnever : ¬ Linked source target q.state := by
    rintro ⟨r, hr, hpair⟩
    exact hnone ⟨r, hlater.pair r hr hpair, hpair⟩
  exact ⟨hnever, refused_of_not_linked hnever⟩

/-! ### Two shops and a bookkeeper -/

def accounts : World where
  accounts := {
    rows := [{ id := 1, email := some "a@x.com" }, { id := 2, email := some "b@x.com" },
      { id := 3, email := some "c@x.com" }]
    next := 4
    id_lt := by decide
    id_nodup := by decide
    key_apart := by decide }

/-- A test for a move that does not name the second account in a link of the first. -/
def unnamedTest (p : Calls) : Move Answer Call → Bool
  | .start _ => true
  | .run i _ => (p.threads[i]?).all fun th =>
      match th.1 with
      | .link account email => account.id != 1 ||
          p.state.accounts.rows.all fun r => r.id != 2 || !named email r
      | _ => true

theorem neverNames_of_test {p : Calls} {m : Move Answer Call} (h : unnamedTest p m = true) :
    neverNames 1 2 p m := by
  cases m with
  | start call => exact trivial
  | run i c =>
      intro th hth account email hcall hsource r hr htarget
      simp only [unnamedTest, hth, Option.all_some, hcall, Bool.or_eq_true, bne_iff_ne,
        List.all_eq_true, Bool.not_eq_true'] at h
      have hrow := h.resolve_left fun hne => hne (by omega)
      exact (hrow r hr).resolve_left fun hne => hne (by omega)

/-- The first account links the third, and the second, who linked the first, sees nothing. -/
theorem granted_only_by_source_third : ∃ q : Calls,
    Reaches program (neverNames 1 2) (init accounts) q ∧ Linked 1 3 q.state ∧
      Linked 2 1 q.state ∧ Refused 1 2 q.state := by
  have hadm : Admitted program (neverNames 1 2)
      (.start (.link { id := 1 } (some "c@x.com")) :: steps 0 3 ({} : Answer) ++
        .start (.link { id := 2 } (some "a@x.com")) :: steps 1 3 ({} : Answer))
      (init accounts) :=
    admitted_of_checks (fun _ _ => neverNames_of_test) (by decide +kernel)
  obtain ⟨q, hq, htest⟩ := exists_reaches (fun q : Calls =>
    (q.state.linkedAccounts.rows.any (isPair 1 3)) &&
      q.state.linkedAccounts.rows.any (isPair 2 1)) hadm (by decide +kernel)
  simp only [Bool.and_eq_true, List.any_eq_true] at htest
  have hnone : ¬ Linked 1 2 accounts := by
    rintro ⟨r, hr, -⟩
    cases hr
  exact ⟨q, hq, htest.1, htest.2, (granted_only_by_source hnone hq).2⟩

/-! ## One row for a link -/

def AtMostOne (source target : Int) (w : World) : Prop :=
  ∀ r ∈ w.linkedAccounts.rows, ∀ r' ∈ w.linkedAccounts.rows, isPair source target r = true →
    isPair source target r' = true → r = r'

theorem AtMostOne.later (h : AtMostOne source target s) (hst : Later source target s t) :
    AtMostOne source target t :=
  fun r hr r' hr' hpair hpair' =>
    h r (hst.pair r hr hpair) r' (hst.pair r' hr' hpair') hpair hpair'

theorem Linked.earlier (hst : Later source target s t) (h : Linked source target t) :
    Linked source target s := by
  obtain ⟨r, hr, hpair⟩ := h
  exact ⟨r, hst.pair r hr hpair, hpair⟩

theorem AtMostOne.append {tb : Table LinkedAccount} {r : LinkedAccount}
    (h : AtMostOne source target s) (hrows : tb.rows = s.linkedAccounts.rows ++ [r])
    (hfirst : isPair source target r = true → ¬ Linked source target s) :
    AtMostOne source target { s with linkedAccounts := tb } := by
  intro x hx y hy hxpair hypair
  rcases List.mem_append.mp (hrows ▸ hx) with hx | hx <;>
    rcases List.mem_append.mp (hrows ▸ hy) with hy | hy
  · exact h x hx y hy hxpair hypair
  · rw [List.mem_singleton.mp hy] at hypair
    exact absurd ⟨x, hx, hxpair⟩ (hfirst hypair)
  · rw [List.mem_singleton.mp hx] at hxpair
    exact absurd ⟨y, hy, hypair⟩ (hfirst hxpair)
  · rw [List.mem_singleton.mp hx, List.mem_singleton.mp hy]

/-- Inside are the source's own links; what the others do leaves the row at most one. -/
def ownLinks (source target : Int) : Contract World Answer Bool where
  answers _ _ _ := True
  rely g s t := g = true → Later source target s t
  guar g s t g' := g' = g ∧ (g = false → Later source target s t)
  guar_refl _ s := ⟨rfl, fun _ => .refl s⟩
  rely_refl _ s _ := .refl s
  rely_trans h h' hg := (h hg).trans (h' hg)

theorem ownLinks_exclusive :
    Exclusive (ownLinks source target) (fun _ => True) (AtMostOne source target) where
  same h := h.1
  keep _ _ := trivial
  rest h hs := hs.later (h.2 rfl)
  outside _ hg := by cases hg
  inside h _ := h.2 rfl

/-- In its turn a link finds the row or adds the only one. -/
theorem meets_linkAccount {account : Account} {email : Option String}
    (hs : AtMostOne source target s) :
    (linkAccount account email).Meets (ownLinks source target)
      (fun _ => Pool.Leaves (AtMostOne source target))
      (fun _ => Pool.Leaves (AtMostOne source target)) true s := by
  unfold linkAccount
  simp only [bind_eq, pure_eq]
  refine Delegate.meets_findFirstOrThrow_bind (fun t hst found _ _ => ?_)
    fun t hst _ u htu _ => hs.later ((hst rfl).trans (htu rfl))
  refine Delegate.meets_findFirst_bind (fun u htu record _ _ => ?_) fun u htu hno => ?_
  · exact fun v huv _ => hs.later (((hst rfl).trans (htu rfl)).trans (huv rfl))
  · rw [← bind_done (prisma.linkedAccounts.create _ _)]
    refine Delegate.meets_create_bind (fun v huv now tb hrows => ?_) fun v huv _ =>
      hs.later (((hst rfl).trans (htu rfl)).trans (huv rfl))
    have hv : AtMostOne source target v :=
      hs.later (((hst rfl).trans (htu rfl)).trans (huv rfl))
    refine ⟨true, ⟨rfl, fun hg => by cases hg⟩, fun x hx _ => ?_⟩
    refine (hv.append hrows fun hpair hlinked => ?_).later (hx rfl)
    obtain ⟨r, hr, hrpair⟩ := hlinked.earlier (huv rfl)
    obtain ⟨hsource, htarget⟩ : (account.id : Int) = source ∧ (found.id : Int) = target := by
      simpa [isPair] using hpair
    have hno := hno r hr
    rw [hsource, htarget, hrpair] at hno
    cases hno

/-- The source's own links are started one at a time. -/
def linksInTurn (source : Int) (p : Calls) : Move Answer Call → Prop
  | .start call => call.linksFrom source → p.Idle (Call.linksFrom source)
  | .run _ _ => True

theorem atMostOne_in_turn {p : Calls} (hone : AtMostOne source target w)
    (h : Reaches program (linksInTurn source) (init w) p) (hidle : p.Idle (Call.linksFrom source)) :
    AtMostOne source target p.state := by
  refine (turns_reaches ownLinks_exclusive (fun p call _ hm hkind => ⟨hm hkind, fun hs => ?_⟩)
    (fun p call _ _ hkind => ?_) (fun _ _ _ _ _ => trivial) trivial hone h).2 hidle
  · cases call with
    | link account email =>
        exact meets_discard_of_stable (fun _ _ _ hs hst hg => (hs hg).later (hst hg))
          (meets_linkAccount hs)
    | unlink account id => exact hkind.elim
    | payments account account_id limit offset => exact hkind.elim
  · refine meets_of_always (fun _ _ hst => ⟨rfl, fun _ => hst⟩) (fun _ _ _ hg => ?_)
      (fun _ _ hg => ?_) (always_program call hkind)
    · cases hg
    · cases hg

/-! ## Taking a link back -/

/-- No row has the id of the link, or the link itself has. -/
def Held (link : LinkedAccount) (w : World) : Prop :=
  link.id < w.linkedAccounts.next ∧ ∀ r ∈ w.linkedAccounts.rows, r.id = link.id → r = link

def Gone (link : LinkedAccount) (w : World) : Prop :=
  ∀ r ∈ w.linkedAccounts.rows, r.id ≠ link.id

theorem Held.later (h : Held link s) (hst : Later source target s t) : Held link t :=
  ⟨Nat.lt_of_lt_of_le h.1 hst.next,
    fun r hr hid => h.2 r (hst.old r hr (hid ▸ h.1)) hid⟩

theorem Gone.later (h : Gone link s) (hheld : Held link s) (hst : Later source target s t) :
    Gone link t :=
  fun r hr hid => h r (hst.old r hr (hid ▸ hheld.1)) hid

/-- One of the two takes the link back. -/
structure TakesBack (source target : Int) (link : LinkedAccount) (account : Account)
    (id : String) : Prop where
  id : rowId id = .ok (link.id : Int)
  own : (account.id : Int) = source ∨ (account.id : Int) = target

/-- However others interfere, the row is gone when the request has succeeded. -/
theorem leaves_unlinkAccount {account : Account} {id : String} {call : Call}
    (hpair : isPair source target link = true) (h : TakesBack source target link account id)
    (hs : Held link s) :
    (unlinkAccount account id).Gives (drift source target) (fun _ _ _ => True)
      (fun _ => Gone link) call s := by
  obtain ⟨hsource, htarget⟩ : link.source = source ∧ link.target = target := by
    simpa [isPair] using hpair
  unfold unlinkAccount
  simp only [bind_eq, pure_eq, h.id, Proc.ofExcept, done_bind]
  refine gives_bind (P := fun found t => (∀ r, found = some r → r = link) ∧
      (found = none → Gone link t))
    (Delegate.gives_findFirst_cases (fun t hst r hr hid u _ => ⟨fun x hx => ?_, fun hx => ?_⟩)
      fun t hst hno u htu => ⟨fun x hx => ?_, fun _ => ?_⟩) fun found t hst hfound => ?_
  · obtain rfl := Option.some.inj hx
    exact (hs.later hst).2 _ hr (by simpa using hid)
  · cases hx
  · cases hx
  · have hgone : Gone link t := by
      intro r hr hid
      have hne := hno r hr
      simp [hid] at hne
    exact hgone.later (hs.later hst) htu
  · cases found with
    | none => exact gives_done fun u htu => (hfound.2 rfl).later (hs.later hst) htu
    | some r =>
        obtain rfl := hfound.1 r rfl
        have hown : r.target = account.id ∨ r.source = account.id := by
          rw [hsource, htarget]
          exact h.own.symm.imp Eq.symm Eq.symm
        simp only [if_pos hown]
        have ht := hs.later hst
        refine gives_bind (P := fun _ => Gone r)
          (Delegate.gives_delete fun u htu tb x _ _ hrows hnext => ?_)
          fun _ u htu hgone => gives_done fun v huv => hgone.later (ht.later htu) huv
        have hstep : Later source target u { u with linkedAccounts := tb } :=
          later_filter hrows hnext
        have hgone : Gone r { u with linkedAccounts := tb } := by
          intro y hy hid
          have hkept := (List.mem_filter.mp (hrows ▸ hy)).2
          simp [Record.id, hid] at hkept
        exact ⟨hstep, fun v huv => hgone.later ((ht.later htu).later hstep) huv⟩

/-- None of the source's own links is started. -/
def noLinks (source : Int) (_ : Calls) : Move Answer Call → Prop
  | .start call => ¬ call.linksFrom source
  | .run _ _ => True

/-- What a request started from the `n`-th on leaves. -/
def takenBack (source target : Int) (link : LinkedAccount) (n i : Nat) (call : Call)
    (w : World) : Prop :=
  n ≤ i → ∀ account id, call = .unlink account id → TakesBack source target link account id →
    Gone link w

/-- Every request keeps to the drift; those that take the link back leave it gone. -/
theorem leaves_request (call : Call) {n i : Nat} (h : ¬ call.linksFrom source)
    (hpair : isPair source target link = true) (hs : Held link s) :
    (program call).Gives (drift source target) (fun _ _ _ => True)
      (fun _ => takenBack source target link n i call) call s := by
  by_cases htakes : ∃ account id, call = .unlink account id ∧
      TakesBack source target link account id
  · obtain ⟨account, id, rfl, htakes⟩ := htakes
    exact gives_mono (fun _ _ hgone _ _ _ _ _ => hgone) (leaves_unlinkAccount hpair htakes hs)
  · have hnone : ∀ t, takenBack source target link n i call t :=
      fun t _ account id hcall h => absurd ⟨account, id, hcall, h⟩ htakes
    exact gives_mono (fun _ t _ => hnone t)
      (gives_of_always (D := drift source target) (always_program call h))

/-- Requests that were under way before are not those that take the link back. -/
theorem growing_before {p : Calls} (hidle : p.Idle (Call.linksFrom source))
    (hothers : ∀ th ∈ p.threads, ¬ th.1.linksFrom source →
      th.2.Always (Later source target) fun _ => True) :
    Growing (drift source target) (fun _ _ _ => True) id
      (takenBack source target link p.threads.length) p := by
  intro i th hi
  have hmem := List.mem_of_getElem? hi
  have hlt : i < p.threads.length := (List.getElem?_eq_some_iff.mp hi).1
  have hbefore : ∀ t, takenBack source target link p.threads.length i th.1 t :=
    fun t hle => absurd hle (Nat.not_le_of_lt hlt)
  by_cases hkind : th.1.linksFrom source
  · have hended := fun hrun => hidle th hmem hrun hkind
    cases hp : th.2 with
    | done a => exact gives_done fun t _ => hbefore t
    | fail e => exact gives_fail e
    | atomic write next => exact absurd (by rw [hp]; rfl) hended
  · exact gives_mono (fun _ t _ => hbefore t)
      (gives_of_always (D := drift source target) (hothers th hmem hkind))

/-- **A link taken back is gone.** Where the account's own links take turns, from at most one
row for the other; once one is there, and the account starts no more links: when a request of
either to take it back has succeeded, there is no row, and the other is refused. -/
theorem unlinked_in_turn {p q : Calls} {account : Account} {id : String} {i : Nat}
    (hone : AtMostOne source target w)
    (hp : Reaches program (linksInTurn source) (init w) p)
    (hidle : p.Idle (Call.linksFrom source)) (hlink : link ∈ p.state.linkedAccounts.rows)
    (hpair : isPair source target link = true) (hq : Reaches program (noLinks source) p q)
    (htakes : TakesBack source target link account id) (hi : p.threads.length ≤ i)
    (hended : q.threads[i]? = some (.unlink account id, .done ())) :
    ¬ Linked source target q.state ∧ Refused source target q.state := by
  have hatMost := atMostOne_in_turn hone hp hidle
  have hothers : ∀ th ∈ p.threads, ¬ th.1.linksFrom source →
      th.2.Always (Later source target) fun _ => True :=
    always_reaches (fun call => ¬ call.linksFrom source) always_program (by simp [init]) hp
  have hheld : Held link p.state :=
    ⟨p.state.linkedAccounts.id_lt link hlink, fun r hr hid => Table.eq_of_id hr hlink hid⟩
  obtain ⟨hgrowing, -, hlater⟩ := growing_reaches (J := Held link)
    (fun r call hr hm => leaves_request call hm hpair hr) (fun _ _ _ _ _ _ _ => trivial)
    (fun _ _ hst hs => hs.later hst) (growing_before hidle hothers) hheld hq
  have hgone : Gone link q.state := growing_ended hgrowing hended hi account id rfl htakes
  have hnone : ¬ Linked source target q.state := by
    rintro ⟨r, hr, hrpair⟩
    have hsame := hatMost r (hlater.pair r hr hrpair) link hlink hrpair hpair
    exact hgone r hr (congrArg LinkedAccount.id hsame)
  exact ⟨hnone, refused_of_not_linked hnone⟩

/-- A request that runs from its start to its end. -/
theorem reaches_request {admits : Calls → Move Answer Call → Prop} {p : Calls} {call : Call}
    {o : Nat → Answer} (hstart : admits p (.start call)) (hrun : ∀ p i c, admits p (.run i c))
    (hok : ((program call).exec o p.state).1 = .ok ()) :
    Reaches program admits p ⟨((program call).exec o p.state).2,
      p.threads ++ [(call, .done ())]⟩ := by
  have hlast : (p.threads ++ [(call, program call)])[p.threads.length]? =
      some (call, program call) := by simp
  have hexec : Reaches program admits ⟨p.state, p.threads ++ [(call, program call)]⟩ _ :=
    reaches_exec hrun hlast o
  rw [hok, List.set_append_right _ _ (Nat.le_refl _), Nat.sub_self] at hexec
  exact .head ⟨.start call, hstart, rfl⟩ hexec

/-- Anything goes. -/
def anyOrder (_ : Calls) (_ : Move Answer Call) : Prop := True

/-- Two links at once, and one of the rows taken back. -/
def overlapping : List (Move Answer Call) :=
  .start (.link { id := 1 } (some "b@x.com")) :: .start (.link { id := 1 } (some "b@x.com")) ::
    steps 0 2 ({} : Answer) ++ (steps 1 3 ({} : Answer) ++ (steps 0 1 ({} : Answer) ++
      .start (.unlink { id := 2 } "1") :: steps 2 2 ({} : Answer)))

def linkCall : Call := .link { id := 1 } (some "b@x.com")

def unlinkCall : Call := .unlink { id := 2 } "1"

/-- The first account has linked the second. -/
def linked : World := ((program linkCall).exec (fun _ => {}) accounts).2

def oneLink : LinkedAccount := { id := 1, source := 1, target := 2 }

theorem rows_linked : linked.linkedAccounts.rows = [oneLink] := rfl

/-- The second takes the link back and sees nothing. Had the first linked it twice at once,
it would see the payments still. -/
theorem unlinked_in_turn_once :
    (∃ p q, Reaches program (linksInTurn 1) (init accounts) p ∧ Linked 1 2 p.state ∧
      Reaches program (noLinks 1) p q ∧ Refused 1 2 q.state) ∧
    ∃ q, Reaches program anyOrder (init accounts) q ∧ q.Idle (fun _ => True) ∧
      Linked 1 2 q.state := by
  constructor
  · have hp : Reaches program (linksInTurn 1) (init accounts)
        ⟨linked, [(linkCall, .done ())]⟩ :=
      reaches_request (fun _ th hth => by cases hth) (fun _ _ _ => trivial) rfl
    have hq : Reaches program (noLinks 1) ⟨linked, [(linkCall, .done ())]⟩
        ⟨((program unlinkCall).exec (fun _ => {}) linked).2,
          [(linkCall, .done ()), (unlinkCall, .done ())]⟩ :=
      reaches_request (fun h => h) (fun _ _ _ => trivial) rfl
    have hone : AtMostOne 1 2 accounts := fun r hr => by cases hr
    have hidle : Pool.Idle (Call.linksFrom 1) (⟨linked, [(linkCall, .done ())]⟩ : Calls) := by
      intro th hth hrun
      rw [List.mem_singleton.mp hth] at hrun
      cases hrun
    have hlink : oneLink ∈ linked.linkedAccounts.rows := by simp [rows_linked]
    have htakes : TakesBack 1 2 oneLink { id := 2 } "1" := ⟨by decide +kernel, .inr rfl⟩
    exact ⟨_, _, hp, ⟨oneLink, hlink, rfl⟩, hq,
      (unlinked_in_turn hone hp hidle hlink rfl hq htakes (Nat.le_refl 1) rfl).2⟩
  · have hadm : Admitted program anyOrder overlapping (init accounts) :=
      admitted_all (fun _ _ _ => trivial) _
    obtain ⟨q, hq, htest⟩ := exists_reaches (fun q : Calls =>
      (q.threads.all fun th => !th.2.running) &&
        q.state.linkedAccounts.rows.any (isPair 1 2)) hadm (by decide +kernel)
    simp only [Bool.and_eq_true, List.all_eq_true, List.any_eq_true] at htest
    refine ⟨q, hq, fun th hth hrun => ?_, htest.2⟩
    have hno := htest.1 th hth
    rw [hrun] at hno
    cases hno

end Anypay.LinkedAccounts
