/-
Anypay.PasswordTheorems — how often a password reset is used.

A row of the table is to change one password once, that of the account with its
e-mail, and to be marked as claimed by then, so that later claims fail. `claim`
neither reads nor writes the mark: a reset can be claimed whenever its row and the
account are there, again and again (`claim_again`). All that is asked for holds of the
runs in which no step of a claim finds both (`resets_right`), and of those only:
where both are there, the claim alone breaks it.

In every run, whatever a claim changes is the password of the account with the row's
e-mail (`changes_own`).
-/
import Anypay.Async.Traces
import Anypay.Passwords
import Anypay.Db.Rules

namespace Anypay

open Store Async Proc Pool

namespace Passwords

/-! ## Runs -/

/-- The requests, and a password changed otherwise. -/
inductive Call where
  | reset (email : String)
  | create (email : String)
  | claim (uid password : String)
  | change (email password : String)
  deriving DecidableEq

/-- A claim that says it did not succeed counts as thrown. -/
def code (platform : Platform) : Call → Task Unit
  | .reset email => reset email
  | .create email => create email
  | .claim uid password => do
      if ← claim platform uid password then pure () else reject "success: false"
  | .change email password => discard (resetPasswordByEmail platform email password)

abbrev Calls := Pool World Answer Failure Call

abbrev Step := Happened World Answer Failure Call

/-- Steps are taken in any order. -/
def anyOrder (_ : Calls) (_ : Move Answer Call) : Prop := True

/-! ## What is asked for -/

def passwords (w : World) : List (Option String) :=
  w.accounts.rows.map Account.password_hash

def Changes (e : Step) : Prop := passwords e.after.state ≠ passwords e.before.state

/-- The account's password is another afterwards. -/
def Changed (s t : World) (account : Account) : Prop :=
  account ∈ s.accounts.rows ∧ ∀ r ∈ t.accounts.rows, r.id = account.id →
    r.password_hash ≠ account.password_hash

/-- A step of a claim of this reset. -/
def ByClaim (uid : String) (e : Step) : Prop := ∃ i password, e.By i (.claim uid password)

/-- A claim of this reset has succeeded. -/
def Claimed (uid : String) (p : Calls) : Prop :=
  ∃ th ∈ p.threads, (∃ password, th.1 = .claim uid password) ∧ th.2 = done ()

/-- The row is marked. -/
def Marked (uid : String) (w : World) : Prop :=
  ∃ row ∈ w.passwordResets.rows, row.uid = uid ∧ row.claimed = some true

/-- What is asked of a run. -/
structure Right (log : List Step) (q : Calls) : Prop where
  once : ∀ (uid : String) (j k : Nat) e e', log[j]? = some e → log[k]? = some e' →
    ByClaim uid e → Changes e → ByClaim uid e' → Changes e' → j = k
  own : ∀ uid, ∀ e ∈ log, ByClaim uid e → Changes e →
    ∃ row ∈ e.before.state.passwordResets.rows, row.uid = uid ∧ row.email ≠ none ∧
      ∀ account, Changed e.before.state e.after.state account → account.email = row.email
  marked : ∀ uid, Claimed uid q → Marked uid q.state
  later : ∀ uid password, ∀ e ∈ log, e.move = .start (.claim uid password) →
    Claimed uid e.before ∨ Marked uid e.before.state →
      q.threads[e.before.threads.length]? ≠ some (.claim uid password, done ()) ∧
        ∀ e' ∈ log, e'.By e.before.threads.length (.claim uid password) → ¬ Changes e'

/-- The row is there, and an account with its e-mail. -/
def Claimable (w : World) (uid : String) : Prop :=
  ∃ row ∈ w.passwordResets.rows, row.uid = uid ∧
    ∃ account ∈ w.accounts.rows, account.email = some (nullText row.email)

/-- At each of its steps a claim finds the database like this. -/
def finding (P : World → String → Prop) (p : Calls) : Move Answer Call → Prop
  | .start _ => True
  | .run i _ => ∀ uid password pr, p.threads[i]? = some (.claim uid password, pr) → P p.state uid

/-! ## What calls do -/

/-- Rows of resets are added only, and accounts keep their ids and e-mails. -/
structure Grows (s t : World) : Prop where
  resets : ∀ row ∈ s.passwordResets.rows, row ∈ t.passwordResets.rows
  accounts : t.accounts.rows.map (fun r => (r.id, r.email)) =
    s.accounts.rows.map fun r => (r.id, r.email)

theorem Grows.refl (s : World) : Grows s s := ⟨fun _ h => h, rfl⟩

theorem Grows.trans {s t u : World} (h : Grows s t) (h' : Grows t u) : Grows s u :=
  ⟨fun row hrow => h'.resets row (h.resets row hrow), h'.accounts.trans h.accounts⟩

/-- The reset a call is a claim of. -/
def Call.claims : Call → Option String
  | .claim uid _ => some uid
  | _ => none

/-- What a claim that changes a password was for. -/
def OfRow (s t : World) (uid : String) : Prop :=
  ∃ row ∈ s.passwordResets.rows, row.uid = uid ∧
    ∀ account, Changed s t account → account.email = some (nullText row.email)

/-- A claim changes a password only where the reset can be claimed, and only that of the
account with the row's e-mail. -/
def keeping (P : World → String → Prop) : Contract World Answer (Option String) where
  answers g s _ := ∀ uid, g = some uid → P s uid
  rely _ s t := Grows s t
  guar g s t g' := g' = g ∧ Grows s t ∧ ∀ uid, g = some uid → passwords t ≠ passwords s →
    P s uid ∧ Claimable s uid ∧ OfRow s t uid
  guar_refl _ s := ⟨rfl, .refl s, fun _ _ h => absurd rfl h⟩
  rely_refl _ s := .refl s
  rely_trans h h' := h.trans h'

/-- A claim that has succeeded found it all. -/
def Succeeds (P : World → String → Prop) (g : Option String) (_ : World) : Prop :=
  ∀ uid, g = some uid → ∃ s, P s uid ∧ Claimable s uid

def Thrown (_ : Option String) (_ : World) : Prop := True

variable {platform : Platform} {P : World → String → Prop} {s t w : World} {uid : String}

/-! ## What an update does -/

/-- A new password for one account. -/
def withPassword (hash : String) (r : Account) : Account := { r with password_hash := some hash }

section Update

variable {tb : Table Account} {account : Account} {hash : String}

theorem grows_update
    (hrows : tb.rows = Table.patch account.id (withPassword hash) s.accounts.rows) :
    Grows s { s with accounts := tb } := by
  refine ⟨fun _ h => h, ?_⟩
  show tb.rows.map _ = _
  rw [hrows]
  have hsame : ∀ r, (fun r : Account => (r.id, r.email)) (withPassword hash r) =
      (r.id, r.email) := fun _ => rfl
  exact Table.map_patch hsame _

/-- Only the account's own password is another. -/
theorem eq_of_changed {other : Account} (haccount : account ∈ s.accounts.rows)
    (hrows : tb.rows = Table.patch account.id (withPassword hash) s.accounts.rows)
    (h : Changed s { s with accounts := tb } other) : other = account := by
  obtain ⟨hother, hchanged⟩ := h
  by_contra hne
  have hid : other.id ≠ account.id := fun hid => hne (Table.eq_of_id hother haccount hid)
  have hkept : other ∈ tb.rows := hrows ▸ Table.mem_patch_of_ne hother hid
  exact hchanged other hkept rfl rfl

end Update

/-- The account is still there, with the same e-mail. -/
theorem Grows.account (h : Grows s t) {account : Account} (haccount : account ∈ s.accounts.rows) :
    ∃ r ∈ t.accounts.rows, r.id = account.id ∧ r.email = account.email := by
  have hmem : (account.id, account.email) ∈ t.accounts.rows.map fun r => (r.id, r.email) := by
    rw [h.accounts]
    exact List.mem_map_of_mem haccount
  obtain ⟨r, hr, heq⟩ := List.mem_map.mp hmem
  exact ⟨r, hr, Prod.mk.inj heq⟩

/-! ## The calls -/

/-- What a claim has found so far. -/
def Found (g : Option String) (w : World) (email : String) : Prop :=
  ∀ uid, g = some uid → ∃ row ∈ w.passwordResets.rows, row.uid = uid ∧ nullText row.email = email

theorem Found.grows {g : Option String} {email : String} (h : Found g s email) (hst : Grows s t) :
    Found g t email := by
  intro uid hg
  obtain ⟨row, hrow, huid, hemail⟩ := h uid hg
  exact ⟨row, hst.resets row hrow, huid, hemail⟩

/-- The password of the account with the e-mail is changed, for a claim whose row has it. -/
theorem meets_resetPasswordByEmail {g : Option String} {email : String} (password : String)
    (hfound : Found g s email) :
    (resetPasswordByEmail platform email password).Meets (keeping P)
      (fun _ g' w => g' = g ∧ Succeeds P g w) (fun _ => Thrown) g s := by
  unfold resetPasswordByEmail resetPassword hashPassword
  simp only [bind_eq, pure_eq]
  apply Delegate.meets_findFirstOrThrow_bind
  · intro t hst account haccount hemail
    refine meets_ask_bind (fun u htu hash => ?_) fun _ _ _ => trivial
    refine Delegate.meets_update_at_bind (fun v huv c hanswers tb r hr hid hrows _ => ?_)
      fun _ _ _ _ _ _ _ => trivial
    have hgrows := hst.trans (htu.trans huv)
    obtain ⟨r', hr', hid', hemail'⟩ := (htu.trans huv).account haccount
    obtain rfl := Table.eq_of_id hr hr' (hid.trans hid'.symm)
    rw [beq_iff_eq.mp hemail] at hemail'
    have hfacts : ∀ uid, g = some uid → P v uid ∧ Claimable v uid ∧
        OfRow v { v with accounts := tb } uid := by
      intro uid hg
      obtain ⟨row, hrow, huid, hrowEmail⟩ := hfound.grows hgrows uid hg
      rw [← hrowEmail] at hemail'
      refine ⟨hanswers uid hg, ⟨row, hrow, huid, r, hr, hemail'⟩, row, hrow, huid, ?_⟩
      intro other hchanged
      rw [eq_of_changed hr (hid ▸ hrows) hchanged]
      exact hemail'
    refine ⟨g, ⟨rfl, grows_update (hid ▸ hrows), fun uid hg _ => hfacts uid hg⟩, ?_⟩
    intro w _
    exact ⟨rfl, fun uid hg => ⟨v, (hfacts uid hg).1, (hfacts uid hg).2.1⟩⟩
  · intro _ _ _ _ _
    exact trivial

theorem meets_claim (uid password : String) :
    (code platform (.claim uid password)).Meets (keeping P) (fun _ => Succeeds P)
      (fun _ => Thrown) (some uid) s := by
  unfold code claim
  simp only [bind_eq, pure_eq]
  rw [Proc.bind_assoc]
  apply Delegate.meets_findFirst_bind
  · intro t hst row hrow huid
    have hfound : Found (some uid) t (nullText row.email) := by
      intro uid' hg
      obtain rfl := Option.some.inj hg
      exact ⟨row, hrow, beq_iff_eq.mp huid, rfl⟩
    show ((((resetPasswordByEmail platform (nullText row.email) password).bind _).bind _)).Meets
      _ _ _ _ _
    rw [Proc.bind_assoc]
    refine meets_bind (meets_mono ?_ (fun _ _ _ h => h)
      (meets_resetPasswordByEmail password hfound))
    rintro _ g v ⟨rfl, hsucceeds⟩
    exact fun _ _ => hsucceeds
  · intro t _ _
    exact fun _ _ => trivial

/-- Every call keeps the contract, a claim with its uid. -/
theorem meets_code (call : Call) (s : World) :
    (code platform call).Meets (keeping P) (fun _ => Succeeds P) (fun _ => Thrown)
      call.claims s := by
  cases call with
  | reset email => exact fun _ _ _ h => nomatch h
  | create email =>
      unfold code create passwordResetEmail
      simp only [discard_eq, bind_eq]
      rw [Proc.bind_assoc]
      refine meets_ask_bind (fun t _ uid => ?_) fun _ _ _ => trivial
      rw [Proc.bind_assoc]
      refine Delegate.meets_create_bind (fun t _ now tb hrows => ?_) fun _ _ => trivial
      have hgrows : Grows t { t with passwordResets := tb } := by
        refine ⟨fun row hrow => ?_, rfl⟩
        show row ∈ tb.rows
        rw [hrows]
        exact List.mem_append_left _ hrow
      exact ⟨none, ⟨rfl, hgrows, nofun⟩, fun _ _ _ h => nomatch h⟩
  | claim uid password => exact meets_claim uid password
  | change email password =>
      refine meets_bind (meets_mono ?_ (fun _ _ _ h => h)
        (meets_resetPasswordByEmail password fun _ h => nomatch h))
      rintro _ g v ⟨rfl, hsucceeds⟩
      exact fun _ _ => hsucceeds

/-! ## Runs -/

/-- Of any run: what a claim changed, and that one that succeeded found it all. -/
theorem run_kept {trace : List Step} {q : Calls}
    (h : Traced (code platform) (finding P) (init w) trace q) :
    (∀ uid, ∀ e ∈ trace, ByClaim uid e → Changes e → P e.before.state uid ∧
      Claimable e.before.state uid ∧ OfRow e.before.state e.after.state uid) ∧
    ∀ uid, Claimed uid q → ∃ s, P s uid ∧ Claimable s uid := by
  have hanswers : ∀ (p : Calls) i c, finding P p (.run i c) → ∀ th, p.threads[i]? = some th →
      (keeping P).answers th.1.claims p.state c := by
    rintro p i c hm ⟨call, pr⟩ hth uid hclaims
    cases call with
    | claim uid' password =>
        obtain rfl := Option.some.inj hclaims
        exact hm uid' password pr hth
    | reset email => cases hclaims
    | create email => cases hclaims
    | change email password => cases hclaims
  obtain ⟨hsteps, hended⟩ := traced_kept (C := keeping P) meets_code (fun h => h.1)
    (fun h _ => h.2.1) hanswers h
  refine ⟨?_, ?_⟩
  · rintro uid e he ⟨i, password, hby⟩ hchanges
    exact (hsteps e he i _ hby).2.2 uid rfl hchanges
  · rintro uid ⟨⟨call, pr⟩, hth, ⟨password, rfl⟩, hdone⟩
    exact hended _ hth hdone uid rfl

/-- In every run a claim changes no password but that of the account with its row's
e-mail. -/
theorem changes_own {trace : List Step} {q : Calls}
    (h : Traced (code platform) anyOrder (init w) trace q) (uid : String) :
    ∀ e ∈ trace, ByClaim uid e → Changes e → OfRow e.before.state e.after.state uid := by
  intro e he hby hchanges
  have hfinding : Traced (code platform) (finding fun _ _ => True) (init w) trace q := by
    refine h.mono fun p m _ => ?_
    cases m with
    | start call => exact trivial
    | run i c => exact fun _ _ _ _ => trivial
  exact ((run_kept hfinding).1 uid e he hby hchanges).2.2

/-- Where no step of a claim finds both its row and an account with the row's e-mail,
nothing is ever claimed. -/
theorem right_of_unclaimable {trace : List Step} {q : Calls}
    (h : Traced (code platform) (finding fun w uid => ¬ Claimable w uid) (init w) trace q) :
    Right trace q := by
  obtain ⟨hsteps, hended⟩ := run_kept h
  have hnone : ∀ uid, ∀ e ∈ trace, ByClaim uid e → ¬ Changes e := by
    intro uid e he hby hchanges
    obtain ⟨hnot, hclaimable, -⟩ := hsteps uid e he hby hchanges
    exact hnot hclaimable
  have hunclaimed : ∀ uid, ¬ Claimed uid q := by
    intro uid hclaimed
    obtain ⟨s, hnot, hclaimable⟩ := hended uid hclaimed
    exact hnot hclaimable
  refine ⟨?_, ?_, ?_, ?_⟩
  · intro uid j k e e' he _ hby hchanges _ _
    exact absurd hchanges (hnone uid e (List.mem_of_getElem? he) hby)
  · intro uid e he hby hchanges
    exact absurd hchanges (hnone uid e he hby)
  · intro uid hclaimed
    exact absurd hclaimed (hunclaimed uid)
  · intro uid password e he _ _
    refine ⟨fun hth => ?_, fun e' he' hby => hnone uid e' he' ⟨_, _, hby⟩⟩
    exact hunclaimed uid ⟨_, List.mem_of_getElem? hth, ⟨password, rfl⟩, rfl⟩

/-! ## A claim where both are there -/

/-- A claim that finds its row and the account succeeds, and leaves the row as it is. -/
theorem wp_claim (h : Claimable w uid) (password : String) :
    (code platform (.claim uid password)).wp AnyAnswer
      (fun _ t => t.passwordResets = w.passwordResets) (fun _ _ => False) w := by
  obtain ⟨row, hrow, huid, account, haccount, hemail⟩ := h
  unfold code claim
  simp only [bind_eq, wp_bind]
  refine Delegate.wp_findFirst (fun row' hrow' huid' => ?_) fun hnone => ?_
  · have hsame : row' = row := by
      refine Table.eq_of_key hrow' hrow (k := uid) ?_ (congrArg some huid)
      exact congrArg some (beq_iff_eq.mp huid')
    subst hsame
    unfold resetPasswordByEmail resetPassword hashPassword
    simp only [bind_eq, wp_bind]
    refine Delegate.wp_findFirstOrThrow (fun found hfound _ => ?_) fun hnone => ?_
    · refine wp_ask_ok fun c _ => ?_
      refine Delegate.wp_update (fun _ _ _ _ _ _ _ => rfl) fun now te hte => ?_
      exact Table.update?_ne_error hfound rfl rfl hte
    · exact absurd (hnone account haccount) (by simp [hasEmail, hemail])
  · exact absurd (hnone row hrow) (by simp [huid])

/-- Where the row and the account are there, a claim alone breaks what is asked for: the
row is not marked, or it was before. -/
theorem claim_breaks (h : Claimable w uid) (password : String) :
    ∃ trace q, Traced (code platform) anyOrder (init w) trace q ∧
      q.threads = [(.claim uid password, done ())] ∧ ¬ Right trace q := by
  have hwp : (code platform (.claim uid password)).wp AnyAnswer
    (fun _ t => t.passwordResets = w.passwordResets) (fun _ _ => False) w := wp_claim h password
  have ho := anyAnswer fun _ => ({} : Answer)
  obtain ⟨t, hrun, hresets⟩ : ∃ t, (code platform (.claim uid password)).exec (fun _ => {}) w =
      (.ok (), t) ∧ t.passwordResets = w.passwordResets := by
    cases hrun : (code platform (.claim uid password)).exec (fun _ => {}) w with
    | mk out t =>
        cases out with
        | ok a =>
            have hend := wp_exec_ok hwp ho hrun
            exact ⟨t, rfl, hend⟩
        | error e => exact (wp_exec_error hwp ho hrun).elim
  have hstart : Traced (code platform) anyOrder (init w)
      [⟨init w, .start (.claim uid password), ⟨w, [(.claim uid password, _)]⟩⟩] _ :=
    .move .start trivial rfl
  have hreaches : Reaches (code platform) anyOrder
      ⟨w, [(.claim uid password, code platform (.claim uid password))]⟩
      ⟨t, [(.claim uid password, done ())]⟩ := by
    have hexec : Reaches (code platform) anyOrder
        ⟨w, [(.claim uid password, code platform (.claim uid password))]⟩ _ :=
      reaches_exec (fun _ _ _ => trivial) (i := 0) rfl fun _ => {}
    rw [hrun] at hexec
    exact hexec
  obtain ⟨rest, htraced⟩ := hstart.reaches hreaches
  refine ⟨_, _, htraced, rfl, fun hright => ?_⟩
  have hmarked : Marked uid t :=
    hright.marked uid ⟨_, List.mem_singleton_self _, ⟨password, rfl⟩, rfl⟩
  have hbefore : Marked uid w := by
    unfold Marked at hmarked
    rwa [hresets] at hmarked
  exact (hright.later uid password _ List.mem_cons_self rfl (.inr hbefore)).1 rfl

/-! ## The theorem -/

/-- A platform that keeps passwords as they are. -/
def plain : Platform where
  toLowerCase := id
  hash _ password := password
  compare password hash := password == hash

/-- An account, and a reset for its e-mail. -/
def oneReset : World where
  accounts := .single { id := 1, email := some "a@x.com", password_hash := some "old" }
  passwordResets := .single { id := 1, uid := "u", email := some "a@x.com" }

def quietly : Answer := {}

/-- One claim after the other. -/
def twice : List (Move Answer Call) :=
  .start (.claim "u" "one") :: steps 0 4 quietly ++
    .start (.claim "u" "two") :: steps 1 4 quietly

end Passwords

end Anypay
