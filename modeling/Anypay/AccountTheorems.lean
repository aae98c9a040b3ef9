/-
Anypay.AccountTheorems — who gets in after registering.

The three registration paths store the e-mail as it was typed, `loginAccount`
looks it up as it was typed, basic auth looks up its lower-case form. So:

  - `wp_register`: each path adds one row with the e-mail and the password's
    hash, and fails exactly where the e-mail is known or too long;
  - `loginAccount_of_registered`, `validate_of_registered`: what the two logins
    make of that row;
  - `signs_in_iff`: both logins work and no second spelling can be registered
    exactly where the e-mail is its own lower-case form and every other spelling
    of it is gone.

Nothing is asked of `toLowerCase`.
-/
import Anypay.Accounts
import Anypay.Db.Rules

namespace Anypay

open Async Proc Store

variable {platform : Platform} {A : Answer → Prop} {w t : World} {email password : String}
  {account : Account}

/-! ## Registering -/

/-- No account has the e-mail. -/
def Unknown (w : World) (email : String) : Prop :=
  ∀ r ∈ w.accounts.rows, hasEmail email r = false

/-- The e-mail can be registered. -/
def Free (w : World) (email : String) : Prop := Unknown w email ∧ email.length ≤ 255

/-- A registration's outcome: one row more. -/
structure Registered (platform : Platform) (email password : String) (w : World)
    (account : Account) (t : World) : Prop where
  free : Free w email
  rows : t.accounts.rows = w.accounts.rows ++ [account]
  email : account.email = some email
  hash : ∃ salt, account.password_hash = some (platform.hash salt password)

@[simp] theorem hasEmail_iff {r : Account} : hasEmail email r = true ↔ r.email = some email := by
  simp [hasEmail]

theorem unknown_iff : Unknown w email ↔ ∀ r ∈ w.accounts.rows, r.email ≠ some email := by
  simp [Unknown, hasEmail]

/-- Storing a row for an e-mail nobody has. -/
theorem wp_storeAccount {Q : Account → World → Prop} {data : Account}
    (hunknown : Unknown w email)
    (hok : ∀ now tb, email.length ≤ 255 →
      tb.rows = w.accounts.rows ++ [{ data with
        id := w.accounts.next, email := some email, createdAt := now, updatedAt := now }] →
      Q { data with
        id := w.accounts.next, email := some email, createdAt := now, updatedAt := now }
        { w with accounts := tb }) :
    (storeAccount email data).wp A Q (fun _ _ => ¬ Free w email) w := by
  unfold storeAccount
  by_cases hshort : email.length ≤ 255
  · rw [if_pos hshort]
    refine Delegate.wp_create (fun now tb hrows _ => hok now tb hshort hrows) ?_
    intro now ⟨r, hr, hkey, _⟩
    exact absurd hkey (unknown_iff.mp hunknown r hr)
  · rw [if_neg hshort]
    exact fun h => hshort h.2

theorem wp_registration : (Registration.registerAccount platform email password).wp A
    (Registered platform email password w) (fun _ _ => ¬ Free w email) w := by
  simp only [Registration.registerAccount, hashPassword, bind_eq, wp_bind]
  refine wp_ask_ok fun c _ => ?_
  refine Delegate.wp_findFirst (fun r hr hmail => ?_) (fun hunknown => ?_)
  · exact fun hfree => by simp [hfree.1 r hr] at hmail
  · exact wp_storeAccount hunknown fun now tb hshort hrows =>
      ⟨⟨hunknown, hshort⟩, hrows, rfl, c.salt, rfl⟩

theorem wp_accounts : (Accounts.registerAccount platform email password).wp A
    (Registered platform email password w) (fun _ _ => ¬ Free w email) w := by
  simp only [Accounts.registerAccount, hashPassword, bind_eq, wp_bind]
  refine wp_ask_ok fun c _ => ?_
  refine Delegate.wp_findFirst (fun r hr hmail => ?_) (fun hunknown => ?_)
  · exact fun hfree => by simp [hfree.1 r hr] at hmail
  · simp only [wp_bind]
    refine wp_storeAccount hunknown fun now tb hshort hrows => ?_
    refine Delegate.wp_create (fun _ _ _ _ => ?_) fun _ h => absurd rfl h.choose_spec.2.2
    exact ⟨⟨hunknown, hshort⟩, hrows, rfl, c.salt, rfl⟩

/-- The location found for the address is written to the row just made. -/
theorem wp_geolocate {Q : Account → World → Prop} {E : Failure → World → Prop}
    {olds : Table Account} {geoLocation : Json} (hrows : w.accounts.rows = olds.rows ++ [account])
    (hid : account.id = olds.next)
    (hok : ∀ tb, tb.rows = olds.rows ++ [{ account with
      registration_geolocation := some geoLocation }] →
      Q { account with registration_geolocation := some geoLocation }
        { w with accounts := tb }) :
    ((prisma.accounts.update account.id fun _ r =>
        { r with registration_geolocation := some geoLocation }).bind fun _ =>
      prisma.accounts.findFirstOrThrow fun r => r.id == account.id).wp A Q E w := by
  have hmem : account ∈ w.accounts.rows := by simp [hrows]
  simp only [wp_bind]
  refine Delegate.wp_update (fun _ tb r _ _ hpatch _ => ?_) (fun _ te he => ?_)
  · have hlast := Table.patch_append_last (f := fun r : Account =>
      { r with registration_geolocation := some geoLocation }) (i := account.id) rfl hid
    have hnew : tb.rows = _ := hpatch.trans ((congrArg _ hrows).trans hlast)
    refine Delegate.wp_findFirstOrThrow (fun x hx hxid => ?_) (fun hno => ?_)
    · have hmem' : { account with registration_geolocation := some geoLocation } ∈ tb.rows := by
        simp [hnew]
      rw [Table.eq_of_id (t := tb) hx hmem' (beq_iff_eq.mp hxid)]
      exact hok tb hnew
    · have hlast' := hno { account with registration_geolocation := some geoLocation }
        (show _ ∈ tb.rows by simp [hnew])
      simp at hlast'
  · exact (Table.update?_ne_error hmem rfl rfl he).elim

theorem wp_handler (remoteAddress : String) (forwardedFor : Option String) :
    (AccountHandlers.create platform remoteAddress forwardedFor email password).wp A
      (Registered platform email password w) (fun _ _ => ¬ Free w email) w := by
  simp only [AccountHandlers.create, hashPassword, bind_eq, wp_bind]
  refine wp_ask_ok fun c _ => ?_
  refine Delegate.wp_findFirst (fun r hr hmail => ?_) (fun hunknown => ?_)
  · exact fun hfree => by simp [hfree.1 r hr] at hmail
  simp only [wp_bind]
  refine wp_storeAccount hunknown fun now tb hshort hrows => ?_
  cases platform.lookup ((nonEmpty forwardedFor).getD remoteAddress) with
  | none => exact ⟨⟨hunknown, hshort⟩, hrows, rfl, c.salt, rfl⟩
  | some geoLocation =>
      exact wp_geolocate hrows rfl fun tb' hrows' =>
        ⟨⟨hunknown, hshort⟩, hrows', rfl, c.salt, rfl⟩

/-- Every path registers an e-mail that is free and refuses any other. -/
theorem wp_register (platform : Platform) (email password : String) (w : World)
    (path : RegistrationPath) : (register platform path email password).wp A
      (Registered platform email password w) (fun _ _ => ¬ Free w email) w := by
  cases path with
  | registration => exact wp_registration
  | accounts => exact wp_accounts
  | handler remoteAddress forwardedFor => exact wp_handler remoteAddress forwardedFor

theorem registered_of_exec {path : RegistrationPath} {o : Nat → Answer}
    (h : (register platform path email password).exec o w = (.ok account, t)) :
    Registered platform email password w account t := by
  have hend := wp_exec (wp_register platform email password w path) (anyAnswer o)
  simpa only [h] using hend

/-- A registration succeeds exactly where the e-mail is free. -/
theorem register_isOk (path : RegistrationPath) (o : Nat → Answer) :
    ((register platform path email password).exec o w).1.isOk = true ↔ Free w email := by
  have hend := wp_exec (wp_register platform email password w path) (anyAnswer o)
  cases hr : ((register platform path email password).exec o w).1 with
  | ok a =>
      simp only [hr] at hend
      simpa [Except.isOk, Except.toBool] using hend.free
  | error e =>
      simp only [hr] at hend
      simpa [Except.isOk, Except.toBool] using hend

/-! ## Logging in -/

/-- Basic auth lets the e-mail and password in as this account. -/
structure BasicAdmits (platform : Platform) (w : World) (email password : String)
    (account : Account) : Prop where
  named : email ≠ "" ∧ password ≠ ""
  mem : account ∈ w.accounts.rows
  email : account.email = some (platform.toLowerCase email)
  password : platform.compare password (nullText account.password_hash) = true

/-- So does `loginAccount`. -/
structure LoginAdmits (platform : Platform) (w : World) (email password : String)
    (account : Account) : Prop where
  mem : account ∈ w.accounts.rows
  email : account.email = some email
  hash : nonEmpty account.password_hash ≠ none
  password : platform.compare password (nullText account.password_hash) = true

/-- E-mails are unique. -/
theorem eq_of_email {r r' : Account} (hr : r ∈ w.accounts.rows) (hr' : r' ∈ w.accounts.rows)
    (h : r.email = some email) (h' : r'.email = some email) : r = r' :=
  Table.eq_of_key hr hr' h h'

theorem wp_withEmailPassword {Q : AccessToken → World → Prop}
    (hmem : account ∈ w.accounts.rows)
    (hemail : account.email = some (platform.toLowerCase email))
    (hok : platform.compare password (nullText account.password_hash) = true →
      ∀ token u, Q token u) :
    (AccountLogin.withEmailPassword platform email password).wp A Q
      (fun _ _ => platform.compare password (nullText account.password_hash) = false) w := by
  simp only [AccountLogin.withEmailPassword, bind_eq, wp_bind]
  refine Delegate.wp_findFirstOrThrow (fun r hr hmail => ?_) (fun hno => ?_)
  · obtain rfl := eq_of_email hr hmem (hasEmail_iff.mp hmail) hemail
    unfold comparePassword
    by_cases hcompare : platform.compare password (nullText r.password_hash) = true
    · rw [if_pos hcompare]
      simp only [wp_bind]
      refine wp_ask_ok fun c _ => ?_
      exact Delegate.wp_create (fun _ _ _ _ => hok hcompare _ _)
        (fun _ h => absurd rfl h.choose_spec.2.2)
    · rw [if_neg hcompare]
      exact Bool.eq_false_iff.mpr hcompare
  · have hnot := hno account hmem
    rw [hasEmail_iff.mpr hemail] at hnot
    cases hnot

/-- Basic auth: the account that is let in, or none where there is none. -/
theorem wp_validate (platform : Platform) (email password : String) (w : World) :
    (Password.validate platform email password).wp A
    (fun credentials _ =>
      (∃ token account, credentials = some (token, account) ∧
        BasicAdmits platform w email password account) ∨
      (credentials = none ∧ ∀ account, ¬ BasicAdmits platform w email password account))
    (fun _ _ => False) w := by
  unfold Password.validate
  by_cases hempty : email = "" ∨ password = ""
  · rw [if_pos hempty]
    exact .inr ⟨rfl, fun _ h => hempty.elim h.named.1 h.named.2⟩
  rw [if_neg hempty]
  simp only [bind_eq, wp_tryCatch, wp_bind]
  refine Delegate.wp_findFirst (fun r hr hmail => ?_) (fun hno => ?_)
  · have hemail := hasEmail_iff.mp hmail
    simp only [wp_bind]
    refine wp_mono (fun _ _ h => h) (fun _ _ hwrong => ?_)
      (wp_withEmailPassword hr hemail fun hright token u => ?_)
    · refine .inr ⟨rfl, fun account h => ?_⟩
      obtain rfl := eq_of_email hr h.mem hemail h.email
      rw [h.password] at hwrong
      cases hwrong
    · exact .inl ⟨token, r, rfl, not_or.mp hempty, hr, hemail, hright⟩
  · refine .inr ⟨rfl, fun account h => ?_⟩
    have hnot := hno account h.mem
    rw [hasEmail_iff.mpr h.email] at hnot
    cases hnot

theorem wp_loginAccount (platform : Platform) (email password : String) (w : World) :
    (Registration.loginAccount platform email password).wp A
    (fun account _ => LoginAdmits platform w email password account)
    (fun _ _ => ∀ account, ¬ LoginAdmits platform w email password account) w := by
  simp only [Registration.loginAccount, bind_eq, wp_bind]
  refine Delegate.wp_findFirstOrThrow (fun r hr hmail => ?_) (fun hno account h => ?_)
  · have hemail := hasEmail_iff.mp hmail
    have honly : ∀ account, LoginAdmits platform w email password account → account = r :=
      fun account h => eq_of_email h.mem hr h.email hemail
    cases hhash : nonEmpty r.password_hash with
    | none => exact fun account h => h.hash (honly account h ▸ hhash)
    | some hash =>
        obtain ⟨hsome, _⟩ := Option.filter_eq_some_iff.mp hhash
        unfold comparePassword
        by_cases hcompare : platform.compare password (nullText (some hash)) = true
        · simp only [hcompare, if_true]
          refine ⟨hr, hemail, ?_, ?_⟩
          · rw [hhash]
            exact Option.some_ne_none hash
          · rw [hsome]
            exact hcompare
        · simp only [hcompare]
          intro account h
          obtain rfl := honly account h
          have hpassword := h.password
          rw [hsome] at hpassword
          exact hcompare hpassword
  · have hnot := hno account h.mem
    rw [hasEmail_iff.mpr h.email] at hnot
    cases hnot

/-- Whatever the answers, basic auth lets in whom it admits. -/
theorem validate_iff (o : Nat → Answer) :
    (∃ token, ((Password.validate platform email password).exec o w).1 =
      .ok (some (token, account))) ↔ BasicAdmits platform w email password account := by
  have hend := wp_exec (wp_validate platform email password w) (anyAnswer o)
  cases hr : ((Password.validate platform email password).exec o w).1 with
  | error e =>
      simp only [hr] at hend
  | ok credentials =>
      simp only [hr] at hend
      rcases hend with ⟨token, found, rfl, hin⟩ | ⟨rfl, hnone⟩
      · constructor
        · rintro ⟨_, he⟩
          obtain ⟨-, rfl⟩ := Prod.mk.inj (Option.some.inj (Except.ok.inj he))
          exact hin
        · intro hin'
          rw [eq_of_email hin'.mem hin.mem hin'.email hin.email]
          exact ⟨token, rfl⟩
      · constructor
        · rintro ⟨_, he⟩
          cases he
        · exact fun hin => absurd hin (hnone account)

theorem loginAccount_iff (o : Nat → Answer) :
    ((Registration.loginAccount platform email password).exec o w).1 = .ok account ↔
      LoginAdmits platform w email password account := by
  have hend := wp_exec (wp_loginAccount platform email password w) (anyAnswer o)
  cases hr : ((Registration.loginAccount platform email password).exec o w).1 with
  | ok found =>
      simp only [hr] at hend
      constructor
      · intro he
        obtain rfl := Except.ok.inj he
        exact hend
      · intro hin
        rw [eq_of_email hin.mem hend.mem hin.email hend.email]
  | error e =>
      simp only [hr] at hend
      constructor
      · intro he
        cases he
      · exact fun hin => absurd hin (hend account)

/-! ## After a registration -/

/-- Both logins let the e-mail and password in, as the account. -/
structure LogsIn (platform : Platform) (w : World) (account : Account)
    (email password : String) : Prop where
  basic : ∀ o, ∃ token, ((Password.validate platform email password).exec o w).1 =
    .ok (some (token, account))
  login : ∀ o, ((Registration.loginAccount platform email password).exec o w).1 = .ok account

/-- The e-mail logs in to the account, one way or the other. -/
def LogsInTo (platform : Platform) (w : World) (account : Account) (email : String) : Prop :=
  ∃ password o,
    (∃ token, ((Password.validate platform email password).exec o w).1 =
      .ok (some (token, account))) ∨
    ((Registration.loginAccount platform email password).exec o w).1 = .ok account

/-- No e-mail that logs in to the account can be registered. -/
def NoSecond (platform : Platform) (w : World) (account : Account) : Prop :=
  ∀ email, LogsInTo platform w account email → ∀ path password o,
    ((register platform path email password).exec o w).1.isOk = false

/-- The e-mail is in lower case, and whatever else has it for its lower-case form
is taken already or too long. -/
structure OneSpelling (platform : Platform) (w : World) (email : String) : Prop where
  lower : platform.toLowerCase email = email
  others : ∀ other, other ≠ "" → other ≠ email → platform.toLowerCase other = email →
    ¬ Free w other

section Registered

variable (h : Registered platform email password w account t)
include h

theorem Registered.mem : account ∈ t.accounts.rows := by
  rw [h.rows]
  exact List.mem_append_right _ (List.mem_singleton_self _)

theorem Registered.basicAdmits_iff (hexact : platform.Exact) {other : String} {q : String} :
    BasicAdmits platform t other q account ↔
      other ≠ "" ∧ q ≠ "" ∧ platform.toLowerCase other = email ∧ q = password := by
  obtain ⟨salt, hhash⟩ := h.hash
  constructor
  · intro hin
    have hemail := hin.email.symm.trans h.email
    have hpassword := hin.password
    rw [hhash] at hpassword
    exact ⟨hin.named.1, hin.named.2, Option.some.inj hemail,
      (hexact.compare_hash salt password q).mp hpassword⟩
  · rintro ⟨hother, hq, rfl, rfl⟩
    refine ⟨⟨hother, hq⟩, h.mem, h.email, ?_⟩
    rw [hhash]
    exact (hexact.compare_hash salt q q).mpr rfl

theorem Registered.loginAdmits_iff (hexact : platform.Exact) {other q : String} :
    LoginAdmits platform t other q account ↔ other = email ∧ q = password := by
  obtain ⟨salt, hhash⟩ := h.hash
  constructor
  · intro hin
    have hemail := hin.email.symm.trans h.email
    have hpassword := hin.password
    rw [hhash] at hpassword
    exact ⟨Option.some.inj hemail, (hexact.compare_hash salt password q).mp hpassword⟩
  · rintro ⟨rfl, rfl⟩
    refine ⟨h.mem, h.email, ?_, ?_⟩
    · rw [hhash, nonEmpty, Option.filter_some_pos (by simpa using hexact.hash_ne salt q)]
      exact Option.some_ne_none _
    · rw [hhash]
      exact (hexact.compare_hash salt q q).mpr rfl

/-- Another e-mail is as free as it was. -/
theorem Registered.free_iff {other : String} (hne : other ≠ email) :
    Free t other ↔ Free w other := by
  have hlast : account.email ≠ some other := by
    rw [h.email]
    exact fun he => hne (Option.some.inj he).symm
  simp only [Free, unknown_iff, h.rows, List.mem_append, List.mem_singleton]
  constructor
  · exact fun hfree => ⟨fun r hr => hfree.1 r (.inl hr), hfree.2⟩
  · rintro ⟨hunknown, hshort⟩
    refine ⟨fun r hr => ?_, hshort⟩
    rcases hr with hr | rfl
    · exact hunknown r hr
    · exact hlast

theorem Registered.not_free : ¬ Free t email := fun hfree =>
  unknown_iff.mp hfree.1 account h.mem h.email

end Registered

/-- After a registration both logins let the account in and no second spelling of
its e-mail can be registered, exactly where e-mail and password are not empty and
the e-mail is the one spelling left. -/
theorem signs_in_iff (hexact : platform.Exact) {path : RegistrationPath} {o : Nat → Answer}
    (h : (register platform path email password).exec o w = (.ok account, t)) :
    LogsIn platform t account email password ∧ NoSecond platform t account ↔
      email ≠ "" ∧ password ≠ "" ∧ OneSpelling platform w email := by
  have hreg := registered_of_exec h
  constructor
  · rintro ⟨hlogs, hsecond⟩
    obtain ⟨hemail, hpassword, hlower, -⟩ := (hreg.basicAdmits_iff hexact).mp
      ((validate_iff _).mp (hlogs.basic fun _ => {}))
    refine ⟨hemail, hpassword, hlower, fun other hother hne hspells hfree => ?_⟩
    have hin := (hreg.basicAdmits_iff hexact).mpr ⟨hother, hpassword, hspells, rfl⟩
    have hrefused := hsecond other ⟨password, fun _ => {}, .inl ((validate_iff _).mpr hin)⟩
      path password o
    rw [(register_isOk path o).mpr ((hreg.free_iff hne).mpr hfree)] at hrefused
    cases hrefused
  · rintro ⟨hemail, hpassword, hone⟩
    constructor
    · constructor
      · intro o
        exact (validate_iff o).mpr ((hreg.basicAdmits_iff hexact).mpr
          ⟨hemail, hpassword, hone.lower, rfl⟩)
      · intro o
        exact (loginAccount_iff o).mpr ((hreg.loginAdmits_iff hexact).mpr ⟨rfl, rfl⟩)
    · rintro other ⟨q, o, hlogin⟩ path q' o'
      rw [Bool.eq_false_iff]
      intro hok
      have hfree := (register_isOk path o').mp hok
      have hspells : other ≠ email → other ≠ "" ∧ platform.toLowerCase other = email := by
        intro hne
        rcases hlogin with hlogin | hlogin
        · obtain ⟨hother, -, hspells, -⟩ :=
            (hreg.basicAdmits_iff hexact).mp ((validate_iff o).mp hlogin)
          exact ⟨hother, hspells⟩
        · exact absurd ((hreg.loginAdmits_iff hexact).mp ((loginAccount_iff o).mp hlogin)).1 hne
      by_cases hne : other = email
      · rw [hne] at hfree
        exact hreg.not_free hfree
      · obtain ⟨hother, hlower⟩ := hspells hne
        exact hone.others other hother hne hlower ((hreg.free_iff hne).mp hfree)

/-! ## Two e-mails -/

/-- A platform whose hashes show the password. -/
def plainPlatform : Platform where
  toLowerCase := String.toLower
  hash _ password := "$" ++ password
  compare password hash := hash == "$" ++ password

theorem plainPlatform_exact : plainPlatform.Exact where
  compare_hash salt p q := by
    simp only [plainPlatform, beq_iff_eq]
    constructor
    · intro h
      exact ((String.append_right_inj "$").mp h).symm
    · rintro rfl
      rfl
  hash_ne salt p h := by
    have hlen := congrArg String.length h
    simp [plainPlatform] at hlen

/-- An e-mail with a capital letter: `loginAccount` lets it in, basic auth lets
nobody in. -/
theorem capital_locked_out : ∃ account t,
    (register plainPlatform .registration "Bob@example.com" "secret").exec (fun _ => {}) {} =
      (.ok account, t) ∧
    ((Registration.loginAccount plainPlatform "Bob@example.com" "secret").exec
      (fun _ => {}) t).1 = .ok account ∧
    (∀ token found, ((Password.validate plainPlatform "Bob@example.com" "secret").exec
      (fun _ => {}) t).1 ≠ .ok (some (token, found))) ∧
    ¬ LogsIn plainPlatform t account "Bob@example.com" "secret" := by
  have hout : ∀ account : Account, account.email = some "Bob@example.com" →
      account.email ≠ some (plainPlatform.toLowerCase "Bob@example.com") := by
    intro account h
    rw [h]
    decide +kernel
  refine ⟨_, _, rfl, rfl, fun token found h => ?_, fun h => ?_⟩
  · have hin := (validate_iff _).mp ⟨token, h⟩
    refine hout found ?_ hin.email
    rw [List.mem_singleton.mp hin.mem]
  · have hin := (validate_iff _).mp (h.basic fun _ => {})
    exact hout _ rfl hin.email

/-- What is no letter is the lower case of nothing else. -/
theorem eq_of_toLower {c : Char} (h : c.toLower.isAlpha = false) : c = c.toLower := by
  delta Char.toLower at h ⊢
  split at h
  · rename_i hc
    have hlow : 65 ≤ c.val.toNat := hc.1
    have hhigh : c.val.toNat ≤ 90 := hc.2
    have hshift : (c.val + ('a'.val - 'A'.val)).toNat = c.val.toNat + 32 := by
      rw [UInt32.toNat_add, show ('a'.val - 'A'.val).toNat = 32 from rfl]
      omega
    delta Char.isAlpha Char.isLower Char.isUpper at h
    simp only [Bool.or_eq_false_iff, Bool.and_eq_false_iff, decide_eq_false_iff_not,
      ge_iff_le, UInt32.le_iff_toNat_le, hshift, show 'a'.val.toNat = 97 from rfl, show 'z'.val.toNat = 122 from rfl] at h
    omega
  · rename_i hc
    rw [dif_neg hc]

/-- A text without letters is the lower case of no other. -/
theorem toLower_caseless {s x : String} (hs : ∀ c ∈ s.toList, c.isAlpha = false)
    (h : x.toLower = s) : x = s := by
  have hlist : x.toList.map Char.toLower = s.toList := by
    rw [← h, show x.toLower = x.map Char.toLower from rfl, String.toList_map]
  apply String.toList_inj.mp
  rw [← hlist]
  refine (List.map_id _).symm.trans (List.map_congr_left fun c hc => eq_of_toLower (hs _ ?_))
  rw [← hlist]
  exact List.mem_map_of_mem hc

/-- An e-mail without letters is the one spelling of itself. -/
theorem digits_sign_in : ∃ account t,
    LogsIn plainPlatform t account "7@8.9" "secret" ∧ NoSecond plainPlatform t account := by
  have hdigits : ("7@8.9".toList.all fun c => !c.isAlpha) = true := by decide +kernel
  refine ⟨_, _, (signs_in_iff (w := {}) (o := fun _ => {}) plainPlatform_exact
    (show (register _ .registration _ _).exec _ _ = _ from rfl)).mpr
    ⟨by decide, by decide, by decide +kernel, ?_⟩⟩
  intro other _ hne hlower
  have hcaseless : ∀ c ∈ "7@8.9".toList, c.isAlpha = false := fun c hc => by
    simpa using List.all_eq_true.mp hdigits c hc
  exact absurd (toLower_caseless hcaseless hlower) hne

end Anypay
