/-
Anypay.SessionTheorems — who is let in, over every order of registrations, logins,
requests for keys, password resets and restarts.

`Writes` is what one step of any of these calls does to the rows they share. From it:

* `entered_only_with_password` — an account nobody gives the password of stays shut: it
  gets no token, and no token lets anybody in as it.
* `session_lasts` — a token once stored lets its holder in for good, as the same account.
  No call takes one back, and a new password does not either.
* `appToken_of_same_account` — the app and the account of a token belong together.
* `metrics_closed` — nobody is ever let in to the metrics: their app is looked for under
  account 0, and the initializer makes it under the account it has just stored.
-/
import Anypay.Db.Drift
import Anypay.PasswordTheorems
import Anypay.Sessions

namespace Anypay.Sessions

open Store Async Proc Pool

/-! ## What one step writes -/

def HasAccount (w : World) (a : Int) : Prop := ∃ r ∈ w.accounts.rows, (r.id : Int) = a

/-- The app is the account's. -/
def AppOf (w : World) (i a : Int) : Prop :=
  ∃ app ∈ w.apps.rows, (app.id : Int) = i ∧ app.account_id = a

/-- The app is that of a wallet bot of the account's. -/
def BotOf (w : World) (i a : Int) : Prop :=
  ∃ bot ∈ w.walletBots.rows, bot.app_id = some i ∧ bot.account_id = some a

/-- What one step of a call may do. Tokens are made only for accounts not `barred`. -/
inductive Writes (barred : Int → Prop) (s : World) : World → Prop where
  | other {t : World} (accounts : t.accounts = s.accounts) (apps : t.apps = s.apps)
      (tokens : t.accessTokens = s.accessTokens) (walletBots : t.walletBots = s.walletBots) :
      Writes barred s t
  | account {tb : Table Account} {r : Account} (rows : tb.rows = s.accounts.rows ++ [r])
      (id : r.id = s.accounts.next) : Writes barred s { s with accounts := tb }
  | change {tb : Table Account} {r : Account} {f : Account → Account} (mem : r ∈ s.accounts.rows)
      (rows : tb.rows = Table.patch r.id f s.accounts.rows)
      (same : ∀ r, (f r).id = r.id ∧ (f r).email = r.email) :
      Writes barred s { s with accounts := tb }
  | app {tb : Table App} {app : App} (rows : tb.rows = s.apps.rows ++ [app])
      (owner : HasAccount s app.account_id ∨ app.name = "@refunds") :
      Writes barred s { s with apps := tb }
  | walletBot {tb : Table WalletBot} {bot : WalletBot} {a : Int}
      (rows : tb.rows = s.walletBots.rows ++ [bot]) (owner : bot.account_id = some a)
      (app : ∀ i, bot.app_id = some i → AppOf s i a) : Writes barred s { s with walletBots := tb }
  | token {tb : Table AccessToken} {tok : AccessToken}
      (rows : tb.rows = s.accessTokens.rows ++ [tok]) (owner : HasAccount s tok.account_id)
      (free : ¬ barred tok.account_id)
      (app : ∀ i, tok.app_id = some i → AppOf s i tok.account_id ∨ BotOf s i tok.account_id) :
      Writes barred s { s with accessTokens := tb }

/-- Accounts keep their ids and e-mails; apps, tokens and bots are only added. -/
structure Grows (s t : World) : Prop where
  accounts : ∀ r ∈ s.accounts.rows, ∃ r' ∈ t.accounts.rows, r'.id = r.id ∧ r'.email = r.email
  apps : ∀ r ∈ s.apps.rows, r ∈ t.apps.rows
  tokens : ∀ r ∈ s.accessTokens.rows, r ∈ t.accessTokens.rows
  walletBots : ∀ r ∈ s.walletBots.rows, r ∈ t.walletBots.rows

theorem Grows.refl (s : World) : Grows s s :=
  ⟨fun r hr => ⟨r, hr, rfl, rfl⟩, fun _ h => h, fun _ h => h, fun _ h => h⟩

theorem Grows.trans {s t u : World} (h : Grows s t) (h' : Grows t u) : Grows s u := by
  refine ⟨fun r hr => ?_, fun r hr => h'.apps r (h.apps r hr),
    fun r hr => h'.tokens r (h.tokens r hr), fun r hr => h'.walletBots r (h.walletBots r hr)⟩
  obtain ⟨r', hr', hid, hemail⟩ := h.accounts r hr
  obtain ⟨r'', hr'', hid', hemail'⟩ := h'.accounts r' hr'
  exact ⟨r'', hr'', hid'.trans hid, hemail'.trans hemail⟩

variable {barred : Int → Prop} {s t w : World} {a : Int}

theorem Grows.hasAccount (h : Grows s t) (ha : HasAccount s a) : HasAccount t a := by
  obtain ⟨r, hr, rfl⟩ := ha
  obtain ⟨r', hr', hid, -⟩ := h.accounts r hr
  exact ⟨r', hr', congrArg Nat.cast hid⟩

theorem Grows.appOf {i : Int} (h : Grows s t) (ha : AppOf s i a) : AppOf t i a := by
  obtain ⟨app, happ, hi, ha⟩ := ha
  exact ⟨app, h.apps app happ, hi, ha⟩

/-- One more row, or the rows as they were. -/
theorem mem_of_rows {α : Type} {rows rows' : List α} {r x : α} (h : rows' = rows ++ [r])
    (hx : x ∈ rows) : x ∈ rows' := by
  rw [h]
  exact List.mem_append_left _ hx

theorem mem_or_eq_of_rows {α : Type} {rows rows' : List α} {r x : α} (h : rows' = rows ++ [r])
    (hx : x ∈ rows') : x ∈ rows ∨ x = r := by
  simpa [h] using hx

theorem Writes.grows (h : Writes barred s t) : Grows s t := by
  have hrefl := Grows.refl s
  cases h with
  | other accounts apps tokens walletBots =>
      refine ⟨fun r hr => ⟨r, accounts ▸ hr, rfl, rfl⟩, ?_, ?_, ?_⟩
      · rw [apps]
        exact hrefl.apps
      · rw [tokens]
        exact hrefl.tokens
      · rw [walletBots]
        exact hrefl.walletBots
  | account rows id =>
      exact ⟨fun r hr => ⟨r, mem_of_rows rows hr, rfl, rfl⟩, hrefl.apps, hrefl.tokens,
        hrefl.walletBots⟩
  | @change tb x f mem rows same =>
      refine ⟨fun r hr => ?_, hrefl.apps, hrefl.tokens, hrefl.walletBots⟩
      refine ⟨if r.id = x.id then f r else r, ?_, ?_⟩
      · show _ ∈ tb.rows
        rw [rows]
        exact List.mem_map_of_mem hr
      · split
        · exact same r
        · exact ⟨rfl, rfl⟩
  | app rows owner =>
      exact ⟨hrefl.accounts, fun r hr => mem_of_rows rows hr, hrefl.tokens, hrefl.walletBots⟩
  | walletBot rows owner app =>
      exact ⟨hrefl.accounts, hrefl.apps, hrefl.tokens, fun r hr => mem_of_rows rows hr⟩
  | token rows owner free app =>
      exact ⟨hrefl.accounts, hrefl.apps, fun r hr => mem_of_rows rows hr, hrefl.walletBots⟩

/-! ## The invariants -/

/-- A barred account is there, is not the one the metrics are kept under, and no token is
its own. -/
structure Shut (barred : Int → Prop) (w : World) : Prop where
  account : ∀ a, barred a → ∃ r ∈ w.accounts.rows, (r.id : Int) = a ∧ r.email ≠ some "prometheus"
  tokens : ∀ tok ∈ w.accessTokens.rows, ¬ barred tok.account_id

theorem Shut.writes (h : Shut barred s) (hw : Writes barred s t) : Shut barred t := by
  refine ⟨fun a ha => ?_, fun tok htok => ?_⟩
  · obtain ⟨r, hr, hid, hemail⟩ := h.account a ha
    obtain ⟨r', hr', hid', hemail'⟩ := hw.grows.accounts r hr
    exact ⟨r', hr', (congrArg Nat.cast hid').trans hid, hemail' ▸ hemail⟩
  · cases hw with
    | other accounts apps tokens walletBots => exact h.tokens tok (tokens ▸ htok)
    | token rows owner free app =>
        rcases mem_or_eq_of_rows rows htok with hold | rfl
        · exact h.tokens tok hold
        · exact free
    | account rows id => exact h.tokens tok htok
    | change mem rows same => exact h.tokens tok htok
    | app rows owner => exact h.tokens tok htok
    | walletBot rows owner app => exact h.tokens tok htok

/-- Every token is an account's, and its app is the same account's. -/
structure Sound (w : World) : Prop where
  tokens : ∀ tok ∈ w.accessTokens.rows, HasAccount w tok.account_id ∧
    ∀ i, tok.app_id = some i → AppOf w i tok.account_id
  walletBots : ∀ bot ∈ w.walletBots.rows, ∀ i, bot.app_id = some i →
    ∃ a, bot.account_id = some a ∧ AppOf w i a

theorem Sound.of_rows (h : Sound s) (hst : Grows s t)
    (htokens : ∀ tok ∈ t.accessTokens.rows, tok ∉ s.accessTokens.rows →
      HasAccount s tok.account_id ∧ ∀ i, tok.app_id = some i → AppOf s i tok.account_id)
    (hbots : ∀ bot ∈ t.walletBots.rows, bot ∉ s.walletBots.rows → ∀ i, bot.app_id = some i →
      ∃ a, bot.account_id = some a ∧ AppOf s i a) : Sound t := by
  refine ⟨fun tok htok => ?_, fun bot hbot i hi => ?_⟩
  · have hboth : HasAccount s tok.account_id ∧
        ∀ i, tok.app_id = some i → AppOf s i tok.account_id := by
      by_cases hold : tok ∈ s.accessTokens.rows
      · exact h.tokens tok hold
      · exact htokens tok htok hold
    exact ⟨hst.hasAccount hboth.1, fun i hi => hst.appOf (hboth.2 i hi)⟩
  · have hown : ∃ a, bot.account_id = some a ∧ AppOf s i a := by
      by_cases hold : bot ∈ s.walletBots.rows
      · exact h.walletBots bot hold i hi
      · exact hbots bot hbot hold i hi
    obtain ⟨a, ha, happ⟩ := hown
    exact ⟨a, ha, hst.appOf happ⟩

theorem Sound.writes (h : Sound s) (hw : Writes barred s t) : Sound t := by
  have hst := hw.grows
  cases hw with
  | other accounts apps tokens walletBots =>
      exact h.of_rows hst (fun tok htok hnew => absurd (tokens ▸ htok) hnew)
        fun bot hbot hnew => absurd (walletBots ▸ hbot) hnew
  | token rows owner free app =>
      refine h.of_rows hst (fun tok htok hnew => ?_) fun bot hbot hnew => absurd hbot hnew
      obtain rfl := (mem_or_eq_of_rows rows htok).resolve_left hnew
      refine ⟨owner, fun i hi => ?_⟩
      rcases app i hi with happ | ⟨bot, hbot, hbi, hba⟩
      · exact happ
      · obtain ⟨a, ha, happ⟩ := h.walletBots bot hbot i hbi
        obtain rfl := Option.some.inj (hba.symm.trans ha)
        exact happ
  | walletBot rows owner app =>
      refine h.of_rows hst (fun tok htok hnew => absurd htok hnew) fun bot hbot hnew i hi => ?_
      obtain rfl := (mem_or_eq_of_rows rows hbot).resolve_left hnew
      exact ⟨_, owner, app i hi⟩
  | account rows id =>
      exact h.of_rows hst (fun tok htok hnew => absurd htok hnew)
        fun bot hbot hnew => absurd hbot hnew
  | change mem rows same =>
      exact h.of_rows hst (fun tok htok hnew => absurd htok hnew)
        fun bot hbot hnew => absurd hbot hnew
  | app rows owner =>
      exact h.of_rows hst (fun tok htok hnew => absurd htok hnew)
        fun bot hbot hnew => absurd hbot hnew

/-- No account is account 0, and the metrics' app is not there. -/
structure Closed (w : World) : Prop where
  next : w.accounts.next ≠ 0
  accounts : ∀ r ∈ w.accounts.rows, r.id ≠ 0
  apps : ∀ app ∈ w.apps.rows, isMetricsApp app = false

theorem Closed.hasAccount (h : Closed w) (ha : HasAccount w a) : a ≠ 0 := by
  obtain ⟨r, hr, rfl⟩ := ha
  have hne := h.accounts r hr
  omega

theorem Closed.writes (h : Closed s) (hw : Writes barred s t) : Closed t := by
  cases hw with
  | other accounts apps tokens walletBots =>
      refine ⟨?_, ?_, ?_⟩
      · rw [accounts]
        exact h.next
      · rw [accounts]
        exact h.accounts
      · rw [apps]
        exact h.apps
  | @account tb r rows id =>
      have hmem : r ∈ tb.rows := by simp [rows]
      have hlt : r.id < tb.next := tb.id_lt r hmem
      refine ⟨?_, fun x hx => ?_, h.apps⟩
      · show tb.next ≠ 0
        omega
      · rcases mem_or_eq_of_rows rows hx with hold | rfl
        · exact h.accounts x hold
        · rw [id]
          exact h.next
  | @change tb r f mem rows same =>
      have hids : tb.rows.map Account.id = s.accounts.rows.map Account.id := by
        rw [rows]
        exact Table.map_patch (fun r => (same r).1) _
      have hnext : ∃ x ∈ tb.rows, x.id = r.id := by
        rw [← List.mem_map, hids]
        exact List.mem_map_of_mem mem
      obtain ⟨x, hx, hid⟩ := hnext
      have hlt : x.id < tb.next := tb.id_lt x hx
      refine ⟨?_, fun y hy => ?_, h.apps⟩
      · show tb.next ≠ 0
        omega
      · have hmem : y.id ∈ s.accounts.rows.map Account.id := by
          rw [← hids]
          exact List.mem_map_of_mem hy
        obtain ⟨z, hz, hzid⟩ := List.mem_map.mp hmem
        rw [← hzid]
        exact h.accounts z hz
  | @app tb app rows owner =>
      refine ⟨h.next, h.accounts, fun x hx => ?_⟩
      rcases mem_or_eq_of_rows rows hx with hold | rfl
      · exact h.apps x hold
      · rcases owner with howner | hname
        · have hne := h.hasAccount howner
          simp [isMetricsApp, hne]
        · simp [isMetricsApp, hname]
  | walletBot rows owner app => exact ⟨h.next, h.accounts, h.apps⟩
  | token rows owner free app => exact ⟨h.next, h.accounts, h.apps⟩

/-! ## The drift -/

/-- Every call writes like that, and the others may have. -/
def drift (barred : Int → Prop) : Drift World where
  step := Writes barred
  later s t := Grows s t ∧ (Shut barred s → Shut barred t)
  step_refl _ := .other rfl rfl rfl rfl
  later_refl s := ⟨.refl s, id⟩
  later_trans h h' := ⟨h.1.trans h'.1, fun hs => h'.2 (h.2 hs)⟩
  later_of_step h := ⟨h.grows, fun hs => hs.writes h⟩

/-- A call that gives the password of the account, as the database is now. -/
def Call.Opens (platform : Platform) (a : Int) (w : World) : Call → Prop
  | .login email password => ∃ r ∈ w.accounts.rows, (r.id : Int) = a ∧ hasEmail email r = true ∧
      ∃ hash, nonEmpty r.password_hash = some hash ∧ platform.compare password hash = true
  | .createAccessToken username password => ∃ r ∈ w.accounts.rows, (r.id : Int) = a ∧
      hasEmail (platform.toLowerCase username) r = true ∧
      platform.compare password (nullText r.password_hash) = true
  | _ => False

/-- No barred account's password is given. -/
def unopened (platform : Platform) (barred : Int → Prop) (call : Call) (w : World)
    (_ : Answer) : Prop :=
  ∀ a, barred a → ¬ call.Opens platform a w

/-- What a part of a call gives among the others. -/
abbrev Leaves {α : Type} (platform : Platform) (barred : Int → Prop) (call : Call)
    (P : α → World → Prop) (p : Task α) (s : World) : Prop :=
  p.Gives (drift barred) (unopened platform barred) P call s

/-- A row of the account is there, and the account is not barred. -/
def Entitled (barred : Int → Prop) (a : Int) (w : World) : Prop := HasAccount w a ∧ ¬ barred a

theorem Entitled.later (h : Entitled barred a s) (hst : (drift barred).later s t) :
    Entitled barred a t :=
  ⟨hst.1.hasAccount h.1, h.2⟩

theorem Shut.later (h : Shut barred s) (hst : (drift barred).later s t) : Shut barred t := hst.2 h

/-- The account of a new row is not barred: those were there before. -/
theorem Shut.next (h : Shut barred s) : ¬ barred s.accounts.next := by
  intro hbarred
  obtain ⟨r, hr, hid, -⟩ := h.account _ hbarred
  have hlt : r.id < s.accounts.next := s.accounts.id_lt r hr
  omega

/-! ## What the calls give -/

variable {platform : Platform} {jwt : Jwt} {call : Call} {account : Account}

/-- A token of the account is stored. -/
def TokenOf (a : Int) (tok : AccessToken) (w : World) : Prop :=
  tok ∈ w.accessTokens.rows ∧ tok.account_id = a

theorem leaves_createToken {app_id : Option Int} (h : Entitled barred a s)
    (happ : ∀ i, app_id = some i → AppOf s i a ∨ BotOf s i a) :
    Leaves platform barred call (TokenOf a) (createToken a app_id) s := by
  unfold createToken
  simp only [bind_eq]
  refine gives_bind (gives_ask (P := fun _ _ => True) fun _ _ _ _ => trivial) fun uid t hst _ => ?_
  refine Delegate.gives_create fun u htu now tb hrows => ?_
  have hsu : (drift barred).later s u := (drift barred).later_trans hst htu
  have hentitled := h.later hsu
  refine ⟨.token hrows hentitled.1 hentitled.2 fun i hi => ?_, fun v huv => ⟨?_, rfl⟩⟩
  · rcases happ i hi with happ | ⟨bot, hbot, hown⟩
    · exact .inl (hsu.1.appOf happ)
    · exact .inr ⟨bot, hsu.1.walletBots bot hbot, hown⟩
  · refine huv.1.tokens _ ?_
    show _ ∈ tb.rows
    simp [hrows]

theorem leaves_ensureAccessToken (h : Entitled barred account.id s) :
    Leaves platform barred call (TokenOf account.id) (ensureAccessToken account) s :=
  leaves_createToken h fun i hi => by cases hi

/-- The JWT of a session is over an account that has a token. -/
theorem leaves_startSession (h : Entitled barred account.id s) :
    Leaves platform barred call (fun result t => result.1 = account ∧
      (∃ uid now, result.2 = jwt.sign { account_id := some account.id, uid } "30d" now) ∧
      ∃ tok, TokenOf account.id tok t) (startSession jwt account) s := by
  unfold startSession generateAccountToken
  simp only [bind_eq, pure_eq]
  refine gives_bind (leaves_ensureAccessToken h) fun accessToken t hst htoken => ?_
  refine gives_bind (gives_ask (P := fun token _ => ∃ uid now, token =
    jwt.sign { account_id := some account.id, uid } "30d" now) ?_) fun token u htu htok => ?_
  · rintro c token htok -
    exact ⟨_, c.now, (Except.ok.inj htok).symm⟩
  · refine gives_done fun v huv => ⟨rfl, htok, accessToken, ?_, htoken.2⟩
    exact huv.1.tokens _ (htu.1.tokens _ htoken.1)

/-! ### Logging in -/

/-- A login that finds the account's row has its password. -/
theorem leaves_loginAccount {email password : String} :
    Leaves platform barred (.login email password) (fun account => Entitled barred account.id)
      (Registration.loginAccount platform email password) s := by
  unfold Registration.loginAccount
  simp only [bind_eq, pure_eq]
  refine gives_bind (P := fun account t => HasAccount t account.id ∧
    ∀ hash, nonEmpty account.password_hash = some hash →
      platform.compare password hash = true → ¬ barred account.id)
    (Delegate.gives_findFirstOrThrow_at fun t hst c hunopened r hr hemail u htu => ?_)
    fun account t hst haccount => ?_
  · refine ⟨htu.1.hasAccount ⟨r, hr, rfl⟩, fun hash hhash hcompare hbarred => ?_⟩
    exact hunopened _ hbarred ⟨r, hr, rfl, hemail, hash, hhash, hcompare⟩
  · obtain ⟨hhas, hfree⟩ := haccount
    cases hhash : nonEmpty account.password_hash with
    | none => exact gives_fail _
    | some hash =>
        simp only [comparePassword]
        by_cases hcompare : platform.compare password (nullText (some hash)) = true
        · rw [if_pos hcompare]
          refine gives_done fun u htu => ?_
          exact Entitled.later ⟨hhas, hfree hash hhash hcompare⟩ htu
        · rw [if_neg hcompare]
          exact gives_fail _

theorem leaves_withEmailPassword {username password : String} :
    Leaves platform barred (.createAccessToken username password) (fun _ _ => True)
      (AccountLogin.withEmailPassword platform username password) s := by
  unfold AccountLogin.withEmailPassword
  simp only [bind_eq]
  refine gives_bind (P := fun account t => HasAccount t account.id ∧
    (platform.compare password (nullText account.password_hash) = true → ¬ barred account.id))
    (Delegate.gives_findFirstOrThrow_at fun t hst c hunopened r hr hemail u htu => ?_)
    fun account t hst haccount => ?_
  · refine ⟨htu.1.hasAccount ⟨r, hr, rfl⟩, fun hcompare hbarred => ?_⟩
    exact hunopened _ hbarred ⟨r, hr, rfl, hemail, hcompare⟩
  · obtain ⟨hhas, hfree⟩ := haccount
    unfold comparePassword
    by_cases hcompare : platform.compare password (nullText account.password_hash) = true
    · rw [if_pos hcompare]
      have htoken : Leaves platform barred (.createAccessToken username password)
          (TokenOf account.id) (createToken account.id none) t :=
        leaves_createToken ⟨hhas, hfree hcompare⟩ fun i hi => by cases hi
      exact gives_mono (fun _ _ _ => trivial) htoken
    · rw [if_neg hcompare]
      exact gives_fail _

theorem leaves_createAccessToken {username password : String} :
    Leaves platform barred (.createAccessToken username password) (fun _ _ => True)
      (createAccessToken platform username password) s := by
  unfold createAccessToken Password.validate
  simp only [bind_eq, pure_eq]
  refine gives_bind (P := fun _ _ => True) ?_ fun result t _ _ => ?_
  · split
    · exact gives_done fun _ _ => trivial
    · refine gives_tryCatch ?_ fun _ _ _ => gives_done fun _ _ => trivial
      refine gives_bind (P := fun _ _ => True)
        (Delegate.gives_findFirst (fun _ _ _ _ _ _ _ => trivial) fun _ _ => trivial)
        fun found t _ _ => ?_
      cases found with
      | none => exact gives_done fun _ _ => trivial
      | some account =>
          refine gives_bind leaves_withEmailPassword fun _ _ _ _ => ?_
          exact gives_done fun _ _ => trivial
  · cases result with
    | none => exact gives_fail _
    | some found => exact gives_done fun _ _ => trivial

/-! ### Registering -/

/-- A new row. -/
theorem leaves_storeAccount {email : String} {data : Account} (h : Shut barred s) :
    Leaves platform barred call (fun account => Entitled barred account.id)
      (storeAccount email data) s := by
  unfold storeAccount
  split
  · refine Delegate.gives_create fun t hst now tb hrows => ?_
    refine ⟨.account hrows rfl, fun u htu => ⟨htu.1.hasAccount ?_, (h.later hst).next⟩⟩
    refine ⟨_, ?_, rfl⟩
    show _ ∈ tb.rows
    rw [hrows]
    simp
  · exact gives_fail _

theorem leaves_hashPassword {password : String} :
    Leaves platform barred call (fun _ _ => True) (hashPassword platform password) s :=
  gives_ask fun _ _ _ _ => trivial

theorem leaves_findEmail {email : String} :
    Leaves platform barred call (fun _ _ => True) (prisma.accounts.findFirst (hasEmail email)) s :=
  Delegate.gives_findFirst (fun _ _ _ _ _ _ _ => trivial) fun _ _ => trivial

theorem leaves_registerAccount {email password : String} (h : Shut barred s) :
    Leaves platform barred call (fun account => Entitled barred account.id)
      (Registration.registerAccount platform email password) s := by
  unfold Registration.registerAccount
  simp only [bind_eq]
  refine gives_bind leaves_hashPassword fun hash t hst _ => ?_
  refine gives_bind leaves_findEmail fun found u htu _ => ?_
  cases found with
  | none => exact leaves_storeAccount ((h.later hst).later htu)
  | some account => exact gives_fail _

/-- A change of an account's row that leaves the id and the e-mail. -/
theorem leaves_changeAccount {i : Nat} {f : Time → Account → Account}
    {hid : ∀ t r, Record.id (f t r) = Record.id r}
    (hsame : ∀ now r, (f now r).id = r.id ∧ (f now r).email = r.email) :
    Leaves platform barred call (fun _ _ => True) (prisma.accounts.update i f hid) s := by
  refine Delegate.gives_update fun t hst now tb r hr hi hrows => ⟨?_, fun _ _ => trivial⟩
  subst hi
  exact .change hr hrows (hsame now)

theorem leaves_register (path : RegistrationPath) {email password : String}
    (h : Shut barred s) : Leaves platform barred call (fun _ _ => True)
      (register platform path email password) s := by
  cases path with
  | registration => exact gives_mono (fun _ _ _ => trivial) (leaves_registerAccount h)
  | accounts =>
      show Leaves platform barred call _ (Accounts.registerAccount platform email password) s
      unfold Accounts.registerAccount
      simp only [bind_eq, pure_eq]
      refine gives_bind leaves_hashPassword fun hash t hst _ => ?_
      refine gives_bind leaves_findEmail fun found u htu _ => ?_
      cases found with
      | some account => exact gives_fail _
      | none =>
          refine gives_bind (leaves_storeAccount ((h.later hst).later htu)) fun account v _ _ => ?_
          refine gives_bind (P := fun _ _ => True) (Delegate.gives_create fun _ _ _ _ _ =>
            ⟨.other rfl rfl rfl rfl, fun _ _ => trivial⟩) fun _ _ _ _ => ?_
          exact gives_done fun _ _ => trivial
  | handler remoteAddress forwardedFor =>
      show Leaves platform barred call _
        (AccountHandlers.create platform remoteAddress forwardedFor email password) s
      unfold AccountHandlers.create
      simp only [bind_eq, pure_eq]
      refine gives_bind leaves_hashPassword fun hash t hst _ => ?_
      refine gives_bind leaves_findEmail fun found u htu _ => ?_
      cases found with
      | some account => exact gives_fail _
      | none =>
          refine gives_bind (leaves_storeAccount ((h.later hst).later htu)) fun account v _ _ => ?_
          split
          · exact gives_done fun _ _ => trivial
          · refine gives_bind (leaves_changeAccount fun _ _ => ⟨rfl, rfl⟩) fun _ _ _ _ => ?_
            exact Delegate.gives_findFirstOrThrow fun _ _ _ _ _ _ _ => trivial

/-! ### Being let in -/

theorem leaves_validateToken {username : String} (h : Shut barred s) :
    Leaves platform barred call (fun found t => ∀ tok account, found = some (tok, account) →
      Entitled barred account.id t) (validateToken username) s := by
  unfold validateToken
  simp only [bind_eq, pure_eq]
  split
  · exact gives_done fun _ _ _ _ hfound => by cases hfound
  · refine gives_bind (P := fun found t => ∀ tok, found = some tok → ¬ barred tok.account_id)
      (Delegate.gives_findFirst (fun t hst tok htok _ u htu x hx => ?_) fun _ _ x hx => ?_)
      fun found t hst hfound => ?_
    · obtain rfl := Option.some.inj hx
      exact (h.later hst).tokens tok htok
    · cases hx
    · cases found with
      | none => exact gives_done fun _ _ _ _ hfound => by cases hfound
      | some tok =>
          have hfree := hfound tok rfl
          refine gives_bind (P := fun account t => Entitled barred account.id t)
            (Delegate.gives_findFirstOrThrow fun u htu r hr hid v huv => ?_)
            fun account u htu haccount => ?_
          · have hid : (r.id : Int) = tok.account_id := by simpa using hid
            exact ⟨huv.1.hasAccount ⟨r, hr, rfl⟩, hid ▸ hfree⟩
          · refine gives_done fun v huv tok' account' heq => ?_
            obtain ⟨-, rfl⟩ := Prod.mk.inj (Option.some.inj heq)
            exact haccount.later huv

theorem leaves_withToken {α : Type} {username : String} {handler : Account → Task α}
    (h : Shut barred s) (hhandler : ∀ t account, Entitled barred account.id t →
      Leaves platform barred call (fun _ _ => True) (handler account) t) :
    Leaves platform barred call (fun _ _ => True) (withToken username handler) s := by
  unfold withToken
  simp only [bind_eq]
  refine gives_bind (leaves_validateToken h) fun found t hst hfound => ?_
  cases found with
  | none => exact gives_fail _
  | some found => exact hhandler t found.2 (hfound found.1 found.2 rfl)

/-- A JWT that is over no barred account. -/
def Honest (jwt : Jwt) (barred : Int → Prop) (token : String) : Prop :=
  ∀ now payload, jwt.verify token now = some payload →
    ∀ a, barred a → payload.account_id ≠ none ∧ payload.account_id ≠ some a

theorem leaves_authorizeAccount {token : String} (h : Honest jwt barred token) :
    Leaves platform barred call (fun account => Entitled barred account.id)
      (authorizeAccount jwt token) s := by
  unfold authorizeAccount verifyToken
  simp only [bind_eq]
  refine gives_bind (gives_ask (P := fun payload _ => ∃ now, jwt.verify token now = some payload)
    fun c payload hpayload _ => ?_) fun payload t hst hpayload => ?_
  · cases hverify : jwt.verify token c.now with
    | none => simp [hverify] at hpayload
    | some decoded =>
        simp only [hverify] at hpayload
        obtain rfl := Except.ok.inj hpayload
        exact ⟨_, hverify⟩
  · obtain ⟨now, hverify⟩ := hpayload
    refine Delegate.gives_findFirstOrThrow fun u htu r hr hid v huv => ?_
    refine ⟨huv.1.hasAccount ⟨r, hr, rfl⟩, fun hbarred => ?_⟩
    obtain ⟨hsome, hother⟩ := h now payload hverify _ hbarred
    cases haccount : payload.account_id with
    | none => exact hsome haccount
    | some a =>
        simp only [haccount, Option.isNone_some, Bool.false_or, beq_iff_eq] at hid
        exact hother (haccount.trans hid.symm)

theorem leaves_withJwt {α : Type} {token : String} {handler : Account → Task α}
    (h : Honest jwt barred token) (hhandler : ∀ t account, Entitled barred account.id t →
      Leaves platform barred call (fun _ _ => True) (handler account) t) :
    Leaves platform barred call (fun _ _ => True) (withJwt jwt token handler) s :=
  gives_bind (leaves_authorizeAccount h) fun account t _ haccount => hhandler t account haccount

/-! ### Keys -/

theorem leaves_getMerchantApiKey (h : Entitled barred a s) :
    Leaves platform barred call (fun _ _ => True) (getMerchantApiKey a) s := by
  unfold getMerchantApiKey
  simp only [bind_eq, pure_eq]
  refine gives_bind (P := fun _ _ => True)
    (Delegate.gives_findFirst (fun _ _ _ _ _ _ _ => trivial) fun _ _ => trivial)
    fun found t hst _ => ?_
  cases found with
  | some tok => exact gives_done fun _ _ => trivial
  | none =>
      refine gives_bind (leaves_createToken (h.later hst) fun i hi => by cases hi) fun _ _ _ _ => ?_
      exact gives_done fun _ _ => trivial

/-- The app of a new row. -/
theorem leaves_createApp {name : String} (h : HasAccount s a ∨ name = "@refunds") :
    Leaves platform barred call (fun app t => app ∈ t.apps.rows ∧ app.account_id = a)
      (createApp a name) s := by
  refine Delegate.gives_create fun t hst now tb hrows => ?_
  refine ⟨.app hrows (h.imp hst.1.hasAccount id), fun u htu => ⟨htu.1.apps _ ?_, rfl⟩⟩
  show _ ∈ tb.rows
  rw [hrows]
  simp

theorem leaves_createAppToken {app : App} (happ : app ∈ s.apps.rows)
    (h : Entitled barred app.account_id s) :
    Leaves platform barred call (fun _ _ => True) (createAppToken app.id) s := by
  unfold createAppToken
  simp only [bind_eq, pure_eq]
  refine gives_bind (P := fun found _ => found = app)
    (Delegate.gives_findFirstOrThrow fun t hst r hr hid u htu => ?_) fun found t hst hfound => ?_
  · have hid : r.id = app.id := by simpa using hid
    exact Table.eq_of_id hr (hst.1.apps _ happ) hid
  · subst hfound
    refine gives_bind (P := fun _ _ => True)
      (Delegate.gives_findFirst (fun _ _ _ _ _ _ _ => trivial) fun _ _ => trivial)
      fun tok u htu _ => ?_
    cases tok with
    | some tok => exact gives_done fun _ _ => trivial
    | none =>
        have hsu : (drift barred).later s u := (drift barred).later_trans hst htu
        refine gives_mono (fun _ _ _ => trivial) (leaves_createToken (h.later hsu) fun i hi => ?_)
        obtain rfl := Option.some.inj hi
        exact .inl ⟨_, hsu.1.apps _ happ, rfl, rfl⟩

theorem leaves_getPlatformApiKey (h : Entitled barred a s) :
    Leaves platform barred call (fun _ _ => True) (getPlatformApiKey a) s := by
  unfold getPlatformApiKey earliestToken
  simp only [bind_eq, pure_eq]
  refine gives_bind (leaves_createApp (.inl h.1)) fun app t hst happ => ?_
  refine gives_bind (P := fun _ _ => True) (gives_query fun _ _ _ _ _ _ _ _ => trivial)
    fun found u htu _ => ?_
  cases found with
  | some tok => exact gives_done fun _ _ => trivial
  | none =>
      obtain ⟨hmem, rfl⟩ := happ
      have hentitled := (h.later hst).later htu
      refine gives_bind (leaves_createAppToken (htu.1.apps _ hmem) hentitled) fun _ _ _ _ => ?_
      exact gives_done fun _ _ => trivial

theorem leaves_apiKeys (h : Entitled barred account.id s) :
    Leaves platform barred call (fun _ _ => True) (apiKeys account) s := by
  unfold apiKeys
  simp only [bind_eq, pure_eq]
  refine gives_bind (leaves_getMerchantApiKey h) fun _ t hst _ => ?_
  refine gives_bind (leaves_getPlatformApiKey (h.later hst)) fun _ _ _ _ => ?_
  exact gives_done fun _ _ => trivial

/-! ### The wallet bot -/

/-- The bot is the account's, and its row is there. -/
theorem leaves_findOrCreateWalletBot (h : HasAccount s account.id) :
    Leaves platform barred call (fun found t => found.1 ∈ t.walletBots.rows ∧
      found.1.account_id = some (account.id : Int)) (findOrCreateWalletBot account) s := by
  unfold findOrCreateWalletBot
  simp only [bind_eq, pure_eq]
  refine gives_bind (P := fun found t => ∀ bot, found = some bot → bot ∈ t.walletBots.rows ∧
      bot.account_id = some (account.id : Int))
    (Delegate.gives_findFirst (fun t hst bot hbot hown u htu x hx => ?_) fun _ _ x hx => ?_)
    fun found t hst hfound => ?_
  · obtain rfl := Option.some.inj hx
    exact ⟨htu.1.walletBots _ hbot, by simpa using hown⟩
  · cases hx
  · cases found with
    | some bot =>
        obtain ⟨hmem, hown⟩ := hfound bot rfl
        refine gives_bind (P := fun _ _ => True)
          (Delegate.gives_findFirstOrThrow fun _ _ _ _ _ _ _ => trivial) fun app u htu _ => ?_
        exact gives_done fun v huv =>
          ⟨huv.1.walletBots _ (htu.1.walletBots _ hmem), hown⟩
    | none =>
        refine gives_bind (leaves_createApp (.inl (hst.1.hasAccount h))) fun app u htu happ => ?_
        refine gives_bind (P := fun bot t => bot ∈ t.walletBots.rows ∧
            bot.account_id = some (account.id : Int))
          (Delegate.gives_create fun v huv now tb hrows => ?_) fun bot v _ hbot => ?_
        · refine ⟨.walletBot hrows rfl fun i hi => ?_, fun x hx => ⟨hx.1.walletBots _ ?_, rfl⟩⟩
          · obtain rfl := Option.some.inj hi
            exact ⟨app, huv.1.apps _ happ.1, rfl, happ.2⟩
          · show _ ∈ tb.rows
            rw [hrows]
            simp
        · exact gives_done fun x hx => ⟨hx.1.walletBots _ hbot.1, hbot.2⟩

theorem leaves_getAccessToken {bot : WalletBot} (hbot : bot ∈ s.walletBots.rows)
    (hown : bot.account_id = some a) (h : Entitled barred a s) :
    Leaves platform barred call (fun _ _ => True) (getAccessToken bot) s := by
  unfold getAccessToken
  simp only [bind_eq, pure_eq, hown, Option.getD_some]
  refine gives_bind (P := fun _ _ => True)
    (Delegate.gives_findFirst (fun _ _ _ _ _ _ _ => trivial) fun _ _ => trivial)
    fun found t hst _ => ?_
  cases found with
  | some tok => exact gives_done fun _ _ => trivial
  | none =>
      refine gives_mono (fun _ _ _ => trivial) (leaves_createToken (h.later hst) fun i hi => ?_)
      exact .inr ⟨bot, hst.1.walletBots _ hbot, hi, hown⟩

theorem leaves_showWalletBot (h : Entitled barred account.id s) :
    Leaves platform barred call (fun _ _ => True) (showWalletBot account) s := by
  unfold showWalletBot
  simp only [bind_eq, pure_eq]
  refine gives_bind (leaves_findOrCreateWalletBot h.1) fun found t hst hfound => ?_
  refine gives_bind (leaves_getAccessToken hfound.1 hfound.2 (h.later hst)) fun _ _ _ _ => ?_
  exact gives_done fun _ _ => trivial

/-! ### The metrics -/

theorem leaves_detached {p : Task Unit}
    (h : Leaves platform barred call (fun _ _ => True) p s) :
    Leaves platform barred call (fun _ _ => True) (detached p) s :=
  gives_tryCatch h fun _ _ _ => gives_done fun _ _ => trivial

/-- The account the metrics are kept under is not a barred one. -/
theorem leaves_metricsAccount (h : Shut barred s) :
    Leaves platform barred call (fun found t => ∀ account, found = some account →
      Entitled barred account.id t) (prisma.accounts.findFirst (hasEmail "prometheus")) s := by
  refine Delegate.gives_findFirst (fun t hst r hr hemail u htu x hx => ?_) fun _ _ x hx => ?_
  · obtain rfl := Option.some.inj hx
    refine ⟨htu.1.hasAccount ⟨_, hr, rfl⟩, fun hbarred => ?_⟩
    obtain ⟨r', hr', hid, hne⟩ := (h.later hst).account _ hbarred
    obtain rfl := Table.eq_of_id hr' hr (by exact_mod_cast hid)
    exact hne (by simpa [hasEmail] using hemail)
  · cases hx

theorem leaves_initializeApp {account : Account} (h : Entitled barred account.id s) :
    Leaves platform barred call (fun _ _ => True) (detached (initializeApp account)) s := by
  unfold initializeApp
  simp only [bind_eq, pure_eq]
  refine leaves_detached (gives_bind (P := fun _ _ => True)
    (Delegate.gives_findFirst (fun _ _ _ _ _ _ _ => trivial) fun _ _ => trivial)
    fun app t hst _ => ?_)
  cases app with
  | some app => exact gives_done fun _ _ => trivial
  | none =>
      have hentitled := h.later hst
      refine gives_bind (leaves_createApp (.inl hentitled.1)) fun app u hu happ => ?_
      refine gives_discard (leaves_createToken (hentitled.later hu) fun i hi => ?_)
      obtain rfl := Option.some.inj hi
      exact .inl ⟨app, happ.1, rfl, happ.2⟩

theorem leaves_initializePrometheus (h : Shut barred s) :
    Leaves platform barred call (fun _ _ => True) initializePrometheus s := by
  unfold initializePrometheus
  simp only [bind_eq, pure_eq]
  refine gives_bind (leaves_metricsAccount h) fun found t hst hfound => ?_
  cases found with
  | some account => exact leaves_initializeApp (hfound account rfl)
  | none =>
      refine gives_bind (P := fun account u => Entitled barred account.id u)
        (Delegate.gives_create fun u htu now tb hrows => ?_) fun account u _ haccount =>
          leaves_initializeApp haccount
      refine ⟨.account hrows rfl, fun v huv => ⟨huv.1.hasAccount ⟨_, ?_, rfl⟩, ?_⟩⟩
      · show _ ∈ tb.rows
        rw [hrows]
        simp
      · exact ((h.later hst).later htu).next

/-! ### The other calls -/

theorem leaves_geolocate {location : Option Json} {remoteAddress : String} {i : Nat} :
    Leaves platform barred call (fun _ _ => True)
      (geolocateAccountFromRequest location remoteAddress i) s := by
  unfold geolocateAccountFromRequest
  simp only [bind_eq]
  cases location with
  | none =>
      exact gives_bind (P := fun _ _ => True) (gives_done fun _ _ => trivial) fun _ _ _ _ =>
        gives_discard (leaves_changeAccount fun _ _ => ⟨rfl, rfl⟩)
  | some location =>
      refine gives_bind (gives_discard (leaves_changeAccount fun _ _ => ⟨rfl, rfl⟩))
        fun _ _ _ _ => ?_
      exact gives_discard (leaves_changeAccount fun _ _ => ⟨rfl, rfl⟩)

theorem leaves_claim {uid password : String} :
    Leaves platform barred call (fun _ _ => True) (Passwords.claim platform uid password) s := by
  unfold Passwords.claim Passwords.resetPasswordByEmail Passwords.resetPassword
  simp only [bind_eq, pure_eq]
  refine gives_bind (P := fun _ _ => True)
    (Delegate.gives_findFirst (fun _ _ _ _ _ _ _ => trivial) fun _ _ => trivial)
    fun found t hst _ => ?_
  cases found with
  | none => exact gives_done fun _ _ => trivial
  | some row =>
      refine gives_bind (P := fun _ _ => True) ?_ fun _ _ _ _ => gives_done fun _ _ => trivial
      refine gives_bind (P := fun _ _ => True)
        (Delegate.gives_findFirstOrThrow fun _ _ _ _ _ _ _ => trivial) fun account u _ _ => ?_
      refine gives_bind leaves_hashPassword fun hash v _ _ => ?_
      refine gives_bind (leaves_changeAccount fun _ _ => ⟨rfl, rfl⟩) fun _ _ _ _ => ?_
      exact gives_done fun _ _ => trivial

theorem leaves_resetPassword {email : String} :
    Leaves platform barred call (fun _ _ => True) (Passwords.create email) s := by
  unfold Passwords.create Passwords.passwordResetEmail Passwords.sendPasswordResetEmail
  simp only [bind_eq, pure_eq]
  refine gives_discard (P := fun _ _ => True) ?_
  refine gives_bind (gives_ask (P := fun _ _ => True) fun _ _ _ _ => trivial) fun uid t _ _ => ?_
  refine gives_bind (P := fun _ _ => True) (Delegate.gives_create fun _ _ _ _ _ =>
    ⟨.other rfl rfl rfl rfl, fun _ _ => trivial⟩) fun _ _ _ _ => ?_
  exact gives_done fun _ _ => trivial

/-! ## Runs -/

/-- The JWT a call comes with. -/
def Call.bearer : Call → Option String
  | .accessKeys token => some token
  | .walletBot token => some token
  | _ => none

/-- Every call keeps to the drift, if its JWT is over no barred account. -/
theorem leaves_program (call : Call) (h : Shut barred s)
    (hjwt : ∀ token ∈ call.bearer, Honest jwt barred token) :
    Leaves platform barred call (fun _ _ => True) (program platform jwt call) s := by
  cases call with
  | register email password =>
      refine gives_discard (P := fun _ _ => True) ?_
      refine gives_bind (leaves_registerAccount h) fun account t hst haccount => ?_
      exact gives_mono (fun _ _ _ => trivial) (leaves_startSession haccount)
  | login email password =>
      refine gives_discard (P := fun _ _ => True) ?_
      refine gives_bind leaves_loginAccount fun account t hst haccount => ?_
      exact gives_mono (fun _ _ _ => trivial) (leaves_startSession haccount)
  | createAccessToken username password => exact gives_discard leaves_createAccessToken
  | apiKeys username =>
      exact gives_discard (leaves_withToken h fun _ _ haccount => leaves_apiKeys haccount)
  | createApp username name =>
      refine gives_discard (leaves_withToken h fun _ account haccount => ?_)
      exact gives_mono (fun _ _ _ => trivial) (leaves_createApp (.inl haccount.1))
  | accessKeys token =>
      refine gives_discard (leaves_withJwt (hjwt token rfl) fun _ _ haccount => ?_)
      exact leaves_getMerchantApiKey haccount
  | walletBot token =>
      refine gives_discard (leaves_withJwt (hjwt token rfl) fun _ _ haccount => ?_)
      exact leaves_showWalletBot haccount
  | signUp path email password => exact gives_discard (leaves_register path h)
  | geolocate location remoteAddress i => exact leaves_geolocate
  | refundApp a => exact gives_discard (leaves_createApp (.inr rfl))
  | resetPassword email => exact leaves_resetPassword
  | claimPassword uid password => exact gives_discard leaves_claim
  | initializePrometheus => exact leaves_initializePrometheus h

/-- Calls in any order. -/
def anyOrder (_ : Calls) (_ : Move Answer Call) : Prop := True

def HasToken (w : World) (a : Int) : Prop := ∃ tok ∈ w.accessTokens.rows, tok.account_id = a

/-- A JWT comes from the server, which signs one only over an account that has a token by
then (`leaves_startSession`); and no step of a login finds the account's row with the
password it gives. -/
def locked (platform : Platform) (jwt : Jwt) (a : Int) (p : Calls) : Move Answer Call → Prop
  | .start call => ∀ token ∈ call.bearer, ∀ now payload, jwt.verify token now = some payload →
      ∃ b, payload.account_id = some b ∧ HasToken p.state b
  | .run i _ => ∀ th, p.threads[i]? = some th → ¬ th.1.Opens platform a p.state

/-- Every call under way keeps to the drift. -/
abbrev Under (platform : Platform) (barred : Int → Prop) (p : Calls) : Prop :=
  Growing (drift barred) (unopened platform barred) id (fun _ _ _ => True) p

/-- Nothing a call does is left out, whichever accounts are barred. -/
theorem leaves_run (barred : Int → Prop) {admits : Calls → Move Answer Call → Prop}
    {J : World → Prop} {p q : Calls}
    (hshut : ∀ w, J w → Shut barred w)
    (hstart : ∀ p call, J p.state → admits p (.start call) →
      ∀ token ∈ call.bearer, Honest jwt barred token)
    (hrun : ∀ p i c, J p.state → admits p (.run i c) → ∀ th, p.threads[i]? = some th →
      unopened platform barred th.1 p.state c)
    (hkeep : ∀ s t, Writes barred s t → J s → J t)
    (hp : Under platform barred p) (hJ : J p.state)
    (h : Reaches (program platform jwt) admits p q) :
    Under platform barred q ∧ J q.state ∧ (drift barred).later p.state q.state := by
  have hprog : ∀ p call, J p.state → admits p (.start call) →
      Leaves platform barred (id call) (fun _ _ => True) (program platform jwt call) p.state :=
    fun p call hJ hm => leaves_program call (hshut _ hJ) (hstart p call hJ hm)
  exact growing_reaches hprog hrun hkeep hp hJ h

theorem shut_none {w : World} : Shut (fun _ => False) w :=
  ⟨fun _ h => h.elim, fun _ _ => id⟩

/-- A run in any order, with no account barred. -/
theorem any_run {J : World → Prop} {p q : Calls}
    (hkeep : ∀ s t, Writes (fun _ => False) s t → J s → J t)
    (hp : Under platform (fun _ => False) p) (hJ : J p.state)
    (h : Reaches (program platform jwt) anyOrder p q) :
    Under platform (fun _ => False) q ∧ J q.state ∧ Grows p.state q.state := by
  obtain ⟨hq, hJq, hlater⟩ := leaves_run (fun _ => False) (fun _ _ => shut_none)
    (fun _ _ _ _ _ _ _ _ _ _ h => h.elim) (fun _ _ _ _ _ _ _ _ h => h.elim) hkeep hp hJ h
  exact ⟨hq, hJq, hlater.1⟩

/-! ## Being let in, at rest -/

section Alone

variable {A : Answer → Prop} {E : Failure → World → Prop} {username password : String}

theorem wp_validateToken {Q : Option (AccessToken × Account) → World → Prop}
    (hfound : ∀ tok ∈ s.accessTokens.rows, tok.uid = some username →
      ∀ account ∈ s.accounts.rows, (account.id : Int) = tok.account_id →
        Q (some (tok, account)) s)
    (hnone : (username = "" ∨ ∀ tok ∈ s.accessTokens.rows, tok.uid ≠ some username) → Q none s)
    (hlost : ∀ tok ∈ s.accessTokens.rows, tok.uid = some username →
      ¬ HasAccount s tok.account_id → ∀ e, E e s) :
    (validateToken username).wp A Q E s := by
  unfold validateToken
  simp only [bind_eq, pure_eq]
  split
  · rename_i hempty
    exact hnone (.inl hempty)
  · rw [wp_bind]
    refine Delegate.wp_findFirst (fun tok htok huid => ?_) fun hno => ?_
    · have huid : tok.uid = some username := by simpa [hasUid] using huid
      simp only
      rw [wp_bind]
      refine Delegate.wp_findFirstOrThrow (fun account haccount hid => ?_) fun hno => ?_
      · exact hfound tok htok huid account haccount (by simpa using hid)
      · refine hlost tok htok huid ?_ _
        rintro ⟨r, hr, hid⟩
        have hne := hno r hr
        simp [hid] at hne
    · refine hnone (.inr fun tok htok huid => ?_)
      have hne := hno tok htok
      simp [hasUid, huid] at hne

/-- A token of an app, its app, and its account. -/
theorem wp_validateAppToken {Q : Option (AccessToken × App × Account) → World → Prop}
    (hfound : ∀ tok ∈ s.accessTokens.rows, ∀ app ∈ s.apps.rows, ∀ account ∈ s.accounts.rows,
      tok.app_id = some (app.id : Int) → (account.id : Int) = tok.account_id →
        Q (some (tok, app, account)) s) (hnone : Q none s) (herror : ∀ e, E e s) :
    (validateAppToken username).wp A Q E s := by
  unfold validateAppToken
  simp only [bind_eq, pure_eq]
  split
  · exact hnone
  · rw [wp_bind]
    refine Delegate.wp_findFirst (fun tok htok _ => ?_) fun _ => hnone
    simp only
    cases happ : orUndefined tok.app_id with
    | none => exact hnone
    | some app_id =>
        simp only
        rw [wp_bind]
        refine Delegate.wp_findFirstOrThrow (fun app hmem hid => ?_) fun _ => herror _
        rw [wp_bind]
        refine Delegate.wp_findFirstOrThrow (fun account haccount hown => ?_) fun _ => herror _
        refine hfound tok htok app hmem account haccount ?_ (by simpa using hown)
        have hid : (app.id : Int) = app_id := by simpa using hid
        rw [hid]
        revert happ
        cases tok.app_id with
        | none => exact fun happ => by cases happ
        | some n =>
            simp only [orUndefined]
            split
            · exact fun happ => by cases happ
            · exact id

theorem wp_prometheusAuth (h : ∀ app ∈ s.apps.rows, isMetricsApp app = false) :
    (prometheusAuth platform username password).wp A (fun found _ => found = none)
      (fun _ _ => False) s := by
  unfold prometheusAuth
  simp only [bind_eq, pure_eq]
  split
  · rfl
  · rw [wp_bind]
    refine Delegate.wp_findFirst (fun app happ hmetrics => ?_) fun _ => rfl
    rw [h app happ] at hmetrics
    cases hmetrics

end Alone

/-! ## The main results -/

variable {q : Calls}

/-! ### A shop with one account -/

/-- An account, and nobody else yet. -/
def oneAccount : World where
  accounts := .single { id := 1, email := some "a@x.com", password_hash := some "secret" }

/-- A server whose one session is the second account's. -/
def oneSession : Jwt where
  sign _ _ _ := "jwt"
  verify token _ := if token = "jwt" then some { account_id := some 2, uid := some "t" } else none

def givenPassword : Call → Option String
  | .login _ password => some password
  | .createAccessToken _ password => some password
  | _ => none

/-- A test for a move nobody enters the first account with. -/
def lockedTest (p : Calls) : Move Answer Call → Bool
  | .start call => call.bearer.isNone || p.state.accessTokens.rows.any fun tok =>
      tok.account_id == 2
  | .run i _ => (p.threads[i]?).all fun th => p.state.accounts.rows.all fun r =>
      r.id != 1 || givenPassword th.1 != some (nullText r.password_hash)

theorem locked_of_test {p : Calls} {m : Move Answer Call} (h : lockedTest p m = true) :
    locked Passwords.plain oneSession 1 p m := by
  cases m with
  | start call =>
      intro token htoken now payload hverify
      have hbearer : call.bearer = some token := htoken
      simp only [lockedTest, hbearer, Option.isNone_some, Bool.false_or, List.any_eq_true,
        beq_iff_eq] at h
      simp only [oneSession, Option.ite_none_right_eq_some, Option.some.injEq] at hverify
      exact ⟨2, by simp [← hverify.2], h⟩
  | run i c =>
      intro th hth hopens
      simp only [lockedTest, hth, Option.all_some, List.all_eq_true, Bool.or_eq_true, bne_iff_ne]
        at h
      have hrow : ∀ r ∈ p.state.accounts.rows, (r.id : Int) = 1 →
          givenPassword th.1 ≠ some (nullText r.password_hash) :=
        fun r hr hid => (h r hr).resolve_left fun hne => hne (by omega)
      revert hrow hopens
      cases th.1 with
      | login email password =>
          rintro ⟨r, hr, hid, -, hash, hhash, hcompare⟩ hrow
          have hcompare : password = hash := by simpa [Passwords.plain] using hcompare
          have hstored : r.password_hash = some hash := (Option.filter_eq_some_iff.mp hhash).1
          refine hrow r hr hid ?_
          rw [hstored, hcompare]
          rfl
      | createAccessToken username password =>
          rintro ⟨r, hr, hid, -, hcompare⟩ hrow
          have hcompare : password = nullText r.password_hash := by
            simpa [Passwords.plain] using hcompare
          exact hrow r hr hid (congrArg some hcompare)
      | _ => exact fun h _ => h

/-- A wrong password for it, and somebody else's registration and keys. -/
def stranger : List (Move Answer Call) :=
  .start (.login "a@x.com" "guess") :: steps 0 1 Passwords.quietly ++
    (.start (.register "b@x.com" "pw") :: steps 1 6 { uuid := "t" } ++
      .start (.accessKeys "jwt") :: steps 2 3 Passwords.quietly)

/-- **An account is entered only with its password.** In every run in which no login
gives the password of the account, whoever registers, asks for keys, resets passwords or
restarts the server meanwhile: the account, which had no token, has none, and no token lets
anybody in as it. -/
theorem entered_only_with_password
    (haccount : ∃ r ∈ w.accounts.rows, (r.id : Int) = a ∧ r.email ≠ some "prometheus")
    (htokens : ∀ tok ∈ w.accessTokens.rows, tok.account_id ≠ a)
    (h : Reaches (program platform jwt) (locked platform jwt a) (init w) q) :
    (∀ tok ∈ q.state.accessTokens.rows, tok.account_id ≠ a) ∧ ∀ username o,
      (∀ tok account, ((validateToken username).exec o q.state).1 = .ok (some (tok, account)) →
        (account.id : Int) ≠ a) ∧
      ∀ tok app account, ((validateAppToken username).exec o q.state).1 =
        .ok (some (tok, app, account)) → (account.id : Int) ≠ a := by
  have hshut : Shut (· = a) w := by
    refine ⟨fun b hb => ?_, htokens⟩
    subst hb
    exact haccount
  have hq := leaves_run (· = a) (fun _ => id) ?_ ?_ (fun _ _ hw hs => hs.writes hw)
    (growing_init w) hshut h
  · have htokens := hq.2.1.tokens
    refine ⟨htokens, fun username o =>
      ⟨fun tok account hexec => ?_, fun tok app account hexec => ?_⟩⟩
    · have hwp : (validateToken username).wp AnyAnswer (fun found _ => ∀ tok account,
          found = some (tok, account) → (account.id : Int) ≠ a) (fun _ _ => True) q.state := by
        refine wp_validateToken (fun tok htok _ account _ hid x y heq => ?_)
          (fun _ _ _ heq => by cases heq) fun _ _ _ _ _ => trivial
        obtain ⟨-, rfl⟩ := Prod.mk.inj (Option.some.inj heq)
        exact hid ▸ htokens tok htok
      have hend := wp_exec hwp (anyAnswer o)
      rw [hexec] at hend
      exact hend tok account rfl
    · have hwp : (validateAppToken username).wp AnyAnswer (fun found _ => ∀ tok app account,
          found = some (tok, app, account) → (account.id : Int) ≠ a) (fun _ _ => True)
          q.state := by
        refine wp_validateAppToken (fun tok htok app _ account _ _ hid x y z heq => ?_)
          (fun _ _ _ heq => by cases heq) fun _ => trivial
        obtain ⟨-, heq⟩ := Prod.mk.inj (Option.some.inj heq)
        obtain ⟨-, rfl⟩ := Prod.mk.inj heq
        exact hid ▸ htokens tok htok
      have hend := wp_exec hwp (anyAnswer o)
      rw [hexec] at hend
      exact hend tok app account rfl
  · intro p call hs hm token htoken now payload hverify b hb
    obtain ⟨b', hsome, tok, htok, hown⟩ := hm token htoken now payload hverify
    have hne := hs.tokens tok htok
    subst hb
    refine ⟨by simp [hsome], fun hsame => hne ?_⟩
    rw [hown]
    exact Option.some.inj (hsome.symm.trans hsame)
  · intro p i c _ hm th hth b hb
    subst hb
    exact hm th hth

/-- A wrong password, a registration and its keys: one token, and it is not the first
account's. -/
theorem entered_only_with_password_stranger : ∃ q : Calls,
    Reaches (program Passwords.plain oneSession) (locked Passwords.plain oneSession 1)
      (init oneAccount) q ∧
    q.state.accessTokens.rows.map AccessToken.account_id = [2] ∧
    ∀ tok ∈ q.state.accessTokens.rows, tok.account_id ≠ 1 := by
  have hadm : Admitted (program Passwords.plain oneSession)
      (locked Passwords.plain oneSession 1) stranger (init oneAccount) :=
    admitted_of_checks (fun _ _ => locked_of_test) (by decide +kernel)
  obtain ⟨q, hq, htest⟩ := exists_reaches (fun q : Calls =>
    decide (q.state.accessTokens.rows.map AccessToken.account_id = [2])) hadm (by decide +kernel)
  have hfirst : ∃ r ∈ oneAccount.accounts.rows, (r.id : Int) = 1 ∧ r.email ≠ some "prometheus" :=
    ⟨_, List.mem_singleton_self _, rfl, by decide⟩
  have hnone : ∀ tok ∈ oneAccount.accessTokens.rows, tok.account_id ≠ 1 := by
    intro tok htok
    cases htok
  exact ⟨q, hq, of_decide_eq_true htest, (entered_only_with_password hfirst hnone hq).1⟩

/-- **A session lasts.** In every run, a token that is stored is accepted ever after, for
the account it was stored for: nothing takes it back, a new password of the account as
little as the rest. -/
theorem session_lasts {p : Calls} {tok : AccessToken} {uid : String}
    (hp : Reaches (program platform jwt) anyOrder (init w) p)
    (h : Reaches (program platform jwt) anyOrder p q)
    (htok : tok ∈ p.state.accessTokens.rows) (huid : tok.uid = some uid) (hne : uid ≠ "")
    (haccount : HasAccount p.state tok.account_id)
    (hown : ∀ tok' ∈ q.state.accessTokens.rows, tok'.uid = some uid → tok' = tok)
    (o : Nat → Answer) :
    ∃ account ∈ q.state.accounts.rows, (account.id : Int) = tok.account_id ∧
      ((validateToken uid).exec o q.state).1 = .ok (some (tok, account)) := by
  obtain ⟨hgrowing, -, -⟩ := any_run (J := fun _ => True) (fun _ _ _ => id) (growing_init w)
    trivial hp
  obtain ⟨-, -, hgrows⟩ := any_run (J := fun _ => True) (fun _ _ _ => id) hgrowing trivial h
  have hwp : (validateToken uid).wp AnyAnswer (fun found _ => ∃ account ∈ q.state.accounts.rows,
      (account.id : Int) = tok.account_id ∧ found = some (tok, account)) (fun _ _ => False)
      q.state := by
    refine wp_validateToken (fun tok' htok' huid' account hmem hid => ?_) (fun hno => ?_)
      fun tok' htok' huid' hlost _ => ?_
    · obtain rfl := hown tok' htok' huid'
      exact ⟨account, hmem, hid, rfl⟩
    · rcases hno with hempty | hno
      · exact absurd hempty hne
      · exact absurd huid (hno tok (hgrows.tokens tok htok))
    · obtain rfl := hown tok' htok' huid'
      exact hlost (hgrows.hasAccount haccount)
  have hend := wp_exec hwp (anyAnswer o)
  cases hexec : ((validateToken uid).exec o q.state).1 with
  | error e =>
      rw [hexec] at hend
      exact hend.elim
  | ok found =>
      rw [hexec] at hend
      obtain ⟨account, hmem, hid, rfl⟩ := hend
      exact ⟨account, hmem, hid, rfl⟩

/-- The account's token and a reset of its password. -/
def oneToken : World := { oneAccount with
  accessTokens := .single { id := 1, account_id := 1, uid := some "t" }
  passwordResets := .single { id := 1, uid := "u", email := some "a@x.com" } }

/-- A new password, and the token is accepted as before. -/
theorem session_lasts_claimed : ∃ q : Calls,
    Reaches (program Passwords.plain oneSession) anyOrder (init oneToken) q ∧
    q.state.accounts.rows.map Account.password_hash = [some "new"] ∧
    ∃ account ∈ q.state.accounts.rows, account.id = 1 ∧
      ((validateToken "t").exec (fun _ => {}) q.state).1 =
        .ok (some ({ id := 1, account_id := 1, uid := some "t" }, account)) := by
  have hadm : Admitted (program Passwords.plain oneSession) anyOrder
      (.start (.claimPassword "u" "new") :: steps 0 4 Passwords.quietly) (init oneToken) :=
    admitted_all (fun _ _ _ => trivial) _
  obtain ⟨q, hq, htest⟩ := exists_reaches (fun q : Calls =>
    decide (q.state.accounts.rows.map Account.password_hash = [some "new"]) &&
      q.state.accessTokens.rows.all fun tok => tok.id == 1) hadm (by decide +kernel)
  rw [Bool.and_eq_true, decide_eq_true_iff, List.all_eq_true] at htest
  have haccount : HasAccount oneToken 1 := ⟨_, List.mem_singleton_self _, rfl⟩
  have hown : ∀ tok' ∈ q.state.accessTokens.rows, tok'.uid = some "t" →
      tok' = { id := 1, account_id := 1, uid := some "t" } := by
    intro tok' htok' _
    have hkept := (any_run (J := fun _ => True) (fun _ _ _ => id) (growing_init _) trivial
      hq).2.2.tokens _ (List.mem_singleton_self _)
    have hid : tok'.id = 1 := by simpa using htest.2 tok' htok'
    exact Table.eq_of_id htok' hkept hid
  obtain ⟨account, hmem, hid, hexec⟩ := session_lasts .refl hq (List.mem_singleton_self _) rfl
    (by decide) haccount hown fun _ => {}
  have hone : (account.id : Int) = 1 := hid
  exact ⟨q, hq, htest.1, account, hmem, by exact_mod_cast hone, hexec⟩

/-- **The app and the account of a token belong together.** In every run from a database
where they do, whoever is let in with the token of an app is let in as the account whose
app it is. -/
theorem appToken_of_same_account (hsound : Sound w)
    (h : Reaches (program platform jwt) anyOrder (init w) q) :
    ∀ username o tok app account, ((validateAppToken username).exec o q.state).1 =
      .ok (some (tok, app, account)) →
        tok.app_id = some (app.id : Int) ∧ app.account_id = account.id := by
  intro username o tok app account hexec
  obtain ⟨-, hq, -⟩ := any_run (fun _ _ hw hs => hs.writes hw) (growing_init w) hsound h
  have hwp : (validateAppToken username).wp AnyAnswer (fun found _ => ∀ tok app account,
      found = some (tok, app, account) →
        tok.app_id = some (app.id : Int) ∧ app.account_id = account.id) (fun _ _ => True)
      q.state := by
    refine wp_validateAppToken (fun tok htok app happ account _ hid hown x y z heq => ?_)
      (fun _ _ _ heq => by cases heq) fun _ => trivial
    obtain ⟨htokx, hrest⟩ := Prod.mk.inj (Option.some.inj heq)
    obtain ⟨happy, haccz⟩ := Prod.mk.inj hrest
    rw [← htokx, ← happy, ← haccz]
    obtain ⟨own, howner, hid', hown'⟩ := (hq.tokens tok htok).2 _ hid
    obtain rfl := Table.eq_of_id howner happ (by exact_mod_cast hid')
    exact ⟨hid, hown'.trans hown.symm⟩
  have hend := wp_exec hwp (anyAnswer o)
  rw [hexec] at hend
  exact hend tok app account rfl

/-- The token of a wallet bot is of the bot's app, and that is its account's. -/
theorem appToken_of_same_account_bot : ∃ q : Calls,
    Reaches (program Passwords.plain oneSession) anyOrder (init oneAccount) q ∧
    ∃ tok app account, ((validateAppToken "b").exec (fun _ => {}) q.state).1 =
      .ok (some (tok, app, account)) ∧ tok.app_id = some (app.id : Int) ∧
        app.account_id = account.id := by
  have hadm : Admitted (program Passwords.plain oneSession) anyOrder
      (.start (.register "b@x.com" "pw") :: steps 0 6 { uuid := "t" } ++
        .start (.walletBot "jwt") :: steps 1 8 { uuid := "b" }) (init oneAccount) :=
    admitted_all (fun _ _ _ => trivial) _
  obtain ⟨q, hq, htest⟩ := exists_reaches (fun q : Calls =>
    (((validateAppToken "b").exec (fun _ => {}) q.state).1.toOption.join).isSome) hadm
    (by decide +kernel)
  have hsound : Sound oneAccount := by
    refine ⟨fun tok htok => ?_, fun bot hbot => ?_⟩
    · cases htok
    · cases hbot
  obtain ⟨⟨tok, app, account⟩, hfound⟩ := Option.isSome_iff_exists.mp htest
  have hexec : ((validateAppToken "b").exec (fun _ => {}) q.state).1 =
      .ok (some (tok, app, account)) := by
    revert hfound
    cases ((validateAppToken "b").exec (fun _ => {}) q.state).1 with
    | error e => exact fun hfound => by cases hfound
    | ok found => exact fun hfound => congrArg Except.ok hfound
  exact ⟨q, hq, tok, app, account, hexec,
    appToken_of_same_account hsound hq "b" _ tok app account hexec⟩

/-- **Nobody is let in to the metrics.** In every run from a database without an account 0
and without the app, every name and password is refused: the initializer's app and token
are another account's. -/
theorem metrics_closed (hclosed : Closed w)
    (h : Reaches (program platform jwt) anyOrder (init w) q) (username password : String)
    (o : Nat → Answer) :
    ((prometheusAuth platform username password).exec o q.state).1 = .ok none := by
  obtain ⟨-, hq, -⟩ := any_run (fun _ _ hw hs => hs.writes hw) (growing_init w) hclosed h
  have hwp : (prometheusAuth platform username password).wp AnyAnswer
      (fun found _ => found = none) (fun _ _ => False) q.state := wp_prometheusAuth hq.apps
  have hend := wp_exec hwp (anyAnswer o)
  cases hexec : ((prometheusAuth platform username password).exec o q.state).1 with
  | error e =>
      rw [hexec] at hend
      exact hend.elim
  | ok found =>
      rw [hexec] at hend
      rw [show found = none from hend]

/-- Started once, the server has the app and its token, and the token is refused. -/
theorem metrics_closed_started : ∃ q : Calls,
    Reaches (program Passwords.plain oneSession) anyOrder (init oneAccount) q ∧
    q.state.apps.rows.map App.name = ["prometheus"] ∧
    q.state.accessTokens.rows.map (fun tok => (tok.uid, tok.app_id)) = [(some "m", some 1)] ∧
    ((prometheusAuth Passwords.plain "prometheus" "m").exec (fun _ => {}) q.state).1 =
      .ok none := by
  have hadm : Admitted (program Passwords.plain oneSession) anyOrder
      (.start .initializePrometheus :: steps 0 6 { uuid := "m" }) (init oneAccount) :=
    admitted_all (fun _ _ _ => trivial) _
  obtain ⟨q, hq, htest⟩ := exists_reaches (fun q : Calls =>
    decide (q.state.apps.rows.map App.name = ["prometheus"]) &&
      decide (q.state.accessTokens.rows.map (fun tok => (tok.uid, tok.app_id)) =
        [(some "m", some 1)])) hadm (by decide +kernel)
  rw [Bool.and_eq_true, decide_eq_true_iff, decide_eq_true_iff] at htest
  have hclosed : Closed oneAccount := by
    refine ⟨by decide, fun r hr => ?_, fun app happ => ?_⟩
    · rw [List.mem_singleton.mp hr]
      decide
    · cases happ
  exact ⟨q, hq, htest.1, htest.2, metrics_closed hclosed hq "prometheus" "m" _⟩

end Anypay.Sessions
