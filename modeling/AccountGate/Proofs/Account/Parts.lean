import AccountGate.Proofs.Account.Vouching
import AccountGate.Proofs.Auth.Counting

/-!
What the programs around an account are made of: errands with the registry and the service, and
calls of their own, by which nothing is stored but claims, users, credentials and what signing out
leaves. Main statement: whatever an account is told to do is made of such parts.
-/

namespace AccountGate

namespace Account

open License (Entitlement)

/-- All that is ever stored of an account. -/
inductive Deposit where
  | claim (e : Entitlement)
  | user (user : User)
  | credentials (properties : Auth.Properties)
  | signOut

def Deposit.changes : Deposit → Entries
  | claim e => SupportClaim.changes e
  | user u => u.changes
  | credentials properties => Program.credentialChanges properties
  | signOut => Program.clearedEntries

/-- A call that a program around an account makes itself. -/
def Call.IsDirect : Call → Prop
  | .auth .clock => True
  | .auth (.count counter) => counter.isOfRefresh = false
  | .auth _ => False
  | .apply changes => ∃ d : Deposit, d.changes = changes
  | _ => True

/-- A program made of errands and of such calls. -/
inductive Built : {α : Type} → Program α → Prop
  | done {α : Type} (a : α) : Built (.done a)
  | ask {α : Type} {c : Call} {next : Reply c → Program α} : c.IsDirect → (∀ r, Built (next r)) →
      Built (.ask c next)
  | errand {α β : Type} {p : Auth.Program β} {f : β → Program α} : Auth.Errand p →
      (∀ b, Built (f b)) → Built ((Program.ofAuth p).bind f)

theorem Built.bind {α β : Type} {p : Program α} {f : α → Program β} (hp : Built p)
    (hf : ∀ a, Built (f a)) : Built (p.bind f) := by
  induction hp with
  | done a => exact hf a
  | ask hc _ ih => exact .ask hc fun r => ih r
  | errand he _ ih =>
    rw [Flow.bind_assoc]
    exact .errand he fun b => ih b

/-- The calls of such a program are among the direct ones, and those around credentials. -/
theorem Built.makes {α : Type} {Q : Call → Prop} {p : Program α} (h : Built p)
    (hauth : ∀ c, Q (.auth c)) (hdirect : ∀ c : Call, c.IsDirect → Q c) : Flow.Makes Q p := by
  induction h with
  | done a => trivial
  | ask hc _ ih => exact ⟨hdirect _ hc, ih⟩
  | errand _ _ ih => exact (Program.makes_ofAuth_of hauth _).bind ih

/-- A call that does not say whether the service can be reached. -/
def Call.SparesAvailability : Call → Prop
  | .setAvailable _ => False
  | _ => True

/-- A program that is made of such parts, and does not say whether the service can be reached. -/
structure Ordinary {α : Type} (p : Program α) : Prop where
  built : Built p
  spares : Flow.Makes Call.SparesAvailability p

section Ordinary

variable {α β : Type}

theorem Ordinary.done (a : α) : Ordinary (.done a) := ⟨.done a, trivial⟩

theorem Ordinary.ask {c : Call} {next : Reply c → Program α} (hc : c.IsDirect)
    (hspares : c.SparesAvailability) (h : ∀ r, Ordinary (next r)) : Ordinary (.ask c next) :=
  ⟨.ask hc fun r => (h r).built, hspares, fun r => (h r).spares⟩

theorem Ordinary.bind {p : Program α} {f : α → Program β} (hp : Ordinary p)
    (hf : ∀ a, Ordinary (f a)) : Ordinary (p.bind f) :=
  ⟨hp.built.bind fun a => (hf a).built, hp.spares.bind fun a => (hf a).spares⟩

theorem Ordinary.errand {p : Auth.Program β} {f : β → Program α} (he : Auth.Errand p)
    (hf : ∀ b, Ordinary (f b)) : Ordinary ((Program.ofAuth p).bind f) :=
  ⟨.errand he fun b => (hf b).built,
    (Program.makes_ofAuth_of (fun _ => trivial) p).bind fun b => (hf b).spares⟩

theorem ordinary_ofAuth {p : Auth.Program β} (h : Auth.Errand p) : Ordinary (Program.ofAuth p) := by
  rw [← Flow.bind_done (Program.ofAuth p)]
  exact .errand h fun b => .done b

end Ordinary

namespace Program

variable {α β : Type} {cfg : Config}

theorem ordinary_andThen {p : Program (Except Error α)} {f : α → Program (Except Error β)}
    (hp : Ordinary p) (hf : ∀ a, Ordinary (f a)) : Ordinary (andThen p f) :=
  hp.bind fun result => by cases result with
    | ok a => exact hf a
    | error e => exact .done _

theorem ordinary_run_bind {x : Attempt α} {f : α → Attempt β} (hx : Ordinary x.run)
    (hf : ∀ a, Ordinary (f a).run) : Ordinary (x >>= f).run := by
  rw [run_bind]
  exact ordinary_andThen hx hf

theorem ordinary_run_ofExcept {ε : Type} (f : ε → Error) (result : Except ε α) :
    Ordinary (Attempt.ofExcept f result).run := by
  cases result with
  | ok a => exact .done _
  | error e => exact .done _

theorem ordinary_run_call {c : Call} (hc : c.IsDirect) (hspares : c.SparesAvailability) :
    Ordinary (Attempt.call c).run :=
  .ask hc hspares fun _ => .done _

theorem ordinary_credentialProperties (cfg : Config) : Ordinary (credentialProperties cfg) :=
  ordinary_ofAuth (.propertiesFor _)

theorem ordinary_saveCredentials (cfg : Config) : Ordinary (saveCredentials cfg) := by
  rw [saveCredentials_eq]
  refine (ordinary_credentialProperties cfg).bind fun properties => ?_
  split
  · exact .done _
  · exact .ask ⟨.credentials properties, rfl⟩ trivial fun _ => .done _

theorem ordinary_tokenPair (cfg : Config) : Ordinary (tokenPair cfg) := by
  rw [tokenPair_eq]
  exact (ordinary_credentialProperties cfg).bind fun _ => .done _

theorem ordinary_saveIfChanged (cfg : Config) (before : TokenPair) :
    Ordinary (saveIfChanged cfg before) := by
  rw [saveIfChanged_eq]
  refine (ordinary_tokenPair cfg).bind fun pair => ?_
  split
  · exact .done _
  · exact (ordinary_saveCredentials cfg).bind fun _ => .done _

theorem ordinary_fetchJson (url : String) : Ordinary (fetchJson url).run := by
  rw [run_fetchJson]
  exact .errand (.fetch _) fun _ => .done _

theorem ordinary_fetchUser (cfg : Config) : Ordinary (fetchUser cfg).run := by
  rw [run_fetchUser]
  refine .ask trivial trivial fun license => ?_
  rcases license with e | _ | record
  · exact .done _
  · refine (ordinary_fetchJson _).bind fun body => ?_
    cases body with
    | ok record => exact .done _
    | error e =>
      show Ordinary (ite (cfg.tokenClaims = true) _ _)
      split
      · rw [run_userOfToken]
        exact (ordinary_credentialProperties cfg).bind fun _ => .done _
      · exact .done _
  · exact .done _

theorem ordinary_fetchKey (cfg : Config) : Ordinary (fetchKey cfg).run := by
  rw [run_fetchKey]
  refine .errand (.fetch _) fun answer => ?_
  cases keyOutcome answer with
  | error e => exact .done _
  | ok text => exact .ask trivial trivial fun _ => .done _

theorem ordinary_storeClaim (cfg : Config) (claim : Entitlement) :
    Ordinary (storeClaim cfg claim) := by
  refine .ask ⟨.claim claim, rfl⟩ trivial fun stored => ?_
  cases stored with
  | error e => exact .done _
  | ok _ =>
    show Ordinary (ite (claim.supported = true) _ _)
    split
    · exact ordinary_fetchKey cfg
    · exact .done _

theorem ordinary_fetchClaim (cfg : Config) : Ordinary (fetchClaim cfg).run := by
  rw [run_fetchClaim]
  refine .ask trivial trivial fun found => .ask trivial trivial fun license => ?_
  rcases license with e | _ | record
  · exact .done _
  · refine (ordinary_fetchJson _).bind fun body => ?_
    cases body with
    | ok record => exact ordinary_storeClaim cfg _
    | error e => exact .done _
  · exact ordinary_storeClaim cfg _

theorem ordinary_check (claim : Entitlement) : Ordinary (check claim) := by
  have hreport (key : Except Disk.Fault String) (day : Date) : Ordinary (report key claim day) := by
    rw [report]
    split
    · exact .ask (by rfl) trivial fun _ => .done _
    · exact .done _
  rw [check_eq]
  refine .ask trivial trivial fun clock => ?_
  split
  · exact .ask trivial trivial fun key => hreport key _
  · exact hreport _ _

theorem ordinary_checkStored : Ordinary checkStored := by
  rw [checkStored_eq]
  exact .ask trivial trivial fun _ => .ask trivial trivial fun _ => ordinary_check _

theorem ordinary_updateSupported : Ordinary updateSupported := by
  rw [updateSupported_eq]
  refine .ask trivial trivial fun _ => ordinary_checkStored.bind fun _ => ?_
  exact .ask trivial trivial fun _ => .ask trivial trivial fun _ => .done _

theorem ordinary_finish (cfg : Config) (before : TokenPair) : Ordinary (finish cfg before) :=
  .ask trivial trivial fun _ => ordinary_saveIfChanged cfg before

theorem ordinary_tell (cfg : Config) (known : String) (before : TokenPair) (found : Settings) :
    Ordinary (tell cfg known before found) := by
  refine .ask trivial trivial fun _ => .ask trivial trivial fun _ => ?_
  split
  · exact ordinary_saveIfChanged cfg before
  · exact ordinary_updateSupported.bind fun _ => ordinary_finish cfg before

theorem ordinary_seek (cfg : Config) (known : String) (before : TokenPair) :
    Ordinary (seek cfg known before) := by
  refine (ordinary_fetchUser cfg).bind fun result => ?_
  rcases result with e | _ | user
  · exact .ask trivial trivial fun found => ordinary_tell cfg known before found
  · exact .ask trivial trivial fun found => ordinary_tell cfg known before found
  · refine .ask ⟨.user user, rfl⟩ trivial fun _ => ?_
    exact .ask trivial trivial fun found => ordinary_tell cfg known before found

theorem ordinary_ofJob (cfg : Config) (job : Job) : Ordinary (ofJob cfg job) := by
  cases job with
  | refreshUser =>
    rw [ofJob, refreshUser_eq]
    refine (ordinary_tokenPair cfg).bind fun before => ?_
    exact .ask trivial trivial fun first => ordinary_seek cfg _ before
  | refreshSupport =>
    rw [ofJob, refreshSupport_eq]
    refine (ordinary_tokenPair cfg).bind fun before => (ordinary_fetchClaim cfg).bind fun _ => ?_
    exact ordinary_updateSupported.bind fun _ => ordinary_finish cfg before

theorem ordinary_refreshAll : Ordinary refreshAll :=
  .ask trivial trivial fun _ => .ask trivial trivial fun _ => .done _

theorem ordinary_registerSession (cfg : Config) (c : Auth.Credentials) :
    Ordinary (registerSession cfg c).run := by
  refine ordinary_run_bind ?_ fun result => ?_
  · exact (ordinary_ofAuth (.register _ _)).bind fun _ => .done _
  · cases result with
    | ok _ => exact .done _
    | error e => exact .done _

theorem ordinary_loadSession (cfg : Config) : Ordinary (loadSession cfg).run := by
  have htakeUp (stored : Settings) : Ordinary (takeUp stored).run := by
    rw [run_takeUp]
    exact (ordinary_check _).bind fun _ => .ask trivial trivial fun _ => .done _
  rw [run_loadSession]
  refine .ask trivial trivial fun stored => ?_
  split
  · exact .done _
  · cases storedCredentials cfg stored with
    | none => exact htakeUp stored
    | some c => exact ordinary_andThen (ordinary_registerSession cfg c) fun _ => htakeUp stored

theorem ordinary_restore (cfg : Config) : Ordinary (restore cfg).run := by
  have hrefresh : Ordinary (Attempt.of refreshAll).run := ordinary_refreshAll.bind fun _ => .done _
  have hrefreshed :
      Ordinary (do return some (← Attempt.of refreshAll) : Attempt (Option Refreshes)).run :=
    ordinary_run_bind hrefresh fun _ => .done _
  refine ordinary_run_bind (ordinary_loadSession cfg) fun found => ?_
  cases found with
  | true => exact hrefreshed
  | false =>
    refine ordinary_run_bind (ordinary_run_call trivial trivial) fun licensed => ?_
    cases licensed with
    | true => exact hrefreshed
    | false => exact .done _

theorem ordinary_requireAvailable (cfg : Config) : Ordinary (requireAvailable cfg).run := by
  refine ordinary_run_bind (ordinary_run_call trivial trivial) fun available => ?_
  cases available with
  | true => exact .done _
  | false => exact .done _

theorem ordinary_portFor (cfg : Config) (given : Option Nat) :
    Ordinary (portFor cfg given).run := by
  cases given with
  | some port => exact .done _
  | none =>
    refine ordinary_run_bind (ordinary_run_call trivial trivial) fun _ => ?_
    exact ordinary_run_ofExcept _ _

theorem ordinary_drawPkce (cfg : Config) : Ordinary (drawPkce cfg).run := by
  rw [drawPkce]
  split
  · exact ordinary_run_bind (ordinary_run_call trivial trivial) fun _ => .done _
  · exact .done _

theorem ordinary_browse (cfg : Config) (port : Nat) (state : String) (pkce : Option Auth.PkcePair) :
    Ordinary (browse cfg port state pkce).run := by
  rw [run_browse]
  split
  · exact .done _
  · refine .ask trivial trivial fun opened => ?_
    cases opened with
    | error e => exact .done _
    | ok _ => exact .ask trivial trivial fun came => by cases came <;> exact .done _

theorem ordinary_authorize (cfg : Config) (port : Nat) : Ordinary (authorize cfg port).run := by
  refine ordinary_run_bind (ordinary_run_call trivial trivial) fun bytes => ?_
  refine ordinary_run_bind (ordinary_drawPkce cfg) fun pkce => ?_
  refine ordinary_run_bind (ordinary_browse cfg port _ pkce) fun code => ?_
  refine ordinary_run_bind ((ordinary_ofAuth (.exchange _)).bind fun _ => .done _) fun _ => ?_
  exact ordinary_run_ofExcept _ _

theorem ordinary_establish (cfg : Config) (c : Auth.Credentials) :
    Ordinary (establish cfg c).run := by
  rw [run_establish]
  refine ordinary_andThen (ordinary_registerSession cfg c) fun _ =>
    (ordinary_saveCredentials cfg).bind fun saved => ?_
  cases saved with
  | error e => exact .done _
  | ok _ =>
    exact .ask trivial trivial fun _ => .ask trivial trivial fun _ => .ask trivial trivial fun _ =>
      .done _

theorem ordinary_loginBy (cfg : Config) (given : Option Nat) : Ordinary (loginBy cfg given) := by
  have hobtain : Ordinary (obtain cfg given).run := by
    refine ordinary_run_bind (ordinary_requireAvailable cfg) fun _ => ?_
    exact ordinary_run_bind (ordinary_portFor cfg given) fun port => ordinary_authorize cfg port
  rw [loginBy_eq, counted_eq]
  refine (ordinary_run_bind hobtain (ordinary_establish cfg)).bind fun _ => ?_
  exact .ask (by rfl) trivial fun _ => .done _

theorem ordinary_dropOrigins (origins : List String) : Ordinary (dropOrigins origins) := by
  induction origins with
  | nil => exact .done _
  | cons origin rest ih => exact .errand (.unregister _ _) fun _ => ih

theorem ordinary_logout (cfg : Config) : Ordinary (logout cfg) := by
  rw [logout_eq, dropCredentials_eq]
  refine .ask ⟨.signOut, rfl⟩ trivial fun _ => Ordinary.bind ?_ fun _ => ?_
  · exact .errand (.unregister _ _) fun _ => ordinary_dropOrigins _
  · exact .ask trivial trivial fun _ => .ask trivial trivial fun _ => .ask trivial trivial fun _ =>
      .done _

theorem built_probe (url : String) : Built (probe url) :=
  .errand (.head url) fun _ => .ask trivial fun _ => .done _

end Program

/-- All that an account is told to do is ordinary but to try whether the service is there, and what
a host adds. -/
theorem ordinary_program (cfg : Config) {action : Action} (hprobe : ∀ url, action ≠ .probe url)
    (hother : ∀ p spares, action ≠ .other p spares) : Ordinary (action.program cfg) := by
  cases action with
  | loadSession => exact (Program.ordinary_loadSession cfg).bind fun _ => .done _
  | restore => exact (Program.ordinary_restore cfg).bind fun _ => .done _
  | login given => exact (Program.ordinary_loginBy cfg given).bind fun _ => .done _
  | logout => exact (Program.ordinary_logout cfg).bind fun _ => .done _
  | refresh job => exact Program.ordinary_ofJob cfg job
  | probe url => exact absurd rfl (hprobe url)
  | save => exact (Program.ordinary_saveCredentials cfg).bind fun _ => .done _
  | checkStored => exact Program.ordinary_checkStored.bind fun _ => .done _
  | other p spares => exact absurd rfl (hother p spares)

/-- What an account is told to do is made of errands and direct calls, if all that a host adds
is. -/
theorem built_program (cfg : Config) {action : Action}
    (h : ∀ p spares, action = .other p spares → Built p) : Built (action.program cfg) := by
  cases action with
  | probe url => exact (Program.built_probe url).bind fun _ => .done _
  | other p spares => exact h p spares rfl
  | _ => exact (ordinary_program cfg (by simp) (by simp)).built

end Account

end AccountGate
