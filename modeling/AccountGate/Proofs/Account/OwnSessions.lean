import AccountGate.Proofs.Account.Enlisted
import AccountGate.Proofs.Auth.Exchange

/-!
The sessions that an account registers are its own. Main statement: whatever runs beside it, what a
sign-in or a session that is taken up registers names the client and the token server of the
account, and is registered for its origins, none of which is empty.
-/

namespace AccountGate.Account

open Conduct (recounting leads_recounting leads_of_path)
open AccountGate.Flow (Makes makes_done Path)

/-- Credentials for the client and the token server of the account. -/
structure Own (cfg : Config) (c : Auth.Credentials) : Prop where
  clientId_eq : c.clientId = cfg.clientId
  tokenServer_eq : c.tokenServer = cfg.tokenEndpoint

/-- Nothing is taken into use but a session of the account, and that only where all origins can be
registered. -/
def Call.CreatesOwn (cfg : Config) : Call → Prop
  | .auth (.create strategy) => Auth.Registry.fault? cfg.origins = none ∧
    ∃ c, Own cfg c ∧ strategy = .bearer (.ofCredentials c)
  | _ => True

theorem Call.Tends.createsOwn {c : Call} (h : c.Tends) (cfg : Config) : c.CreatesOwn cfg := by
  cases c with
  | auth c =>
    cases c with
    | create strategy => exact h.elim
    | _ => trivial
  | _ => trivial

/-- The actions that put a session of the account in charge. -/
def Action.TakesUp : Action → Prop
  | .loadSession => True
  | .restore => True
  | .login _ => True
  | _ => False

theorem own_storedCredentials {cfg : Config} {stored : Settings} {c : Auth.Credentials}
    (h : Program.storedCredentials cfg stored = some c) : Own cfg c := by
  obtain ⟨access, -, rfl⟩ := Option.map_eq_some_iff.mp h
  exact ⟨rfl, rfl⟩

namespace Program

variable {α β : Type} {cfg : Config} {xs : List (Exchange interface)}

theorem leads_creating {p : Program α} (h : Makes (Call.CreatesOwn cfg) p) :
    (recounting fun _ => Call.CreatesOwn cfg).Leads (fun _ _ => True) xs p :=
  (leads_recounting h fun _ _ hc => hc).mono fun _ _ _ => trivial

theorem createsOwn_registerSession {c : Auth.Credentials} (h : Own cfg c) :
    Makes (Call.CreatesOwn cfg) (registerSession cfg c).run :=
  makes_registerSession_of (fun hsound => ⟨hsound, c, h, rfl⟩) fun _ => trivial

theorem createsOwn_takeUp (stored : Settings) :
    Makes (Call.CreatesOwn cfg) (takeUp stored).run := by
  rw [run_takeUp]
  refine ((makes_check _).mono fun _ hc => hc.tends.createsOwn cfg).bind fun status => ?_
  exact ⟨trivial, fun _ => trivial⟩

theorem createsOwn_loadSession (cfg : Config) :
    Makes (Call.CreatesOwn cfg) (loadSession cfg).run := by
  rw [run_loadSession]
  refine ⟨trivial, fun stored => ?_⟩
  beta_reduce
  split
  · trivial
  · split
    · next c hc =>
      exact makes_andThen (createsOwn_registerSession (own_storedCredentials hc)) fun _ =>
        createsOwn_takeUp stored
    · exact createsOwn_takeUp stored

theorem createsOwn_restore (cfg : Config) : Makes (Call.CreatesOwn cfg) (restore cfg).run := by
  rw [run_restore]
  exact makes_andThen (createsOwn_loadSession cfg) (makes_resume trivial fun _ => trivial)

theorem leads_exchange_creating (x : Auth.CodeExchange) :
    (recounting fun _ => Call.CreatesOwn cfg).Leads (fun result _ => ∀ c, result = .ok c →
      c.clientId = x.clientId ∧ c.tokenServer = x.tokenServer) xs
      (ofAuth (Auth.Program.exchange x)) := by
  rw [Auth.exchange_eq]
  refine ⟨trivial, fun answer _ => ?_⟩
  simp only [Flow.done_bind]
  cases Auth.exchangeOutcome answer with
  | error e => exact fun c hc => absurd hc (by simp)
  | ok issued =>
    refine ⟨trivial, fun now _ c hc => ?_⟩
    obtain rfl := Except.ok.inj hc
    exact ⟨rfl, rfl⟩

/-- A sign-in exchanges its code for credentials of the account. -/
theorem leads_obtain_own (cfg : Config) (given : Option Nat) :
    (recounting fun _ => Call.CreatesOwn cfg).Leads
      (fun result _ => ∀ c, result = .ok c → Own cfg c) xs (obtain cfg given).run := by
  refine leads_obtain_of given (fun hp => leads_creating (hp.mono fun _ hc => hc.tends.createsOwn cfg))
    fun port pkce code s => (leads_exchange_creating _).mono fun result _ hresult c hc => ?_
  obtain ⟨hclient, hserver⟩ := hresult c hc
  exact ⟨hclient, hserver⟩

theorem createsOwn_establish {c : Auth.Credentials} (h : Own cfg c) :
    Makes (Call.CreatesOwn cfg) (establish cfg c).run := by
  have hproperties : Makes (Call.CreatesOwn cfg) (credentialProperties cfg) :=
    (makes_credentialProperties cfg).mono fun _ hc => hc.tends.createsOwn cfg
  have hsave := makes_saveCredentials_of hproperties fun _ => trivial
  exact makes_establish_of (createsOwn_registerSession h) hsave trivial fun _ => trivial

theorem leads_loginBy_creating (cfg : Config) (given : Option Nat) :
    (recounting fun _ => Call.CreatesOwn cfg).Leads (fun _ _ => True) xs (loginBy cfg given) := by
  rw [loginBy_eq, counted_eq, run_bind]
  refine Conduct.Leads.bind (Q := fun _ _ => True) ?_ fun _ _ _ => ⟨trivial, fun _ _ => trivial⟩
  refine (leads_obtain_own cfg given).bind fun result ys hown => ?_
  cases result with
  | error e => trivial
  | ok c => exact leads_creating (createsOwn_establish (hown c rfl))

end Program

theorem Action.TakesUp.leads_creating {action : Action} (h : action.TakesUp) (cfg : Config) :
    (recounting fun _ => Call.CreatesOwn cfg).Leads (fun _ _ => True) []
      (action.program cfg) := by
  cases action with
  | loadSession =>
    exact Program.leads_creating ((Program.createsOwn_loadSession cfg).bind fun _ => makes_done ())
  | restore =>
    exact Program.leads_creating ((Program.createsOwn_restore cfg).bind fun _ => makes_done ())
  | login given => exact (Program.leads_loginBy_creating cfg given).bind fun _ _ _ => trivial
  | _ => exact h.elim

/-- What has been called on the way was allowed. -/
theorem forall_calls_of_path {α : Type} {P : Call → Prop} {p q : Program α}
    {R : α → List (Exchange interface) → Prop} {xs ys : List (Exchange interface)}
    (h : (recounting fun _ => P).Leads R xs p) (hpath : Path p ys q) : ∀ x ∈ ys, P x.call := by
  induction hpath generalizing xs with
  | nil p => exact fun x hx => absurd hx List.not_mem_nil
  | cons r _ ih => exact List.forall_mem_cons.mpr ⟨h.1, ih (h.2 r trivial)⟩

section Runs

variable {ι : Type} [DecidableEq ι] {cfg : Config} {actions : ι → Action} {s : Shared}
  {w : World interface Shared ι Unit} {log : Trace interface ι} {handle : Auth.Handle}

/-- A sign-in, or a session that was taken up, has put this strategy in charge of some starts. -/
def TakenUp (actions : ι → Action) (log : Trace interface ι) (handle : Auth.Handle) : Prop :=
  ∃ i starts before after, (actions i).TakesUp ∧
    log = before ++ (i, .inner (.auth (.enrol starts handle)) ()) :: after

omit [DecidableEq ι] in
/-- What was registered last has been registered. -/
theorem exists_enrol_of_lastRegistered (h : lastRegistered log = some handle) :
    ∃ i starts before after,
      log = before ++ (i, .inner (.auth (.enrol starts handle)) ()) :: after := by
  induction log using List.reverseRecOn with
  | nil => exact absurd h (by simp [lastRegistered])
  | append_singleton log e ih =>
    obtain ⟨i, e⟩ := e
    have hearlier (hkept : lastRegistered log = some handle) : ∃ j starts before after,
        log ++ [(i, e)] = before ++ (j, .inner (.auth (.enrol starts handle)) ()) :: after := by
      obtain ⟨j, starts, before, after, rfl⟩ := ih hkept
      exact ⟨j, starts, before, after ++ [(i, e)], by simp⟩
    rw [lastRegistered_snoc] at h
    unfold registeredBy at h
    split at h
    · next heq =>
      obtain rfl := Option.some.inj h
      dsimp only at heq
      exact ⟨i, _, log, [], by rw [heq]⟩
    · exact absurd h (by simp)
    · exact hearlier h

omit [DecidableEq ι] in
theorem takenUp_of_lastRegistered (hactions : ∀ i, (actions i).TakesUp)
    (h : lastRegistered log = some handle) : TakenUp actions log handle := by
  obtain ⟨i, starts, before, after, hlog⟩ := exists_enrol_of_lastRegistered h
  exact ⟨i, starts, before, after, hactions i, hlog⟩

/-- A session that an account has registered is for its client and its token server, and all of its
origins can be registered. -/
theorem own_of_takenUp (h : World.Reaches Shared.step (begun cfg actions s) log w)
    (htaken : TakenUp actions log handle) : "" ∉ cfg.origins ∧
      ∃ id, handle = .bearer id cfg.clientId cfg.tokenEndpoint := by
  obtain ⟨i, starts, before, after, hi, rfl⟩ := htaken
  obtain ⟨u, u', hreach, hstep⟩ := h.split
  cases hstep with
  | inner ht hr =>
    have hpath := hreach.path (fun _ => rfl) i
    rw [ht] at hpath
    have hother : ∀ p spares, actions i = .other p spares → Makes Call.SparesRegistry p :=
      fun p spares heq => absurd hi (by simp [heq, Action.TakesUp])
    obtain ⟨-, front, c, hreplies⟩ :=
      (leads_of_path ((actions i).leads_enlisting cfg hother) hpath).1
    rw [List.nil_append] at hreplies
    obtain ⟨hsound, c', hown, hstrategy⟩ := forall_calls_of_path (hi.leads_creating cfg) hpath
      ⟨.auth (.create (.bearer (.ofCredentials c))), handle⟩ (by rw [hreplies]; simp)
    obtain ⟨_, _, v, _, -, -, -, hcreated⟩ :=
      hreach.replied (fun _ => rfl) hreplies fun s => by simp [Shared.step, Auth.Vault.step]
    obtain rfl := Auth.ofCredentials_injective (Auth.Strategy.bearer.inj hstrategy)
    obtain ⟨rfl, -⟩ := Outcome.reply.inj hcreated
    refine ⟨fun hblank => ?_, v.state.vault.created, ?_⟩
    · rw [Auth.Registry.fault?_eq, if_neg (by simp [Config.origins]), if_pos hblank] at hsound
      exact absurd hsound (by simp)
    · rw [← hown.clientId_eq, ← hown.tokenServer_eq]
      rfl

end Runs

end AccountGate.Account
