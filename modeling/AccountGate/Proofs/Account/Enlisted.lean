import AccountGate.Proofs.Account.NewTokens
import AccountGate.Proofs.Account.Vouching
import AccountGate.Proofs.Text.Trimmed

/-!
The registry of one account, whatever runs at once. An account registers nothing but its own
sessions, each for all of its origins. Main statements: a sign-in or a session that is taken up has
registered its tokens when it ends; and as long as the session that was registered last is there,
it serves every address that an origin begins, and no other.
-/

namespace AccountGate

namespace Auth.Registry

variable {url : String} {given : List String} {handle : Handle} {registry : Registry}

/-- Nothing is registered for other starts than these. -/
def Within (starts : List String) (registry : Registry) : Prop := ∀ r ∈ registry, r.start ∈ starts

theorem Within.put {record : Record} (h : Within given registry) (hrecord : record.start ∈ given) :
    Within given (put record registry) := fun r hr =>
  (mem_of_mem_put hr).elim (fun heq => heq ▸ hrecord) (h r)

theorem Within.enrol {starts : List String} (h : Within given registry)
    (hstarts : ∀ start ∈ starts, start ∈ given) : Within given (enrol starts handle registry) := by
  induction starts generalizing registry with
  | nil => exact h
  | cons start rest ih =>
    exact ih (h.put (hstarts start List.mem_cons_self)) fun s hs =>
      hstarts s (List.mem_cons_of_mem start hs)

theorem Within.remove (h : Within given registry) (start : String) :
    Within given (remove start registry).2 :=
  fun r hr => h r ((mem_of_remove start registry).2 r hr)

/-- A strategy that takes the place of all records serves what one of its starts begins. -/
theorem Within.find?_enrol (h : Within given registry) (url : String) :
    find? url (Registry.enrol given handle registry) =
      if ∃ start ∈ given, serves url start = true then some handle else none := by
  rw [Registry.find?_enrol]
  cases hfirst : first? url registry with
  | none => rfl
  | some r =>
    have hstart : r.start ∈ given := h r (List.mem_of_find?_eq_some hfirst)
    have hserves : serves url r.start = true := by
      rw [first?] at hfirst
      simpa using List.find?_some hfirst
    rw [if_pos ⟨r.start, hstart, hserves⟩]
    exact congrArg some (if_pos hstart)

end Auth.Registry

namespace Account

open Conduct (recounting leads_recounting)
open AccountGate.Flow (Makes makes_done Path)

/-- What a call leaves of a registry. -/
def Call.onRegistry : Call → Auth.Registry → Auth.Registry
  | .auth (.enrol starts handle), registry => registry.enrol starts handle
  | .auth (.remove start), registry => (registry.remove start).2
  | _, registry => registry

theorem Shared.registry_of_step {s s' : Shared} {c : Call} {r : Reply c}
    (hs : s.step c = .reply r s') : s'.vault.registry = c.onRegistry s.vault.registry := by
  cases c with
  | auth c =>
    by_cases hcount : ∃ counter, c = .count counter
    · obtain ⟨counter, rfl⟩ := hcount
      obtain ⟨-, rfl⟩ := Outcome.reply.inj hs
      rfl
    · rw [step_auth s fun counter h => hcount ⟨counter, h⟩] at hs
      cases hinner : s.vault.step c with
      | wait => exact absurd hs (by simp [hinner])
      | outside => exact absurd hs (by simp [hinner])
      | reply r' v =>
        rw [hinner] at hs
        obtain ⟨-, rfl⟩ := Outcome.reply.inj hs
        cases c with
        | create strategy =>
          obtain ⟨-, rfl⟩ := Outcome.reply.inj hinner
          cases strategy <;> rfl
        | enrol starts handle =>
          obtain ⟨-, rfl⟩ := Outcome.reply.inj hinner
          rfl
        | remove start =>
          obtain ⟨-, rfl⟩ := Outcome.reply.inj hinner
          rfl
        | _ => exact Auth.Vault.Replies.registry_eq (.inl hinner) trivial
  | enterCheck =>
    rw [Shared.step] at hs
    split at hs
    · exact absurd hs (by simp)
    · obtain ⟨-, rfl⟩ := Outcome.reply.inj hs
      rfl
  | random size => exact absurd hs (by simp [Shared.step])
  | listen port => exact absurd hs (by simp [Shared.step])
  | awaitRedirect port seconds => exact absurd hs (by simp [Shared.step])
  | openBrowser url => exact absurd hs (by simp [Shared.step])
  | spawn job => exact absurd hs (by simp [Shared.step])
  | join task => exact absurd hs (by simp [Shared.step])
  | _ =>
    obtain ⟨-, rfl⟩ := Outcome.reply.inj hs
    rfl

/-- What may be registered after which replies: a session that has just been created, for all
origins of the account. -/
def Enlists (cfg : Config) (xs : List (Exchange interface)) : Call → Prop
  | .auth (.enrol starts handle) => starts = cfg.origins ∧ ∃ front c,
    xs = front ++ [⟨.auth (.create (.bearer (.ofCredentials c))), handle⟩]
  | _ => True

/-- A call that registers nothing. -/
def Call.EnrolsNothing : Call → Prop
  | .auth (.enrol _ _) => False
  | _ => True

/-- A call that leaves the registry as it is. -/
def Call.SparesRegistry : Call → Prop
  | .auth c => c.IsOutward
  | _ => True

theorem Call.EnrolsNothing.enlists {c : Call} (h : c.EnrolsNothing) (cfg : Config)
    (xs : List (Exchange interface)) : Enlists cfg xs c := by
  cases c with
  | auth c =>
    cases c with
    | enrol starts handle => exact h.elim
    | _ => trivial
  | _ => trivial

theorem Call.SparesRegistry.enrolsNothing {c : Call} (h : c.SparesRegistry) :
    c.EnrolsNothing := by
  cases c with
  | auth c =>
    cases c with
    | enrol starts handle => exact h
    | _ => trivial
  | _ => trivial

theorem Call.Tends.enrolsNothing {c : Call} (h : c.Tends) : c.EnrolsNothing := by
  cases c with
  | auth c => exact Call.SparesRegistry.enrolsNothing (c := .auth c) h
  | _ => trivial

/-- These credentials have been taken into use for the account. -/
def Enlisted (cfg : Config) (c : Auth.Credentials) (xs : List (Exchange interface)) : Prop :=
  ∃ handle, ⟨.auth (.create (.bearer (.ofCredentials c))), handle⟩ ∈ xs ∧
    ⟨.auth (.enrol cfg.origins handle), ()⟩ ∈ xs

/-- Credentials have come with the answer to an exchange. -/
def Exchanged (c : Auth.Credentials) (xs : List (Exchange interface)) : Prop :=
  ∃ x r access response now, ⟨.auth (.send (Auth.exchangeRequest x)), .ok r⟩ ∈ xs ∧
    Auth.exchangeOutcome (.ok r) = .ok (access, response) ∧
    c = x.credentials access response (max 0 now)

section Prefix

variable {cfg : Config} {c : Auth.Credentials} {xs ys : List (Exchange interface)}

theorem Enlisted.mono (h : Enlisted cfg c xs) (hxs : xs <+: ys) : Enlisted cfg c ys := by
  obtain ⟨handle, hcreate, henrol⟩ := h
  exact ⟨handle, hxs.subset hcreate, hxs.subset henrol⟩

theorem Exchanged.mono (h : Exchanged c xs) (hxs : xs <+: ys) : Exchanged c ys := by
  obtain ⟨x, r, access, response, now, hsent, hc⟩ := h
  exact ⟨x, r, access, response, now, hxs.subset hsent, hc⟩

end Prefix

namespace Program

variable {α β : Type} {cfg : Config} {xs : List (Exchange interface)}

theorem leads_of_enrolsNothing {p : Program α} (h : Makes Call.EnrolsNothing p) :
    (recounting (Enlists cfg)).Leads (fun _ ys => xs <+: ys) xs p :=
  (leads_recounting h fun _ xs hc => hc.enlists cfg xs).mono fun _ _ hys => by
    obtain ⟨more, rfl, -⟩ := hys
    exact List.prefix_append xs more

theorem leads_exchange_enlisting (x : Auth.CodeExchange) :
    (recounting (Enlists cfg)).Leads
      (fun result ys => ∀ c, result = .ok c → Exchanged c ys) xs
      (ofAuth (Auth.Program.exchange x)) := by
  rw [Auth.exchange_eq]
  refine ⟨trivial, fun answer _ => ?_⟩
  simp only [Flow.done_bind]
  cases houtcome : Auth.exchangeOutcome answer with
  | error e => exact fun c hc => absurd hc (by simp)
  | ok issued =>
    refine ⟨trivial, fun now _ c hc => ?_⟩
    obtain rfl := Except.ok.inj hc
    cases answer with
    | error cause => exact absurd houtcome (by simp [Auth.exchangeOutcome])
    | ok r => exact ⟨x, r, issued.1, issued.2, now, by simp [Conduct.recounting], houtcome, rfl⟩

theorem leads_obtain (cfg : Config) (given : Option Nat) :
    (recounting (Enlists cfg)).Leads
      (fun result ys => ∀ c, result = .ok c → Exchanged c ys) xs (obtain cfg given).run :=
  leads_obtain_of given (fun hp => (leads_of_enrolsNothing (hp.mono fun _ hc =>
    hc.tends.enrolsNothing)).mono fun _ _ _ => trivial) fun _ _ _ _ => leads_exchange_enlisting _

theorem leads_registerSession (cfg : Config) (c : Auth.Credentials) :
    (recounting (Enlists cfg)).Leads
      (fun result ys => xs <+: ys ∧ ∀ a, result = .ok a → Enlisted cfg c ys) xs
      (registerSession cfg c).run := by
  rw [run_registerSession]
  split
  · exact ⟨List.prefix_rfl, fun _ h => absurd h (by simp)⟩
  · refine ⟨trivial, fun handle _ => ⟨⟨rfl, xs, c, rfl⟩, fun _ _ => ⟨?_, fun _ _ => ?_⟩⟩⟩
    · exact (List.prefix_append xs _).trans (List.prefix_append _ _)
    · exact ⟨handle, by simp [Conduct.recounting], by simp [Conduct.recounting]⟩

theorem enrolsNothing_credentialProperties (cfg : Config) :
    Makes Call.EnrolsNothing (credentialProperties cfg) :=
  (makes_credentialProperties cfg).mono fun _ hc => hc.tends.enrolsNothing

theorem enrolsNothing_saveCredentials (cfg : Config) :
    Makes Call.EnrolsNothing (saveCredentials cfg) :=
  makes_saveCredentials_of (enrolsNothing_credentialProperties cfg) fun _ => trivial

theorem enrolsNothing_ofJob (cfg : Config) (job : Job) :
    Makes Call.EnrolsNothing (ofJob cfg job) := by
  have hpair : Makes Call.EnrolsNothing (tokenPair cfg) :=
    (enrolsNothing_credentialProperties cfg).bind fun _ => makes_done _
  obtain ⟨body, hbody, hends⟩ := exists_endsIn cfg job
  rw [hbody]
  refine hpair.bind fun before => (hends before).makes ?_ fun _ hc => hc.enrolsNothing
  rw [saveIfChanged_eq]
  refine hpair.bind fun pair => ?_
  split
  · trivial
  · exact (enrolsNothing_saveCredentials cfg).bind fun _ => makes_done _

theorem enrolsNothing_logout (cfg : Config) : Makes Call.EnrolsNothing (logout cfg) := by
  refine makes_logout_of (fun _ => trivial) (fun start logoutUrl => makes_inside ?_) trivial
    (fun _ => trivial) cfg
  exact Auth.makes_unregister_of trivial (fun _ => Auth.makes_tokens_of trivial trivial)
    (fun _ _ _ => trivial) logoutUrl

theorem enrolsNothing_takeUp (stored : Settings) :
    Makes Call.EnrolsNothing (takeUp stored).run := by
  rw [run_takeUp]
  refine ((makes_check _).mono fun _ hc => hc.tends.enrolsNothing).bind fun status => ?_
  exact ⟨trivial, fun _ => trivial⟩

/-- A session that is taken up with stored tokens has registered them. -/
theorem leads_loadSession_enlisting (cfg : Config) :
    (recounting (Enlists cfg)).Leads
      (fun result (ys : List (Exchange interface)) => result = .ok true → ∃ stored,
        ⟨.settings, stored⟩ ∈ ys ∧ ∀ c, storedCredentials cfg stored = some c → Enlisted cfg c ys)
      [] (loadSession cfg).run := by
  rw [run_loadSession]
  refine ⟨trivial, fun stored _ => ?_⟩
  change (recounting (Enlists cfg)).Leads _ [⟨.settings, stored⟩] (ite _ _ _)
  split
  · exact fun h => absurd h (by simp)
  · cases hcredentials : storedCredentials cfg stored with
    | none =>
      refine (leads_of_enrolsNothing (enrolsNothing_takeUp stored)).mono fun result ys hys _ => ?_
      exact ⟨stored, hys.subset List.mem_cons_self, fun c hc => absurd (hcredentials.symm.trans hc)
        (by simp)⟩
    | some c =>
      refine (leads_registerSession cfg c).bind fun result ys hys => ?_
      cases result with
      | error e => exact fun h => absurd h (by simp)
      | ok _ =>
        refine (leads_of_enrolsNothing (enrolsNothing_takeUp stored)).mono fun _ zs hzs _ => ?_
        refine ⟨stored, (hys.1.trans hzs).subset List.mem_cons_self, fun c' hc' => ?_⟩
        obtain rfl := Option.some.inj (hcredentials.symm.trans hc')
        exact (hys.2 () rfl).mono hzs

/-- A sign-in that succeeds has registered the tokens of its exchange. -/
theorem leads_loginBy_enlisting (cfg : Config) (given : Option Nat) :
    (recounting (Enlists cfg)).Leads (fun result ys => ∀ tasks, result = .ok tasks →
      ∃ c, Exchanged c ys ∧ Enlisted cfg c ys) [] (loginBy cfg given) := by
  have hestablish (c : Auth.Credentials) (ys : List (Exchange interface)) :
      (recounting (Enlists cfg)).Leads (fun result zs => ys <+: zs ∧
        ∀ tasks, result = .ok tasks → Enlisted cfg c zs) ys (establish cfg c).run := by
    rw [run_establish]
    refine (leads_registerSession cfg c).bind fun result zs hzs => ?_
    cases result with
    | error e => exact ⟨hzs.1, fun _ h => absurd h (by simp)⟩
    | ok _ =>
      have hannounce : Makes Call.EnrolsNothing ((saveCredentials cfg).bind announce) :=
        (enrolsNothing_saveCredentials cfg).bind (makes_announce trivial fun _ => trivial)
      refine (leads_of_enrolsNothing hannounce).mono fun _ zs' hzs' => ?_
      exact ⟨hzs.1.trans hzs', fun _ _ => (hzs.2 () rfl).mono hzs'⟩
  rw [loginBy_eq, counted_eq, run_bind]
  refine Conduct.Leads.bind (Q := fun result ys => ∀ tasks, result = .ok tasks →
    ∃ c, Exchanged c ys ∧ Enlisted cfg c ys) ?_ fun result ys hys => ⟨trivial, fun _ _ => ?_⟩
  · refine (leads_obtain cfg given).bind fun result ys hys => ?_
    cases result with
    | error e => exact fun _ h => absurd h (by simp)
    | ok c =>
      refine (hestablish c ys).mono fun _ zs hzs tasks htasks => ?_
      exact ⟨c, (hys c rfl).mono hzs.1, hzs.2 tasks htasks⟩
  · intro tasks htasks
    obtain ⟨c, hexchanged, henlisted⟩ := hys tasks htasks
    exact ⟨c, hexchanged.mono (List.prefix_append ys _), henlisted.mono (List.prefix_append ys _)⟩

end Program

/-- Each of the actions registers nothing but its own sessions. -/
theorem Action.leads_enlisting (cfg : Config) (action : Action)
    (hother : ∀ p spares, action = .other p spares → Makes Call.SparesRegistry p) :
    (recounting (Enlists cfg)).Leads (fun _ _ => True) [] (action.program cfg) := by
  have hquiet {p : Program Unit} (hp : Makes Call.EnrolsNothing p) :
      (recounting (Enlists cfg)).Leads (fun _ _ => True) [] p :=
    (Program.leads_of_enrolsNothing hp).mono fun _ _ _ => trivial
  cases action with
  | loadSession => exact (Program.leads_loadSession_enlisting cfg).bind fun _ _ _ => trivial
  | restore =>
    refine Conduct.Leads.bind (Q := fun _ _ => True) ?_ fun _ _ _ => trivial
    rw [Program.run_restore]
    refine (Program.leads_loadSession_enlisting cfg).bind fun result ys _ => ?_
    refine (Program.leads_of_enrolsNothing ?_).mono fun _ _ _ => trivial
    cases result with
    | error e => trivial
    | ok found => exact Program.makes_resume trivial (fun _ => trivial) found
  | login given => exact (Program.leads_loginBy_enlisting cfg given).bind fun _ _ _ => trivial
  | logout => exact hquiet ((Program.enrolsNothing_logout cfg).bind fun _ => makes_done ())
  | refresh job => exact hquiet (Program.enrolsNothing_ofJob cfg job)
  | probe url =>
    exact hquiet ⟨trivial, fun _ => ⟨trivial, fun _ => trivial⟩⟩
  | save => exact hquiet ((Program.enrolsNothing_saveCredentials cfg).bind fun _ => makes_done ())
  | checkStored =>
    refine hquiet ?_
    rw [program, Program.checkStored_eq]
    refine ⟨trivial, fun stored => ⟨trivial, fun license => ?_⟩⟩
    exact ((Program.makes_check _).mono fun _ hc => hc.tends.enrolsNothing).bind fun _ => trivial
  | other p spares => exact hquiet ((hother p spares rfl).mono fun _ hc => hc.enrolsNothing)

section Runs

variable {ι : Type} [DecidableEq ι] {cfg : Config} {actions : ι → Action} {s : Shared}
  {w : World interface Shared ι Unit} {log : Trace interface ι} {i : ι}

/-- What an event leaves of the session that was registered last. -/
def registeredBy : AccountGate.Event interface → Option Auth.Handle → Option Auth.Handle
  | .inner (.auth (.enrol _ handle)) _, _ => some handle
  | .inner (.auth (.remove _)) _, _ => none
  | _, found => found

/-- The session that was registered last, as long as none of its records has been removed. -/
def lastRegistered (log : Trace interface ι) : Option Auth.Handle :=
  log.foldl (fun found e => registeredBy e.2 found) none

omit [DecidableEq ι] in
theorem lastRegistered_snoc (log : Trace interface ι) (e : ι × AccountGate.Event interface) :
    lastRegistered (log ++ [e]) = registeredBy e.2 (lastRegistered log) := by
  simp [lastRegistered]

/-- This session, if there is one, serves what an origin begins, and nothing else is registered. -/
structure InCharge (cfg : Config) (found : Option Auth.Handle) (registry : Auth.Registry) :
    Prop where
  within : registry.Within cfg.origins
  bearer : ∀ handle ∈ found, ∃ id clientId tokenServer, handle = .bearer id clientId tokenServer
  serves : ∀ handle ∈ found, ∀ url, registry.find? url =
    if ∃ origin ∈ cfg.origins, Auth.Registry.serves url origin = true then some handle else none

theorem enlists_of_reaches
    (hothers : ∀ i p spares, actions i = .other p spares → Makes Call.SparesRegistry p)
    (h : World.Reaches Shared.step (begun cfg actions s) log w) {c : Call}
    {next : Reply c → Program Unit} (ht : w.task i = .running (.ask c next)) :
    Enlists cfg (World.repliesTo i log) c := by
  have hleads := Conduct.leads_of_reaches
    (fun i => (actions i).leads_enlisting cfg (hothers i)) h (fun _ => rfl) i
  rw [ht] at hleads
  exact hleads.1

theorem inCharge_of_reaches (hs : s.vault.registry.Within cfg.origins)
    (hothers : ∀ i p spares, actions i = .other p spares → Makes Call.SparesRegistry p)
    (h : World.Reaches Shared.step (begun cfg actions s) log w) :
    InCharge cfg (lastRegistered log) w.state.vault.registry := by
  induction h with
  | start => exact ⟨hs, fun _ h => absurd h (by simp [lastRegistered]), fun _ h =>
      absurd h (by simp [lastRegistered])⟩
  | @step log w e w' hreach hstep ih =>
    rw [lastRegistered_snoc]
    cases hstep with
    | @inner i c next r t ht hr =>
      have henlists := enlists_of_reaches hothers hreach ht
      have hregistry : (w.set i t (.running (next r))).state.vault.registry =
          c.onRegistry w.state.vault.registry := Shared.registry_of_step hr
      rw [hregistry]
      -- Only two calls change the registry.
      cases c with
      | auth c =>
        cases c with
        | enrol starts handle =>
          obtain ⟨rfl, front, c, hreplies⟩ := henlists
          obtain ⟨_, _, u, _, -, -, -, hcreated⟩ :=
            hreach.replied (fun _ => rfl) hreplies fun s => by simp [Shared.step, Auth.Vault.step]
          obtain ⟨rfl, -⟩ := Outcome.reply.inj hcreated
          refine ⟨ih.within.enrol fun _ h => h, fun _ h => ?_, fun _ h url => ?_⟩
          · obtain rfl := Option.some.inj h
            exact ⟨_, _, _, rfl⟩
          · obtain rfl := Option.some.inj h
            exact ih.within.find?_enrol url
        | remove start =>
          exact ⟨ih.within.remove start, fun _ h => absurd h (by simp [registeredBy]), fun _ h =>
            absurd h (by simp [registeredBy])⟩
        | _ => exact ih
      | _ => exact ih
    | asked ht hr => exact ih
    | answered r ht => exact ih

end Runs

end Account

end AccountGate
