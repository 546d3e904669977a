import AccountGate.Proofs.Account.Saving
import AccountGate.Proofs.Account.Solo

/-!
The stored tokens of a run that takes up an account or signs in, and then answers questions for
headers and does jobs, one after the other. Main statement: what is stored are the tokens that were
in use at the end of the last job that found them changed since it had begun; so tokens that a
question between two jobs has renewed are not stored.
-/

namespace AccountGate.Account

open AccountGate.Flow (Solo)

/-- What is done after the start. -/
inductive Errand where
  | header (url : String)
  | refresh (job : Job)
  deriving DecidableEq

def Errand.program (cfg : Config) : Errand → Program Unit
  | .header url => (Program.ofAuth (Auth.Program.resolve url)).bind fun _ => .done ()
  | .refresh job => Program.ofJob cfg job

/-- An errand that was done, with what there was before and after it. -/
structure Deed where
  errand : Errand
  before : Shared
  after : Shared

/-- A job that leaves other tokens in use than it has found. -/
def Deed.Saves (cfg : Config) (d : Deed) : Prop :=
  (∃ job, d.errand = .refresh job) ∧
    pairOf (d.after.credentials cfg) ≠ pairOf (d.before.credentials cfg)

instance (cfg : Config) (d : Deed) : Decidable (d.Saves cfg) :=
  match h : d.errand with
  | .header _ => .isFalse fun ⟨⟨_, hjob⟩, _⟩ => Errand.noConfusion (h.symm.trans hjob)
  | .refresh job => decidable_of_iff
      (pairOf (d.after.credentials cfg) ≠ pairOf (d.before.credentials cfg))
      ⟨fun hpair => ⟨⟨job, h⟩, hpair⟩, And.right⟩

/-- Neither tokens nor lifetime are others than before. -/
def Deed.Rests (cfg : Config) (d : Deed) : Prop :=
  fieldsOf (d.after.credentials cfg) = fieldsOf (d.before.credentials cfg)

/-- The tokens that the last of these deeds has stored, and those at the start if none has. -/
def lastSaved (cfg : Config) (start : List String) (deeds : List Deed) : List String :=
  deeds.foldl (fun stored d => if d.Saves cfg then fieldsOf (d.after.credentials cfg) else stored) start

/-- Errands that are done one after the other. -/
inductive Runs (cfg : Config) (s : Shared) : List Deed → Shared → Prop
  | start : Runs cfg s [] s
  | next {deeds t u} (errand : Errand) : Runs cfg s deeds t →
      Solo Shared.step Written (errand.program cfg) t () u → Runs cfg s (deeds ++ [⟨errand, t, u⟩]) u

/-- How a run starts. -/
inductive Start where
  | loaded
  | signedIn

/-- An account is taken up again, or a sign-in succeeds, where nothing is registered. -/
inductive Begins (cfg : Config) (s t : Shared) : Start → Prop
  | loaded {result : Except Error Bool} : s.vault.registry = [] →
      Solo Shared.step Written (Program.loadSession cfg).run s result t → Begins cfg s t .loaded
  | signedIn {given : Option Nat} {refreshes : Program.Refreshes} : s.vault.registry = [] →
      Solo Shared.step Written (Program.loginBy cfg given) s (.ok refreshes) t →
      Begins cfg s t .signedIn

/-- The tokens in settings, and their lifetime as it is read. -/
def readBack (settings : Settings) : List String :=
  [settings.value Key.accessToken, settings.value Key.updateToken,
    toString (((settings.value? Key.expiresIn).bind Decimal.readInt64?).getD 0)]

theorem readBack_of_storedCredentials {cfg : Config} {settings : Settings} {c : Auth.Credentials}
    (h : Program.storedCredentials cfg settings = some c) :
    readBack settings = [c.accessToken, c.refreshToken, toString c.expiresIn] := by
  obtain ⟨access, haccess, rfl⟩ := Option.map_eq_some_iff.mp h
  rw [readBack, Settings.value, haccess]
  rfl

namespace Program

/-- The session of stored settings. -/
def takeUp (stored : Settings) : Attempt Bool := do
  let status ← Attempt.of (check (SupportClaim.ofSettings stored))
  Attempt.call (.setSession ⟨true, status.isSupported, .ofSettings stored⟩)
  return true

theorem run_takeUp (stored : Settings) : (takeUp stored).run =
    (check (SupportClaim.ofSettings stored)).bind fun status =>
      .ask (.setSession ⟨true, status.isSupported, .ofSettings stored⟩) fun _ =>
        .done (.ok true) := by
  rw [takeUp, run_bind]
  exact andThen_lift _ _

theorem run_loadSession (cfg : Config) : (loadSession cfg).run = .ask .settings fun stored =>
    if (stored.value? Key.userId).isNone then .done (.ok false)
    else match storedCredentials cfg stored with
      | some c => andThen (registerSession cfg c).run fun _ => (takeUp stored).run
      | none => (takeUp stored).run := by
  apply congrArg (Flow.ask (I := interface) Call.settings)
  funext stored
  change ExceptT.run (ite ((stored.value? Key.userId).isNone = true) _ _) = _
  split
  · rfl
  · cases storedCredentials cfg stored with
    | none => rfl
    | some c => exact run_bind (registerSession cfg c) fun _ => takeUp stored

end Program

section Runs

variable {cfg : Config} {s t : Shared} {deeds : List Deed}

theorem fieldsOf_ofCredentials (c : Auth.Credentials) :
    fieldsOf (Auth.Bearer.ofCredentials c).properties =
      [c.accessToken, c.refreshToken, toString c.expiresIn] := rfl

/-- Tokens are stored by a deed that finds them changed, and by no other. -/
theorem stored_of_errand {errand : Errand}
    (h : Solo Shared.step Written (errand.program cfg) s () t) :
    t.stored = if Deed.Saves cfg ⟨errand, s, t⟩ then fieldsOf (t.credentials cfg) else s.stored := by
  cases errand with
  | header url =>
    obtain ⟨a, u, hresolve, hdone⟩ := Flow.solo_bind_iff.mp h
    obtain ⟨-, rfl⟩ := Flow.solo_done_iff.mp hdone
    rw [if_neg fun hsaves => absurd hsaves.1 (by simp)]
    exact (idles_of_header hresolve).stored_eq
  | refresh job =>
    rw [(solo_job h).2]
    by_cases hpair : pairOf (t.credentials cfg) = pairOf (s.credentials cfg)
    · rw [if_pos hpair, if_neg fun hsaves => hsaves.2 hpair]
    · rw [if_neg hpair, if_pos ⟨⟨job, rfl⟩, hpair⟩]

theorem Runs.stored_eq (h : Runs cfg s deeds t) : t.stored = lastSaved cfg s.stored deeds := by
  induction h with
  | start => rfl
  | next errand _ hsolo ih =>
    rw [stored_of_errand hsolo, ih, lastSaved, lastSaved, List.foldl_append]
    rfl

/-- Where each change of the tokens is followed by a deed that stores some, what is stored is in
use. -/
theorem Runs.upToDate (h : Runs cfg s deeds t)
    (hstart : s.stored = fieldsOf (s.credentials cfg) ∨ ∃ d ∈ deeds, d.Saves cfg)
    (hfollowed : ∀ front d back, deeds = front ++ d :: back → d.Rests cfg ∨
      ∃ d' ∈ d :: back, d'.Saves cfg) : t.stored = fieldsOf (t.credentials cfg) := by
  induction h with
  | start => exact hstart.resolve_right (by simp)
  | @next deeds t u errand hruns hsolo ih =>
    have hstored := stored_of_errand hsolo
    by_cases hsaves : Deed.Saves cfg ⟨errand, t, u⟩
    · rw [hstored, if_pos hsaves]
    -- The last deed stores nothing, so it changes nothing, and an earlier one has stored the rest.
    · have hearlier (ds : List Deed) (hex : ∃ d' ∈ ds ++ [⟨errand, t, u⟩], Deed.Saves cfg d') :
          ∃ d' ∈ ds, Deed.Saves cfg d' := by
        obtain ⟨d', hd', hsaves'⟩ := hex
        rcases List.mem_append.mp hd' with hmem | hmem
        · exact ⟨d', hmem, hsaves'⟩
        · rw [List.mem_singleton.mp hmem] at hsaves'
          exact absurd hsaves' hsaves
      have hrests : Deed.Rests cfg ⟨errand, t, u⟩ := by
        refine (hfollowed deeds _ [] rfl).resolve_right fun hex => ?_
        obtain ⟨d', hd', -⟩ := hearlier [] hex
        exact absurd hd' List.not_mem_nil
      have hbefore : t.stored = fieldsOf (t.credentials cfg) := by
        refine ih (hstart.imp_right (hearlier deeds)) fun front d back hdeeds => ?_
        rw [hdeeds, List.append_assoc] at hfollowed
        exact (hfollowed front d _ rfl).imp_right (hearlier (d :: back))
      rw [hstored, if_neg hsaves, hbefore]
      exact hrests.symm

/-- Once credentials are put in place, those that serve the account are stored. -/
theorem stored_of_establish {P : (c : Call) → Reply c → Prop} {c : Auth.Credentials}
    {refreshes : Program.Refreshes}
    (h : Solo Shared.step P (Program.establish cfg c).run s (.ok refreshes) t) :
    t.stored = fieldsOf ((s.registered cfg c).credentials cfg) ∧
      t.vault = (s.registered cfg c).vault := by
  rcases solo_establish h with ⟨e, -, habsurd, -⟩ | ⟨-, saved, m, -, hs, hend⟩
  · exact absurd habsurd (by simp)
  · rcases hend with ⟨e, -, habsurd, -⟩ | ⟨rfl, -, rfl⟩
    · exact absurd habsurd (by simp)
    · refine ⟨(stored_of_changes cfg hs).1, ?_⟩
      obtain ⟨-, hrest⟩ := Shared.merged_of_apply hs
      rw [hrest]

/-- After a sign-in its credentials are stored. -/
theorem stored_of_login {given : Option Nat} {refreshes : Program.Refreshes}
    (h : Solo Shared.step Written (Program.loginBy cfg given) s (.ok refreshes) t) :
    t.stored = fieldsOf (t.credentials cfg) := by
  obtain ⟨u, rfl, ⟨e, habsurd, -⟩ | ⟨c, -, hestablish⟩⟩ := solo_loginBy h
  · exact absurd habsurd (by simp)
  · obtain ⟨hstored, hvault⟩ := stored_of_establish hestablish
    rw [← Shared.credentials_congr hvault] at hstored
    exact hstored

/-- An account that is taken up has the credentials that are stored, or none. -/
theorem stored_of_load {result : Except Error Bool} (hnone : s.vault.registry = [])
    (h : Solo Shared.step Written (Program.loadSession cfg).run s result t) :
    t.stored = s.stored ∧
      (t.credentials cfg = [] ∨ fieldsOf (t.credentials cfg) = readBack t.store.settings) := by
  have hempty : s.credentials cfg = [] := by
    rw [credentials_eq_nil_iff, hnone, Auth.Registry.find?]
    split <;> rfl
  have htakeUp {m : Shared} (h : Solo Shared.step Written (Program.takeUp s.store.settings).run m
      result t) : t.vault = m.vault ∧ t.store = m.store := by
    rw [Program.run_takeUp] at h
    obtain ⟨status, u, hcheck, h⟩ := Flow.solo_bind_iff.mp h
    obtain ⟨-, h⟩ := (Flow.solo_ask_of_reply rfl).mp h
    obtain ⟨-, rfl⟩ := Flow.solo_done_iff.mp h
    obtain ⟨hvault, hstore⟩ := solo_aloof (Program.makes_check _) hcheck
    exact ⟨hvault, hstore⟩
  rw [Program.run_loadSession] at h
  obtain ⟨-, h⟩ := (Flow.solo_ask_of_reply rfl).mp h
  split at h
  · obtain ⟨-, rfl⟩ := Flow.solo_done_iff.mp h
    exact ⟨rfl, .inl hempty⟩
  · split at h
    · next c hc =>
      -- Where an origin is no prefix nothing is registered, and nobody serves the account.
      rcases Program.solo_andThen_iff.mp h with ⟨_, m, hregister, h⟩ | ⟨e, -, hregister⟩
      · rcases solo_registerSession hregister with ⟨_, _, habsurd, _⟩ | ⟨-, -, rfl⟩
        · exact absurd habsurd (by simp)
        · obtain ⟨hvault, hstore⟩ := htakeUp h
          refine ⟨by rw [Shared.stored, hstore]; rfl, .inr ?_⟩
          have hfirst : ∀ r, s.vault.registry.first? cfg.apiEndpoint = some r →
              r.start ∈ cfg.origins := by
            simp [hnone, Auth.Registry.first?]
          rw [Shared.credentials_congr hvault, credentials_registered hfirst,
            fieldsOf_ofCredentials, hstore]
          exact (readBack_of_storedCredentials hc).symm
      · rcases solo_registerSession hregister with ⟨_, _, _, rfl⟩ | ⟨_, habsurd, _⟩
        · exact ⟨rfl, .inl hempty⟩
        · exact absurd habsurd (by simp)
    · obtain ⟨hvault, hstore⟩ := htakeUp h
      refine ⟨by rw [Shared.stored, hstore]; rfl, .inl ?_⟩
      rw [Shared.credentials_congr hvault, hempty]

/-- What is stored are the tokens of the end of the last job that found them changed since it had
begun, and before the first such job what a sign-in has stored or what was there. They are in use
where each renewal was made by such a job or has been followed by one. -/
theorem stored_tokens_follow_jobs {start : Start} {s₀ : Shared} (hstart : Begins cfg s₀ s start)
    (h : Runs cfg s deeds t) :
    t.stored = lastSaved cfg s.stored deeds ∧
    (match start with
      | .signedIn => s.stored = fieldsOf (s.credentials cfg)
      | .loaded => s.stored = s₀.stored ∧ (s.credentials cfg = [] ∨
          fieldsOf (s.credentials cfg) = readBack s.store.settings)) ∧
    ((s.stored = fieldsOf (s.credentials cfg) ∨ ∃ d ∈ deeds, d.Saves cfg) →
      (∀ front d back, deeds = front ++ d :: back → d.Rests cfg ∨ ∃ d' ∈ d :: back, d'.Saves cfg) →
      t.stored = fieldsOf (t.credentials cfg)) := by
  refine ⟨h.stored_eq, ?_, h.upToDate⟩
  cases hstart with
  | loaded hnone hload => exact stored_of_load hnone hload
  | signedIn hnone hlogin => exact stored_of_login hlogin

end Runs

section Sample

set_option maxRecDepth 10000

/-- An account whose tokens are stored. -/
def stocked : Shared :=
  { sample with store := .memory (.ofEntries [(Key.userId, "u1"), (Key.accessToken, "A0"),
      (Key.updateToken, "R0"), (Key.expiresIn, "3600")]) none }

/-- It is noon, the token server issues new tokens, and no other request gets an answer. -/
def issuing : (c : Call) → Option (Reply c)
  | .auth .clock => some noon
  | .auth (.send o) => some (if o.request.method = "POST" then
      .ok { body := Text.bytes "\x7b\"access_token\":\"A1\",\"refresh_token\":\"R1\"\x7d" }
    else .error (.timeout ""))
  | _ => none

/-- The tokens of the account are renewed by its first request, which is part of a job. -/
theorem renewal_in_job_is_stored : ∃ s t,
    Begins sampleConfig stocked s .loaded ∧
    Runs sampleConfig s [⟨.refresh .refreshUser, s, t⟩] t ∧
    t.stored = fieldsOf (t.credentials sampleConfig) ∧ t.stored = ["A1", "R1", "3600"] := by
  have hview : (do
      let x ← Flow.play Shared.step Written issuing (Program.loadSession sampleConfig).run stocked
      let y ← Flow.play Shared.step Written issuing
        (Errand.program sampleConfig (.refresh .refreshUser)) x.2
      some (pairOf (x.2.credentials sampleConfig), pairOf (y.2.credentials sampleConfig),
        y.2.stored)) =
      some ((some "A0", some "R0"), (some "A1", some "R1"), ["A1", "R1", "3600"]) := by
    decide +kernel
  obtain ⟨⟨result, s⟩, hload, hview⟩ := Option.bind_eq_some_iff.mp hview
  obtain ⟨⟨_, t⟩, hjob, hview⟩ := Option.bind_eq_some_iff.mp hview
  obtain ⟨hbefore, hafter, hstored⟩ : _ ∧ _ ∧ _ := by simpa using hview
  have hbegins : Begins sampleConfig stocked s .loaded := .loaded rfl (Flow.solo_of_play hload)
  have hruns : Runs sampleConfig s [⟨.refresh .refreshUser, s, t⟩] t :=
    .next (.refresh .refreshUser) .start (Flow.solo_of_play hjob)
  have hsaves : Deed.Saves sampleConfig ⟨.refresh .refreshUser, s, t⟩ :=
    ⟨⟨_, rfl⟩, by rw [hbefore, hafter]; decide⟩
  have hfollowed (front : List Deed) (d : Deed) (back : List Deed)
      (hdeeds : [⟨.refresh .refreshUser, s, t⟩] = front ++ d :: back) :
      d.Rests sampleConfig ∨ ∃ d' ∈ d :: back, d'.Saves sampleConfig := by
    have hd : d ∈ [⟨.refresh .refreshUser, s, t⟩] := by rw [hdeeds]; simp
    rw [List.mem_singleton.mp hd]
    exact .inr ⟨_, List.mem_cons_self, hsaves⟩
  have hlast := (stored_tokens_follow_jobs hbegins hruns).2.2
    (.inr ⟨_, List.mem_singleton_self _, hsaves⟩) hfollowed
  exact ⟨s, t, hbegins, hruns, hlast, hstored⟩

/-- A request between two jobs renews the tokens: the next job finds nothing changed, and the
tokens that are stored after it are spent. -/
theorem renewal_between_jobs_is_lost : ∃ s m t,
    Begins sampleConfig stocked s .loaded ∧
    Runs sampleConfig s [⟨.header "https://a.io/x", s, m⟩, ⟨.refresh .refreshUser, m, t⟩] t ∧
    t.stored = ["A0", "R0", "3600"] ∧
    fieldsOf (t.credentials sampleConfig) = ["A1", "R1", "3600"] := by
  have hview : (do
      let x ← Flow.play Shared.step Written issuing (Program.loadSession sampleConfig).run stocked
      let y ← Flow.play Shared.step Written issuing
        (Errand.program sampleConfig (.header "https://a.io/x")) x.2
      let z ← Flow.play Shared.step Written issuing
        (Errand.program sampleConfig (.refresh .refreshUser)) y.2
      some (z.2.stored, fieldsOf (z.2.credentials sampleConfig))) =
      some (["A0", "R0", "3600"], ["A1", "R1", "3600"]) := by
    decide +kernel
  obtain ⟨⟨result, s⟩, hload, hview⟩ := Option.bind_eq_some_iff.mp hview
  obtain ⟨⟨_, m⟩, hheader, hview⟩ := Option.bind_eq_some_iff.mp hview
  obtain ⟨⟨_, t⟩, hjob, hview⟩ := Option.bind_eq_some_iff.mp hview
  obtain ⟨hstored, hused⟩ := Prod.mk.inj (Option.some.inj hview)
  refine ⟨s, m, t, .loaded rfl (Flow.solo_of_play hload), ?_, hstored, hused⟩
  have hfirst : Runs sampleConfig s [⟨.header "https://a.io/x", s, m⟩] m :=
    .next (.header _) .start (Flow.solo_of_play hheader)
  exact hfirst.next (.refresh .refreshUser) (Flow.solo_of_play hjob)

end Sample

end AccountGate.Account
