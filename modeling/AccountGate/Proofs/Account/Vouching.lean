import AccountGate.Proofs.Account.Persisted

/-!
What the session says of the account, whatever runs at once. Main statement: somebody is signed in
exactly where the session has a user with an id; and the account is supported only where the check
that was recorded last has found a claim that is signed under the key in the cache and in its
period.
-/

namespace AccountGate.Account

open Conduct (recounting leads_recounting leads_of_reaches)
open AccountGate.Flow (Makes makes_done)
open License (Entitlement)

/-- The last replies to a check that finds a claim supported: the time, the key, and the count. -/
def weighing (clock : Int) (key : Except Disk.Fault String) : List (Exchange interface) :=
  [⟨.auth .clock, clock⟩, ⟨.loadKey, key⟩, ⟨.auth (.count (.ofStatus .supported)), ()⟩]

/-- The replies to the first part of a check, which finds the claim. -/
def viewing (stored : Settings) (license : Except Error (Option Json)) :
    List (Exchange interface) :=
  [⟨.enterCheck, ()⟩, ⟨.settings, stored⟩, ⟨.license, license⟩]

/-- Replies that end with a claim being found supported. -/
def Upholds (claim : Entitlement) (front xs : List (Exchange interface)) : Prop :=
  ∃ clock key, xs = front ++ weighing clock key ∧
    License.KeyCache.check key claim (Date.ofUnix clock) = .supported

/-- An account that is taken up again, after registering its credentials and checking its claim. -/
def TakesUp (xs : List (Exchange interface)) (session : Session) : Prop :=
  ∃ stored registering, (stored.value? Key.userId).isSome = true ∧ session.authorized = true ∧
    session.user = .ofSettings stored ∧ (∀ x ∈ registering, ∃ c, x.call = .auth c) ∧
    (session.supported = true →
      Upholds (SupportClaim.ofSettings stored) (⟨.settings, stored⟩ :: registering) xs)

/-- What may be written to the session after which replies. -/
def Vouches (xs : List (Exchange interface)) : Call → Prop
  | .setSession session => session = {} ∨ TakesUp xs session
  | .setUser authorized user => authorized = true ↔ user.userId ≠ ""
  | .setSupported supported => supported = true →
    ∃ front stored license, Upholds (claimUnder license stored) (front ++ viewing stored license) xs
  | _ => True

theorem Call.SparesSession.vouches {c : Call} (h : c.SparesSession)
    (xs : List (Exchange interface)) : Vouches xs c := by
  cases c with
  | setSession session => exact h.elim
  | setUser authorized user => exact h.elim
  | setSupported supported => exact h.elim
  | _ => trivial

theorem Call.IsInert.spares {c : Call} (h : c.IsInert) : c.SparesSession := by
  -- A session that is not the one to be written would change.
  have hkept (session : Session) (s' : Shared) (r : Reply c)
      (hs : Shared.step
        { store := .memory .empty none, keyDir := "", licenseDir := "", session } c = .reply r s') :
      s'.session = session := by rw [h _ _ _ hs]
  cases c with
  | setSession session =>
    have hsame := hkept { session with authorized := !session.authorized } _ () rfl
    exact absurd (congrArg Session.authorized hsame) (by simp)
  | setUser authorized user =>
    have hsame := hkept { authorized := !authorized } _ () rfl
    exact absurd (congrArg Session.authorized hsame) (by simp)
  | setSupported supported =>
    have hsame := hkept { supported := !supported } _ () rfl
    exact absurd (congrArg Session.supported hsame) (by simp)
  | _ => trivial

namespace Program

section Spares

variable {α : Type} {cfg : Config}

theorem spares_ofAuth (p : Auth.Program α) : Makes Call.SparesSession (ofAuth p) :=
  makes_ofAuth_of (fun _ => trivial) p

theorem spares_saveCredentials (cfg : Config) : Makes Call.SparesSession (saveCredentials cfg) :=
  makes_saveCredentials_of (spares_ofAuth _) fun _ => trivial

theorem spares_saveIfChanged (cfg : Config) (before : TokenPair) :
    Makes Call.SparesSession (saveIfChanged cfg before) := by
  rw [saveIfChanged_eq, tokenPair_eq]
  refine Makes.bind ((spares_ofAuth _).bind fun _ => trivial) fun pair => ?_
  split
  · trivial
  · exact (spares_saveCredentials cfg).bind fun _ => trivial

theorem spares_registerSession (cfg : Config) (c : Auth.Credentials) :
    Makes (fun c : Call => ∃ c', c = .auth c') (registerSession cfg c).run :=
  makes_registerSession_of (fun _ => ⟨_, rfl⟩) fun _ => ⟨_, rfl⟩

theorem spares_loginBy (cfg : Config) (given : Option Nat) :
    Makes Call.SparesSession (loginBy cfg given) := by
  have hestablish (c : Auth.Credentials) : Makes Call.SparesSession (establish cfg c).run := by
    have hregister : Makes Call.SparesSession (registerSession cfg c).run :=
      makes_registerSession_of (fun _ => trivial) fun _ => trivial
    exact makes_establish_of hregister (spares_saveCredentials cfg) trivial fun _ => trivial
  rw [loginBy_eq, counted_eq, run_bind]
  refine Makes.bind (makes_andThen ?_ hestablish) fun result => ⟨trivial, fun _ => trivial⟩
  exact (makes_obtain cfg given).mono fun _ hc => hc.spares

theorem spares_probe (url : String) : Makes Call.SparesSession (probe url) :=
  (spares_ofAuth _).bind fun _ => ⟨trivial, fun _ => trivial⟩

theorem spares_watch (cfg : Config) (rounds : Nat) : Makes Call.SparesSession (watch cfg rounds) := by
  induction rounds with
  | zero => trivial
  | succ rounds ih => exact (spares_probe cfg.apiEndpoint).bind fun _ => ih

theorem spares_dropOrigins (origins : List String) :
    Makes Call.SparesSession (dropOrigins origins) := by
  induction origins with
  | nil => trivial
  | cons origin rest ih => exact (spares_ofAuth _).bind fun _ => ih

theorem spares_dropCredentials (cfg : Config) : Makes Call.SparesSession (dropCredentials cfg) := by
  rw [dropCredentials_eq]
  exact (spares_ofAuth _).bind fun _ => spares_dropOrigins _

end Spares

variable {cfg : Config} {α : Type} {xs : List (Exchange interface)}

theorem leads_of_spares {p : Program α} (h : Makes Call.SparesSession p) :
    (recounting Vouches).Leads (fun _ _ => True) xs p :=
  (leads_recounting h fun _ xs hc => hc.vouches xs).mono fun _ _ _ => trivial

/-- Only with a key is a claim found supported. -/
theorem exists_text_of_supported {key : Except Disk.Fault String} {claim : Entitlement} {day : Date}
    (h : License.KeyCache.check key claim day = .supported) :
    ∃ text, key = .ok text ∧ claim.check text day = .supported := by
  cases hclaimed : claim.supported with
  | false =>
    rw [check_of_unsupported hclaimed] at h
    exact absurd h (by simp)
  | true =>
    simp only [License.KeyCache.check, hclaimed] at h
    cases key with
    | ok text => exact ⟨text, rfl, h⟩
    | error cause => exact absurd h (by simp)

/-- A check counts, where it finds a claim supported. -/
theorem isCounted_of_supported {key : Except Disk.Fault String} {claim : Entitlement} {day : Date}
    (h : License.KeyCache.check key claim day = .supported) :
    License.KeyCache.isCounted key claim = true := by
  obtain ⟨text, rfl, -⟩ := exists_text_of_supported h
  exact Bool.or_true _

theorem leads_check_vouching (claim : Entitlement) (xs : List (Exchange interface)) :
    (recounting Vouches).Leads (fun status ys => status = .supported → Upholds claim xs ys) xs
      (check claim) := by
  rw [check_eq]
  refine ⟨trivial, fun clock _ => ?_⟩
  cases hclaimed : claim.supported with
  | true =>
    refine ⟨trivial, fun key _ => ?_⟩
    show (recounting Vouches).Leads _ _ (report key claim (Date.ofUnix clock))
    rw [report]
    split
    · refine ⟨trivial, fun _ _ hsupported => ⟨clock, key, ?_, hsupported⟩⟩
      rw [hsupported]
      show ((xs ++ [_]) ++ [_]) ++ [_] = _
      simp [weighing]
    · next hcounted => exact fun hsupported => absurd (isCounted_of_supported hsupported) hcounted
  | false =>
    have hstatus := check_of_unsupported hclaimed (.ok "") (Date.ofUnix clock)
    show (recounting Vouches).Leads _ _ (report (.ok "") claim (Date.ofUnix clock))
    rw [report, hstatus]
    split
    · exact ⟨trivial, fun _ _ hsupported => absurd hsupported (by simp)⟩
    · exact fun hsupported => absurd hsupported (by simp)

theorem leads_updateSupported_vouching (xs : List (Exchange interface)) :
    (recounting Vouches).Leads (fun _ _ => True) xs updateSupported := by
  rw [updateSupported_eq, checkStored_eq]
  refine ⟨trivial, fun _ _ => ⟨trivial, fun stored _ => ⟨trivial, fun license _ => ?_⟩⟩⟩
  refine (leads_check_vouching (claimUnder license stored) _).bind fun status ys hys => ?_
  refine ⟨fun hsupported => ⟨xs, stored, license, ?_⟩, fun _ _ => ⟨trivial, fun _ _ => trivial⟩⟩
  have hfront : xs ++ viewing stored license =
      ((xs ++ [⟨.enterCheck, ()⟩]) ++ [⟨.settings, stored⟩]) ++ [⟨.license, license⟩] := by
    simp [viewing]
  rw [hfront]
  refine hys ?_
  cases status with
  | supported => rfl
  | _ => exact absurd hsupported (by simp [License.Status.isSupported])

/-- The session is told of a user exactly where one with an id is stored. -/
theorem userOf_iff (found : Settings) : (userOf found).1 = true ↔ (userOf found).2.userId ≠ "" := by
  cases hthere : (found.value? Key.userId).isSome with
  | true =>
    have hid : found.value Key.userId ≠ "" := Settings.isSome_value?_iff.mp hthere
    simp [userOf, hthere, User.ofSettings, hid]
  | false => simp [userOf, hthere]

theorem leads_tell_vouching (cfg : Config) (known : String) (before : TokenPair) (found : Settings)
    (xs : List (Exchange interface)) :
    (recounting Vouches).Leads (fun _ _ => True) xs (tell cfg known before found) := by
  refine ⟨userOf_iff found, fun _ _ => ⟨trivial, fun _ _ => ?_⟩⟩
  show (recounting Vouches).Leads _ _ (ite _ _ _)
  split
  · exact leads_of_spares (spares_saveIfChanged cfg before)
  · refine (leads_updateSupported_vouching _).bind fun _ _ _ => ?_
    exact ⟨trivial, fun _ _ => leads_of_spares (spares_saveIfChanged cfg before)⟩

theorem leads_ofJob_vouching (cfg : Config) (job : Job) (xs : List (Exchange interface)) :
    (recounting Vouches).Leads (fun _ _ => True) xs (ofJob cfg job) := by
  have hpair : Makes Call.SparesSession (tokenPair cfg) :=
    (spares_ofAuth _).bind fun _ => trivial
  cases job with
  | refreshUser =>
    rw [ofJob, refreshUser_eq]
    refine (leads_of_spares hpair).bind fun before _ _ => ⟨trivial, fun first _ => ?_⟩
    have hfetch : Makes Call.SparesSession (fetchUser cfg).run :=
      (makes_fetchUser cfg).mono fun _ hc => hc.spares
    refine (leads_of_spares hfetch).bind fun result _ _ => ?_
    rcases result with e | _ | user
    · exact ⟨trivial, fun found _ => leads_tell_vouching cfg _ before found _⟩
    · exact ⟨trivial, fun found _ => leads_tell_vouching cfg _ before found _⟩
    · exact ⟨trivial, fun _ _ => ⟨trivial, fun found _ => leads_tell_vouching cfg _ before found _⟩⟩
  | refreshSupport =>
    rw [ofJob, refreshSupport_eq]
    have hfetch : Makes Call.SparesSession (fetchClaim cfg).run :=
      (makes_fetchClaim cfg).mono fun _ hc => hc.spares
    refine (leads_of_spares hpair).bind fun before _ _ => ?_
    refine (leads_of_spares hfetch).bind fun _ _ _ => ?_
    refine (leads_updateSupported_vouching _).bind fun _ _ _ => ?_
    exact ⟨trivial, fun _ _ => leads_of_spares (spares_saveIfChanged cfg before)⟩

theorem leads_takeUp {stored : Settings} {registering : List (Exchange interface)}
    (hstored : (stored.value? Key.userId).isSome = true)
    (hregistering : ∀ x ∈ registering, ∃ c, x.call = .auth c) :
    (recounting Vouches).Leads (fun _ _ => True) (⟨.settings, stored⟩ :: registering)
      (takeUp stored).run := by
  rw [run_takeUp]
  refine (leads_check_vouching _ _).bind fun status ys hys => ⟨.inr ?_, fun _ _ => trivial⟩
  refine ⟨stored, registering, hstored, rfl, rfl, hregistering, fun hsupported => hys ?_⟩
  cases status with
  | supported => rfl
  | _ => exact absurd hsupported (by simp [License.Status.isSupported])

theorem leads_loadSession (cfg : Config) :
    (recounting Vouches).Leads (fun _ _ => True) [] (loadSession cfg).run := by
  rw [run_loadSession]
  refine ⟨trivial, fun stored _ => ?_⟩
  show (recounting Vouches).Leads _ [⟨.settings, stored⟩] (ite _ _ _)
  split
  · trivial
  · next hstored =>
    have hthere : (stored.value? Key.userId).isSome = true := by
      simpa [Option.isSome_iff_ne_none] using hstored
    cases storedCredentials cfg stored with
    | none => exact leads_takeUp hthere fun _ hx => absurd hx List.not_mem_nil
    | some c =>
      have hspares (d : Call) (xs : List (Exchange interface)) (hd : ∃ d', d = .auth d') :
          Vouches xs d := by
        obtain ⟨d', rfl⟩ := hd
        trivial
      refine (leads_recounting (spares_registerSession cfg c) hspares).bind fun result ys hys => ?_
      obtain ⟨registering, rfl, hregistering⟩ := hys
      cases result with
      | error e => trivial
      | ok _ => exact leads_takeUp hthere hregistering

theorem leads_restore (cfg : Config) :
    (recounting Vouches).Leads (fun _ _ => True) [] (restore cfg).run := by
  rw [run_restore]
  refine (leads_loadSession cfg).bind fun result ys _ => leads_of_spares ?_
  cases result with
  | error e => trivial
  | ok found => exact makes_resume trivial (fun _ => trivial) found

theorem leads_logout_vouching (cfg : Config) :
    (recounting Vouches).Leads (fun _ _ => True) [] (logout cfg) := by
  rw [logout_eq]
  refine ⟨trivial, fun _ _ => (leads_of_spares (spares_dropCredentials cfg)).bind fun _ _ _ => ?_⟩
  exact ⟨.inl rfl, fun _ _ => ⟨trivial, fun _ _ => ⟨trivial, fun _ _ => trivial⟩⟩⟩

end Program

/-- What an account can be told to do, each by a task of its own. -/
inductive Action where
  | loadSession
  | restore
  | login (given : Option Nat)
  | logout
  | refresh (job : Job)
  | probe (url : String)
  | save
  | checkStored
  /-- Whatever else leaves the session alone. -/
  | other (p : Program Unit) (spares : Makes Call.SparesSession p)

namespace Action

def program (cfg : Config) : Action → Program Unit
  | loadSession => (Program.loadSession cfg).run.bind fun _ => .done ()
  | restore => (Program.restore cfg).run.bind fun _ => .done ()
  | login given => (Program.loginBy cfg given).bind fun _ => .done ()
  | logout => (Program.logout cfg).bind fun _ => .done ()
  | refresh job => Program.ofJob cfg job
  | probe url => (Program.probe url).bind fun _ => .done ()
  | save => (Program.saveCredentials cfg).bind fun _ => .done ()
  | checkStored => Program.checkStored.bind fun _ => .done ()
  | other p _ => p

theorem leads_program (cfg : Config) (action : Action) :
    (recounting Vouches).Leads (fun _ _ => True) [] (action.program cfg) := by
  cases action with
  | loadSession => exact (Program.leads_loadSession cfg).bind fun _ _ _ => trivial
  | restore => exact (Program.leads_restore cfg).bind fun _ _ _ => trivial
  | login given =>
    exact Program.leads_of_spares ((Program.spares_loginBy cfg given).bind fun _ => makes_done ())
  | logout => exact (Program.leads_logout_vouching cfg).bind fun _ _ _ => trivial
  | refresh job => exact Program.leads_ofJob_vouching cfg job []
  | probe url =>
    exact Program.leads_of_spares ((Program.spares_probe url).bind fun _ => makes_done ())
  | save =>
    exact Program.leads_of_spares ((Program.spares_saveCredentials cfg).bind fun _ => makes_done ())
  | checkStored =>
    rw [program, Program.checkStored_eq]
    refine ⟨trivial, fun stored _ => ⟨trivial, fun license _ => ?_⟩⟩
    exact (Program.leads_check_vouching _ _).bind fun _ _ _ => trivial
  | other p spares => exact Program.leads_of_spares spares

end Action

section Session

/-- What a call writes of support. -/
def Call.verdict? : Call → Option Bool
  | .setSession written => some written.supported
  | .setSupported supported => some supported
  | _ => none

/-- What an event wrote of support. -/
def verdictOf : AccountGate.Event interface → Option Bool
  | .inner c _ => c.verdict?
  | _ => none

theorem Call.supported_onSession (c : Call) (session : Session) :
    (c.onSession session).supported = c.verdict?.getD session.supported := by
  cases c <;> rfl

/-- Somebody is signed in exactly where the session has a user with an id. -/
def Session.Agrees (session : Session) : Prop :=
  session.authorized = true ↔ session.user.userId ≠ ""

theorem Session.Agrees.onSession {session : Session} {xs : List (Exchange interface)} {c : Call}
    (h : session.Agrees) (hc : Vouches xs c) : (c.onSession session).Agrees := by
  cases c with
  | setSession session' =>
    rcases hc with rfl | ⟨stored, registering, hstored, hauthorized, huser, -, -⟩
    · exact ⟨fun hfalse => Bool.noConfusion hfalse, fun hid => absurd rfl hid⟩
    · have hid : session'.user.userId ≠ "" := by
        rw [huser]
        exact Settings.isSome_value?_iff.mp hstored
      exact ⟨fun _ => hid, fun _ => hauthorized⟩
  | setUser authorized user => exact hc
  | setSupported supported => exact h
  | _ => exact h

end Session

section Runs

variable {ι : Type} [DecidableEq ι] {cfg : Config} {actions : ι → Action} {s : Shared}
  {w₀ w : World interface Shared ι Unit} {log : Trace interface ι} {i : ι}

/-- A start with one action for each task. -/
def begun (cfg : Config) (actions : ι → Action) (s : Shared) : World interface Shared ι Unit :=
  ⟨s, fun i => .running ((actions i).program cfg)⟩

/-- What the session says of support after some events. -/
def supportedAfter (start : Bool) (log : Trace interface ι) : Bool :=
  log.foldl (fun supported e => (verdictOf e.2).getD supported) start

omit [DecidableEq ι] in
theorem supportedAfter_snoc (start : Bool) (log : Trace interface ι)
    (e : ι × AccountGate.Event interface) :
    supportedAfter start (log ++ [e]) = (verdictOf e.2).getD (supportedAfter start log) := by
  simp [supportedAfter]

theorem supported_of_reaches (h : World.Reaches Shared.step w₀ log w) :
    w.state.session.supported = supportedAfter w₀.state.session.supported log := by
  induction h with
  | start => rfl
  | @step log w e w' _ hs ih =>
    rw [supportedAfter_snoc, ← ih]
    cases hs with
    | @inner i c next r t ht hr =>
      show t.session.supported = _
      rw [(Shared.frames_of_step hr).session_eq, Call.supported_onSession]
      rfl
    | asked ht hr => rfl
    | answered r ht => rfl

omit [DecidableEq ι] in
/-- If the session says something else than at the start, then because it was written last. -/
theorem exists_last_verdict {start : Bool} (h : supportedAfter start log ≠ start) :
    ∃ before i c r after, log = before ++ (i, .inner c r) :: after ∧
      c.verdict? = some (supportedAfter start log) ∧ ∀ e ∈ after, verdictOf e.2 = none := by
  induction log using List.reverseRecOn with
  | nil => exact absurd rfl h
  | append_singleton log e ih =>
    obtain ⟨j, e⟩ := e
    rw [supportedAfter_snoc] at h ⊢
    cases hverdict : verdictOf e with
    | none =>
      rw [hverdict] at h
      obtain ⟨before, i, c, r, after, rfl, hc, hafter⟩ := ih h
      refine ⟨before, i, c, r, after ++ [(j, e)], by simp, hc, fun e' he' => ?_⟩
      rcases List.mem_append.mp he' with hmem | hmem
      · exact hafter e' hmem
      · rw [List.mem_singleton.mp hmem]
        exact hverdict
    | some verdict =>
      cases e with
      | inner c r => exact ⟨log, j, c, r, [], rfl, hverdict, fun e he => absurd he List.not_mem_nil⟩
      | asked c => exact absurd hverdict (by simp [verdictOf])
      | answered c r => exact absurd hverdict (by simp [verdictOf])

/-- Each call of a task is vouched for by the replies that the task has got. -/
theorem vouches_of_reaches (h : World.Reaches Shared.step (begun cfg actions s) log w) {c : Call}
    {next : Reply c → Program Unit} (ht : w.task i = .running (.ask c next)) :
    Vouches (World.repliesTo i log) c := by
  have hleads := leads_of_reaches (fun i => (actions i).leads_program cfg) h (fun _ => rfl) i
  rw [ht] at hleads
  exact hleads.1

theorem agrees_of_reaches (hs : s.session.Agrees)
    (h : World.Reaches Shared.step (begun cfg actions s) log w) : w.state.session.Agrees := by
  induction h with
  | start => exact hs
  | step hreach hstep ih =>
    cases hstep with
    | @inner i c next r t ht hr =>
      show t.session.Agrees
      rw [(Shared.frames_of_step hr).session_eq]
      exact ih.onSession (vouches_of_reaches hreach ht)
    | asked ht hr => exact ih
    | answered r ht => exact ih

/-- After these replies a task asked for something, and was answered from this state. -/
def Looked (w₀ : World interface Shared ι Unit) (log : Trace interface ι) (i : ι)
    (xs : List (Exchange interface)) (c : Call) (s : Shared) : Prop :=
  ∃ front r back u, log = front ++ (i, .inner c r) :: back ∧ World.repliesTo i front = xs ∧
    World.Reaches Shared.step w₀ front u ∧ u.state = s

theorem exists_looked {p : ι → Program Unit} (h : World.Reaches Shared.step w₀ log w)
    (hp : ∀ i, w₀.task i = .running (p i)) {c : Call} {r : Reply c}
    {xs ys : List (Exchange interface)} (hx : World.repliesTo i log = xs ++ ⟨c, r⟩ :: ys)
    (hc : ∀ s, Shared.step s c ≠ .outside) :
    ∃ s t, Looked w₀ log i xs c s ∧ s.step c = .reply r t := by
  obtain ⟨front, back, u, t, hlog, hfront, hreach, hs⟩ := h.replied hp hx hc
  exact ⟨u.state, t, ⟨front, r, back, u, hlog, hfront, hreach, rfl⟩, hs⟩

/-- The key that a claim was weighed with was the one in the cache when the task looked. -/
theorem exists_weighed {p : ι → Program Unit} (h : World.Reaches Shared.step w₀ log w)
    (hp : ∀ i, w₀.task i = .running (p i)) {front : List (Exchange interface)} {clock : Int}
    {key : Except Disk.Fault String}
    (hreplies : World.repliesTo i log = front ++ weighing clock key) :
    ∃ s, Looked w₀ log i (front ++ [⟨.auth .clock, clock⟩]) .loadKey s ∧
      License.KeyCache.load s.disk s.keyDir = key := by
  have hloads : World.repliesTo i log = (front ++ [⟨.auth .clock, clock⟩]) ++
      ⟨.loadKey, key⟩ :: [⟨.auth (.count (.ofStatus .supported)), ()⟩] := by
    rw [hreplies]
    simp [weighing]
  obtain ⟨s, t, hlooked, hloaded⟩ := exists_looked h hp hloads (by simp [Shared.step])
  exact ⟨s, hlooked, (Outcome.reply.inj hloaded).1⟩

/-- The last thing that a task did was to check a claim with a key on a day, and it is about to
write that the claim is supported. Settings, license and key are those of the moments when it
looked. -/
inductive ChecksOut (w₀ : World interface Shared ι Unit) (log : Trace interface ι) (i : ι) :
    Call → Entitlement → Except Disk.Fault String → Date → Prop
  /-- The claim of the license, or the stored one where none can be read. -/
  | current {front : List (Exchange interface)} {s₁ s₂ s₃ : Shared} {license clock key} :
      World.repliesTo i log = front ++ viewing s₁.store.settings license ++ weighing clock key →
      Looked w₀ log i (front ++ [⟨.enterCheck, ()⟩]) .settings s₁ →
      Looked w₀ log i (front ++ [⟨.enterCheck, ()⟩, ⟨.settings, s₁.store.settings⟩]) .license s₂ →
      Looked w₀ log i (front ++ viewing s₁.store.settings license ++ [⟨.auth .clock, clock⟩])
        .loadKey s₃ →
      license = LicenseFile.read s₂.disk s₂.licenseDir →
      key = License.KeyCache.load s₃.disk s₃.keyDir →
      ChecksOut w₀ log i (.setSupported true) (claimUnder license s₁.store.settings) key
        (Date.ofUnix clock)
  /-- The stored claim, when a stored account is taken up. -/
  | stored {registering : List (Exchange interface)} {s₁ s₃ : Shared} {clock key} :
      World.repliesTo i log = ⟨.settings, s₁.store.settings⟩ :: registering ++ weighing clock key →
      (∀ x ∈ registering, ∃ c, x.call = .auth c) →
      Looked w₀ log i [] .settings s₁ →
      Looked w₀ log i (⟨.settings, s₁.store.settings⟩ :: registering ++ [⟨.auth .clock, clock⟩])
        .loadKey s₃ →
      key = License.KeyCache.load s₃.disk s₃.keyDir →
      ChecksOut w₀ log i (.setSession ⟨true, true, .ofSettings s₁.store.settings⟩)
        (SupportClaim.ofSettings s₁.store.settings) key (Date.ofUnix clock)

/-- Who writes that an account is supported has checked a claim. -/
theorem exists_checksOut {p : ι → Program Unit} (h : World.Reaches Shared.step w₀ log w)
    (hp : ∀ i, w₀.task i = .running (p i)) {c : Call} (hc : Vouches (World.repliesTo i log) c)
    (hverdict : c.verdict? = some true) : ∃ claim key day, ChecksOut w₀ log i c claim key day ∧
      License.KeyCache.check key claim day = .supported := by
  cases c with
  | setSession session =>
    obtain rfl | ⟨stored, registering, -, hauthorized, huser, hregistering, hupholds⟩ := hc
    · exact absurd hverdict (by simp [Call.verdict?])
    obtain ⟨authorized, supported, user⟩ := session
    obtain rfl : authorized = true := hauthorized
    obtain rfl : supported = true := Option.some.inj hverdict
    obtain rfl : user = .ofSettings stored := huser
    obtain ⟨clock, key, hreplies, hcheck⟩ := hupholds rfl
    have hviewed : World.repliesTo i log =
        [] ++ ⟨.settings, stored⟩ :: (registering ++ weighing clock key) := hreplies
    obtain ⟨s₁, _, hsettings, hread⟩ := exists_looked h hp hviewed (by simp [Shared.step])
    obtain ⟨rfl, -⟩ := Outcome.reply.inj hread
    obtain ⟨s₃, hkey, rfl⟩ := exists_weighed h hp hreplies
    exact ⟨_, _, _, .stored hreplies hregistering hsettings hkey rfl, hcheck⟩
  | setSupported supported =>
    obtain rfl : supported = true := Option.some.inj hverdict
    obtain ⟨front, stored, license, clock, key, hreplies, hcheck⟩ := hc rfl
    have hviewed : World.repliesTo i log = (front ++ [⟨.enterCheck, ()⟩]) ++
        ⟨.settings, stored⟩ :: ⟨.license, license⟩ :: weighing clock key := by
      rw [hreplies]
      simp [viewing]
    obtain ⟨s₁, _, hsettings, hread⟩ := exists_looked h hp hviewed (by simp [Shared.step])
    obtain ⟨rfl, -⟩ := Outcome.reply.inj hread
    have hlicensed : World.repliesTo i log =
        (front ++ [⟨.enterCheck, ()⟩, ⟨.settings, s₁.store.settings⟩]) ++
          ⟨.license, license⟩ :: weighing clock key := by
      rw [hviewed]
      simp
    obtain ⟨s₂, _, hlicense, hread⟩ := exists_looked h hp hlicensed (by simp [Shared.step])
    obtain ⟨rfl, -⟩ := Outcome.reply.inj hread
    obtain ⟨s₃, hkey, rfl⟩ := exists_weighed h hp hreplies
    exact ⟨_, _, _, .current hreplies hsettings hlicense hkey rfl rfl, hcheck⟩
  | _ => exact absurd hverdict (by simp [Call.verdict?])

theorem Looked.exists_mem {xs : List (Exchange interface)} {c : Call} {s : Shared}
    (h : Looked w₀ log i xs c s) : ∃ r, (i, .inner c r) ∈ log := by
  obtain ⟨front, r, back, u, rfl, -⟩ := h
  exact ⟨r, by simp⟩

theorem ChecksOut.exists_loadKey {c : Call} {claim : Entitlement} {key : Except Disk.Fault String}
    {day : Date} (h : ChecksOut w₀ log i c claim key day) : ∃ r, (i, .inner .loadKey r) ∈ log := by
  cases h with
  | current _ _ _ hkey => exact hkey.exists_mem
  | stored _ _ _ hkey => exact hkey.exists_mem

/-- What was written last of support is the outcome of a check that has found a genuine claim in its
period. -/
def VouchedFor (w₀ : World interface Shared ι Unit) (log : Trace interface ι) : Prop :=
  ∃ before i c r after claim text day first last, log = before ++ (i, .inner c r) :: after ∧
    (∀ e ∈ after, verdictOf e.2 = none) ∧ ChecksOut w₀ before i c claim (.ok text) day ∧
    claim.Genuine text ∧ Date.parse claim.startDate = .ok first ∧
    Date.parse claim.endDate = .ok last ∧ first ≤ day ∧ day ≤ last

theorem VouchedFor.exists_loadKey (h : VouchedFor w₀ log) :
    ∃ i r, (i, .inner .loadKey r) ∈ log := by
  obtain ⟨before, i, c, r, after, claim, text, day, first, last, rfl, -, hchecks, -⟩ := h
  obtain ⟨key, hkey⟩ := hchecks.exists_loadKey
  exact ⟨i, key, List.mem_append_left _ hkey⟩

theorem vouchedFor_of_supported (hs : s.session.supported = false)
    (h : World.Reaches Shared.step (begun cfg actions s) log w)
    (hsupported : w.state.session.supported = true) : VouchedFor (begun cfg actions s) log := by
  have hnow : supportedAfter s.session.supported log = true :=
    (supported_of_reaches h).symm.trans hsupported
  have hchanged : supportedAfter s.session.supported log ≠ s.session.supported := by
    rw [hnow, hs]
    decide
  obtain ⟨before, i, c, r, after, rfl, hverdict, hafter⟩ := exists_last_verdict hchanged
  rw [hnow] at hverdict
  obtain ⟨u, u', hreach, hstep⟩ := h.split
  cases hstep with
  | inner ht hr =>
    obtain ⟨claim, key, day, hchecks, hcheck⟩ :=
      exists_checksOut hreach (fun _ => rfl) (vouches_of_reaches hreach ht) hverdict
    obtain ⟨text, rfl, hsigned⟩ := Program.exists_text_of_supported hcheck
    obtain ⟨hgenuine, first, last, hfirst, hlast, hle, hge⟩ := Entitlement.supported_iff.mp hsigned
    exact ⟨before, i, c, r, after, claim, text, day, first, last, rfl, hafter, hchecks, hgenuine,
      hfirst, hlast, hle, hge⟩

/-- Somebody is signed in exactly where the session has a user with an id. The account is supported
only where what was written last of it is the outcome of a check: of the claim as it was when the
check looked at it, with the key that was in the cache then, and the claim was genuine and in its
period. So the account is not supported before a key has been looked at. -/
theorem session_is_vouched_for (hs : s.session = {})
    (h : World.Reaches Shared.step (begun cfg actions s) log w) :
    (w.state.session.authorized = true ↔ w.state.session.user.userId ≠ "") ∧
    (w.state.session.supported = true → VouchedFor (begun cfg actions s) log) ∧
    ((∀ i key, (i, .inner .loadKey key) ∉ log) → w.state.session.supported = false) := by
  have hnobody : s.session.Agrees := by
    rw [hs]
    exact ⟨fun hfalse => Bool.noConfusion hfalse, fun hid => absurd rfl hid⟩
  have hvouched (hsupported : w.state.session.supported = true) :
      VouchedFor (begun cfg actions s) log := vouchedFor_of_supported (by rw [hs]) h hsupported
  refine ⟨agrees_of_reaches hnobody h, hvouched, fun hnone => ?_⟩
  refine Bool.eq_false_iff.mpr fun hsupported => ?_
  obtain ⟨i, key, hkey⟩ := (hvouched hsupported).exists_loadKey
  exact hnone i key hkey

end Runs

theorem Call.IsAloof.sparesFiles {c : Call} (h : c.IsAloof) : c.SparesFiles := by
  cases c with
  | apply changes => exact h.elim
  | storeKey text => exact h.elim
  | _ => trivial

theorem Frames.storedStatus_eq {s t : Shared} {c : Call} (h : Frames c s t) (hc : c.SparesFiles)
    (day : Date) : storedStatus t day = storedStatus s day := by
  have hstore : t.store = s.store := h.store_eq fun changes heq => by
    rw [heq] at hc
    exact hc
  rw [storedStatus, storedStatus, hstore, h.disk_eq hc, h.keyDir_eq, h.licenseDir_eq]

/-- Taking an account up changes neither settings nor disk. -/
theorem sparesFiles_loadSession (cfg : Config) :
    Makes Call.SparesFiles (Program.loadSession cfg).run := by
  have htakeUp (stored : Settings) : Makes Call.SparesFiles (Program.takeUp stored).run := by
    rw [Program.run_takeUp]
    refine ((Program.makes_check _).mono fun _ hc => hc.sparesFiles).bind fun status => ?_
    exact ⟨trivial, fun _ => trivial⟩
  rw [Program.run_loadSession]
  refine ⟨trivial, fun stored => ?_⟩
  show Makes _ (ite _ _ _)
  split
  · trivial
  · cases Program.storedCredentials cfg stored with
    | none => exact htakeUp stored
    | some c =>
      have hregister : Makes Call.SparesFiles (Program.registerSession cfg c).run :=
        Program.makes_registerSession_of (fun _ => trivial) fun _ => trivial
      exact Program.makes_andThen hregister fun _ => htakeUp stored

/-- A stored account without credentials is taken up. -/
theorem solo_loadSession (cfg : Config) {s : Shared} (now : Int) (answer : Request → Answer)
    (huser : (s.store.settings.value? Key.userId).isSome = true)
    (hnone : Program.storedCredentials cfg s.store.settings = none) : ∃ counters,
    Flow.Solo Shared.step (Program.Scripted now answer) (Program.loadSession cfg).run s (.ok true)
      { s with
        session := ⟨true, (License.KeyCache.check (License.KeyCache.load s.disk s.keyDir)
          (SupportClaim.ofSettings s.store.settings) (Date.ofUnix now)).isSupported,
          .ofSettings s.store.settings⟩
        counters } := by
  obtain ⟨counters, hcheck⟩ := Program.solo_check now answer s
    (SupportClaim.ofSettings s.store.settings)
  refine ⟨counters, ?_⟩
  rw [Program.run_loadSession]
  refine .inner rfl trivial ?_
  rw [if_neg (by simpa [Option.isSome_iff_ne_none] using huser), hnone, Program.run_takeUp]
  exact hcheck.bind (.inner rfl trivial (.done _ _))

section Sample

set_option maxRecDepth 10000

/-- The sample before its account has been taken up. -/
def fresh : Shared := { sample with session := {} }

/-- The same beside a license that claims nothing. -/
def licensed : Shared :=
  { fresh with disk := { nodes := sample.disk.nodes ++ [(["l"], .directory),
      (["l", LicenseFile.fileName], .file (Text.bytes "\x7b\x7d"))] } }

/-- An account is taken up by itself. -/
theorem exists_taken_up {s : Shared} (hsettings : s.store.settings = sample.store.settings)
    (hkey : License.KeyCache.load s.disk s.keyDir = .ok Entitlement.sampleKeyText) : ∃ log w,
    World.Reaches Shared.step (begun sampleConfig (fun _ : Unit => .loadSession) s) log w ∧
    w.state.session.supported = true := by
  have hstatus : License.KeyCache.check (License.KeyCache.load s.disk s.keyDir)
      (SupportClaim.ofSettings s.store.settings) (Date.ofUnix noon) = .supported := by
    rw [hkey, hsettings, ofSettings_sample, day_noon]
    exact (check_of_supported (by decide) _ _).trans Entitlement.check_sample
  have huser : (s.store.settings.value? Key.userId).isSome = true := by
    rw [hsettings]
    decide
  have hnone : Program.storedCredentials sampleConfig s.store.settings = none := by
    rw [hsettings]
    decide
  obtain ⟨counters, hsolo⟩ := solo_loadSession sampleConfig noon (fun _ => .ok {}) huser hnone
  obtain ⟨log, hreach, -⟩ := World.reaches_of_solo (w := begun sampleConfig
    (fun _ : Unit => .loadSession) s) (i := ()) hsolo rfl rfl
  refine ⟨log, _, hreach, ?_⟩
  show License.Status.isSupported _ = true
  rw [hstatus]
  rfl

/-- The account of the sample is taken up: its stored claim is what vouches for it. -/
theorem genuine_claim_is_vouched_for : ∃ log w, fresh.session = {} ∧
    World.Reaches Shared.step (begun sampleConfig (fun _ : Unit => .loadSession) fresh) log w ∧
    w.state.session.supported = true ∧
    VouchedFor (begun sampleConfig (fun _ : Unit => .loadSession) fresh) log := by
  obtain ⟨log, w, hreach, hsupported⟩ := exists_taken_up (s := fresh) rfl load_sample
  exact ⟨log, w, rfl, hreach, hsupported, (session_is_vouched_for rfl hreach).2.1 hsupported⟩

theorem load_licensed : License.KeyCache.load licensed.disk licensed.keyDir =
    .ok Entitlement.sampleKeyText := by
  have hnode : licensed.disk.get? ["k", License.KeyCache.fileName] =
      some (.file (Text.bytes Entitlement.sampleKeyText)) := by
    simp [licensed, sample, Disk.get?, List.lookup_cons, License.KeyCache.fileName]
  exact readText_of_place (by decide +kernel) hnode

theorem license_licensed : LicenseFile.read licensed.disk licensed.licenseDir =
    .ok (some (.object [])) := by
  have hinstalled : LicenseFile.isInstalled licensed.disk licensed.licenseDir = true := by
    decide +kernel
  have hnode : licensed.disk.get? ["l", LicenseFile.fileName] =
      some (.file (Text.bytes "\x7b\x7d")) := by
    simp [licensed, sample, Disk.get?, List.lookup_cons, LicenseFile.fileName,
      License.KeyCache.fileName]
  have htext : licensed.disk.readText (LicenseFile.path licensed.licenseDir) = .ok "\x7b\x7d" :=
    readText_of_place (by decide +kernel) hnode
  simp only [LicenseFile.read, hinstalled, htext, parse?_blank, if_true]

/-- What is taken up is the stored claim, also beside a license: the account is supported, and at no
moment of the run was the claim of the license. -/
theorem installed_license_is_not_heeded : ∃ log w, licensed.session = {} ∧
    World.Reaches Shared.step (begun sampleConfig (fun _ : Unit => .loadSession) licensed) log w ∧
    w.state.session.supported = true ∧
    ∀ front back u day, log = front ++ back → World.Reaches Shared.step
        (begun sampleConfig (fun _ : Unit => .loadSession) licensed) front u →
      License.KeyCache.check (License.KeyCache.load u.state.disk u.state.keyDir)
        (claimUnder (LicenseFile.read u.state.disk u.state.licenseDir) u.state.store.settings) day =
        .unsupported := by
  obtain ⟨log, w, hreach, hsupported⟩ := exists_taken_up (s := licensed) rfl load_licensed
  have hstatus (day : Date) : storedStatus licensed day = .unsupported := by
    rw [storedStatus, license_licensed]
    exact Program.check_of_unsupported rfl _ _
  refine ⟨log, w, rfl, hreach, hsupported, fun front back u day _ hfront => ?_⟩
  have hmakes (i : Unit) : Makes Call.SparesFiles (Action.loadSession.program sampleConfig) :=
    (sparesFiles_loadSession sampleConfig).bind fun _ => makes_done ()
  have hkeep {t : Shared} {c : Call} {r : Reply c} {t' : Shared} (hc : c.SparesFiles)
      (ht : storedStatus t day = .unsupported) (hs : t.step c = .reply r t') :
      storedStatus t' day = .unsupported :=
    ((Shared.frames_of_step hs).storedStatus_eq hc day).trans ht
  exact (hfront.keeps (fun _ => rfl) hmakes (hstatus day) hkeep :)

end Sample

end AccountGate.Account
