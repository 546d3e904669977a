import AccountGate.Proofs.Account.Parts

/-!
Whether the service is taken to be there, and what a sign-in makes of it. Main statement: after any
run, what is said of the service is the outcome of the probe that ended last; a sign-in that begins
while the service is missing is refused and changes nothing but its count, and one that begins while
it is there is never refused.
-/

namespace AccountGate.Account

open AccountGate.Flow (Makes Path path_ask_iff path_done_iff)

section Probes

variable {α β : Type} {cfg : Config} {xs : List (Exchange interface)} {c : Call}

/-- A try of an address, with its answer. -/
def trying (url : String) (answer : Answer) : Exchange interface :=
  ⟨.auth (.send { request := .head url, suspended := true }), answer⟩

/-- After which replies a program may say whether the service is there. -/
def Reports (xs : List (Exchange interface)) : Call → Prop
  | .setAvailable there => ∃ front url answer, xs = front ++ [trying url answer] ∧
    there = Program.isReachable answer
  | _ => True

/-- A program that says whether the service is there only when it has just tried. -/
def Probing (p : Program α) : Prop := ∀ xs c next, Path p xs (.ask c next) → Reports xs c

theorem Call.SparesAvailability.reports (h : c.SparesAvailability) : Reports xs c := by
  cases c with
  | setAvailable there => exact h.elim
  | _ => trivial

theorem Reports.prepend (h : Reports xs c) (front : List (Exchange interface)) :
    Reports (front ++ xs) c := by
  cases c with
  | setAvailable there =>
    obtain ⟨before, url, answer, rfl, hthere⟩ := h
    exact ⟨front ++ before, url, answer, (List.append_assoc _ _ _).symm, hthere⟩
  | _ => trivial

theorem probing_of_spares {p : Program α} (h : Makes Call.SparesAvailability p) : Probing p :=
  fun _ _ _ hpath => (h.path hpath).1.1.reports

theorem Probing.bind {p : Program α} {f : α → Program β} (hp : Probing p)
    (hf : ∀ a, Probing (f a)) : Probing (p.bind f) := by
  intro xs c next h
  rcases h.of_bind with ⟨d, next', hfirst, hq⟩ | ⟨a, ys, zs, rfl, -, hsecond⟩
  · obtain ⟨rfl, -⟩ := Flow.ask.inj hq
    exact hp _ _ _ hfirst
  · exact (hf a _ _ _ hsecond).prepend ys

namespace Program

theorem isReachable_eq_true_iff {answer : Answer} :
    isReachable answer = true ↔ ∃ response, answer = .ok response ∧ response.status < 500 := by
  cases answer <;> simp [isReachable]

theorem probe_eq (url : String) : probe url =
    .ask (.auth (.send { request := .head url, suspended := true })) fun answer =>
      .ask (.setAvailable (isReachable answer)) fun _ => .done (isReachable answer) := rfl

/-- A probe has not been answered, or it has to say what came of it, or it has come to its end. -/
theorem path_probe_iff {url : String} {q : Program Bool} : Path (probe url) xs q ↔
    (xs = [] ∧ q = probe url) ∨ ∃ answer,
      (xs = [trying url answer] ∧
        q = .ask (.setAvailable (isReachable answer)) fun _ => .done (isReachable answer)) ∨
      (xs = [trying url answer, ⟨.setAvailable (isReachable answer), ()⟩] ∧
        q = .done (isReachable answer)) := by
  rw [probe_eq, path_ask_iff]
  refine or_congr_right ?_
  constructor
  · rintro ⟨answer, rest, rfl, h⟩
    rcases path_ask_iff.mp h with ⟨rfl, rfl⟩ | ⟨_, rest, rfl, hrest⟩
    · exact ⟨answer, .inl ⟨rfl, rfl⟩⟩
    · obtain ⟨rfl, rfl⟩ := path_done_iff.mp hrest
      exact ⟨answer, .inr ⟨rfl, rfl⟩⟩
  · rintro ⟨answer, ⟨rfl, rfl⟩ | ⟨rfl, rfl⟩⟩
    · exact ⟨answer, [], rfl, .nil _⟩
    · exact ⟨answer, _, rfl, path_ask_iff.mpr (.inr ⟨(), [], rfl, .nil _⟩)⟩

theorem probing_probe (url : String) : Probing (probe url) := by
  intro xs c next h
  rcases path_probe_iff.mp h with ⟨-, hq⟩ | ⟨answer, ⟨rfl, hq⟩ | ⟨-, hq⟩⟩
  · obtain ⟨rfl, -⟩ := Flow.ask.inj hq
    trivial
  · obtain ⟨rfl, -⟩ := Flow.ask.inj hq
    exact ⟨[], url, answer, rfl, rfl⟩
  · exact absurd hq (by simp)

theorem probing_watch (cfg : Config) (rounds : Nat) : Probing (watch cfg rounds) := by
  induction rounds with
  | zero => exact probing_of_spares trivial
  | succ rounds ih => exact (probing_probe cfg.apiEndpoint).bind fun _ => ih

end Program

/-- All that an account is told to do says so only then, if what a host adds does. -/
theorem probing_program (cfg : Config) {action : Action}
    (h : ∀ p spares, action = .other p spares → Probing p) : Probing (action.program cfg) := by
  cases action with
  | probe url => exact (Program.probing_probe url).bind fun _ => probing_of_spares trivial
  | other p spares => exact h p spares rfl
  | _ => exact probing_of_spares (ordinary_program cfg (by simp) (by simp)).spares

end Probes

section Service

variable {ι α : Type} [DecidableEq ι] {w₀ w : World interface Shared ι α}
  {log : Trace interface ι} {p : ι → Program α} {i : ι}

/-- What an event said of the service. -/
def reportOf (e : AccountGate.Event interface) : Option Bool :=
  e.reply?.bind fun x => x.call.report?

/-- What has been said of the service, the first first, and by which task. -/
def reports (log : Trace interface ι) : List (ι × Bool) :=
  log.filterMap fun e => (reportOf e.2).map (e.1, ·)

/-- What was said last of the service; until something is said it is taken to be there. -/
def saidLast (log : Trace interface ι) : Bool := ((reports log).getLast?.map Prod.snd).getD true

omit [DecidableEq ι] in
theorem saidLast_snoc (log : Trace interface ι) (e : ι × AccountGate.Event interface) :
    saidLast (log ++ [e]) = (reportOf e.2).getD (saidLast log) := by
  cases h : reportOf e.2 <;> simp [saidLast, reports, h]

/-- What a task said is read off its replies. -/
theorem reports_filter (i : ι) (log : Trace interface ι) :
    (reports log).filter (fun r => r.1 = i) =
      ((World.repliesTo i log).filterMap fun x => x.call.report?).map (i, ·) := by
  rw [reports, World.repliesTo, List.filter_filterMap, List.filterMap_filterMap, List.map_filterMap]
  congr 1
  funext e
  obtain ⟨j, e⟩ := e
  by_cases hj : j = i
  · subst hj
    rw [if_pos rfl, reportOf]
    cases e.reply?.bind fun x => x.call.report? <;> simp
  · cases reportOf e <;> simp [hj]

theorem Shared.available_of_step {s s' : Shared} {c : Call} {r : Reply c}
    (hs : s.step c = .reply r s') : s'.available = c.report?.getD s.available := by
  cases c with
  | auth c =>
    rw [(replies_of_auth hs).2]
    rfl
  | apply changes =>
    rw [← (Outcome.reply.inj hs).2]
    rfl
  | storeKey text =>
    rw [Shared.rest_eq_of_storeKey hs]
    rfl
  | _ => rw [Shared.rest_eq_of_step hs (by simp) (by simp) (by simp)]

theorem Shared.report?_of_outside {s : Shared} {c : Call} (hs : s.step c = .outside) :
    c.report? = none := by
  cases c with
  | setAvailable there => exact absurd hs (by simp [Shared.step])
  | _ => rfl

/-- In every run the service is taken to be as was said last. -/
theorem available_of_reaches (h : World.Reaches Shared.step w₀ log w)
    (hp : ∀ i, w₀.task i = .running (p i)) (hs : w₀.state.available = true) :
    w.state.available = saidLast log := by
  induction h with
  | start => exact hs
  | @step log w e w' hreach hstep ih =>
    rw [saidLast_snoc, ← ih]
    cases hstep with
    | inner ht hr => exact Shared.available_of_step hr
    | asked ht hr => rfl
    | @answered i c next r ht =>
      obtain ⟨s, hs⟩ := hreach.outside_of_waiting hp ht
      change w.state.available = c.report?.getD w.state.available
      rw [Shared.report?_of_outside hs]
      rfl

variable {cfg : Config} {actions : ι → Action} {s : Shared} {w : World interface Shared ι Unit}

/-- Whoever says something of the service has just tried it. -/
theorem reports_of_reaches (h : World.Reaches Shared.step (begun cfg actions s) log w)
    (hother : ∀ i p spares, actions i = .other p spares → Probing p) {before after : Trace interface ι}
    {e : AccountGate.Event interface} {there : Bool} (hlog : log = before ++ (i, e) :: after)
    (he : reportOf e = some there) : Reports (World.repliesTo i before) (.setAvailable there) := by
  subst hlog
  obtain ⟨u, u', hreach, hstep⟩ := h.split
  cases hstep with
  | @inner _ c next r t ht hr =>
    have hpath := hreach.path (fun _ => rfl) i
    rw [ht] at hpath
    have hreports := probing_program cfg (hother i) _ _ _ hpath
    cases c with
    | setAvailable available =>
      obtain rfl : available = there := Option.some.inj he
      exact hreports
    | _ => exact absurd he (by simp [reportOf, Event.reply?, Call.report?])
  | asked ht hr => exact absurd he (by simp [reportOf, Event.reply?])
  | @answered _ c next r ht =>
    obtain ⟨t, ht⟩ := hreach.outside_of_waiting (fun _ => rfl) ht
    have hnone : reportOf (.answered c r) = none := Shared.report?_of_outside ht
    exact absurd he (by simp [hnone])

/-- Nobody says anything of the service but probes and what a host adds. -/
theorem probe_of_mem_reports (h : World.Reaches Shared.step (begun cfg actions s) log w)
    {there : Bool} (hmem : (i, there) ∈ reports log) :
    (∃ url, actions i = .probe url) ∨ ∃ p spares, actions i = .other p spares := by
  by_contra hneither
  obtain ⟨hprobe, hother⟩ := not_or.mp hneither
  have hspares : Makes Call.SparesAvailability ((actions i).program cfg) :=
    (ordinary_program cfg (fun url heq => hprobe ⟨url, heq⟩)
      fun p spares heq => hother ⟨p, spares, heq⟩).spares
  have hown : (i, there) ∈ (reports log).filter fun r => r.1 = i := by simp [hmem]
  rw [reports_filter] at hown
  obtain ⟨_, hreport, heq⟩ := List.mem_map.mp hown
  obtain rfl := (Prod.mk.inj heq).2
  obtain ⟨⟨c, r⟩, hx, hc⟩ := List.mem_filterMap.mp hreport
  have hcall := (hspares.path (h.path (fun _ => rfl) i)).2 _ hx
  cases c with
  | setAvailable available => exact hcall
  | _ => exact absurd hc (by simp [Call.report?])

/-- A probe says something once, when it comes to its end, and that is its outcome. -/
theorem reports_of_probe (h : World.Reaches Shared.step (begun cfg actions s) log w) {url : String}
    (hi : actions i = .probe url) :
    (∃ there, (reports log).filter (fun r => r.1 = i) = [(i, there)] ∧
      Path (Program.probe url) (World.repliesTo i log) (.done there)) ∨
    ((reports log).filter (fun r => r.1 = i) = [] ∧
      ∀ there, ¬Path (Program.probe url) (World.repliesTo i log) (.done there)) := by
  have hpath := h.path (fun _ => rfl) i
  rw [hi] at hpath
  obtain ⟨q, hprobe, -⟩ := hpath.of_bind_done
  rw [reports_filter]
  rcases Program.path_probe_iff.mp hprobe with ⟨hxs, -⟩ | ⟨answer, ⟨hxs, -⟩ | ⟨hxs, rfl⟩⟩
  · refine .inr ⟨by rw [hxs]; rfl, fun there hdone => ?_⟩
    rw [hxs, Program.path_probe_iff] at hdone
    simp [Program.probe_eq] at hdone
  · refine .inr ⟨by rw [hxs]; rfl, fun there hdone => ?_⟩
    rw [hxs, Program.path_probe_iff] at hdone
    simp at hdone
  · exact .inl ⟨Program.isReachable answer, by rw [hxs]; rfl, hprobe⟩

end Service

section SignIn

variable {α β : Type} {cfg : Config} {given : Option Nat}

namespace Program

/-- What a sign-in does that finds the service there. -/
def proceed (cfg : Config) (given : Option Nat) : Attempt Refreshes := do
  let port ← portFor cfg given
  let c ← authorize cfg port
  establish cfg c

/-- What a sign-in does that finds the service missing. -/
def refuse (cfg : Config) : Program (Except Error Refreshes) :=
  .ask (.auth (.count (.login false))) fun _ => .done (.error (.endpointUnavailable cfg.apiEndpoint))

theorem loginBy_eq_ask (cfg : Config) (given : Option Nat) : loginBy cfg given =
    .ask .isAvailable fun available =>
      if available then counted (proceed cfg given) else refuse cfg := by
  rw [loginBy_eq, counted_eq]
  simp only [obtain, bind_assoc]
  rw [run_bind]
  apply congrArg (Flow.ask (I := interface) Call.isAvailable)
  funext available
  cases available <;> rfl

end Program

/-- A result that does not blame the service for being missing. -/
def Admits (result : Except Error α) : Prop :=
  ∀ endpoint, result ≠ .error (.endpointUnavailable endpoint)

theorem admits_ok (a : α) : Admits (.ok a) := fun _ => by simp

theorem admits_error_iff {e : Error} :
    Admits (.error e : Except Error α) ↔ ∀ endpoint, e ≠ .endpointUnavailable endpoint := by
  simp [Admits]

/-- Settings are not refused because the service is missing. Nothing else is asked of the replies. -/
def admitting : Conduct interface where
  Stage := Unit
  Allows _ _ := True
  Expects _
    | .apply _, stored => Admits stored
    | _, _ => True
  after _ _ _ := ()

/-- A program whose result does not blame the service for being missing. -/
abbrev EndsAdmitted (p : Program (Except Error α)) : Prop :=
  admitting.Leads (fun result _ => Admits result) () p

theorem leads_admitting (p : Program α) : admitting.Leads (fun _ _ => True) () p := by
  induction p with
  | done a => trivial
  | ask c next ih => exact ⟨trivial, fun r _ => ih r⟩

theorem admits_codeFor (r : Redirect) (state : String) : Admits (r.codeFor state) := by
  intro endpoint
  rw [Redirect.codeFor]
  split
  · simp
  · split
    · simp
    · split <;> simp

namespace Program

theorem admitted_andThen {p : Program (Except Error α)} {f : α → Program (Except Error β)}
    (hp : EndsAdmitted p) (hf : ∀ a, EndsAdmitted (f a)) : EndsAdmitted (andThen p f) := by
  refine hp.bind fun result _ hresult => ?_
  cases result with
  | ok a => exact hf a
  | error e => exact admits_error_iff.mpr (admits_error_iff.mp hresult)

theorem admitted_run_bind {x : Attempt α} {f : α → Attempt β} (hx : EndsAdmitted x.run)
    (hf : ∀ a, EndsAdmitted (f a).run) : EndsAdmitted (x >>= f).run := by
  rw [run_bind]
  exact admitted_andThen hx hf

theorem admitted_of (p : Program α) : EndsAdmitted (Attempt.of p).run :=
  (leads_admitting p).bind fun a _ _ => admits_ok a

theorem admitted_ofExcept {ε : Type} {f : ε → Error} {result : Except ε α}
    (h : ∀ e, result = .error e → ∀ endpoint, f e ≠ .endpointUnavailable endpoint) :
    EndsAdmitted (Attempt.ofExcept f result).run := by
  cases result with
  | ok a => exact admits_ok a
  | error e => exact admits_error_iff.mpr (h e rfl)

theorem admitted_portFor (cfg : Config) (given : Option Nat) :
    EndsAdmitted (portFor cfg given).run := by
  cases given with
  | some port => exact admits_ok port
  | none => exact admitted_run_bind (admitted_of _) fun _ => admitted_ofExcept fun _ _ _ => by simp

theorem admitted_browse (cfg : Config) (port : Nat) (state : String)
    (pkce : Option Auth.PkcePair) : EndsAdmitted (browse cfg port state pkce).run := by
  refine admitted_run_bind (admitted_ofExcept fun _ _ _ => by simp) fun url => ?_
  refine admitted_run_bind (admitted_of _) fun opened => ?_
  refine admitted_run_bind (admitted_ofExcept fun _ _ _ => by simp) fun _ => ?_
  refine admitted_run_bind (admitted_run_bind (admitted_of _) fun came => ?_) fun redirect => ?_
  · cases came with
    | none => exact fun _ => by simp
    | some redirect => exact admits_ok redirect
  · exact admitted_ofExcept fun e he endpoint heq => admits_codeFor redirect state endpoint (heq ▸ he)

theorem admitted_authorize (cfg : Config) (port : Nat) : EndsAdmitted (authorize cfg port).run := by
  have hdraw : EndsAdmitted (drawPkce cfg).run := by
    rw [drawPkce]
    split
    · exact admitted_run_bind (admitted_of _) fun _ => admits_ok _
    · exact admits_ok none
  refine admitted_run_bind (admitted_of _) fun bytes => admitted_run_bind hdraw fun pkce => ?_
  refine admitted_run_bind (admitted_browse cfg port _ pkce) fun code => ?_
  exact admitted_run_bind (admitted_of _) fun _ => admitted_ofExcept fun _ _ _ => by simp

/-- What is stored is refused only as the settings are. -/
theorem admitted_saveCredentials (cfg : Config) : EndsAdmitted (saveCredentials cfg) := by
  rw [saveCredentials_eq]
  refine (leads_admitting _).bind fun properties _ _ => ?_
  split
  · exact admits_ok ()
  · exact ⟨trivial, fun _ hstored => hstored⟩

theorem admitted_establish (cfg : Config) (c : Auth.Credentials) :
    EndsAdmitted (establish cfg c).run := by
  have hregister : EndsAdmitted (registerSession cfg c).run := by
    rw [run_registerSession]
    split
    · exact fun _ => by simp
    · exact ⟨trivial, fun _ _ => ⟨trivial, fun _ _ => admits_ok ()⟩⟩
  rw [run_establish]
  refine admitted_andThen hregister fun _ => ?_
  refine (admitted_saveCredentials cfg).bind fun saved _ hsaved => ?_
  cases saved with
  | error e => exact admits_error_iff.mpr (admits_error_iff.mp hsaved)
  | ok _ => exact ⟨trivial, fun _ _ => ⟨trivial, fun _ _ => ⟨trivial, fun _ _ => admits_ok _⟩⟩⟩

theorem admitted_proceed (cfg : Config) (given : Option Nat) :
    EndsAdmitted (counted (proceed cfg given)) := by
  have hproceed : EndsAdmitted (proceed cfg given).run :=
    admitted_run_bind (admitted_portFor cfg given) fun port =>
      admitted_run_bind (admitted_authorize cfg port) fun c => admitted_establish cfg c
  rw [counted_eq]
  exact hproceed.bind fun result _ hresult => ⟨trivial, fun _ _ => hresult⟩

end Program

theorem admits_write (d : Disk) (dir : String) (settings : Settings) :
    Admits (SettingsFile.write d dir settings).1 := by
  intro endpoint
  rw [SettingsFile.write]
  split
  · simp
  · split
    · simp
    · split <;> simp

/-- Changes of the settings fail for reasons of their own. -/
theorem Shared.admits_of_apply {s s' : Shared} {changes : Entries} {stored : Except Error Unit}
    (hs : s.step (.apply changes) = .reply stored s') : Admits stored := by
  have hstored : (s.store.apply s.disk changes).1 = stored := (Outcome.reply.inj hs).1
  rw [← hstored]
  rcases s.store with ⟨settings, _ | fault⟩ | f
  · exact admits_ok ()
  · exact admits_error_iff.mpr fun _ => by simp
  · exact admits_write s.disk f.dir (f.memory.merge changes)

section Runs

variable {ι : Type} [DecidableEq ι] {actions : ι → Action} {s : Shared}
  {w : World interface Shared ι Unit} {log : Trace interface ι} {i : ι}

/-- No reply in a run blames the service for being missing. -/
theorem expected_of_reaches (h : World.Reaches Shared.step (begun cfg actions s) log w) :
    ∀ x ∈ World.repliesTo i log, ∀ t, admitting.Expects t x.call x.reply := by
  rintro ⟨c, r⟩ hx t
  cases c with
  | apply changes =>
    rcases h.origin (fun _ => rfl) hx with ⟨u, u', hs⟩ | ⟨u, hs⟩
    · exact Shared.admits_of_apply hs
    · exact absurd hs (by simp [Shared.step])
  | _ => trivial

/-- What a sign-in goes down, after it has found the service there or missing. -/
theorem path_of_login (h : World.Reaches Shared.step (begun cfg actions s) log w)
    (hi : actions i = .login given) : ∃ q, Path (Program.loginBy cfg given) (World.repliesTo i log) q ∧
      (w.task i).program = q.bind fun _ => .done () := by
  have hpath := h.path (fun _ => rfl) i
  rw [hi] at hpath
  exact hpath.of_bind_done

/-- A sign-in begins by looking whether the service is there. -/
theorem first_of_login (h : World.Reaches Shared.step (begun cfg actions s) log w)
    (hs : s.available = true) (hi : actions i = .login given) {before after : Trace interface ι}
    {e : AccountGate.Event interface} (hlog : log = before ++ (i, e) :: after)
    (hfirst : ∀ e' ∈ before, e'.1 ≠ i) : e = .inner .isAvailable (saidLast before) := by
  subst hlog
  obtain ⟨u, u', hreach, hstep⟩ := h.split
  have htask : u.task i = .running ((Program.loginBy cfg given).bind fun _ => .done ()) := by
    rw [hreach.task_of_ne hfirst]
    show Task.running ((actions i).program cfg) = _
    rw [hi]
    rfl
  rw [Program.loginBy_eq_ask] at htask
  cases hstep with
  | inner ht hr =>
    obtain ⟨rfl, -⟩ := Flow.ask.inj (Task.running.inj (htask.symm.trans ht))
    obtain ⟨rfl, -⟩ := Outcome.reply.inj hr
    rw [available_of_reaches hreach (fun _ => rfl) hs]
  | asked ht hr =>
    obtain ⟨rfl, -⟩ := Flow.ask.inj (Task.running.inj (htask.symm.trans ht))
    exact absurd hr (by simp [Shared.step])
  | answered r ht => exact absurd (htask.symm.trans ht) (by simp)

/-- The replies to a sign-in that looked while this was said of the service. -/
theorem repliesTo_of_first {before after : Trace interface ι} {there : Bool}
    (hfirst : ∀ e ∈ before, e.1 ≠ i) :
    World.repliesTo i (before ++ (i, .inner .isAvailable there) :: after) =
      ⟨.isAvailable, there⟩ :: World.repliesTo i after := by
  have hnone : World.repliesTo i before = [] :=
    List.filterMap_eq_nil_iff.mpr fun e he => if_neg (hfirst e he)
  rw [World.repliesTo_append, hnone, List.nil_append, ← List.singleton_append,
    World.repliesTo_append, World.repliesTo_singleton, if_pos rfl]
  rfl

/-- A sign-in that found the service there is not refused for its being missing. -/
theorem admits_of_there (h : World.Reaches Shared.step (begun cfg actions s) log w)
    {rest : List (Exchange interface)} {result : Except Error Program.Refreshes}
    (hreplies : World.repliesTo i log = ⟨.isAvailable, true⟩ :: rest)
    (hresult : Path (Program.loginBy cfg given) (World.repliesTo i log) (.done result)) :
    Admits result := by
  rw [hreplies, Program.loginBy_eq_ask] at hresult
  obtain ⟨_, _, heq, hrest⟩ := Flow.path_ask_done_iff.mp hresult
  obtain ⟨hthere, rfl⟩ := List.cons.inj heq
  cases hthere
  have hexpected : ∀ x ∈ rest, ∀ t, admitting.Expects t x.call x.reply := fun x hx =>
    expected_of_reaches h x (hreplies ▸ List.mem_cons_of_mem _ hx)
  obtain ⟨_, hadmits⟩ := (Program.admitted_proceed cfg given).of_expected hrest hexpected
  exact hadmits

/-- A sign-in that finds the service missing makes no call but to look and to count, nothing but the
count changes by it, and it comes to its end, with the error that says so. -/
structure TurnedAway (cfg : Config) (given : Option Nat) (w₀ : World interface Shared ι Unit)
    (i : ι) (log : Trace interface ι) (w : World interface Shared ι Unit) : Prop where
  calls : World.callsBy i log <+: [.isAvailable, .auth (.count (.login false))]
  unchanged : ∀ front e back u u', log = front ++ (i, e) :: back →
    World.Reaches Shared.step w₀ front u → World.Step Shared.step u (i, e) u' →
    u'.state = { u.state with counters := u'.state.counters }
  ends : ∃ more w', World.Reaches Shared.step w more w' ∧ (∀ e ∈ more, e.1 = i) ∧
    Path (Program.loginBy cfg given) (World.repliesTo i (log ++ more))
      (.done (.error (.endpointUnavailable cfg.apiEndpoint)))
  result : ∀ result, Path (Program.loginBy cfg given) (World.repliesTo i log) (.done result) →
    result = .error (.endpointUnavailable cfg.apiEndpoint)

/-- What is left of a sign-in that found the service missing. -/
theorem path_refused_iff {rest : List (Exchange interface)}
    {q : Program (Except Error Program.Refreshes)} :
    Path (Program.loginBy cfg given) (⟨.isAvailable, false⟩ :: rest) q ↔
      (rest = [] ∧ q = Program.refuse cfg) ∨
      (rest = [⟨.auth (.count (.login false)), ()⟩] ∧
        q = .done (.error (.endpointUnavailable cfg.apiEndpoint))) := by
  have hnext : Path (Program.loginBy cfg given) (⟨.isAvailable, false⟩ :: rest) q ↔
      Path (Program.refuse cfg) rest q := by
    rw [Program.loginBy_eq_ask]
    constructor
    · intro h
      cases h with
      | cons _ h => exact h
    · exact fun h => path_ask_iff.mpr (.inr ⟨false, rest, rfl, h⟩)
  rw [hnext, Program.refuse, path_ask_iff]
  refine or_congr_right ⟨?_, ?_⟩
  · rintro ⟨_, rest, rfl, h⟩
    obtain ⟨rfl, rfl⟩ := path_done_iff.mp h
    exact ⟨rfl, rfl⟩
  · rintro ⟨rfl, rfl⟩
    exact ⟨(), [], rfl, .nil _⟩

theorem turnedAway_of_missing (h : World.Reaches Shared.step (begun cfg actions s) log w)
    (hi : actions i = .login given) {rest : List (Exchange interface)}
    (hreplies : World.repliesTo i log = ⟨.isAvailable, false⟩ :: rest) :
    TurnedAway cfg given (begun cfg actions s) i log w := by
  obtain ⟨q, hpath, hprogram⟩ := path_of_login h hi
  have hq := path_refused_iff.mp (hreplies ▸ hpath)
  -- What is left of it is answered at once, so that it waits for nothing.
  have hrunning : w.task i = .running (q.bind fun _ => .done ()) := by
    cases htask : w.task i with
    | running p =>
      rw [htask] at hprogram
      exact congrArg Task.running hprogram
    | waiting c next =>
      obtain ⟨t, ht⟩ := h.outside_of_waiting (fun _ => rfl) htask
      rw [htask] at hprogram
      rcases hq with ⟨-, rfl⟩ | ⟨-, rfl⟩
      · obtain ⟨rfl, -⟩ := Flow.ask.inj hprogram
        exact absurd ht (by simp [Shared.step])
      · exact absurd hprogram (by simp [Task.program, Flow.bind])
  have hcalls : World.callsBy i log <+: [.isAvailable, .auth (.count (.login false))] := by
    rw [h.callsBy_eq (fun _ => rfl), hreplies, hrunning]
    rcases hq with ⟨rfl, -⟩ | ⟨rfl, -⟩
    · exact ⟨[.auth (.count (.login false))], rfl⟩
    · exact ⟨[], rfl⟩
  refine ⟨hcalls, fun front e back u u' hlog _ hstep => ?_, ?_, fun result hresult => ?_⟩
  · cases hstep with
    | @inner _ c next r t ht hr =>
      have hmem : c ∈ World.callsBy i log :=
        List.mem_filterMap.mpr ⟨(i, .inner c r), by rw [hlog]; simp, if_pos rfl⟩
      rcases List.mem_pair.mp (hcalls.subset hmem) with rfl | rfl
      · obtain ⟨-, rfl⟩ := Outcome.reply.inj hr
        rfl
      · obtain ⟨-, rfl⟩ := Outcome.reply.inj hr
        rfl
    | asked ht hr => rfl
    | answered r ht => rfl
  · rcases hq with ⟨rfl, rfl⟩ | ⟨rfl, rfl⟩
    · refine ⟨[(i, .inner (.auth (.count (.login false))) ())], _,
        .step .start (.inner hrunning rfl), by simp, ?_⟩
      rw [World.repliesTo_append, hreplies, World.repliesTo_singleton, if_pos rfl]
      exact path_refused_iff.mpr (.inr ⟨rfl, rfl⟩)
    · exact ⟨[], w, .start, by simp, by rwa [List.append_nil]⟩
  · rcases path_refused_iff.mp (hreplies ▸ hresult) with ⟨-, habsurd⟩ | ⟨-, hend⟩
    · exact absurd habsurd (by simp [Program.refuse])
    · exact Flow.done.inj hend

/-- Until something is said of it the service is taken to be there, and then as was said last. Only
probes say something, each when it comes to its end and according to its answer: the service is there
if it has answered with a status below 500. A sign-in looks at that when it begins; if the service is
missing it is refused, with no call but to count itself, and otherwise never for that reason. -/
theorem sign_in_heeds_the_last_probe (hs : s.available = true)
    (hother : ∀ i p spares, actions i = .other p spares → Probing p)
    (h : World.Reaches Shared.step (begun cfg actions s) log w) :
    w.state.available = saidLast log ∧
    (∀ i e before after there, log = before ++ (i, e) :: after → reportOf e = some there →
      ∃ front url answer, World.repliesTo i before = front ++ [trying url answer] ∧
        (there = true ↔ ∃ response, answer = .ok response ∧ response.status < 500)) ∧
    (∀ i there, (i, there) ∈ reports log →
      (∃ url, actions i = .probe url) ∨ ∃ p spares, actions i = .other p spares) ∧
    (∀ i url, actions i = .probe url →
      (∃ there, (reports log).filter (fun r => r.1 = i) = [(i, there)] ∧
        Path (Program.probe url) (World.repliesTo i log) (.done there)) ∨
      ((reports log).filter (fun r => r.1 = i) = [] ∧
        ∀ there, ¬Path (Program.probe url) (World.repliesTo i log) (.done there))) ∧
    ∀ i given e before after, actions i = .login given → log = before ++ (i, e) :: after →
      (∀ e' ∈ before, e'.1 ≠ i) → e = .inner .isAvailable (saidLast before) ∧
        (saidLast before = false → TurnedAway cfg given (begun cfg actions s) i log w) ∧
        (saidLast before = true → ∀ result endpoint,
          Path (Program.loginBy cfg given) (World.repliesTo i log) (.done result) →
            result ≠ .error (.endpointUnavailable endpoint)) := by
  refine ⟨available_of_reaches h (fun _ => rfl) hs, fun i e before after there hlog he => ?_,
    fun i there hmem => probe_of_mem_reports h hmem, fun i url hi => reports_of_probe h hi,
    fun i given e before after hi hlog hfirst => ?_⟩
  · obtain ⟨front, url, answer, hxs, rfl⟩ := reports_of_reaches h hother hlog he
    exact ⟨front, url, answer, hxs, Program.isReachable_eq_true_iff⟩
  · have he := first_of_login h hs hi hlog hfirst
    have hreplies : World.repliesTo i log = ⟨.isAvailable, saidLast before⟩ ::
        World.repliesTo i after := by
      rw [hlog, he]
      exact repliesTo_of_first hfirst
    refine ⟨he, fun hmissing => ?_, fun hthere result endpoint hresult => ?_⟩
    · rw [hmissing] at hreplies
      exact turnedAway_of_missing h hi hreplies
    · rw [hthere] at hreplies
      exact admits_of_there h hreplies hresult endpoint

/-- A watch and a probe at once: the watch began first and fails last, and then a sign-in is
refused. -/
theorem late_failure_turns_sign_in_away :
    let actions : Fin 3 → Action
      | 0 => .other (Program.watch sampleConfig 2) (Program.spares_watch sampleConfig 2)
      | 1 => .probe "https://b.io"
      | 2 => .login none
    ∃ log w, sample.available = true ∧ (∀ i p spares, actions i = .other p spares → Probing p) ∧
      World.Reaches Shared.step (begun sampleConfig actions sample) log w ∧
      reports log = [(1, true), (0, false)] ∧ w.state.available = false ∧
      TurnedAway sampleConfig none (begun sampleConfig actions sample) 2 log w := by
  intro actions
  have hother : ∀ i p spares, actions i = .other p spares → Probing p := by
    intro i p spares heq
    match i with
    | 0 => exact (Action.other.inj heq) ▸ Program.probing_watch sampleConfig 2
    | 1 => exact absurd heq (by simp [actions])
    | 2 => exact absurd heq (by simp [actions])
  let there : Answer := .ok { status := 204 }
  let missing : Answer := .error (.timeout "")
  have hprobes : World.Reaches Shared.step (begun sampleConfig actions sample) _ _ :=
    .step (.step (.step (.step (.step (.step .start
      (.asked (i := 0) rfl rfl)) (.asked (i := 1) rfl rfl))
      (.answered (i := 1) there rfl)) (.inner (i := 1) rfl rfl))
      (.answered (i := 0) missing rfl)) (.inner (i := 0) rfl rfl)
  have hsignIn := World.Reaches.step hprobes (.inner (i := 2) rfl rfl)
  refine ⟨_, _, rfl, hother, hsignIn, rfl, ?_⟩
  obtain ⟨hsaid, -, -, -, hlogin⟩ := sign_in_heeds_the_last_probe rfl hother hsignIn
  refine ⟨hsaid, ?_⟩
  exact (hlogin 2 none _ _ [] rfl rfl (by decide)).2.1 rfl

end Runs

end SignIn

end AccountGate.Account
