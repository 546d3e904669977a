import AccountGate.Proofs.Account.Enlisted
import AccountGate.Proofs.Account.Persisted

/-!
What the requests of an account carry. The jobs ask the service for three resources, each at an
address below the trimmed one of the service; the session is registered under the address as it
stands. Main statement: as long as the session that was registered last is there, each of these
requests carries its token, where an origin begins its address; the service itself does so unless
two slashes stand at its end.
-/

namespace AccountGate

namespace Auth

open Program AccountGate.Flow

/-- A header comes of tokens that its session had at a moment on the way. -/
theorem exists_tokens_of_path {id : Nat} {clientId tokenServer : String} {a : Authorization}
    {xs : List (Exchange interface)}
    (hpath : Path (bearerHeader id clientId tokenServer) xs (.done a)) :
    ∃ front back t, a = t.answer ∧ (xs = front ++ ⟨.acquire id, t⟩ :: back ∨
      xs = front ++ ⟨.update id t, ()⟩ :: back) := by
  have hleave {t : Tokens} {ys : List (Exchange interface)}
      (h : Path (leave id t.answer) ys (.done a)) : a = t.answer := by
    obtain ⟨-, rest, -, hrest⟩ := path_ask_done_iff.mp h
    exact Flow.done.inj (path_done_iff.mp hrest).2
  have hfinish {t : Tokens} {counter : Counter} {ys : List (Exchange interface)}
      (h : Path (finish id t counter) ys (.done a)) :
      ∃ back, ys = ⟨.update id t, ()⟩ :: back ∧ a = t.answer := by
    obtain ⟨⟨⟩, back, rfl, hback⟩ := path_ask_done_iff.mp h
    obtain ⟨-, rest, -, hrest⟩ := path_ask_done_iff.mp hback
    exact ⟨back, rfl, hleave hrest⟩
  rw [bearerHeader_eq] at hpath
  obtain ⟨t, ys, rfl, htaken⟩ := path_ask_done_iff.mp hpath
  by_cases hexpired : t.status = .expired
  · rw [if_pos hexpired] at htaken
    exact ⟨[], ys, t, hleave htaken, .inl rfl⟩
  rw [if_neg hexpired] at htaken
  obtain ⟨clock, ys, rfl, hread⟩ := path_ask_done_iff.mp htaken
  by_cases hfresh : t.isFresh (max 0 clock) = true
  · rw [if_pos hfresh] at hread
    exact ⟨[], _, t, hleave hread, .inl rfl⟩
  rw [if_neg hfresh] at hread
  obtain ⟨⟨⟩, ys, rfl, hmarked⟩ := path_ask_done_iff.mp hread
  obtain ⟨answer, ys, rfl, hsettled⟩ := path_ask_done_iff.mp hmarked
  -- What is put last is what the answer leaves of the tokens.
  obtain ⟨between, back, t', rfl, ha⟩ : ∃ between back t',
      ys = between ++ ⟨.update id t', ()⟩ :: back ∧ a = t'.answer := by
    cases houtcome : refreshOutcome answer with
    | refreshed response =>
      rw [houtcome] at hsettled
      obtain ⟨now, rest, rfl, hlast⟩ := path_ask_done_iff.mp hsettled
      obtain ⟨back, rfl, ha⟩ := hfinish hlast
      exact ⟨[⟨.clock, now⟩], back, _, rfl, ha⟩
    | unreachable cause =>
      rw [houtcome] at hsettled
      obtain ⟨back, rfl, ha⟩ := hfinish hsettled
      exact ⟨[], back, _, rfl, ha⟩
    | rejected reason =>
      rw [houtcome] at hsettled
      obtain ⟨back, rfl, ha⟩ := hfinish hsettled
      exact ⟨[], back, _, rfl, ha⟩
  exact ⟨_ :: _ :: _ :: _ :: between, back, t', ha, .inr rfl⟩

end Auth

namespace Account

open AccountGate.Flow (Makes makes_done Path)
open Conduct (recounting leads_recounting)

section Addresses

variable {cfg : Config} {name : String}

theorem exists_toList_resource (cfg : Config) (h : name ∈ resources) : ∃ first rest, first ≠ '/' ∧
    (cfg.resource name).toList =
      (Text.trimEndOf '/' cfg.apiEndpoint).toList ++ '/' :: first :: rest := by
  obtain ⟨first, rest, hfirst, hname⟩ :
      ∃ first rest, first ≠ '/' ∧ name.toList = first :: rest := by
    simp only [resources, List.mem_cons, List.not_mem_nil, or_false] at h
    rcases h with rfl | rfl | rfl <;> exact ⟨_, _, by decide, rfl⟩
  exact ⟨first, rest ++ ['/'], hfirst, by simp [Config.resource, hname]⟩

/-- A text that ends in slashes begins one that goes on after one slash, if it has one at most. -/
theorem prefix_below_iff {stem rest : List Char} {first : Char} (hend : ¬ ['/'] <:+ stem)
    (hfirst : first ≠ '/') (n : Nat) :
    stem ++ List.replicate n '/' <+: stem ++ '/' :: first :: rest ↔
      ¬ ['/', '/'] <:+ stem ++ List.replicate n '/' := by
  match n with
  | 0 =>
    refine iff_of_true (by simp) fun hsuffix => hend ?_
    rw [List.replicate_zero, List.append_nil] at hsuffix
    exact (List.suffix_cons '/' ['/']).trans hsuffix
  | 1 =>
    refine iff_of_true ?_ ?_
    · rw [List.prefix_append_right_inj]
      exact ⟨first :: rest, rfl⟩
    · rintro ⟨front, hfront⟩
      have hcut : (front ++ ['/']) ++ ['/'] = stem ++ ['/'] := by simpa using hfront
      exact hend ⟨front, List.append_cancel_right hcut⟩
  | n + 2 =>
    refine iff_of_false ?_ (not_not_intro ?_)
    · rw [List.prefix_append_right_inj, List.replicate_succ, List.replicate_succ]
      simp [Ne.symm hfirst]
    · refine ⟨stem ++ List.replicate n '/', ?_⟩
      rw [List.replicate_add, List.append_assoc]
      rfl

/-- The address of the service begins that of a resource unless two slashes stand at its end. -/
theorem prefix_resource_iff (h : name ∈ resources) :
    cfg.apiEndpoint.toList <+: (cfg.resource name).toList ↔
      ¬ ['/', '/'] <:+ cfg.apiEndpoint.toList := by
  obtain ⟨first, rest, hfirst, hresource⟩ := exists_toList_resource cfg h
  obtain ⟨slashes, hslashes⟩ := Text.exists_toList_eq '/' cfg.apiEndpoint
  rw [hresource, hslashes]
  exact prefix_below_iff (Text.not_suffix_trimEndOf '/' cfg.apiEndpoint) hfirst slashes

theorem serves_resource_iff {origin : String} :
    Auth.Registry.serves (cfg.resource name) origin = true ↔
      origin.toList <+: (cfg.resource name).toList := by
  have hany : cfg.resource name ≠ Auth.Registry.anyUrl := by
    intro h
    have hlast : ['/'] <:+ Auth.Registry.anyUrl.toList := by
      rw [← h]
      exact ⟨(Text.trimEndOf '/' cfg.apiEndpoint ++ "/" ++ name).toList, by simp [Config.resource]⟩
    exact absurd hlast (by decide)
  simp [Auth.Registry.serves, hany, List.isPrefixOf_iff_prefix]

end Addresses

section Jobs

/-- An exchange with the registry, as part of a program around an account. -/
def ofVault (x : Exchange Auth.interface) : Exchange interface := ⟨.auth x.call, x.reply⟩

/-- A request for a resource, with what came of the question for its header just before. -/
def Requests (cfg : Config) (xs : List (Exchange interface)) (o : Auth.Outgoing) : Prop :=
  ∃ name ∈ resources, ∃ a front ys, xs = front ++ ys.map ofVault ∧
    Path (Auth.Program.resolve (cfg.resource name)) ys (.done a) ∧
    o = Auth.carrying (.getAny (cfg.resource name)) a

/-- What a job may send after which replies. -/
def Attends (cfg : Config) (xs : List (Exchange interface)) : Call → Prop
  | .auth (.send o) => o.suspended = true ∨ Requests cfg xs o
  | _ => True

/-- A call that sends nothing with credentials. -/
def Call.Withholds : Call → Prop
  | .auth (.send o) => o.suspended = true
  | _ => True

theorem withholds_of_tends {c : Auth.Call} (h : c.Tends) : Call.Withholds (.auth c) := by
  cases c with
  | send o => exact h.1.isBare.suspended
  | _ => trivial

theorem withholds_of_tame {c : Call} (h : c.IsTame) : c.Withholds := by
  cases c with
  | auth c =>
    cases c with
    | send o => exact h.elim
    | _ => trivial
  | _ => trivial

namespace Program

variable {α : Type} {cfg : Config} {xs : List (Exchange interface)} {name : String}

theorem leads_of_withholds {p : Program α} (h : Makes Call.Withholds p) :
    (recounting (Attends cfg)).Leads (fun _ _ => True) xs p := by
  refine (leads_recounting h fun c ys hc => ?_).mono fun _ _ _ => trivial
  cases c with
  | auth c =>
    cases c with
    | send o => exact .inl hc
    | _ => trivial
  | _ => trivial

/-- A program around credentials has got the replies of one of its paths. -/
theorem leads_ofAuth_attending {p : Auth.Program α} (h : Makes Auth.Call.Tends p) :
    (recounting (Attends cfg)).Leads
      (fun a ys => ∃ zs, ys = xs ++ zs.map ofVault ∧ Path p zs (.done a)) xs (ofAuth p) := by
  induction p generalizing xs with
  | done a => exact ⟨[], (List.append_nil xs).symm, .nil _⟩
  | ask c next ih =>
    refine ⟨?_, fun r _ => (ih r (h.2 r)).mono fun a ys hys => ?_⟩
    · have hc := withholds_of_tends h.1
      cases c with
      | send o => exact .inl hc
      | _ => trivial
    · obtain ⟨zs, rfl, hpath⟩ := hys
      refine ⟨⟨c, r⟩ :: zs, List.append_assoc xs [ofVault ⟨c, r⟩] _, ?_⟩
      exact Path.cons (I := Auth.interface) r hpath

theorem leads_fetchAny_attending (h : name ∈ resources) : (recounting (Attends cfg)).Leads
    (fun _ _ => True) xs (ofAuth (Auth.Program.fetchAuthorized (.getAny (cfg.resource name)))) := by
  rw [Auth.fetchAuthorized_eq rfl]
  refine ⟨trivial, fun suspended _ => ?_⟩
  cases suspended with
  | true => exact ⟨.inl rfl, fun _ _ => trivial⟩
  | false =>
    change (recounting (Attends cfg)).Leads _ _ (ofAuth (Flow.bind (Auth.Program.resolve _) _))
    rw [ofAuth, Flow.expand_bind]
    refine (leads_ofAuth_attending (Auth.makes_resolve _)).bind fun a ys hys =>
      ⟨.inr ?_, fun _ _ => trivial⟩
    obtain ⟨zs, rfl, hpath⟩ := hys
    exact ⟨name, h, a, _, zs, rfl, hpath, rfl⟩

theorem leads_ofJob_attending (cfg : Config) (job : Job) :
    (recounting (Attends cfg)).Leads (fun _ _ => True) [] (ofJob cfg job) :=
  leads_ofJob_of (fun hp => leads_of_withholds (hp.mono fun _ hc => withholds_of_tame hc))
    (fun h => leads_fetchAny_attending h) job

end Program

end Jobs

section Runs

variable {ι : Type} [DecidableEq ι] {cfg : Config} {actions : ι → Action} {s : Shared}
  {w₀ w : World interface Shared ι Unit} {log : Trace interface ι} {i : ι} {p : ι → Program Unit}

/-- What a request carries that comes of some tokens: nothing when their session is over, and no
value that is not legal in a header. -/
def valueOf (t : Auth.Tokens) : Option String :=
  if t.status = .expired then none
  else (some ("Bearer " ++ t.access.value)).filter Headers.isLegalValue

theorem carried_answer (t : Auth.Tokens) : t.answer.carried = valueOf t := by
  unfold Auth.Tokens.answer valueOf
  split <;> rfl

/-- A request for a resource carries what comes of the session that was registered last, if that is
there when the address is looked up and an origin begins it; the tokens are those of a moment
between the lookup and the request. -/
def CarriesSession (cfg : Config) (w₀ : World interface Shared ι Unit) (before : Trace interface ι)
    (i : ι) (o : Auth.Outgoing) : Prop :=
  ∃ name ∈ resources, o.request = .getAny (cfg.resource name) ∧ ∃ earlier found later,
    before = earlier ++ (i, .inner (.auth (.find (cfg.resource name))) found) :: later ∧
    ∀ handle ∈ lastRegistered earlier,
      ((∀ origin ∈ cfg.origins, ¬ origin.toList <+: (cfg.resource name).toList) →
        o.authorization = none) ∧
      ((∃ origin ∈ cfg.origins, origin.toList <+: (cfg.resource name).toList) →
        ∃ first rest u, later = first ++ rest ∧ World.Reaches Shared.step w₀
            (earlier ++ (i, .inner (.auth (.find (cfg.resource name))) found) :: first) u ∧
          o.authorization = valueOf (u.state.vault.tokensOf handle.id))

/-- A reply of the vault came when the vault was as that reply says. -/
theorem exists_reaches_of_reply {before : Trace interface ι}
    (h : World.Reaches Shared.step w₀ before w) (hp : ∀ i, w₀.task i = .running (p i))
    {c : Auth.Call} {r : Auth.Reply c} {xs ys : List (Exchange interface)}
    (hreplies : World.repliesTo i before = xs ++ ofVault ⟨c, r⟩ :: ys)
    (hc : ∀ v : Auth.Vault, v.step c ≠ .outside) :
    ∃ front back u', ∃ v : Auth.Vault, before = front ++ (i, .inner (.auth c) r) :: back ∧
      World.repliesTo i front = xs ∧
      World.Reaches Shared.step w₀ (front ++ [(i, .inner (.auth c) r)]) u' ∧
      v.step c = .reply r u'.state.vault := by
  have hcount : ∀ counter, c ≠ .count counter := by
    rintro counter rfl
    exact hc {} rfl
  have hshared (s : Shared) : s.step (.auth c) ≠ .outside := by
    rw [step_auth s hcount]
    have hs := hc s.vault
    generalize s.vault.step c = outcome at hs
    cases outcome with
    | outside => exact absurd rfl hs
    | _ => simp
  obtain ⟨front, back, u, s, rfl, hxs, hreach, hstep⟩ := h.replied hp hreplies hshared
  obtain ⟨u₁, u₂, hreach₁, hnext⟩ := h.split
  cases hnext with
  | @inner _ _ next _ s' ht hr =>
    refine ⟨front, back, _, u₁.state.vault, rfl, hxs, .step hreach₁ (.inner ht hr), ?_⟩
    show u₁.state.vault.step c = .reply r s'.vault
    rw [step_auth _ hcount] at hr
    cases hinner : u₁.state.vault.step c with
    | wait => exact absurd hr (by simp [hinner])
    | outside => exact absurd hinner (hc _)
    | reply r' v' =>
      rw [hinner] at hr
      obtain ⟨rfl, rfl⟩ := Outcome.reply.inj hr
      rfl

/-- The tokens of a session after they have been taken or put. -/
theorem exists_reaches_of_tokens {before : Trace interface ι}
    (h : World.Reaches Shared.step w₀ before w) (hp : ∀ i, w₀.task i = .running (p i)) {id : Nat}
    {t : Auth.Tokens} {xs ys : List (Exchange interface)}
    (hreplies : World.repliesTo i before = xs ++ ofVault ⟨.acquire id, t⟩ :: ys ∨
      World.repliesTo i before = xs ++ ofVault ⟨.update id t, ()⟩ :: ys) :
    ∃ front e back u, before = front ++ (i, e) :: back ∧ World.repliesTo i front = xs ∧
      World.Reaches Shared.step w₀ (front ++ [(i, e)]) u ∧ u.state.vault.tokensOf id = t := by
  rcases hreplies with hacquired | hupdated
  · obtain ⟨front, back, u', v, rfl, hxs, hreach, hstep⟩ :=
      exists_reaches_of_reply h hp hacquired fun v => by
        rw [Auth.Vault.step]
        split <;> simp
    refine ⟨front, _, back, u', rfl, hxs, hreach, ?_⟩
    rw [Auth.Vault.step] at hstep
    split at hstep
    · exact absurd hstep (by simp)
    · obtain ⟨rfl, hvault⟩ := Outcome.reply.inj hstep
      rw [← hvault]
      rfl
  · obtain ⟨front, back, u', v, rfl, hxs, hreach, hstep⟩ :=
      exists_reaches_of_reply h hp hupdated fun v => by simp [Auth.Vault.step]
    refine ⟨front, _, back, u', rfl, hxs, hreach, ?_⟩
    obtain ⟨-, hvault⟩ := Outcome.reply.inj hstep
    rw [← hvault, Auth.Vault.tokensOf_putTokens, if_pos rfl]

/-- When the address of a resource was looked up, the session in charge was found where an origin
begins it. -/
theorem found_in_charge (hs : s.vault.registry.Within cfg.origins)
    (hothers : ∀ i p spares, actions i = .other p spares → Makes Call.SparesRegistry p)
    (h : World.Reaches Shared.step (begun cfg actions s) log w) {name : String}
    {found : Option Auth.Handle} {xs ys : List (Exchange interface)}
    (hreplies : World.repliesTo i log = xs ++ ofVault ⟨.find (cfg.resource name), found⟩ :: ys) :
    ∃ earlier later,
      log = earlier ++ (i, .inner (.auth (.find (cfg.resource name))) found) :: later ∧
      ∀ handle ∈ lastRegistered earlier, (∃ id clientId tokenServer,
        handle = .bearer id clientId tokenServer) ∧
        found = if ∃ origin ∈ cfg.origins, origin.toList <+: (cfg.resource name).toList then
          some handle else none := by
  obtain ⟨earlier, later, u, _, hlog, -, hreach, hlookup⟩ :=
    h.replied (fun _ => rfl) hreplies fun s => by simp [Shared.step, Auth.Vault.step]
  have hfound : u.state.vault.registry.find? (cfg.resource name) = found :=
    (Outcome.reply.inj hlookup).1
  have hcharge := inCharge_of_reaches hs hothers hreach
  refine ⟨earlier, later, hlog, fun handle hhandle => ⟨hcharge.bearer handle hhandle, ?_⟩⟩
  rw [← hfound, hcharge.serves handle hhandle]
  simp only [serves_resource_iff]

/-- A request whose header was asked for carries what comes of the session in charge. -/
theorem carriesSession_of_requests (hs : s.vault.registry.Within cfg.origins)
    (hothers : ∀ i p spares, actions i = .other p spares → Makes Call.SparesRegistry p)
    (h : World.Reaches Shared.step (begun cfg actions s) log w) {o : Auth.Outgoing}
    (hrequests : Requests cfg (World.repliesTo i log) o) :
    CarriesSession cfg (begun cfg actions s) log i o := by
  obtain ⟨name, hname, a, front, ys, hreplies, hpath, rfl⟩ := hrequests
  obtain ⟨found, zs, rfl, hheader⟩ := Flow.path_ask_done_iff.mp hpath
  cases found with
  | none =>
    obtain ⟨rfl, ha⟩ := Flow.path_done_iff.mp hheader
    obtain rfl := Flow.done.inj ha
    obtain ⟨earlier, later, hlog, hcharge⟩ := found_in_charge hs hothers h hreplies
    refine ⟨name, hname, rfl, earlier, none, later, hlog, fun handle hhandle => ⟨fun _ => rfl, ?_⟩⟩
    intro hbegun
    exact absurd (hcharge handle hhandle).2 (by simp [if_pos hbegun])
  | some handle' =>
    cases handle' with
    | basic id encoded =>
      obtain ⟨earlier, later, hlog, hcharge⟩ := found_in_charge hs hothers h hreplies
      refine ⟨name, hname, rfl, earlier, _, later, hlog, fun handle hhandle => ?_⟩
      -- The session in charge has tokens.
      obtain ⟨⟨id, clientId, tokenServer, rfl⟩, hfound⟩ := hcharge handle hhandle
      split at hfound
      · exact absurd hfound (by simp)
      · exact absurd hfound (by simp)
    | bearer id clientId tokenServer =>
      obtain ⟨taken, back, t, rfl, hzs⟩ := Auth.exists_tokens_of_path hheader
      have hasked : ∃ xs, xs = front ++ ofVault ⟨.find (cfg.resource name),
            some (.bearer id clientId tokenServer)⟩ :: taken.map ofVault ∧
          (World.repliesTo i log = xs ++ ofVault ⟨.acquire id, t⟩ :: back.map ofVault ∨
            World.repliesTo i log = xs ++ ofVault ⟨.update id t, ()⟩ :: back.map ofVault) :=
        ⟨_, rfl, hzs.imp (fun heq => by simp [hreplies, heq]) fun heq => by simp [hreplies, heq]⟩
      obtain ⟨_, rfl, hput⟩ := hasked
      obtain ⟨upTo, e, rest, u, rfl, hupTo, hreach, htokens⟩ :=
        exists_reaches_of_tokens h (fun _ => rfl) hput
      obtain ⟨v, -, hbefore, -⟩ := h.split
      obtain ⟨earlier, first, rfl, hcharge⟩ := found_in_charge hs hothers hbefore hupTo
      refine ⟨name, hname, rfl, earlier, some (.bearer id clientId tokenServer),
        first ++ (i, e) :: rest, by simp, ?_⟩
      intro handle hhandle
      obtain ⟨-, hfound⟩ := hcharge handle hhandle
      refine ⟨fun hnone => ?_, fun hbegun => ?_⟩
      · have hbegun : ¬ ∃ origin ∈ cfg.origins, origin.toList <+: (cfg.resource name).toList := by
          rintro ⟨origin, horigin, hstart⟩
          exact hnone origin horigin hstart
        exact absurd hfound (by simp [if_neg hbegun])
      · rw [if_pos hbegun] at hfound
        obtain rfl := Option.some.inj hfound
        refine ⟨first ++ [(i, e)], rest, u, by simp, by simpa using hreach, ?_⟩
        show t.answer.carried = valueOf (u.state.vault.tokensOf id)
        rw [htokens, carried_answer]

/-- These credentials have been registered for all origins of the account, and are in charge as long
as nothing is registered or removed after them. -/
def TakesCharge (cfg : Config) (log : Trace interface ι) (i : ι) (c : Auth.Credentials) : Prop :=
  ∃ handle before after,
    ⟨.auth (.create (.bearer (.ofCredentials c))), handle⟩ ∈ World.repliesTo i log ∧
    log = before ++ (i, .inner (.auth (.enrol cfg.origins handle)) ()) :: after ∧
    ((∀ e ∈ after, ∀ found, registeredBy e.2 found = found) → lastRegistered log = some handle)

omit [DecidableEq ι] in
theorem lastRegistered_of_enrol {starts : List String} {handle : Auth.Handle}
    (before : Trace interface ι) {after : Trace interface ι}
    (h : ∀ e ∈ after, ∀ found, registeredBy e.2 found = found) :
    lastRegistered (before ++ (i, .inner (.auth (.enrol starts handle)) ()) :: after) =
      some handle := by
  induction after using List.reverseRecOn with
  | nil => exact lastRegistered_snoc before _
  | append_singleton after e ih =>
    rw [← List.cons_append, ← List.append_assoc, lastRegistered_snoc, h e (by simp)]
    exact ih fun e he => h e (List.mem_append_left _ he)

theorem takesCharge_of_enlisted (h : World.Reaches Shared.step (begun cfg actions s) log w)
    {c : Auth.Credentials} (hc : Enlisted cfg c (World.repliesTo i log)) :
    TakesCharge cfg log i c := by
  obtain ⟨handle, hcreate, henrol⟩ := hc
  obtain ⟨xs, ys, hreplies⟩ := List.append_of_mem henrol
  obtain ⟨before, after, -, -, hlog, -⟩ :=
    h.replied (fun _ => rfl) hreplies fun s => by simp [Shared.step, Auth.Vault.step]
  refine ⟨handle, before, after, hcreate, hlog, fun hafter => ?_⟩
  rw [hlog]
  exact lastRegistered_of_enrol before hafter

/-- A sign-in that succeeds, and an account that is taken up with stored tokens, puts its session in
charge. Where an origin begins the address of a resource, each request of a job for it carries the
token of the session in charge, unless that is over; where none does, it carries nothing. The
service itself begins the addresses of its resources unless two slashes stand at the end of its
own. -/
theorem account_requests_carry_session_tokens (hs : s.vault.registry.Within cfg.origins)
    (hothers : ∀ i p spares, actions i = .other p spares → Makes Call.SparesRegistry p)
    (h : World.Reaches Shared.step (begun cfg actions s) log w) :
    (∀ name ∈ resources, cfg.apiEndpoint.toList <+: (cfg.resource name).toList ↔
      ¬ ['/', '/'] <:+ cfg.apiEndpoint.toList) ∧
    (∀ i given tasks, actions i = .login given →
      Path (Program.loginBy cfg given) (World.repliesTo i log) (.done (.ok tasks)) →
      ∃ c, Exchanged c (World.repliesTo i log) ∧ TakesCharge cfg log i c) ∧
    (∀ i, actions i = .loadSession →
      Path (Program.loadSession cfg).run (World.repliesTo i log) (.done (.ok true)) →
      ∃ stored, ⟨.settings, stored⟩ ∈ World.repliesTo i log ∧
        ∀ c, Program.storedCredentials cfg stored = some c → TakesCharge cfg log i c) ∧
    ∀ i job before o after, actions i = .refresh job →
      log = before ++ (i, .asked (.auth (.send o))) :: after →
      o.suspended = true ∨ CarriesSession cfg (begun cfg actions s) before i o := by
  refine ⟨fun name hname => prefix_resource_iff hname, fun i given tasks _ hpath => ?_,
    fun i _ hpath => ?_, fun i job before o after hjob hlog => ?_⟩
  · obtain ⟨c, hexchanged, henlisted⟩ :=
      Conduct.leads_of_path (Program.leads_loginBy_enlisting cfg given) hpath tasks rfl
    exact ⟨c, hexchanged, takesCharge_of_enlisted h henlisted⟩
  · obtain ⟨stored, hstored, henlisted⟩ :=
      Conduct.leads_of_path (Program.leads_loadSession_enlisting cfg) hpath rfl
    exact ⟨stored, hstored, fun c hc => takesCharge_of_enlisted h (henlisted c hc)⟩
  · subst hlog
    obtain ⟨u, u', hreach, hstep⟩ := h.split
    cases hstep with
    | asked ht hr =>
      have hleads := Conduct.leads_of_path (Program.leads_ofJob_attending cfg job)
        (hjob ▸ hreach.path (fun _ => rfl) i)
      rw [ht] at hleads
      exact hleads.1.imp_right fun hrequests =>
        carriesSession_of_requests hs hothers hreach hrequests

end Runs

section Sample

set_option maxRecDepth 10000

/-- It is noon, the token server issues new tokens, and no other request has an answer yet. -/
def unanswered : (c : Call) → Option (Reply c)
  | .auth (.send o) => if o.request.method = "POST" then issuing (.auth (.send o)) else none
  | c => issuing c

/-- The stored account is taken up while its user is asked for. -/
def takingUp : Bool → Action
  | false => .loadSession
  | true => .refresh .refreshUser

def isTakenUp : Program (Except Error Bool) → Bool
  | .done (.ok taken) => taken
  | _ => false

theorem eq_of_isTakenUp {p : Program (Except Error Bool)} (h : isTakenUp p = true) :
    p = .done (.ok true) := by
  unfold isTakenUp at h
  split at h
  · rw [h]
  · exact absurd h (by simp)

/-- The request that a program is at. -/
def requestAt : Program Unit → Option Auth.Outgoing
  | .ask (.auth (.send o)) _ => some o
  | _ => none

theorem exists_next_of_requestAt {p : Program Unit} {o : Auth.Outgoing}
    (h : requestAt p = some o) : ∃ next, p = .ask (.auth (.send o)) next := by
  unfold requestAt at h
  split at h
  · obtain rfl := Option.some.inj h
    exact ⟨_, rfl⟩
  · exact absurd h (by simp)

theorem repliesTo_map {ι : Type} [DecidableEq ι] (i j : ι)
    (es : List (AccountGate.Event interface)) :
    World.repliesTo i (es.map (j, ·)) =
      if j = i then es.filterMap AccountGate.Event.reply? else [] := by
  rw [World.repliesTo, List.filterMap_map]
  by_cases h : j = i <;> simp [h]

/-- What happens until the stored account is taken up. -/
def untilTakenUp (cfg : Config) :=
  Flow.advance Shared.step unanswered (Program.loadSession cfg).run stocked

/-- What happens from there until the first request for a resource. -/
def untilRequest (cfg : Config) :=
  Flow.advance Shared.step unanswered (Program.ofJob cfg .refreshUser) (untilTakenUp cfg).2.1

def sampleLog (cfg : Config) : Trace interface Bool :=
  (untilTakenUp cfg).1.map (false, ·) ++ (untilRequest cfg).1.map (true, ·)

/-- The account is taken up, and then the request of the job goes out. -/
theorem exists_run_to_request (cfg : Config) {o : Auth.Outgoing}
    (htaken : isTakenUp (untilTakenUp cfg).2.2 = true)
    (hrequest : requestAt (untilRequest cfg).2.2 = some o) : ∃ w w',
    World.Reaches Shared.step (begun cfg takingUp stocked) (sampleLog cfg) w ∧
    w.state = (untilRequest cfg).2.1 ∧
    World.Reaches Shared.step (begun cfg takingUp stocked)
      (sampleLog cfg ++ [(true, .asked (.auth (.send o)))]) w' ∧
    Path (Program.loadSession cfg).run (World.repliesTo false (sampleLog cfg))
      (.done (.ok true)) := by
  have hload : Flow.advance Shared.step unanswered (Program.loadSession cfg).run stocked =
      untilTakenUp cfg := by rw [untilTakenUp]
  have hjob : Flow.advance Shared.step unanswered (Program.ofJob cfg .refreshUser)
      (untilTakenUp cfg).2.1 = untilRequest cfg := by rw [untilRequest]
  rw [sampleLog]
  generalize untilTakenUp cfg = x at *
  generalize untilRequest cfg = y at *
  obtain ⟨es, s, p⟩ := x
  obtain ⟨fs, t, q⟩ := y
  obtain ⟨next, rfl⟩ := exists_next_of_requestAt hrequest
  obtain rfl := eq_of_isTakenUp htaken
  have hfirst := World.reaches_of_advance (w := begun cfg takingUp stocked) (i := false)
    (f := fun _ => .done ()) hload rfl rfl
  generalize hw : World.set _ false _ _ = u at hfirst
  have htask : u.task true = .running ((Program.ofJob cfg .refreshUser).bind .done) := by
    rw [← hw, World.set_task_of_ne _ (by decide), Flow.bind_done]
    rfl
  have hboth := hfirst.trans (World.reaches_of_advance hjob (by rw [← hw]; rfl) htask)
  refine ⟨_, _, hboth, rfl, .step hboth (.asked (World.set_task_self _ _ _ _) rfl), ?_⟩
  have hpath := Flow.path_advance Shared.step unanswered (Program.loadSession cfg).run stocked
  rw [hload] at hpath
  rw [World.repliesTo_append, repliesTo_map, repliesTo_map, if_pos rfl, if_neg (by decide),
    List.append_nil]
  exact hpath

theorem no_other_takingUp (i : Bool) (p : Program Unit) (spares : Makes Call.SparesSession p)
    (h : takingUp i = .other p spares) : Makes Call.SparesRegistry p := by
  cases i <;> exact absurd h (by simp [takingUp])

/-- The tokens that are taken up are renewed, and the request carries the new one. -/
theorem renewed_token_is_carried : ∃ before w o,
    stocked.vault.registry.Within sampleConfig.origins ∧
    (∀ i p spares, takingUp i = .other p spares → Makes Call.SparesRegistry p) ∧
    World.Reaches Shared.step (begun sampleConfig takingUp stocked)
      (before ++ [(true, .asked (.auth (.send o)))]) w ∧
    o.authorization = some "Bearer A1" ∧
    CarriesSession sampleConfig (begun sampleConfig takingUp stocked) before true o := by
  have hwithin : stocked.vault.registry.Within sampleConfig.origins :=
    fun _ h => absurd h List.not_mem_nil
  obtain ⟨-, w, -, -, hreach, -⟩ := exists_run_to_request sampleConfig
    (o := Auth.carrying (.getAny (sampleConfig.resource "user_info")) (.header "Bearer" "A1"))
    (by decide +kernel) (by decide +kernel)
  refine ⟨_, w, _, hwithin, no_other_takingUp, hreach, by decide, ?_⟩
  have hsends := (account_requests_carry_session_tokens hwithin no_other_takingUp hreach).2.2.2
    true .refreshUser _ _ [] rfl rfl
  exact hsends.resolve_left (by decide)

/-- The service with a slash too many. -/
def doubled : Config where
  clientId := "id"
  apiEndpoint := "https://a.io//"

/-- With two slashes at the end of the address the stored account is taken up all the same, and its
token is there; the request goes out without it. -/
theorem doubled_slash_leaves_request_bare : ∃ before w w' o handle,
    stocked.vault.registry = [] ∧ doubled.apiEndpoint ≠ "" ∧
    World.Reaches Shared.step (begun doubled takingUp stocked) before w ∧
    Path (Program.loadSession doubled).run (World.repliesTo false before) (.done (.ok true)) ∧
    lastRegistered before = some handle ∧
    (w.state.vault.tokensOf handle.id).status ≠ .expired ∧
    (w.state.vault.tokensOf handle.id).access.value = "A0" ∧
    World.Reaches Shared.step (begun doubled takingUp stocked)
      (before ++ [(true, .asked (.auth (.send o)))]) w' ∧
    o.request = .getAny (doubled.resource "user_info") ∧ o.suspended = false ∧
    ¬ doubled.apiEndpoint.toList <+: (doubled.resource "user_info").toList ∧
    o.authorization = none := by
  obtain ⟨w, w', hbefore, hw, hreach, hloaded⟩ := exists_run_to_request doubled
    (o := Auth.carrying (.getAny (doubled.resource "user_info")) .none)
    (by decide +kernel) (by decide +kernel)
  have hlast : lastRegistered (sampleLog doubled) =
      some (.bearer 0 "id" doubled.tokenEndpoint) := by decide +kernel
  refine ⟨_, w, w', _, _, rfl, by decide, hbefore, hloaded, hlast, ?_, ?_, hreach, rfl, rfl,
    by decide, rfl⟩
  · rw [hw]
    decide +kernel
  · rw [hw]
    decide +kernel

end Sample

end Account

end AccountGate
