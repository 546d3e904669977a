import AccountGate.Proofs.Account.Agreement
import AccountGate.Proofs.Account.Balance

/-!
One refresh, whose two jobs run at once. Main statement: where license, clock and answers stay as they
are, every order of their steps ends with the same settings, key, tokens and session, and with the same
events but for their order; so what a refresh leaves follows from what it finds.
-/

namespace AccountGate.Account

open License (Entitlement)

/-- Where a refresh begins: one strategy, or none, serves the addresses of the account, and no
question for its tokens and no check of support is under way. -/
structure Shared.Begins (cfg : Config) (s : Shared) : Prop where
  serves : ∀ name ∈ ["user_info", "support_info", "rsa_public_key"],
    s.vault.registry.find? (cfg.resource name) = s.vault.registry.find? cfg.apiEndpoint
  idle : ∀ handle ∈ s.vault.registry.find? cfg.apiEndpoint, handle.id ∉ s.vault.held
  free : s.checking = false

/-- Making room for the settings brings no key to light, and hides none. -/
def Shared.Spares (s : Shared) : Prop :=
  (License.KeyCache.load (s.store.apply s.disk []).2.2 s.keyDir).toOption = s.key?

theorem Shared.Settled.spares {s : Shared} (h : s.Settled) : s.Spares := by
  obtain ⟨s', hs, -⟩ := h.apply []
  exact (h.stores_apply hs).2

/-- The occasion that a refresh finds. -/
def Occasion.ofShared (cfg : Config) (license : Except Error (Option Json)) (now : Int)
    (answer : String → String → Answer) (s : Shared) : Occasion where
  cfg := cfg
  found := s.vault.registry.find? cfg.apiEndpoint
  first := ((s.vault.registry.find? cfg.apiEndpoint).map fun handle =>
    s.vault.tokensOf handle.id).getD Auth.Vault.noTokens
  settings := s.store.settings
  license := license
  now := now
  answer := answer

section Jobs

variable {o : Occasion} {s₀ s : Shared} {log : Trace interface Job} {st : Job → Tally} {i : Job}

theorem serves_ofShared {cfg : Config} {license : Except Error (Option Json)} {now : Int}
    {answer : String → String → Answer} (h : s.Begins cfg) :
    (Occasion.ofShared cfg license now answer s).Serves s.vault := by
  intro url hurl
  rcases List.mem_cons.mp hurl with rfl | hurl
  · rfl
  · obtain ⟨name, hname, rfl⟩ := List.mem_map.mp
      (show url ∈ ["user_info", "support_info", "rsa_public_key"].map cfg.resource from hurl)
    exact h.serves name hname

theorem balanced_start {cfg : Config} {license : Except Error (Option Json)} {now : Int}
    {answer : String → String → Answer} (h : s.Begins cfg) :
    Balanced (Occasion.ofShared cfg license now answer s) s []
      (Occasion.ofShared cfg license now answer s).start s := by
  generalize ho : Occasion.ofShared cfg license now answer s = o
  have hfirst (id : Nat) (hid : o.scene.id? = some id) : id ∉ s.vault.held ∧
      s.vault.tokensOf id = o.first := by
    have hscene : o.scene.found = s.vault.registry.find? cfg.apiEndpoint := by
      rw [← ho]
      rfl
    rw [Auth.Scene.id?, hscene] at hid
    cases hfound : s.vault.registry.find? cfg.apiEndpoint with
    | none => simp [hfound] at hid
    | some handle =>
      rw [hfound] at hid
      cases handle with
      | basic _ _ => simp at hid
      | bearer id' clientId tokenServer =>
        obtain rfl := Option.some.inj hid
        refine ⟨h.idle _ hfound, ?_⟩
        rw [← ho, Occasion.ofShared, hfound]
        rfl
  have hnothing : ¬ HasWritten (fun job => (o.start job).wrote) (fun job => (o.start job).saved) := by
    rintro ⟨job, hwrote | hsaved⟩
    · exact hwrote rfl
    · exact absurd hsaved (by simp [Occasion.start])
  exact {
    job_eq := fun _ => rfl
    renewing := {
      tended := ⟨rfl, fun _ _ => rfl, fun _ => .inl rfl, .idle (fun _ => rfl) fun id hid =>
        ⟨(hfirst id hid).1, .inl ⟨(hfirst id hid).2, fun _ => rfl⟩⟩⟩
      before_eq := by simp [Occasion.start]
      renewer := fun hne hholds => absurd hholds.choose_spec hne
      saved_differs := fun _ hsaved => absurd hsaved (by simp [Occasion.start]) }
    storing := ⟨by rw [← ho]; rfl, fun _ _ hmem => absurd hmem List.not_mem_nil⟩
    stocked := ⟨rfl, rfl, fun _ => ⟨rfl, rfl, rfl⟩, fun hwritten => absurd hwritten hnothing,
      fun _ => rfl⟩
    announced := ⟨rfl, [], by simp, .refl _⟩
    seen := fun _ _ hmem => absurd hmem List.not_mem_nil }

/-- No job puts back a user over another one: there is one job for the user. -/
theorem Balanced.not_reverts (h : Balanced o s₀ log st s) {e : AccountGate.Event interface}
    (hallow : ∀ changes stored, e = .inner (.apply changes) stored →
      (st i).Allows o (.apply changes)) : ¬ Reverts log s (i, e) := by
  rintro ⟨j, user, stored, first, heq, ⟨front, rest, rfl, -⟩, hknown, hne⟩
  obtain ⟨rfl, rfl⟩ := Prod.mk.inj heq
  have huser : Key.userId ∈ user.changes.map Prod.fst := List.mem_cons_self
  rcases (hallow _ _ rfl).2.2 with howns | hsaves
  · have hjob : i = .refreshUser := by
      have hkey := howns.keys _ huser
      rw [h.job_eq i] at hkey
      cases i with
      | refreshUser => rfl
      | refreshSupport => exact absurd hkey (by decide)
    subst hjob
    -- Before it stores a user, the job has found the one who is still stored.
    have hfound := h.seen howns.first first (by simp)
    have hstored : s.store.settings.value Key.userId = o.settings.value Key.userId := by
      have hmem : Key.userId ∈ Job.refreshUser.keys := List.mem_cons_self
      have hget := h.storing.get?_eq hmem
      rw [howns.first] at hget
      rw [Settings.value, Settings.value, Settings.value?, Settings.value?, hget]
      rfl
    exact hne (hstored.trans (hfound.symm.trans hknown))
  · rw [hsaves.changes_eq] at huser
    have hmem : Key.userId ∈ Job.refreshUser.keys := by decide
    exact keys_notMem_credentials hmem huser

/-- Storing settings spares the key. -/
theorem Stocked.key?_apply {wrote : Job → Entries} {saved : Job → Bool} {key : Job → Option String}
    (h : Stocked s₀ wrote saved key s) (hspares : s₀.Spares) {changes : Entries}
    (hok : (s.store.apply s.disk changes).1 = .ok ()) :
    (License.KeyCache.load (s.store.apply s.disk changes).2.2 s.keyDir).toOption = s.key? := by
  by_cases hwritten : HasWritten wrote saved
  · exact congrArg Except.toOption (((h.touched hwritten).apply h.dir_eq hok).load_eq s.keyDir)
  · obtain ⟨-, hstore, hdisk⟩ := h.untouched hwritten
    rw [Shared.key?, h.keyDir_eq]
    rw [hstore, hdisk] at hok ⊢
    rw [(twins_of_first hok).load_eq]
    exact hspares

/-- The tokens that are read last are others than the first ones, so that they are stored. -/
def Occasion.mustSave (o : Occasion) : Bool := decide (o.pair o.first ≠ o.pair o.scene.last)

/-- The settings that a refresh leaves. -/
def Occasion.settingsLeft (o : Occasion) : Settings := o.storedAs o.written fun _ => o.mustSave

/-- The key that a refresh leaves. -/
def Occasion.keyLeft (o : Occasion) (s : Shared) : Except Disk.Fault String :=
  License.KeyCache.load (if HasWritten o.written fun _ => o.mustSave then
    s.stockedDisk (o.keyFound .refreshSupport) else s.disk) s.keyDir

/-- What follows from license, clock and answers, and is left by a refresh in whatever order. -/
structure Occasion.Leaves (o : Occasion) (s₀ s : Shared) : Prop where
  settings_eq : s.store.settings = o.settingsLeft
  key_eq : License.KeyCache.load s.disk s.keyDir = o.keyLeft s₀
  registry_eq : s.vault.registry = s₀.vault.registry
  tokens_eq : ∀ id, s.vault.tokensOf id =
    if o.scene.id? = some id then o.scene.last else s₀.vault.tokensOf id
  session_eq : s.session = ⟨(userOf o.userStored).1, (License.KeyCache.check (o.keyLeft s₀)
    (claimUnder o.license o.settingsLeft) (Date.ofUnix o.now)).isSupported, (userOf o.userStored).2⟩
  events_eq : ∃ new, s.events = s₀.events ++ new ∧
    new.Perm (o.emitted .refreshUser ++ o.emitted .refreshSupport)

/-- Tokens that differ from the renewed ones have been renewed, and the job for the claim knows it. -/
theorem asks_of_ne (h : o.first ≠ o.scene.last) : o.asks .refreshSupport = true := by
  by_contra hasks
  exact h (if_neg hasks : o.scene.last = o.first).symm

/-- Tokens are stored by some job exactly if there are others than at first. -/
theorem Balanced.saved_eq (h : Balanced o s₀ log st s) (hend : ∀ i, (st i).Ended o i) :
    ((st .refreshUser).saved || (st .refreshSupport).saved) = o.mustSave := by
  rw [Bool.eq_iff_iff, Bool.or_eq_true, Occasion.mustSave, decide_eq_true_iff]
  constructor
  · rintro (hsaved | hsaved)
    · exact h.renewing.saved_differs .refreshUser hsaved
    · exact h.renewing.saved_differs .refreshSupport hsaved
  · intro hdiffers
    have hne : o.first ≠ o.scene.last := fun heq => hdiffers (congrArg o.pair heq)
    -- Who has renewed the tokens read the first ones, and so has stored the others.
    obtain ⟨i, hknown, hbefore⟩ := h.renewing.renewer hne
      ⟨.refreshSupport, (hend .refreshSupport).known_eq (asks_of_ne hne)⟩
    obtain ⟨b, hb, hsaved | hpair⟩ := (hend i).saved
    · cases i with
      | refreshUser => exact .inl hsaved
      | refreshSupport => exact .inr hsaved
    · obtain rfl := Option.some.inj (hbefore.symm.trans hb)
      rw [hknown] at hpair
      exact absurd hpair.symm hdiffers

theorem Balanced.settings_eq (h : Balanced o s₀ log st s) (hend : ∀ i, (st i).Ended o i) :
    s.store.settings = o.settingsLeft := by
  have hwrote (i : Job) : (st i).wrote = o.written i := (hend i).wrote_eq
  rw [h.storing.settings_eq, Occasion.settingsLeft, Occasion.storedAs, Occasion.storedAs,
    h.saved_eq hend, hwrote, hwrote, Bool.or_self]

theorem Balanced.key_eq (h : Balanced o s₀ log st s) (hend : ∀ i, (st i).Ended o i) :
    License.KeyCache.load s.disk s.keyDir = o.keyLeft s₀ := by
  have hwrote (i : Job) : (st i).wrote = o.written i := (hend i).wrote_eq
  have hiff : HasWritten (fun i => (st i).wrote) (fun i => (st i).saved) ↔
      HasWritten o.written fun _ => o.mustSave := by
    rw [hasWritten_iff, hasWritten_iff, h.saved_eq hend, hwrote, hwrote, Bool.or_self]
  rw [Occasion.keyLeft, h.stocked.keyDir_eq]
  split
  · next hwritten =>
    have htwins := h.stocked.touched (hiff.mpr hwritten)
    rw [(hend .refreshSupport).key_eq] at htwins
    exact htwins.load_eq _
  · next hnot => rw [(h.stocked.untouched (mt hiff.mp hnot)).2.2]

/-- In the end the tokens are the renewed ones. -/
theorem Balanced.tokens_eq (h : Balanced o s₀ log st s) (hend : ∀ i, (st i).Ended o i) (id : Nat) :
    s.vault.tokensOf id = if o.scene.id? = some id then o.scene.last else s₀.vault.tokensOf id := by
  split
  · next hid =>
    cases h.renewing.tended.in_hand with
    | idle _ hcurrent =>
      rcases (hcurrent id hid).2 with ⟨hfirst, hall⟩ | ⟨hlast, _⟩
      · rw [hfirst]
        by_contra hne
        have hknown := (hend .refreshSupport).known_eq (asks_of_ne hne)
        exact hne ((hall .refreshSupport).symm.trans hknown)
      · exact hlast
    | busy i _ _ _ hfits _ =>
      rw [(hend i).hand_eq] at hfits
      exact hfits.elim
  · next hid => exact h.renewing.tended.others_eq id hid

end Jobs

section Runs

variable {cfg : Config} {license : Except Error (Option Json)} {now : Int}
  {answer : String → String → Answer} {s : Shared} {log : Trace interface Job}
  {w : World interface Shared Job Unit}

/-- At each moment of a refresh what is shared is as the tallies say, and each job keeps to them. -/
theorem balanced_of_reaches (hbegins : s.Begins cfg)
    (h : World.Reaches Shared.step (begunJobs cfg (fun job : Job => job) s) log w)
    (hfixed : World.RepliesAre (Fixed license now answer) log) :
    ∃ st, Balanced (Occasion.ofShared cfg license now answer s) s log st w.state ∧
      ∀ i, (tally (Occasion.ofShared cfg license now answer s)).Leads
        (fun _ t => t.Ended (Occasion.ofShared cfg license now answer s) i) (st i)
        (w.task i).program := by
  refine (keeps_balanced (serves_ofShared hbegins)).of_reaches (balanced_start hbegins)
    (fun _ => rfl) (fun i => ?_) h ?_
  · exact Program.leads_ofJob_tally (Occasion.ofShared cfg license now answer s) i
  · rintro before e after w₁ w₂ rfl - -
    exact hfixed e (by simp)

/-- The run is fair to the checks of support. -/
theorem fairRun_of_fixed (hbegins : s.Begins cfg) (hspares : s.Spares)
    (hfixed : World.RepliesAre (Fixed license now answer) log) :
    Conduct.FairRun Shared.step (Fair license (Date.ofUnix now))
      (begunJobs cfg (fun job : Job => job) s) log := by
  rintro before ⟨i, e⟩ after w₁ w₂ rfl hreach hs
  have hnow (x : Exchange interface) (hx : e.reply? = some x) : Fixed license now answer x.call x.reply :=
    hfixed (i, e) (by simp) x hx
  obtain ⟨st, hbalanced, hleads⟩ := balanced_of_reaches hbegins hreach
    fun e he => hfixed e (List.mem_append_left _ he)
  have hlead := hleads i
  refine ⟨fun x hx => ?_, fun changes stored he => ?_, hbalanced.not_reverts fun changes stored he => ?_⟩
  · have hfixed := hnow x hx
    obtain ⟨c, r⟩ := x
    cases c with
    | auth c =>
      cases c with
      | clock => exact congrArg Date.ofUnix hfixed
      | _ => trivial
    | license => exact hfixed
    | _ => trivial
  · have hok : stored = .ok () := hnow ⟨.apply changes, stored⟩ (by rw [show e = _ from he]; rfl)
    obtain rfl : e = _ := he
    subst hok
    cases hs with
    | inner _ hr =>
      exact ⟨rfl, hbalanced.stocked.key?_apply hspares (Outcome.reply.inj hr).1⟩
  · obtain rfl : e = _ := he
    cases hs with
    | inner ht _ =>
      rw [ht] at hlead
      exact hlead.1

/-- What a refresh leaves. -/
theorem leaves_of_reaches (hbegins : s.Begins cfg) (hspares : s.Spares)
    (h : World.Reaches Shared.step (begunJobs cfg (fun job : Job => job) s) log w)
    (hfixed : World.RepliesAre (Fixed license now answer) log)
    (hdone : ∀ i, w.task i = .running (.done ())) :
    (Occasion.ofShared cfg license now answer s).Leaves s w.state := by
  obtain ⟨st, hbalanced, hleads⟩ := balanced_of_reaches hbegins h hfixed
  have hend (i : Job) : (st i).Ended (Occasion.ofShared cfg license now answer s) i := by
    have hlead := hleads i
    rw [hdone i] at hlead
    exact hlead
  have hsupported : w.state.session.supported = (License.KeyCache.check
      (License.KeyCache.load w.state.disk w.state.keyDir)
      (claimUnder license w.state.store.settings) (Date.ofUnix now)).isSupported := by
    have hcovered : Covered license (Date.ofUnix now) (fun job : Job => job.stage) s :=
      .owed .refreshSupport trivial
    obtain ⟨st, hguarded, hleads⟩ := (keeps_guarded license (Date.ofUnix now)).of_reaches
      (guarded_of_covered hbegins.free hcovered) (fun _ => rfl)
      (fun i => Program.leads_ofJob cfg i) h (fairRun_of_fixed hbegins hspares hfixed)
    refine hguarded.covered.supported_eq fun i => ?_
    have hlead := hleads i
    rw [hdone i] at hlead
    exact hlead
  have htold := hbalanced.announced.told_eq
  rw [(hend .refreshUser).told_eq] at htold
  refine ⟨hbalanced.settings_eq hend, hbalanced.key_eq hend, hbalanced.renewing.tended.registry_eq,
    hbalanced.tokens_eq hend, ?_, ?_⟩
  · rw [hbalanced.key_eq hend, hbalanced.settings_eq hend] at hsupported
    obtain ⟨hauthorized, huser⟩ := Prod.mk.inj htold
    generalize w.state.session = session at hsupported hauthorized huser
    obtain ⟨authorized, supported, user⟩ := session
    obtain rfl := hsupported
    obtain rfl := hauthorized
    obtain rfl := huser
    rfl
  · rw [← (hend .refreshUser).emitted_eq, ← (hend .refreshSupport).emitted_eq]
    exact hbalanced.announced.events_eq

/-- Both jobs together tell of the user once, and of support once or, if the stored user has become
another one, twice. -/
theorem Occasion.Leaves.events {o : Occasion} {s₀ s : Shared} (h : o.Leaves s₀ s) :
    o.emitted .refreshUser ++ o.emitted .refreshSupport = .userInfoUpdated :: .supportInfoUpdated ::
      if s.store.settings.value Key.userId = o.settings.value Key.userId then []
      else [.supportInfoUpdated] := by
  have hkept (changes : Entries) (hkey : Key.userId ∉ changes.map Prod.fst) (settings : Settings) :
      (settings.merge changes).value Key.userId = settings.value Key.userId :=
    Settings.value_merge_of_notMem hkey settings
  have hclaim : Key.userId ∉ (o.written .refreshSupport).map Prod.fst := by
    rw [Occasion.written]
    split
    · exact fun hmem => absurd ((Program.keys_claim _).2 _ hmem) (by decide)
    · exact List.not_mem_nil
  have hmem : Key.userId ∈ Job.refreshUser.keys := by decide
  have hcredentials : Key.userId ∉ (if o.mustSave || o.mustSave then o.credentials else []).map
      Prod.fst := keys_notMem_saved hmem _
  have hstored : s.store.settings.value Key.userId = o.userStored.value Key.userId := by
    rw [h.settings_eq, Occasion.settingsLeft, Occasion.storedAs, hkept _ hcredentials,
      hkept _ hclaim]
    rfl
  rw [hstored, Occasion.emitted, Occasion.emitted]
  by_cases hmoved : o.HasMoved
  · rw [if_pos hmoved, if_neg hmoved]
    rfl
  · rw [if_neg hmoved, if_pos (not_not.mp hmoved)]
    rfl

/-- A refresh is confluent. From any state in which nothing is under way and one strategy, or none,
serves the account, with any license, clock and answers that stay as they are, all orders of the steps
of the two jobs end with the same settings, key, registry, tokens and session. Of the user observers
are told once, and of support once, or twice if another user is stored than before. -/
theorem refresh_is_confluent {log' : Trace interface Job} {w' : World interface Shared Job Unit}
    (hbegins : s.Begins cfg) (hspares : s.Spares)
    (h : World.Reaches Shared.step (begunJobs cfg (fun job : Job => job) s) log w)
    (hfixed : World.RepliesAre (Fixed license now answer) log)
    (hdone : ∀ i, w.task i = .running (.done ()))
    (h' : World.Reaches Shared.step (begunJobs cfg (fun job : Job => job) s) log' w')
    (hfixed' : World.RepliesAre (Fixed license now answer) log')
    (hdone' : ∀ i, w'.task i = .running (.done ())) :
    w.state.store.settings = w'.state.store.settings ∧ w.state.key? = w'.state.key? ∧
    w.state.vault.registry = w'.state.vault.registry ∧
    (∀ id, w.state.vault.tokensOf id = w'.state.vault.tokensOf id) ∧
    w.state.session = w'.state.session ∧
    ∃ new new', w.state.events = s.events ++ new ∧ w'.state.events = s.events ++ new' ∧
      new.Perm new' ∧ new.Perm (.userInfoUpdated :: .supportInfoUpdated ::
        if w.state.store.settings.value Key.userId = s.store.settings.value Key.userId then []
        else [.supportInfoUpdated]) := by
  have hleaves := leaves_of_reaches hbegins hspares h hfixed hdone
  have hleaves' := leaves_of_reaches hbegins hspares h' hfixed' hdone'
  obtain ⟨new, hnew, hperm⟩ := hleaves.events_eq
  obtain ⟨new', hnew', hperm'⟩ := hleaves'.events_eq
  refine ⟨hleaves.settings_eq.trans hleaves'.settings_eq.symm, ?_,
    hleaves.registry_eq.trans hleaves'.registry_eq.symm,
    fun id => (hleaves.tokens_eq id).trans (hleaves'.tokens_eq id).symm,
    hleaves.session_eq.trans hleaves'.session_eq.symm, new, new', hnew, hnew',
    hperm.trans hperm'.symm, ?_⟩
  · rw [Shared.key?, Shared.key?, hleaves.key_eq, hleaves'.key_eq]
  · rwa [hleaves.events] at hperm

end Runs

section Sample

open Program (Bare Scripted)

variable {cfg : Config} {now : Int} {answer : String → String → Answer} {s t : Shared}

/-- What is answered depends on method and address only. -/
def byAddress (answer : String → String → Answer) (request : Request) : Answer :=
  answer request.method request.url

/-- What a job gets that runs by itself. -/
theorem fixed_of_scripted {c : Call} {r : Reply c}
    (h : Scripted now (byAddress answer) c r) :
    Fixed (.ok none) now answer c r := by
  cases c with
  | auth c =>
    cases c with
    | clock => exact h
    | send o => exact h
    | _ => trivial
  | license => exact h
  | apply changes => exact h
  | _ => trivial

/-- One job runs after the other one. -/
theorem reaches_in_turn {first second : Job} (hne : first ≠ second)
    (hfirst : Flow.Solo Shared.step (Scripted now (byAddress answer))
      (Program.ofJob cfg first) s () t) {u : Shared}
    (hsecond : Flow.Solo Shared.step (Scripted now (byAddress answer))
      (Program.ofJob cfg second) t () u) :
    ∃ log w, World.Reaches Shared.step (begunJobs cfg (fun job : Job => job) s) log w ∧
      World.RepliesAre (Fixed (.ok none) now answer) log ∧
      (∀ i, w.task i = .running (.done ())) ∧ w.state = u := by
  have htask (job : Job) : (begunJobs cfg (fun job : Job => job) s).task job =
      .running ((Program.ofJob cfg job).bind .done) := by
    rw [Flow.bind_done]
    rfl
  obtain ⟨log₁, h₁, hreplies₁⟩ := World.reaches_of_solo hfirst (by rfl) (htask first)
  obtain ⟨log₂, h₂, hreplies₂⟩ := World.reaches_of_solo hsecond (by rfl)
    ((World.set_task_of_ne _ hne.symm _ _).trans (htask second))
  refine ⟨_, _, h₁.trans h₂, ?_, fun i => ?_, rfl⟩
  · exact fun e he x hx => fixed_of_scripted ((hreplies₁.append hreplies₂) e he x hx)
  · by_cases hi : i = second
    · subst hi
      exact World.set_task_self _ _ _ _
    · have hi' : i = first := by
        cases i <;> cases first <;> cases second <;> simp_all
      subst hi'
      rw [World.set_task_of_ne _ hi, World.set_task_self]

/-- What is shared once the job for the claim has found that there is no support. -/
def unsupported (s : Shared) (now : Int) (counters : List Counter) : Shared :=
  { Program.checked (Program.stored s [(Key.supported, "false")]) now counters with
    events := s.events ++ [.supportInfoUpdated] }

theorem bare_unsupported (h : Bare s) (now : Int) (counters : List Counter) :
    Bare (unsupported s now counters) :=
  ⟨h.registry_eq, h.license_eq, rfl⟩

/-- The job for the claim, where the service knows of no support. -/
theorem solo_refreshSupport (h : Bare s) (hfree : s.checking = false) {record : Json}
    (hrecord : jsonOutcome (cfg.resource "support_info")
      (byAddress answer (.getAny (cfg.resource "support_info"))) = .ok record)
    (hunsupported : SupportClaim.saysYes (record.get? "supported") = false) : ∃ counters,
    Flow.Solo Shared.step (Scripted now (byAddress answer))
      (Program.ofJob cfg .refreshSupport) s () (unsupported s now counters) := by
  have hclaim (userId : String) : SupportClaim.changes (SupportClaim.ofRecord record userId) =
      [(Key.supported, "false")] := by
    rw [SupportClaim.changes, SupportClaim.ofRecord, hunsupported]
    rfl
  have hstored := h.stored [(Key.supported, "false")]
  obtain ⟨counters, hcheck⟩ := Program.solo_updateSupported now
    (byAddress answer) hstored hfree
  have hlast : Flow.Solo Shared.step (Scripted now (byAddress answer))
      (Program.saveIfChanged cfg (none, none)) (unsupported s now counters) ()
      (unsupported s now counters) := Program.solo_saveIfChanged (bare_unsupported h now counters) cfg
  refine ⟨counters, ?_⟩
  rw [Program.ofJob, Program.refreshSupport_eq]
  refine (Program.solo_tokenPair h cfg).bind (Flow.Solo.bind (a := .ok ()) (t := Program.stored s _) ?_
    (hcheck.bind (.inner rfl trivial hlast)))
  rw [Program.run_fetchClaim]
  refine .inner rfl trivial (.inner (Program.step_license h) rfl
    ((Program.solo_fetchJson h _).bind ?_))
  rw [hrecord]
  dsimp only
  rw [Program.storeClaim, hclaim]
  refine .inner (Program.step_apply h _) rfl ?_
  have hsupported : (SupportClaim.ofRecord record (s.store.settings.value Key.userId)).supported =
      false := hunsupported
  rw [hsupported]
  exact .done _ _

/-- The record that answers every request of the sample. -/
def sampleAnswer : String → String → Answer :=
  fun _ _ => .ok { body := Text.bytes "\x7b\"user_id\":\"u2\"\x7d" }

/-- The jobs of the sample, one after the other in both orders: observers are told in different
orders. -/
theorem refresh_is_confluent_sample : ∃ log w log' w',
    sample.Begins sampleConfig ∧ sample.Spares ∧
    World.Reaches Shared.step (begunJobs sampleConfig (fun job : Job => job) sample) log w ∧
    World.Reaches Shared.step (begunJobs sampleConfig (fun job : Job => job) sample) log' w' ∧
    World.RepliesAre (Fixed (.ok none) noon sampleAnswer) log ∧
    World.RepliesAre (Fixed (.ok none) noon sampleAnswer) log' ∧
    (∀ i, w.task i = .running (.done ())) ∧ (∀ i, w'.task i = .running (.done ())) ∧
    w.state.events = [.userInfoUpdated, .supportInfoUpdated, .supportInfoUpdated] ∧
    w'.state.events = [.supportInfoUpdated, .userInfoUpdated, .supportInfoUpdated] ∧
    w.state.store.settings = w'.state.store.settings ∧ w.state.key? = w'.state.key? ∧
    w.state.session = w'.state.session := by
  have hrecord (name : String) : jsonOutcome (sampleConfig.resource name)
      (byAddress sampleAnswer (.getAny (sampleConfig.resource name))) = .ok (sampleRecord "u2") :=
    jsonOutcome_of_parse parse?_record.2 _
  have hunsupported : SupportClaim.saysYes ((sampleRecord "u2").get? "supported") = false := rfl
  have hne : (User.ofRecord (sampleRecord "u2")).userId ≠
      sample.store.settings.value Key.userId := by decide
  have hnobody (url : String) : sample.vault.registry.find? url = none := by
    rw [bare_sample.registry_eq, Auth.Registry.find?]
    split <;> rfl
  have hbegins : sample.Begins sampleConfig := by
    refine ⟨fun name _ => (hnobody _).trans (hnobody _).symm, fun handle hhandle => ?_, rfl⟩
    rw [hnobody] at hhandle
    exact absurd hhandle (by simp)
  have hspares := settled_sample.spares
  -- The job for the user first.
  obtain ⟨counters₁, huser⟩ := Program.solo_refreshUser_other bare_sample rfl (hrecord "user_info") hne
  obtain ⟨counters₂, hclaim⟩ := solo_refreshSupport
    (bare_sample.replaced (User.ofRecord (sampleRecord "u2")) noon counters₁) rfl
    (hrecord "support_info") hunsupported
  obtain ⟨log, w, hreach, hfixed, hdone, hstate⟩ :=
    reaches_in_turn (by decide) huser hclaim
  -- The job for the claim first: the stored user is the same still.
  obtain ⟨counters₃, hclaim'⟩ := solo_refreshSupport bare_sample rfl (hrecord "support_info")
    hunsupported
  have hne' : (User.ofRecord (sampleRecord "u2")).userId ≠
      (unsupported sample noon counters₃).store.settings.value Key.userId := by
    have hkept : (unsupported sample noon counters₃).store.settings.value Key.userId =
        sample.store.settings.value Key.userId :=
      Settings.value_merge_of_notMem (by decide) sample.store.settings
    rw [hkept]
    exact hne
  obtain ⟨counters₄, huser'⟩ := Program.solo_refreshUser_other (bare_unsupported bare_sample noon counters₃)
    rfl (hrecord "user_info") hne'
  obtain ⟨log', w', hreach', hfixed', hdone', hstate'⟩ := reaches_in_turn (by decide) hclaim' huser'
  obtain ⟨hsettings, hkey, -, -, hsession, -⟩ := refresh_is_confluent hbegins hspares hreach hfixed
    hdone hreach' hfixed' hdone'
  exact ⟨log, w, log', w', hbegins, hspares, hreach, hreach', hfixed, hfixed', hdone, hdone',
    hstate ▸ rfl, hstate' ▸ rfl, hsettings, hkey, hsession⟩

end Sample

end AccountGate.Account
