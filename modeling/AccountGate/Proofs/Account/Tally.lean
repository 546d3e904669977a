import AccountGate.Proofs.Account.Merge
import AccountGate.Proofs.Auth.Renewal

/-!
What the two jobs of a refresh do, where license, clock and answers stay as they are. Main statement:
whatever tokens and settings a job meets on its way, in the end it has stored, told and emitted what
follows from the license and the answers alone; only when it has read the tokens decides whether it
stores them.
-/

namespace AccountGate.Account

open License (Entitlement)
open Program (TokenPair)

/-- What the jobs of a refresh meet: the strategy that serves the account, its tokens and the settings
before the refresh, the license, the clock, and what is answered to a method and an address. -/
structure Occasion where
  cfg : Config
  found : Option Auth.Handle
  first : Auth.Tokens
  settings : Settings
  license : Except Error (Option Json)
  now : Int
  answer : String → String → Answer

namespace Occasion

variable (o : Occasion)

def urls : List String :=
  [o.cfg.apiEndpoint, o.cfg.resource "user_info", o.cfg.resource "support_info",
    o.cfg.resource "rsa_public_key"]

/-- The record that a resource answers with. -/
def fetched (name : String) : Except Error Json :=
  jsonOutcome (o.cfg.resource name) (o.answer "GET" (o.cfg.resource name))

/-- The record of the claim. -/
def claimRecord : Except Error Json :=
  match o.license with
  | .error e => .error e
  | .ok (some record) => .ok record
  | .ok none => o.fetched "support_info"

/-- The claim is one of support, so that its key is asked for. -/
def wantsKey : Bool :=
  match o.claimRecord with
  | .ok record => SupportClaim.saysYes (record.get? "supported")
  | .error _ => false

def isUnlicensed : Bool :=
  match o.license with
  | .ok none => true
  | _ => false

/-- A job sends requests with credentials. -/
def asks : Job → Bool
  | .refreshUser => o.isUnlicensed
  | .refreshSupport => o.isUnlicensed || o.wantsKey

/-- What the job meets of the tokens, were they never renewed. -/
def still : Auth.Scene where
  found := o.found
  urls := o.urls
  answer := o.answer
  now := o.now
  first := o.first
  last := o.first

/-- The tokens are renewed if somebody sends a request with credentials. -/
def scene : Auth.Scene :=
  { o.still with last := if o.asks .refreshSupport then o.still.settle o.first else o.first }

/-- The tokens that a job knows once it has sent its requests, if it sends any. -/
def knows (job : Job) (t : Auth.Tokens) : Auth.Tokens := if o.asks job then o.scene.last else t

def pair (t : Auth.Tokens) : TokenPair := pairOf (o.scene.properties t)

/-- What is stored of the renewed tokens. -/
def credentials : Entries := Program.credentialChanges (o.scene.properties o.scene.last)

/-- The user that the job for the user finds. -/
def userFound : Except Error (Option User) :=
  match o.license with
  | .error e => .error e
  | .ok (some record) => .ok (some (User.ofRecord record))
  | .ok none =>
    match o.fetched "user_info" with
    | .ok record => .ok (some (User.ofRecord record))
    | .error e =>
      if o.cfg.tokenClaims then tokenOutcome (o.scene.properties o.scene.last) else .error e

/-- What a job stores in the settings besides tokens. -/
def written : Job → Entries
  | .refreshUser =>
    match o.userFound with
    | .ok (some user) => user.changes
    | _ => []
  | .refreshSupport =>
    match o.claimRecord with
    | .ok record => SupportClaim.changes (SupportClaim.ofRecord record "")
    | .error _ => []

/-- The key that a job stores. -/
def keyFound : Job → Option String
  | .refreshUser => none
  | .refreshSupport =>
    if o.wantsKey then (keyOutcome (o.answer "GET" (o.cfg.resource "rsa_public_key"))).toOption
    else none

/-- The settings as far as the user goes. -/
def userStored : Settings := o.settings.merge (o.written .refreshUser)

/-- The session is told of the user. -/
def told : Job → Option (Bool × User)
  | .refreshUser => some (userOf o.userStored)
  | .refreshSupport => none

/-- Another user is stored than before. -/
def HasMoved : Prop := o.userStored.value Key.userId ≠ o.settings.value Key.userId

instance : Decidable o.HasMoved := inferInstanceAs (Decidable (_ ≠ _))

def emitted : Job → List Event
  | .refreshUser => if o.HasMoved then [.userInfoUpdated, .supportInfoUpdated] else [.userInfoUpdated]
  | .refreshSupport => [.supportInfoUpdated]

variable {o : Occasion}

theorem asks_of_unlicensed (h : o.license = .ok none) (job : Job) : o.asks job = true := by
  have hunlicensed : o.isUnlicensed = true := by rw [isUnlicensed, h]
  cases job with
  | refreshUser => exact hunlicensed
  | refreshSupport => rw [asks, hunlicensed, Bool.true_or]

theorem asks_of_licensed {record : Json} (h : o.license = .ok (some record)) :
    o.asks .refreshSupport = o.wantsKey := by
  have hlicensed : o.isUnlicensed = false := by rw [isUnlicensed, h]
  rw [asks, hlicensed, Bool.false_or]

/-- Where there is no claim, the job for it asks for no key and stores nothing. -/
theorem nothing_of_error {e : Error} (h : o.claimRecord = .error e) :
    o.wantsKey = false ∧ o.written .refreshSupport = [] ∧ o.keyFound .refreshSupport = none := by
  have hwants : o.wantsKey = false := by rw [wantsKey, h]
  exact ⟨hwants, by rw [written, h], by rw [keyFound, hwants, if_neg (by simp)]⟩

end Occasion

/-- The keys under which a job stores what it finds. -/
def Job.keys : Job → List String
  | .refreshUser => [Key.userId, Key.firstName, Key.lastName, Key.email, Key.roles]
  | .refreshSupport => [Key.supported, Key.sign, Key.startDate, Key.endDate]

/-- What a job has done so far. `before` are the tokens that it read first. -/
structure Tally where
  job : Job
  grip : Auth.Grip
  before : Option TokenPair := none
  wrote : Entries := []
  saved : Bool := false
  key : Option String := none
  told : Option (Bool × User) := none
  emitted : List Event := []
  checking : Bool := false

namespace Tally

/-- A job stores under its own keys, once. -/
structure Owns (t : Tally) (changes : Entries) : Prop where
  first : t.wrote = []
  some : changes ≠ []
  keys : ∀ key ∈ changes.map Prod.fst, key ∈ t.job.keys

/-- A job stores the renewed tokens if it has read others first. -/
structure Saves (o : Occasion) (t : Tally) (changes : Entries) : Prop where
  changes_eq : changes = o.credentials
  known : t.grip.known = o.scene.last
  differs : ∃ b, t.before = some b ∧ b ≠ o.pair o.scene.last

def Allows (o : Occasion) (t : Tally) : Call → Prop
  | .auth c => t.grip.Allows o.scene c ∧
      (t.checking = true → c = .clock ∨ ∃ counter, c = .count counter) ∧
      ((∃ u, t.grip.hand = .put u) → t.before ≠ none)
  | .apply changes => t.grip.hand = .free ∧ t.checking = false ∧
      (t.Owns changes ∨ t.Saves o changes)
  | .storeKey _ => t.grip.hand = .free ∧ t.checking = false ∧ t.job = .refreshSupport ∧
      t.wrote ≠ [] ∧ t.key = none
  | .setUser _ _ => t.grip.hand = .free ∧ t.job = .refreshUser
  | .enterCheck => t.grip.hand = .free ∧ t.checking = false
  | .leaveCheck => t.grip.hand = .free ∧ t.checking = true
  | .settings => t.grip.hand = .free
  | .license => t.grip.hand = .free
  | .loadKey => t.grip.hand = .free
  | .setSupported _ => t.grip.hand = .free
  | .emit _ => t.grip.hand = .free
  | _ => False

def Expects (o : Occasion) (t : Tally) : (c : Call) → Reply c → Prop
  | .auth c, r => t.grip.Expects o.scene c r
  | .settings, found => t.job = .refreshUser →
      ∀ key ∈ t.job.keys, found.get? key = (o.settings.merge t.wrote).get? key
  | .license, license => license = o.license
  | .apply _, stored => stored = .ok ()
  | _, _ => True

def after (o : Occasion) (t : Tally) : (c : Call) → Reply c → Tally
  | .auth c, r => { t with grip := t.grip.after o.scene c r }
  | .settings, _ => { t with before := t.before.or (some (o.pair t.grip.known)) }
  | .apply changes, _ =>
    if Key.accessToken ∈ changes.map Prod.fst then { t with saved := true }
    else { t with wrote := changes }
  | .storeKey text, _ => { t with key := some text }
  | .setUser authorized user, _ => { t with told := some (authorized, user) }
  | .emit event, _ => { t with emitted := t.emitted ++ [event] }
  | .enterCheck, _ => { t with checking := true }
  | .leaveCheck, _ => { t with checking := false }
  | _, _ => t

end Tally

/-- What a job has done when it starts. -/
def Occasion.start (o : Occasion) (job : Job) : Tally where
  job := job
  grip := ⟨.free, o.first⟩

/-- The rules for the jobs of one refresh. -/
def tally (o : Occasion) : Conduct interface where
  Stage := Tally
  Allows := Tally.Allows o
  Expects := Tally.Expects o
  after := Tally.after o

namespace Program

open Conduct (Leads)

variable {o : Occasion} {α : Type} {t : Tally} {u : Auth.Tokens}

/-- A call around credentials outside of a check, while no new tokens are put down. -/
theorem Tally.allows_auth {c : Auth.Call} (hgrip : t.grip.Allows o.scene c)
    (hchecking : t.checking = false) (hhand : ∀ u, t.grip.hand ≠ .put u) : t.Allows o (.auth c) :=
  ⟨hgrip, fun h => absurd (hchecking.symm.trans h) (by simp),
    fun h => absurd h.choose_spec (hhand _)⟩

/-- A program around credentials as part of a job. -/
theorem leads_ofAuth {Q : α → Auth.Grip → Prop} {p : Auth.Program α}
    (hp : (Auth.renewal o.scene).Leads Q t.grip p) (hchecking : t.checking = false)
    (hbefore : t.before ≠ none) :
    (tally o).Leads (fun a t' => ∃ g, Q a g ∧ t' = { t with grip := g }) t (ofAuth p) := by
  induction p generalizing t with
  | done a => exact ⟨t.grip, hp, rfl⟩
  | ask c next ih =>
    refine ⟨⟨hp.1, fun h => absurd (hchecking.symm.trans h) (by simp), fun _ => hbefore⟩,
      fun r hr => ?_⟩
    exact ih r (t := { t with grip := t.grip.after o.scene c r }) (hp.2 r hr) hchecking hbefore

/-- A look at the tokens; they may have been renewed meanwhile. -/
theorem leads_credentialProperties (hgrip : t.grip = ⟨.free, u⟩) (hchecking : t.checking = false) :
    (tally o).Leads (fun properties t' => ∃ u', (u' = u ∨ u' = o.scene.last) ∧
      properties = o.scene.properties u' ∧ t' = { t with grip := ⟨.free, u'⟩ }) t
      (credentialProperties o.cfg) := by
  obtain ⟨job, grip, before, wrote, saved, key, told, emitted, checking⟩ := t
  obtain rfl : grip = ⟨.free, u⟩ := hgrip
  obtain rfl : checking = false := hchecking
  refine ⟨Tally.allows_auth ⟨rfl, List.mem_cons_self⟩ rfl fun _ => Auth.Hand.noConfusion, fun found hfound => ?_⟩
  obtain rfl : found = o.found := hfound
  have hscene : o.scene.found = o.found := rfl
  cases hfound : o.found with
  | none => exact ⟨u, .inl rfl, by rw [Auth.Scene.properties, hscene, hfound], rfl⟩
  | some handle =>
    cases handle with
    | basic id encoded => exact ⟨u, .inl rfl, by rw [Auth.Scene.properties, hscene, hfound], rfl⟩
    | bearer id clientId tokenServer =>
      have hid : o.scene.id? = some id := by
        show Auth.Scene.id? _ = _
        rw [Auth.Scene.id?, hscene, hfound]
      refine ⟨Tally.allows_auth ⟨rfl, hid⟩ rfl fun _ => Auth.Hand.noConfusion, fun u' hu' => ?_⟩
      refine ⟨Tally.allows_auth ⟨hid, .inl ⟨u', rfl⟩⟩ rfl fun _ => Auth.Hand.noConfusion, fun _ _ => ?_⟩
      exact ⟨u', hu', by rw [Auth.Scene.properties, hscene, hfound], rfl⟩

theorem leads_tokenPair (hgrip : t.grip = ⟨.free, u⟩) (hchecking : t.checking = false) :
    (tally o).Leads (fun pair t' => ∃ u', (u' = u ∨ u' = o.scene.last) ∧ pair = o.pair u' ∧
      t' = { t with grip := ⟨.free, u'⟩ }) t (tokenPair o.cfg) := by
  rw [tokenPair_eq]
  refine (leads_credentialProperties hgrip hchecking).bind ?_
  rintro properties t' ⟨u', hu', rfl, rfl⟩
  exact ⟨u', hu', rfl, rfl⟩

theorem settle_first (h : o.asks .refreshSupport = true) :
    o.scene.settle o.scene.first = o.scene.last :=
  (if_pos h : o.scene.last = o.still.settle o.first).symm

/-- After a request of its own a job knows the renewed tokens. -/
theorem leads_fetch {name : String} (hname : o.cfg.resource name ∈ o.urls)
    (hasks : o.asks .refreshSupport = true) (hgrip : t.grip = ⟨.free, u⟩) (hu : o.scene.Has u)
    (hchecking : t.checking = false) (hbefore : t.before ≠ none) :
    (tally o).Leads (fun answer t' => answer = o.answer "GET" (o.cfg.resource name) ∧
      t' = { t with grip := ⟨.free, o.scene.last⟩ }) t
      (ofAuth (Auth.Program.fetchAuthorized (.getAny (o.cfg.resource name)))) := by
  have hown : (Request.getAny (o.cfg.resource name)).hasAuthorization = false := rfl
  have hfetch := Auth.leads_fetchAuthorized hown hname (settle_first hasks) hu
  rw [← hgrip] at hfetch
  refine (leads_ofAuth hfetch hchecking hbefore).mono ?_
  rintro answer t' ⟨g, ⟨rfl, rfl⟩, rfl⟩
  exact ⟨rfl, rfl⟩

theorem leads_fetchJson {name : String} (hname : o.cfg.resource name ∈ o.urls)
    (hasks : o.asks .refreshSupport = true) (hgrip : t.grip = ⟨.free, u⟩) (hu : o.scene.Has u)
    (hchecking : t.checking = false) (hbefore : t.before ≠ none) :
    (tally o).Leads (fun record t' => record = o.fetched name ∧
      t' = { t with grip := ⟨.free, o.scene.last⟩ }) t (fetchJson (o.cfg.resource name)).run := by
  rw [run_fetchJson]
  refine (leads_fetch hname hasks hgrip hu hchecking hbefore).bind ?_
  rintro answer t' ⟨rfl, rfl⟩
  exact ⟨rfl, rfl⟩

theorem leads_fetchUser (hgrip : t.grip = ⟨.free, u⟩) (hu : o.scene.Has u)
    (hchecking : t.checking = false) (hbefore : t.before ≠ none) :
    (tally o).Leads (fun found t' => found = o.userFound ∧
      t' = { t with grip := ⟨.free, o.knows .refreshUser u⟩ }) t (fetchUser o.cfg).run := by
  have hsame : t = { t with grip := ⟨.free, u⟩ } := by rw [← hgrip]
  have hfree : t.grip.hand = .free := by rw [hgrip]
  rw [run_fetchUser]
  refine ⟨hfree, fun license hlicense => ?_⟩
  obtain rfl : license = o.license := hlicense
  show (tally o).Leads _ t (match o.license with | .error e => _ | .ok (some record) => _ | .ok none => _)
  unfold Occasion.userFound Occasion.knows Occasion.asks Occasion.isUnlicensed
  cases hlicense : o.license with
  | error e => exact ⟨rfl, hsame⟩
  | ok license =>
    cases license with
    | some record => exact ⟨rfl, hsame⟩
    | none =>
      refine (leads_fetchJson (by simp [Occasion.urls])
        (Occasion.asks_of_unlicensed hlicense .refreshSupport) hgrip hu hchecking hbefore).bind ?_
      rintro body t' ⟨rfl, rfl⟩
      dsimp only
      cases o.fetched "user_info" with
      | ok record => exact ⟨rfl, rfl⟩
      | error e =>
        dsimp only
        split
        · rw [run_userOfToken]
          refine (leads_credentialProperties (t := { t with grip := ⟨.free, o.scene.last⟩ }) rfl
            hchecking).bind ?_
          rintro properties t' ⟨u', hu' | hu', rfl, rfl⟩
          · exact ⟨by rw [hu'], by rw [hu']; rfl⟩
          · exact ⟨by rw [hu'], by rw [hu']; rfl⟩
        · exact ⟨rfl, rfl⟩

theorem accessToken_notMem {changes : Entries} {job : Job}
    (h : ∀ key ∈ changes.map Prod.fst, key ∈ job.keys) :
    Key.accessToken ∉ changes.map Prod.fst := by
  intro hmem
  have hkey := h _ hmem
  cases job <;> exact absurd hkey (by decide)

theorem after_own {changes : Entries} (h : t.Owns changes) (stored : Except Error Unit) :
    t.after o (.apply changes) stored = { t with wrote := changes } :=
  if_neg (accessToken_notMem h.keys)

theorem after_credentials (stored : Except Error Unit) :
    t.after o (.apply o.credentials) stored = { t with saved := true } := by
  have hmem : Key.accessToken ∈ o.credentials.map Prod.fst := List.mem_cons_self
  rw [Tally.after, if_pos hmem]

/-- What a job stores under its own keys. -/
theorem leads_apply {changes : Entries} {β : Type} {next : Except Error Unit → Program β}
    {Q : β → Tally → Prop} (hfree : t.grip.hand = .free) (hchecking : t.checking = false)
    (howns : t.Owns changes) (hnext : (tally o).Leads Q { t with wrote := changes } (next (.ok ()))) :
    (tally o).Leads Q t (.ask (.apply changes) next) := by
  refine ⟨⟨hfree, hchecking, .inl howns⟩, fun stored hstored => ?_⟩
  obtain rfl : stored = .ok () := hstored
  show (tally o).Leads Q (t.after o (.apply changes) (.ok ())) _
  rw [after_own howns]
  exact hnext

theorem keys_user (user : User) : user.changes ≠ [] ∧
    ∀ key ∈ user.changes.map Prod.fst, key ∈ Job.refreshUser.keys := by
  refine ⟨by simp [User.changes], fun key hkey => ?_⟩
  simpa [User.changes, Job.keys] using hkey

theorem keys_claim (claim : Entitlement) : SupportClaim.changes claim ≠ [] ∧
    ∀ key ∈ (SupportClaim.changes claim).map Prod.fst, key ∈ Job.refreshSupport.keys := by
  rw [SupportClaim.changes]
  split
  · refine ⟨by simp, fun key hkey => ?_⟩
    simpa [Job.keys] using hkey
  · refine ⟨by simp, fun key hkey => ?_⟩
    simp only [List.map_cons, List.map_nil, List.mem_singleton] at hkey
    simp [Job.keys, hkey]

theorem leads_fetchKey (hjob : t.job = .refreshSupport) (hwrote : t.wrote ≠ [])
    (hkey : t.key = none) (hwants : o.wantsKey = true) (hgrip : t.grip = ⟨.free, u⟩)
    (hu : o.scene.Has u) (hchecking : t.checking = false) (hbefore : t.before ≠ none) :
    (tally o).Leads (fun _ t' => t' = { t with
      grip := ⟨.free, o.scene.last⟩, key := o.keyFound .refreshSupport }) t
      (fetchKey o.cfg).run := by
  have hasks : o.asks .refreshSupport = true := by rw [Occasion.asks, hwants, Bool.or_true]
  rw [run_fetchKey]
  refine (leads_fetch (by simp [Occasion.urls]) hasks hgrip hu hchecking hbefore).bind ?_
  rintro answer t' ⟨rfl, rfl⟩
  dsimp only
  rw [Occasion.keyFound, if_pos hwants]
  cases keyOutcome (o.answer "GET" (o.cfg.resource "rsa_public_key")) with
  | error e =>
    show _ = _
    rw [Except.toOption, ← hkey]
  | ok text => exact ⟨⟨rfl, hchecking, hjob, hwrote, hkey⟩, fun _ _ => rfl⟩

/-- A claim is stored, and the key for it if it is one of support. -/
theorem leads_storeClaim {record : Json} (hrecord : o.claimRecord = .ok record) (userId : String)
    (hjob : t.job = .refreshSupport) (hwrote : t.wrote = []) (hkey : t.key = none)
    (hgrip : t.grip = ⟨.free, u⟩) (hu : o.scene.Has u) (hchecking : t.checking = false)
    (hbefore : t.before ≠ none) :
    (tally o).Leads (fun _ t' => t' = { t with
      grip := ⟨.free, if o.wantsKey then o.scene.last else u⟩
      wrote := o.written .refreshSupport, key := o.keyFound .refreshSupport }) t
      (storeClaim o.cfg (SupportClaim.ofRecord record userId)) := by
  have hwritten : o.written .refreshSupport =
      SupportClaim.changes (SupportClaim.ofRecord record userId) := by
    rw [Occasion.written, hrecord]
    rfl
  have hwants : o.wantsKey = (SupportClaim.ofRecord record userId).supported := by
    rw [Occasion.wantsKey, hrecord]
    rfl
  have hfree : t.grip.hand = .free := by rw [hgrip]
  obtain ⟨hsome, hkeys⟩ := keys_claim (SupportClaim.ofRecord record userId)
  rw [storeClaim]
  refine leads_apply hfree hchecking ⟨hwrote, hsome, hjob ▸ hkeys⟩ ?_
  rw [hwritten, ← hwants]
  dsimp only
  cases hw : o.wantsKey with
  | true =>
    rw [if_pos rfl, if_pos rfl]
    exact leads_fetchKey (t := { t with wrote := _ }) hjob hsome hkey hw hgrip hu hchecking hbefore
  | false =>
    rw [if_neg (by simp), if_neg (by simp)]
    show _ = _
    rw [Occasion.keyFound, hw, if_neg (by simp), ← hkey, ← hgrip]

theorem leads_fetchClaim (hjob : t.job = .refreshSupport) (hwrote : t.wrote = [])
    (hkey : t.key = none) (hgrip : t.grip = ⟨.free, u⟩) (hu : o.scene.Has u)
    (hchecking : t.checking = false) (hbefore : t.before = none) :
    (tally o).Leads (fun _ t' => t' = { t with
      grip := ⟨.free, o.knows .refreshSupport u⟩, before := some (o.pair u)
      wrote := o.written .refreshSupport, key := o.keyFound .refreshSupport }) t
      (fetchClaim o.cfg).run := by
  have hfree : t.grip.hand = .free := by rw [hgrip]
  have hread : t.after o .settings = fun _ => { t with before := some (o.pair u) } := by
    funext found
    rw [Tally.after, hbefore, hgrip]
    rfl
  rw [run_fetchClaim]
  refine ⟨hfree, fun found _ => ?_⟩
  show (tally o).Leads _ (t.after o .settings found) _
  rw [hread]
  refine ⟨hfree, fun license hlicense => ?_⟩
  obtain rfl : license = o.license := hlicense
  show (tally o).Leads _ { t with before := some (o.pair u) } (match o.license with
    | .error e => _ | .ok (some record) => _ | .ok none => _)
  cases hlicense : o.license with
  | error e =>
    have hrecord : o.claimRecord = .error e := by rw [Occasion.claimRecord, hlicense]
    obtain ⟨hwants, hwritten, hfound⟩ := Occasion.nothing_of_error hrecord
    have hasks : o.asks .refreshSupport = false := by
      rw [Occasion.asks, hwants, Occasion.isUnlicensed, hlicense]
      rfl
    show _ = _
    rw [Occasion.knows, hasks, if_neg (by simp), hwritten, hfound, ← hgrip, ← hwrote, ← hkey]
  | ok license =>
    cases license with
    | some record =>
      have hrecord : o.claimRecord = .ok record := by rw [Occasion.claimRecord, hlicense]
      rw [Occasion.knows, Occasion.asks_of_licensed hlicense]
      exact leads_storeClaim (t := { t with before := some (o.pair u) }) hrecord _ hjob hwrote hkey
        hgrip hu hchecking (by simp)
    | none =>
      have hasks := Occasion.asks_of_unlicensed hlicense .refreshSupport
      have hclaim : o.claimRecord = o.fetched "support_info" := by
        rw [Occasion.claimRecord, hlicense]
      rw [Occasion.knows, if_pos hasks]
      refine (leads_fetchJson (t := { t with before := some (o.pair u) }) (by simp [Occasion.urls])
        hasks hgrip hu hchecking (by simp)).bind ?_
      rintro body t' ⟨rfl, rfl⟩
      dsimp only
      cases hrecord : o.fetched "support_info" with
      | error e =>
        obtain ⟨-, hwritten, hfound⟩ := Occasion.nothing_of_error (hclaim.trans hrecord)
        show _ = _
        rw [hwritten, hfound, ← hwrote, ← hkey]
      | ok record =>
        have hstore := leads_storeClaim (t := { t with
          before := some (o.pair u), grip := ⟨.free, o.scene.last⟩ }) (hclaim.trans hrecord)
          (found.value Key.userId) hjob hwrote hkey rfl (.inr rfl) hchecking (by simp)
        simpa only [ite_self] using hstore

/-- The clock and the counters are open to a job that checks support. -/
theorem allows_clock (hfree : t.grip.hand = .free) :
    t.Allows o (.auth .clock) ∧ ∀ counter, t.Allows o (.auth (.count counter)) := by
  have hput : (∃ u, t.grip.hand = .put u) → t.before ≠ none := by
    rintro ⟨u, hu⟩
    exact absurd (hfree.symm.trans hu) (by simp)
  exact ⟨⟨trivial, fun _ => .inl rfl, hput⟩, fun counter => ⟨trivial, fun _ => .inr ⟨counter, rfl⟩, hput⟩⟩

theorem leads_report_tally (hfree : t.grip.hand = .free) (key : Except Disk.Fault String)
    (claim : Entitlement) (day : Date) :
    (tally o).Leads (fun _ t' => t' = t) t (report key claim day) := by
  rw [report]
  split
  · exact ⟨(allows_clock hfree).2 _, fun _ _ => rfl⟩
  · rfl

theorem leads_check (hfree : t.grip.hand = .free) (claim : Entitlement) :
    (tally o).Leads (fun _ t' => t' = t) t (check claim) := by
  rw [check_eq]
  refine ⟨(allows_clock hfree).1, fun clock _ => ?_⟩
  show (tally o).Leads _ t (if claim.supported = true then _ else _)
  split
  · exact ⟨hfree, fun key _ => leads_report_tally hfree key claim _⟩
  · exact leads_report_tally hfree (.ok "") claim _

theorem after_settings (hbefore : t.before ≠ none) (found : Settings) :
    t.after o .settings found = t := by
  obtain ⟨b, hb⟩ := Option.ne_none_iff_exists'.mp hbefore
  rw [Tally.after, hb, Option.some_or, ← hb]

/-- A check of support leaves a job as it was. -/
theorem leads_updateSupported_tally (hfree : t.grip.hand = .free) (hchecking : t.checking = false)
    (hbefore : t.before ≠ none) : (tally o).Leads (fun _ t' => t' = t) t updateSupported := by
  have hcheck (claim : Entitlement) :=
    leads_check (o := o) (t := { t with checking := true }) hfree claim
  rw [updateSupported_eq, checkStored_eq]
  refine ⟨⟨hfree, hchecking⟩, fun _ _ => ⟨hfree, fun found _ => ?_⟩⟩
  show (tally o).Leads _ (({ t with checking := true } : Tally).after o .settings found) _
  rw [after_settings (t := { t with checking := true }) hbefore]
  refine ⟨hfree, fun license _ => (hcheck (claimUnder license found)).bind ?_⟩
  rintro status t' rfl
  refine ⟨hfree, fun _ _ => ⟨⟨hfree, rfl⟩, fun _ _ => ?_⟩⟩
  show ({ t with checking := false } : Tally) = t
  rw [← hchecking]

/-- How a job leaves the tokens: it has stored the renewed ones, or those that it read first are
still the ones that it knows. -/
def Settles (o : Occasion) (t t' : Tally) : Prop :=
  ∃ u b, (u = t.grip.known ∨ u = o.scene.last) ∧ t.before = some b ∧
    t' = { t with grip := ⟨.free, u⟩, saved := t'.saved } ∧ (t'.saved = true ∨ o.pair u = b)

/-- Without credentials there are no tokens that could differ. -/
theorem pair_eq_of_isEmpty (hempty : (o.scene.properties u).isEmpty = true) (v w : Auth.Tokens) :
    o.pair v = o.pair w := by
  have hnone (w : Auth.Tokens) : o.scene.properties w = [] := by
    have hnil := List.isEmpty_iff.mp hempty
    unfold Auth.Scene.properties at hnil ⊢
    split at hnil
    · rfl
    · exact absurd hnil (by simp [Auth.Strategy.properties])
    · exact absurd hnil (by simp [Auth.Bearer.properties])
  rw [Occasion.pair, Occasion.pair, hnone, hnone]

theorem leads_saveIfChanged {b : TokenPair} (hgrip : t.grip = ⟨.free, u⟩) (hu : o.scene.Has u)
    (hb : t.before = some b) (hknown : b = o.pair o.first ∨ u = o.scene.last ∧ b = o.pair u)
    (hchecking : t.checking = false) :
    (tally o).Leads (fun _ t' => Settles o t t') t (saveIfChanged o.cfg b) := by
  rw [saveIfChanged_eq]
  refine (leads_tokenPair hgrip hchecking).bind ?_
  rintro pair t' ⟨v, hv, rfl, rfl⟩
  have hknown' : t.grip.known = u := by rw [hgrip]
  by_cases hpair : o.pair v = b
  · rw [if_pos hpair]
    exact ⟨v, b, hknown' ▸ hv, hb, rfl, .inr hpair⟩
  · rw [if_neg hpair]
    -- Other tokens than those that were read first can only be the renewed ones.
    have hlast : v = o.scene.last := by
      rcases hv with rfl | hv
      · rcases hu with rfl | hu
        · rcases hknown with rfl | ⟨_, rfl⟩
          · exact absurd rfl hpair
          · exact absurd rfl hpair
        · exact hu
      · exact hv
    subst hlast
    suffices hsave : (tally o).Leads (fun _ t' => Settles o t t')
        { t with grip := ⟨.free, o.scene.last⟩ } (saveCredentials o.cfg) from
      hsave.bind fun _ t' h => h
    rw [saveCredentials_eq]
    refine (leads_credentialProperties (t := { t with grip := ⟨.free, o.scene.last⟩ }) rfl
      hchecking).bind ?_
    rintro properties t' ⟨w, hw, rfl, rfl⟩
    obtain rfl : w = o.scene.last := hw.elim id id
    split
    · next hempty =>
      rcases hknown with rfl | ⟨_, rfl⟩
      · exact absurd (pair_eq_of_isEmpty hempty _ _) hpair
      · exact absurd (pair_eq_of_isEmpty hempty _ _) hpair
    · refine ⟨⟨rfl, hchecking, .inr ⟨rfl, rfl, b, hb, Ne.symm hpair⟩⟩, fun stored _ => ?_⟩
      have hafter := after_credentials (o := o) (t := { t with grip := ⟨.free, o.scene.last⟩ }) stored
      exact ⟨o.scene.last, b, .inr rfl, hb, hafter, .inl (congrArg Tally.saved hafter)⟩

/-- The user in settings depends on its own keys only. -/
theorem userOf_congr {a b : Settings} (h : ∀ key ∈ Job.refreshUser.keys, a.get? key = b.get? key) :
    a.value Key.userId = b.value Key.userId ∧ userOf a = userOf b := by
  have hvalue? (key : String) (hkey : key ∈ Job.refreshUser.keys) : a.value? key = b.value? key := by
    rw [Settings.value?, Settings.value?, h key hkey]
  have hvalue (key : String) (hkey : key ∈ Job.refreshUser.keys) : a.value key = b.value key := by
    rw [Settings.value, Settings.value, hvalue? key hkey]
  refine ⟨hvalue Key.userId (by simp [Job.keys]), ?_⟩
  rw [userOf, userOf, User.ofSettings, User.ofSettings, hvalue? Key.userId (by simp [Job.keys]),
    hvalue Key.userId (by simp [Job.keys]), hvalue Key.firstName (by simp [Job.keys]),
    hvalue Key.lastName (by simp [Job.keys]), hvalue Key.email (by simp [Job.keys]),
    hvalue? Key.roles (by simp [Job.keys])]

end Program

/-- A job that has come to its end. -/
structure Tally.Ended (o : Occasion) (job : Job) (t : Tally) : Prop where
  hand_eq : t.grip.hand = .free
  checking_eq : t.checking = false
  wrote_eq : t.wrote = o.written job
  key_eq : t.key = o.keyFound job
  told_eq : t.told = o.told job
  emitted_eq : t.emitted = o.emitted job
  known_eq : o.asks job = true → t.grip.known = o.scene.last
  saved : ∃ b, t.before = some b ∧ (t.saved = true ∨ o.pair t.grip.known = b)

namespace Program

open Conduct (Leads)

variable {o : Occasion} {t : Tally} {u : Auth.Tokens} {job : Job} {b : TokenPair}

/-- A job all of whose work is done but for the tokens. -/
structure Closing (o : Occasion) (job : Job) (u : Auth.Tokens) (b : TokenPair) (t : Tally) : Prop where
  grip_eq : t.grip = ⟨.free, u⟩
  has : o.scene.Has u
  before_eq : t.before = some b
  known : b = o.pair o.first ∨ u = o.scene.last ∧ b = o.pair u
  checking_eq : t.checking = false
  wrote_eq : t.wrote = o.written job
  key_eq : t.key = o.keyFound job
  told_eq : t.told = o.told job
  emitted_eq : t.emitted = o.emitted job
  known_eq : o.asks job = true → u = o.scene.last

theorem Closing.leads (h : Closing o job u b t) :
    (tally o).Leads (fun _ t' => t'.Ended o job) t (saveIfChanged o.cfg b) := by
  refine (leads_saveIfChanged h.grip_eq h.has h.before_eq h.known h.checking_eq).mono ?_
  rintro _ t' ⟨v, b', hv, hb, ht', hsaved⟩
  rw [h.grip_eq] at hv
  have hasks (hasks : o.asks job = true) : v = o.scene.last :=
    hv.elim (fun hv => hv.trans (h.known_eq hasks)) id
  rw [ht']
  exact ⟨rfl, h.checking_eq, h.wrote_eq, h.key_eq, h.told_eq, h.emitted_eq, hasks, b', hb, hsaved⟩

theorem Closing.leads_finish (h : Closing o job u b { t with emitted := t.emitted ++ [.supportInfoUpdated] }) :
    (tally o).Leads (fun _ t' => t'.Ended o job) t (finish o.cfg b) := by
  have hfree : t.grip.hand = .free := congrArg Auth.Grip.hand h.grip_eq
  exact ⟨hfree, fun _ _ => h.leads⟩

/-- The job for the user once the settings are as it leaves them. -/
theorem leads_tell_tally {found : Settings} (hjob : t.job = .refreshUser)
    (hfound : ∀ key ∈ t.job.keys, found.get? key = (o.settings.merge t.wrote).get? key)
    (hgrip : t.grip = ⟨.free, u⟩) (hu : o.scene.Has u) (hb : t.before = some b)
    (hknown : b = o.pair o.first ∨ u = o.scene.last ∧ b = o.pair u)
    (hchecking : t.checking = false) (hwrote : t.wrote = o.written .refreshUser)
    (hkey : t.key = none) (hemitted : t.emitted = [])
    (hasks : o.asks .refreshUser = true → u = o.scene.last) :
    (tally o).Leads (fun _ t' => t'.Ended o .refreshUser) t
      (tell o.cfg (o.settings.value Key.userId) b found) := by
  have hfree : t.grip.hand = .free := by rw [hgrip]
  rw [hwrote, hjob] at hfound
  obtain ⟨hvalue, huser⟩ := userOf_congr (b := o.userStored) hfound
  have hclosing (emitted : List Event) (hall : emitted = o.emitted .refreshUser) :
      Closing o .refreshUser u b { t with told := some (userOf found), emitted } := {
    grip_eq := hgrip
    has := hu
    before_eq := hb
    known := hknown
    checking_eq := hchecking
    wrote_eq := hwrote
    key_eq := hkey
    told_eq := by rw [huser]; rfl
    emitted_eq := hall
    known_eq := hasks }
  rw [tell]
  refine ⟨⟨hfree, hjob⟩, fun _ _ => ⟨hfree, fun _ _ => ?_⟩⟩
  show (tally o).Leads _ { t with told := some (userOf found), emitted := t.emitted ++ [.userInfoUpdated] }
    (ite _ _ _)
  rw [hvalue, hemitted]
  by_cases hmoved : o.HasMoved
  · rw [if_neg hmoved]
    refine (leads_updateSupported_tally (t := { t with
      told := some (userOf found), emitted := [] ++ [.userInfoUpdated] }) hfree hchecking
      (by simp [hb])).bind ?_
    rintro _ t' rfl
    exact (hclosing _ (by rw [Occasion.emitted, if_pos hmoved]; rfl)).leads_finish
  · rw [if_pos (not_not.mp hmoved)]
    exact (hclosing _ (by rw [Occasion.emitted, if_neg hmoved]; rfl)).leads

/-- The tokens that a job knows after its requests, beside those that it read first. -/
theorem knows_cases (hu : o.scene.Has u) (job : Job) : o.scene.Has (o.knows job u) ∧
    (o.pair u = o.pair o.first ∨
      o.knows job u = o.scene.last ∧ o.pair u = o.pair (o.knows job u)) := by
  rw [Occasion.knows]
  rcases hu with rfl | rfl
  · refine ⟨?_, .inl rfl⟩
    split
    · exact .inr rfl
    · exact .inl rfl
  · rw [ite_self]
    exact ⟨.inr rfl, .inr ⟨rfl, rfl⟩⟩

/-- The job for the user from where it knows whom it found stored. -/
theorem leads_seek (hjob : t.job = .refreshUser) (hgrip : t.grip = ⟨.free, u⟩) (hu : o.scene.Has u)
    (hb : t.before = some (o.pair u)) (hchecking : t.checking = false) (hwrote : t.wrote = [])
    (hkey : t.key = none) (hemitted : t.emitted = []) :
    (tally o).Leads (fun _ t' => t'.Ended o .refreshUser) t
      (seek o.cfg (o.settings.value Key.userId) (o.pair u)) := by
  have hbefore : t.before ≠ none := by simp [hb]
  rw [seek]
  refine (leads_fetchUser hgrip hu hchecking hbefore).bind ?_
  rintro found t' ⟨rfl, rfl⟩
  obtain ⟨hhas, hknown⟩ := knows_cases hu .refreshUser
  have hasks (h : o.asks .refreshUser = true) : o.knows .refreshUser u = o.scene.last := if_pos h
  -- The settings are read once more; what the job stored before is there.
  have hlook (wrote : Entries) (hall : wrote = o.written .refreshUser) :
      (tally o).Leads (fun _ t' => t'.Ended o .refreshUser)
        { t with grip := ⟨.free, o.knows .refreshUser u⟩, wrote }
        (.ask .settings (tell o.cfg (o.settings.value Key.userId) (o.pair u))) := by
    refine ⟨rfl, fun found hfound => ?_⟩
    show (tally o).Leads _ (({ t with grip := ⟨.free, o.knows .refreshUser u⟩, wrote } :
      Tally).after o .settings found) _
    rw [after_settings (t := { t with grip := ⟨.free, o.knows .refreshUser u⟩, wrote }) hbefore]
    exact leads_tell_tally (t := { t with grip := ⟨.free, o.knows .refreshUser u⟩, wrote }) hjob
      (hfound hjob) rfl hhas hb hknown hchecking hall hkey hemitted hasks
  have hnothing (h : [] = o.written .refreshUser) := hlook [] h
  cases hfound : o.userFound with
  | error e =>
    have hlast := hlook [] (by rw [Occasion.written, hfound])
    rwa [← hwrote] at hlast
  | ok user =>
    cases user with
    | none =>
      have hlast := hlook [] (by rw [Occasion.written, hfound])
      rwa [← hwrote] at hlast
    | some user =>
      obtain ⟨hsome, hkeys⟩ := keys_user user
      exact leads_apply (t := { t with grip := ⟨.free, o.knows .refreshUser u⟩ }) rfl hchecking
        ⟨hwrote, hsome, hjob ▸ hkeys⟩ (hlook user.changes (by rw [Occasion.written, hfound]))

theorem leads_refreshUser_tally (o : Occasion) :
    (tally o).Leads (fun _ t => t.Ended o .refreshUser) (o.start .refreshUser)
      (refreshUser o.cfg) := by
  rw [refreshUser_eq]
  refine (leads_tokenPair (u := o.first) rfl rfl).bind ?_
  rintro pair t' ⟨u, hu, rfl, rfl⟩
  refine ⟨rfl, fun first hfirst => ?_⟩
  have hknown : first.value Key.userId = o.settings.value Key.userId :=
    (userOf_congr (hfirst rfl)).1
  show (tally o).Leads _ _ (seek o.cfg (first.value Key.userId) (o.pair u))
  rw [hknown]
  exact leads_seek rfl rfl hu rfl rfl rfl rfl rfl

theorem leads_refreshSupport_tally (o : Occasion) :
    (tally o).Leads (fun _ t => t.Ended o .refreshSupport) (o.start .refreshSupport)
      (refreshSupport o.cfg) := by
  rw [refreshSupport_eq]
  refine (leads_tokenPair (u := o.first) rfl rfl).bind ?_
  rintro pair t' ⟨u, hu, rfl, rfl⟩
  refine (leads_fetchClaim rfl rfl rfl rfl hu rfl rfl).bind ?_
  rintro result t' rfl
  refine (leads_updateSupported_tally rfl rfl (by simp)).bind ?_
  rintro _ t' rfl
  obtain ⟨hhas, hknown⟩ := knows_cases hu .refreshSupport
  exact Closing.leads_finish
    ⟨rfl, hhas, rfl, hknown, rfl, rfl, rfl, rfl, rfl, fun hasks => if_pos hasks⟩

/-- Both jobs keep to the rules, and come to the ends that follow from license and answers. -/
theorem leads_ofJob_tally (o : Occasion) (job : Job) :
    (tally o).Leads (fun _ t => t.Ended o job) (o.start job) (ofJob o.cfg job) := by
  cases job with
  | refreshUser => exact leads_refreshUser_tally o
  | refreshSupport => exact leads_refreshSupport_tally o

end Program

end AccountGate.Account
