import AccountGate.Proofs.Account.Agreement
import AccountGate.Proofs.Account.Parting
import AccountGate.Proofs.Auth.Requests

/-!
Who is stored after a refresh. A job takes the user from the installed license, else from what the
service answers, else from the access token. Main statement: somebody stays signed in through any
number of jobs in any order, unless one of them gets a record that names nobody.
-/

namespace AccountGate.Account

/-- How far a job is in finding a record of the user. -/
inductive Inquiry where
  /-- No license has been looked for yet. -/
  | looking
  /-- No license is installed, so that the service is asked. -/
  | asking
  | ended (record? : Option Json)

namespace Inquiry

/-- The first license that is read decides, and without one the first answer of the service. -/
def after (cfg : Config) : Inquiry → (c : Call) → Reply c → Inquiry
  | .looking, .license, .error _ => .ended none
  | .looking, .license, .ok (some record) => .ended (some record)
  | .looking, .license, .ok none => .asking
  | .asking, .auth (.send o), answer =>
    if o.request.method = "GET" then .ended (jsonOutcome (cfg.resource "user_info") answer).toOption
    else .asking
  | inquiry, _, _ => inquiry

def record? : Inquiry → Option Json
  | .ended record? => record?
  | _ => none

/-- How far a job is that got these replies. -/
def ofReplies (cfg : Config) (xs : List (Exchange interface)) : Inquiry :=
  xs.foldl (fun inquiry x => inquiry.after cfg x.call x.reply) .looking

theorem after_ended (cfg : Config) (record? : Option Json) (c : Call) (r : Reply c) :
    (ended record?).after cfg c r = .ended record? := by
  cases c <;> rfl

theorem after_guarded (cfg : Config) (inquiry : Inquiry) {c : Auth.Call} (h : c.IsGuarded)
    (r : Auth.Reply c) : inquiry.after cfg (.auth c) r = inquiry := by
  cases c with
  | send o =>
    have hmethod : o.request.method = "POST" := by
      cases (h : Auth.TokenRequest o) <;> rfl
    cases inquiry with
    | asking => exact if_neg (by rw [hmethod]; decide)
    | _ => rfl
  | _ => cases inquiry <;> rfl

end Inquiry

/-- What a job has found out, stored and told of the user. -/
structure Naming where
  inquiry : Inquiry := .looking
  /-- The user that it has stored. -/
  wrote : Option String := none
  /-- The user that it has seen stored last, unless it has stored one since. -/
  seen : Option String := none
  /-- The session has been told. -/
  told : Bool := false

namespace Naming

def after (cfg : Config) (t : Naming) : (c : Call) → Reply c → Naming
  | .apply changes, _ =>
    match changes.lookup Key.userId with
    | some id => { t with wrote := some id, seen := none }
    | none => t
  | .settings, found => { t with seen := some (found.value Key.userId) }
  | .setUser _ _, _ => { t with told := true }
  | .license, found => { t with inquiry := t.inquiry.after cfg .license found }
  | .auth c, r => { t with inquiry := t.inquiry.after cfg (.auth c) r }
  | _, _ => t

/-- The user of the record is stored, and without a record none but somebody. -/
def Follows (t : Naming) : Prop :=
  match t.inquiry.record? with
  | some record => t.wrote = some (User.ofRecord record).userId
  | none => t.wrote ≠ some ""

/-- A user is stored once, before the session is told. -/
structure Stores (t : Naming) (user : User) : Prop where
  told_eq : t.told = false
  wrote_eq : t.wrote = none
  follows : { t with wrote := some user.userId }.Follows

def Allows (t : Naming) : Call → Prop
  | .apply changes => Key.userId ∉ changes.map Prod.fst ∨
    ∃ user : User, changes = user.changes ∧ t.Stores user
  | .setUser authorized _ => ∃ id, t.seen = some id ∧ (authorized = true ↔ id ≠ "")
  | .setSession _ => False
  | _ => True

end Naming

/-- The rules for whom a job stores and tells of. -/
def naming (cfg : Config) : Conduct interface where
  Stage := Naming
  Allows := Naming.Allows
  Expects _ _ _ := True
  after := Naming.after cfg

open Conduct

section Jobs

variable {α β : Type} {cfg : Config} {t : Naming}

theorem Naming.after_apply {changes : Entries} (h : Key.userId ∉ changes.map Prod.fst)
    (stored : Except Error Unit) : t.after cfg (.apply changes) stored = t := by
  have hnone : changes.lookup Key.userId = none := by
    rw [List.lookup_eq_none_iff]
    intro e he
    rw [bne_iff_ne]
    exact fun heq => h (List.mem_map.mpr ⟨e, he, heq.symm⟩)
  simp only [Naming.after, hnone]

theorem Naming.after_user (user : User) (stored : Except Error Unit) :
    t.after cfg (.apply user.changes) stored =
      { t with wrote := some user.userId, seen := none } := by
  have hsome : user.changes.lookup Key.userId = some user.userId := by
    simp [User.changes]
  simp only [Naming.after, hsome]

theorem Naming.inquiry_after (cfg : Config) (t : Naming) (c : Call) (r : Reply c) :
    (t.after cfg c r).inquiry = t.inquiry.after cfg c r := by
  have hother (hc : ∀ q : Inquiry, q.after cfg c r = q) (ht : (t.after cfg c r).inquiry = t.inquiry) :
      (t.after cfg c r).inquiry = t.inquiry.after cfg c r := by rw [hc, ht]
  cases c with
  | license => rfl
  | auth c => rfl
  | apply changes =>
    refine hother (fun q => by cases q <;> rfl) ?_
    simp only [Naming.after]
    split <;> rfl
  | _ => exact hother (fun q => by cases q <;> rfl) rfl

/-- Questions for tokens tell nothing of the user. -/
theorem rests_ofAuth {p : Auth.Program α} (hp : Flow.Makes Auth.Call.Tends p) :
    (naming cfg).Leads (fun _ t' => t' = t) t (Program.ofAuth p) := by
  induction p with
  | done a => rfl
  | ask c next ih =>
    refine ⟨trivial, fun r _ => ?_⟩
    show (naming cfg).Leads _ { t with inquiry := t.inquiry.after cfg (.auth c) r } _
    rw [Inquiry.after_guarded cfg t.inquiry hp.1.1 r]
    exact ih r (hp.2 r)

theorem rests_credentialProperties :
    (naming cfg).Leads (fun _ t' => t' = t) t (Program.credentialProperties cfg) :=
  rests_ofAuth (Auth.makes_propertiesFor _)

/-- The service is asked once, and what it answers is what is found. -/
theorem leads_fetchJson_naming (ht : t.inquiry = .asking) : (naming cfg).Leads
    (fun body t' => t' = { t with inquiry := .ended body.toOption }) t
    (Program.fetchJson (cfg.resource "user_info")).run := by
  generalize hurl : cfg.resource "user_info" = url
  have hsend (o : Auth.Outgoing) (hget : o.request.method = "GET") : (naming cfg).Leads
      (fun body t' => t' = { t with inquiry := .ended body.toOption }) t
      (.ask (.auth (.send o)) fun answer => .done (jsonOutcome url answer)) := by
    refine ⟨trivial, fun answer _ => ?_⟩
    show { t with inquiry := t.inquiry.after cfg (.auth (.send o)) answer } = { t with inquiry := _ }
    rw [ht, Inquiry.after, if_pos hget, hurl]
  have hown : (Request.getAny url).hasAuthorization = false := rfl
  rw [Program.run_fetchJson, Auth.fetchAuthorized_eq hown]
  refine ⟨trivial, fun suspended _ => ?_⟩
  show (naming cfg).Leads _ { t with inquiry := t.inquiry.after cfg (.auth .suspended) suspended }
    (Flow.bind (Program.ofAuth (ite (suspended = true) _ _)) _)
  rw [Inquiry.after_guarded cfg t.inquiry (c := .suspended) trivial]
  split
  · exact hsend _ rfl
  · rw [Program.ofAuth, Flow.expand_bind, Flow.bind_assoc]
    refine Leads.bind (rests_ofAuth (Auth.makes_resolve _)) fun a t' ht' => ?_
    rw [ht']
    exact hsend _ rfl

/-- The claims of a token tell of nobody, or of somebody with a name. -/
theorem userId_of_tokenOutcome {properties : Auth.Properties} {user : User}
    (h : tokenOutcome properties = .ok (some user)) : user.userId ≠ "" := by
  rw [tokenOutcome] at h
  split at h
  · exact absurd h (by simp)
  · next token _ =>
    cases hclaims : claims token with
    | error e =>
      rw [hclaims] at h
      exact absurd h (by simp [Except.map])
    | ok value =>
      have hnamed : (if (User.ofClaims value).isEmpty then none else some (User.ofClaims value)) =
          some user := Except.ok.inj ((congrArg (Except.map _) hclaims).symm.trans h)
      split at hnamed
      · exact absurd hnamed (by simp)
      · next hfull =>
        obtain rfl := Option.some.inj hnamed
        exact fun hempty => hfull (String.isEmpty_iff.mpr hempty)

/-- What has been found is what the record says, and without a record it has a name. -/
def Inquiry.Yields (record? : Option Json) : Except Error (Option User) → Prop
  | .ok (some user) =>
    match record? with
    | some record => user = User.ofRecord record
    | none => user.userId ≠ ""
  | _ => record? = none

theorem leads_fetchUser_naming (ht : t.inquiry = .looking) : (naming cfg).Leads
    (fun result t' => ∃ record?, t' = { t with inquiry := .ended record? } ∧
      Inquiry.Yields record? result) t (Program.fetchUser cfg).run := by
  rw [Program.run_fetchUser]
  refine ⟨trivial, fun license _ => ?_⟩
  show (naming cfg).Leads _ { t with inquiry := t.inquiry.after cfg .license license } _
  rw [ht]
  rcases license with e | _ | record
  · exact ⟨none, rfl, rfl⟩
  · have hasking : ({ t with inquiry := Inquiry.asking } : Naming).inquiry = .asking := rfl
    refine (leads_fetchJson_naming hasking).bind fun body t' ht' => ?_
    rw [ht']
    cases body with
    | ok record => exact ⟨some record, rfl, rfl⟩
    | error e =>
      show (naming cfg).Leads _ { t with inquiry := .ended none } (ite (cfg.tokenClaims = true) _ _)
      split
      · rw [Program.run_userOfToken]
        refine rests_credentialProperties.bind fun properties t' ht' => ⟨none, ht', ?_⟩
        rcases houtcome : tokenOutcome properties with e | _ | user
        · rfl
        · rfl
        · exact userId_of_tokenOutcome houtcome
      · exact ⟨none, rfl, rfl⟩
  · exact ⟨some record, rfl, rfl⟩

/-- From here on a job stores no user, and tells the session of none. -/
def Stage.Late : Stage → Prop
  | .opening => False
  | .seeking _ => False
  | .stored _ => False
  | .looked _ _ => False
  | _ => True

theorem Stage.Late.after {stage : Stage} (h : stage.Late) (c : Call) (r : Reply c) :
    (stage.after c r).Late := by
  unfold Stage.after
  split <;> first | exact h | trivial

theorem Stage.Late.allows {stage : Stage} (h : stage.Late) {c : Call} (hallow : stage.Allows c) :
    t.Allows c ∧ ∀ r, (t.after cfg c r).told = t.told ∧ (t.after cfg c r).wrote = t.wrote := by
  cases c with
  | apply changes =>
    have hkey : Key.userId ∉ changes.map Prod.fst := by
      cases stage with
      | claiming =>
        obtain ⟨claim, rfl⟩ := hallow
        exact notMem_claim claim (by decide)
      | closing =>
        obtain ⟨properties, rfl⟩ := hallow
        have hdisjoint : Key.userId ∉ [Key.accessToken, Key.updateToken, Key.expiresIn] := by decide
        exact hdisjoint
      | checking progress => cases progress <;> exact hallow.elim
      | owing => exact hallow.elim
      | _ => exact h.elim
    exact ⟨.inl hkey, fun r => by rw [Naming.after_apply hkey]; exact ⟨rfl, rfl⟩⟩
  | setUser authorized user =>
    cases stage with
    | looked known found => exact h.elim
    | checking progress => cases progress <;> exact hallow.elim
    | _ => exact hallow.elim
  | setSession session =>
    cases stage with
    | checking progress => cases progress <;> exact hallow.elim
    | _ => exact hallow.elim
  | _ => exact ⟨trivial, fun _ => ⟨rfl, rfl⟩⟩

/-- The rest of such a job leaves alone what it has found, stored and told. -/
theorem leads_of_late {stage : Stage} {p : Program α} {Q : α → Stage → Prop} (hlate : stage.Late)
    (h : course.Leads Q stage p) : (naming cfg).Leads (fun _ t' => t'.told = t.told ∧
      t'.wrote = t.wrote ∧ ∀ record?, t.inquiry = .ended record? → t'.inquiry = .ended record?) t p := by
  induction p generalizing stage t with
  | done a => exact ⟨rfl, rfl, fun _ h => h⟩
  | ask c next ih =>
    obtain ⟨hallow, hafter⟩ := hlate.allows h.1
    refine ⟨hallow, fun r _ => ?_⟩
    obtain ⟨htold, hwrote⟩ := hafter r
    refine (ih r (hlate.after c r) (h.2 r trivial)).mono fun _ t' ht' => ?_
    obtain ⟨htold', hwrote', hended⟩ := ht'
    refine ⟨htold'.trans htold, hwrote'.trans hwrote, fun record? hrecord => hended record? ?_⟩
    exact (t.inquiry_after cfg c r).trans (by rw [hrecord, Inquiry.after_ended])

/-- The session is told of whoever was seen stored last. -/
theorem leads_tell_naming {known : String} {before : Program.TokenPair} {found : Settings}
    (hseen : t.seen = some (found.value Key.userId)) (hfollows : t.Follows)
    {record? : Option Json} (hended : t.inquiry = .ended record?) :
    (naming cfg).Leads (fun _ t' => t'.told = true ∧ t'.Follows) t
      (Program.tell cfg known before found) := by
  refine ⟨⟨_, hseen, Settings.isSome_value?_iff⟩, fun r _ => ?_⟩
  have hcourse := (Program.leads_tell cfg known before found).2 r trivial
  have hlate : (Stage.afterTelling known found).Late := by
    rw [Stage.afterTelling]
    split <;> trivial
  refine (leads_of_late hlate hcourse).mono fun _ t' ht' => ?_
  obtain ⟨htold, hwrote, hkept⟩ := ht'
  refine ⟨htold, ?_⟩
  have hended' := hkept record? hended
  unfold Naming.Follows at hfollows ⊢
  rw [hended', hwrote]
  rw [hended] at hfollows
  exact hfollows

theorem leads_refreshUser_naming (cfg : Config) :
    (naming cfg).Leads (fun _ t' => t'.told = true ∧ t'.Follows) {} (Program.refreshUser cfg) := by
  rw [Program.refreshUser_eq, Program.tokenPair_eq, Flow.bind_assoc]
  refine rests_credentialProperties.bind fun properties t ht => ?_
  subst ht
  refine ⟨trivial, fun first _ => ?_⟩
  have hlooking : ({ seen := some (first.value Key.userId) } : Naming).inquiry = .looking := rfl
  refine (leads_fetchUser_naming hlooking).bind fun result t ht => ?_
  obtain ⟨record?, rfl, hyields⟩ := ht
  have hquiet (hnone : record? = none) : (naming cfg).Leads (fun _ t' => t'.told = true ∧ t'.Follows)
      { inquiry := .ended record?, seen := some (first.value Key.userId) }
      (.ask .settings (Program.tell cfg (first.value Key.userId) (pairOf properties))) := by
    refine ⟨trivial, fun found _ => leads_tell_naming rfl ?_ rfl⟩
    subst hnone
    exact nofun
  rcases result with e | _ | user
  · exact hquiet hyields
  · exact hquiet hyields
  · have hstores : ({ inquiry := .ended record?, seen := some (first.value Key.userId) } :
        Naming).Stores user := by
      refine ⟨rfl, rfl, ?_⟩
      cases record? with
      | none => exact fun heq => hyields (Option.some.inj heq)
      | some record => exact congrArg (fun user : User => some user.userId) hyields
    refine ⟨.inr ⟨user, rfl, hstores⟩, fun stored _ => ?_⟩
    show (naming cfg).Leads _ (Naming.after cfg _ (.apply user.changes) stored) _
    rw [Naming.after_user]
    exact ⟨trivial, fun found _ => leads_tell_naming rfl hstores.follows rfl⟩

/-- Where a job is with the user in the end: for the user, or for the claim. -/
def Naming.Ended (t : Naming) : Job → Prop
  | .refreshUser => t.told = true ∧ t.Follows
  | .refreshSupport => t.told = false ∧ t.wrote = none

theorem leads_ofJob_naming (cfg : Config) (job : Job) :
    (naming cfg).Leads (fun _ t' => t'.Ended job) {} (Program.ofJob cfg job) := by
  cases job with
  | refreshUser => exact leads_refreshUser_naming cfg
  | refreshSupport =>
    have hlate : Stage.claiming.Late := trivial
    refine (leads_of_late hlate (Program.leads_refreshSupport cfg)).mono fun _ t' ht' => ?_
    exact ⟨ht'.1, ht'.2.1⟩

end Jobs

section Names

variable {ι : Type} {first id other : String} {wrote seen : ι → Option String} {told : ι → Bool}
  {i : ι} {s s' : Shared} {P Q : Prop}

/-- Where a name comes from: it was stored at first, and then `P`, or a job has stored it. -/
def Stems (first : String) (wrote : ι → Option String) (id : String) (P : Prop) : Prop :=
  (id = first ∧ P) ∨ ∃ j, wrote j = some id

theorem Stems.mono (h : Stems first wrote id P) (hPQ : P → Q) : Stems first wrote id Q :=
  h.imp_left fun hfirst => ⟨hfirst.1, hPQ hfirst.2⟩

/-- The stored name, those that were seen and the one that the session was told come from the first
one or from what jobs have stored; what a job sees after it has stored one was stored by a job. -/
structure Attested (first : String) (wrote seen : ι → Option String) (told : ι → Bool)
    (s : Shared) : Prop where
  stored : Stems first wrote (s.store.settings.value Key.userId) (∀ i, wrote i = none)
  seen : ∀ i id, seen i = some id → Stems first wrote id (wrote i = none)
  session : (∀ i, told i = false) ∨ ∃ i id, told i = true ∧ (s.session.authorized = true ↔ id ≠ "") ∧
    Stems first wrote id (wrote i = none)

theorem Attested.congr (h : Attested first wrote seen told s)
    (hstored : s'.store.settings.value Key.userId = s.store.settings.value Key.userId)
    (hsession : s'.session.authorized = s.session.authorized) :
    Attested first wrote seen told s' := by
  refine ⟨?_, h.seen, ?_⟩
  · rw [hstored]
    exact h.stored
  · rw [hsession]
    exact h.session

/-- A user is lost only if there was none at first, or if some job has stored nobody. -/
theorem Attested.first_or_wrote_of_lost (h : Attested first wrote seen told s) (htold : told i = true)
    (hlost : s.store.settings.value Key.userId = "" ∨ s.session.authorized = false) :
    first = "" ∨ ∃ j, wrote j = some "" := by
  have hnobody {P : Prop} (hstems : Stems first wrote "" P) : first = "" ∨ ∃ j, wrote j = some "" :=
    hstems.imp_left fun hfirst => hfirst.1.symm
  rcases hlost with hvalue | hout
  · exact hnobody (hvalue ▸ h.stored)
  · rcases h.session with hnone | ⟨j, id, -, hauthorized, hstems⟩
    · exact absurd (htold.symm.trans (hnone i)) (by simp)
    · rw [hout] at hauthorized
      obtain rfl : id = "" := by simpa using hauthorized
      exact hnobody hstems

/-- Nobody is left if jobs store nobody, and tell the session only after that. -/
theorem Attested.lost_of_wrote (h : Attested first wrote seen told s) (htold : told i = true)
    (hwrote : ∀ j, told j = true → wrote j = some "") (honly : ∀ j id, wrote j = some id → id = "") :
    s.store.settings.value Key.userId = "" ∧ s.session.authorized = false := by
  constructor
  · rcases h.stored with ⟨-, hnone⟩ | ⟨j, hj⟩
    · exact absurd ((hnone i).symm.trans (hwrote i htold)) (by simp)
    · exact honly j _ hj
  · rcases h.session with hnone | ⟨j, id, hj, hauthorized, hstems⟩
    · exact absurd (htold.symm.trans (hnone i)) (by simp)
    · have hempty : id = "" := by
        rcases hstems with ⟨-, hnone⟩ | ⟨k, hk⟩
        · exact absurd (hnone.symm.trans (hwrote j hj)) (by simp)
        · exact honly k id hk
      simpa [hempty] using hauthorized

variable [DecidableEq ι]

theorem Stems.update (h : Stems first wrote id P) (hi : wrote i = none) (hPQ : P → Q) :
    Stems first (Function.update wrote i (some other)) id Q := by
  rcases h with ⟨heq, hp⟩ | ⟨j, hj⟩
  · exact .inl ⟨heq, hPQ hp⟩
  · have hne : j ≠ i := by
      rintro rfl
      exact absurd (hi.symm.trans hj) (by simp)
    exact .inr ⟨j, by rwa [Function.update_of_ne hne]⟩

/-- A job reads what is stored. -/
theorem Attested.see (h : Attested first wrote seen told s) (i : ι) :
    Attested first wrote (Function.update seen i (some (s.store.settings.value Key.userId))) told s := by
  refine ⟨h.stored, fun j id hj => ?_, h.session⟩
  by_cases hji : j = i
  · subst hji
    rw [Function.update_self] at hj
    obtain rfl := Option.some.inj hj
    exact h.stored.mono fun hnone => hnone j
  · rw [Function.update_of_ne hji] at hj
    exact h.seen j id hj

/-- A job tells the session whether it saw a name. -/
theorem Attested.tell (h : Attested first wrote seen told s) (hseen : seen i = some id)
    (hstored : s'.store.settings = s.store.settings) (hsession : s'.session.authorized = true ↔ id ≠ "") :
    Attested first wrote seen (Function.update told i true) s' := by
  refine ⟨?_, h.seen, .inr ⟨i, id, Function.update_self .., hsession, h.seen i id hseen⟩⟩
  rw [hstored]
  exact h.stored

/-- A job that has told nothing yet stores a name. -/
theorem Attested.store (h : Attested first wrote seen told s) (htold : told i = false)
    (hwrote : wrote i = none) (hstored : s'.store.settings.value Key.userId = other)
    (hsession : s'.session.authorized = s.session.authorized) :
    Attested first (Function.update wrote i (some other)) (Function.update seen i none) told s' := by
  -- The others have stored what they had stored before.
  have hkept (j : ι) (hj : j ≠ i) (hnone : wrote j = none) :
      Function.update wrote i (some other) j = none := by rwa [Function.update_of_ne hj]
  refine ⟨.inr ⟨i, ?_⟩, fun j id hj => ?_, ?_⟩
  · rw [Function.update_self, hstored]
  · have hji : j ≠ i := by
      rintro rfl
      exact absurd hj (by simp)
    rw [Function.update_of_ne hji] at hj
    exact (h.seen j id hj).update hwrote (hkept j hji)
  · rw [hsession]
    rcases h.session with hnone | ⟨j, id, hj, hauthorized, hcomes⟩
    · exact .inl hnone
    · have hji : j ≠ i := by
        rintro rfl
        exact absurd (htold.symm.trans hj) (by simp)
      exact .inr ⟨j, id, hj, hauthorized, hcomes.update hwrote (hkept j hji)⟩

end Names

section Runs

variable {ι : Type} [DecidableEq ι] {cfg : Config} {first : String} {log : Trace interface ι}
  {st : ι → Naming} {s s' : Shared} {i : ι}

/-- The tallies are those of what has happened, and all names are attested. -/
structure Named (cfg : Config) (first : String) (log : Trace interface ι) (st : ι → Naming)
    (s : Shared) : Prop where
  inquiry_eq : ∀ i, (st i).inquiry = Inquiry.ofReplies cfg (World.repliesTo i log)
  attested : Attested first (fun i => (st i).wrote) (fun i => (st i).seen) (fun i => (st i).told) s

theorem inquiry_snoc (h : ∀ i, (st i).inquiry = Inquiry.ofReplies cfg (World.repliesTo i log))
    {c : Call} {r : Reply c} {e : AccountGate.Event interface} (he : e.reply? = some ⟨c, r⟩) (j : ι) :
    (Function.update st i ((st i).after cfg c r) j).inquiry =
      Inquiry.ofReplies cfg (World.repliesTo j (log ++ [(i, e)])) := by
  rw [World.repliesTo_append, World.repliesTo_singleton]
  by_cases hj : i = j
  · subst hj
    rw [Function.update_self, Naming.inquiry_after, h, if_pos rfl, he]
    simp [Inquiry.ofReplies]
  · rw [if_neg hj, List.append_nil, Function.update_of_ne (Ne.symm hj), h]

/-- A reply that tells a job nothing of what is stored. -/
theorem Named.quiet (h : Named cfg first log st s) {c : Call} {r : Reply c}
    {e : AccountGate.Event interface} (he : e.reply? = some ⟨c, r⟩)
    (ht : ∃ inquiry, (st i).after cfg c r = { st i with inquiry })
    (hs : Attested first (fun i => (st i).wrote) (fun i => (st i).seen) (fun i => (st i).told) s') :
    Named cfg first (log ++ [(i, e)]) (Function.update st i ((st i).after cfg c r)) s' := by
  refine ⟨inquiry_snoc h.inquiry_eq he, ?_⟩
  obtain ⟨inquiry, ht⟩ := ht
  rw [ht, proj_update_self Naming.wrote, proj_update_self Naming.seen, proj_update_self Naming.told,
    update_same Naming.wrote, update_same Naming.seen, update_same Naming.told]
  exact hs

/-- Settings have been stored without a failure. -/
def Undisturbed (_ : Trace interface ι) (_ : Shared) (e : ι × AccountGate.Event interface) : Prop :=
  ∀ changes stored, e.2 = .inner (.apply changes) stored → stored = .ok ()

theorem Named.apply (h : Named cfg first log st s) {changes : Entries}
    (hallow : (st i).Allows (.apply changes)) (hs : s.step (.apply changes) = .reply (.ok ()) s') :
    Named cfg first (log ++ [(i, .inner (.apply changes) (.ok ()))])
      (Function.update st i ((st i).after cfg (.apply changes) (.ok ()))) s' := by
  obtain ⟨hsettings, hrest⟩ := Shared.merged_of_apply hs
  have hsession : s'.session.authorized = s.session.authorized := by rw [hrest]
  rcases hallow with hkey | ⟨user, rfl, hstores⟩
  · have hstored : s'.store.settings.value Key.userId = s.store.settings.value Key.userId := by
      rw [hsettings, Settings.value_merge_of_notMem hkey]
    exact h.quiet rfl ⟨_, Naming.after_apply hkey _⟩ (h.attested.congr hstored hsession)
  · refine ⟨inquiry_snoc h.inquiry_eq rfl, ?_⟩
    have hstored : s'.store.settings.value Key.userId = user.userId := by
      rw [hsettings, Settings.value_userId_merge_user]
    rw [Naming.after_user, proj_update_self Naming.wrote, proj_update_self Naming.seen,
      proj_update_self Naming.told, update_same Naming.told]
    exact h.attested.store hstores.told_eq hstores.wrote_eq hstored hsession

theorem Named.settings (h : Named cfg first log st s) (i : ι) :
    Named cfg first (log ++ [(i, .inner .settings s.store.settings)])
      (Function.update st i ((st i).after cfg .settings s.store.settings)) s := by
  refine ⟨inquiry_snoc h.inquiry_eq rfl, ?_⟩
  rw [Naming.after, proj_update_self Naming.wrote, proj_update_self Naming.seen,
    proj_update_self Naming.told, update_same Naming.wrote, update_same Naming.told]
  exact h.attested.see i

theorem Named.setUser (h : Named cfg first log st s) {authorized : Bool} {user : User}
    (hallow : (st i).Allows (.setUser authorized user))
    (hs : s.step (.setUser authorized user) = .reply () s') :
    Named cfg first (log ++ [(i, .inner (.setUser authorized user) ())])
      (Function.update st i ((st i).after cfg (.setUser authorized user) ())) s' := by
  obtain ⟨id, hseen, hauthorized⟩ := hallow
  obtain ⟨-, rfl⟩ := Outcome.reply.inj hs
  refine ⟨inquiry_snoc h.inquiry_eq rfl, ?_⟩
  rw [Naming.after, proj_update_self Naming.wrote, proj_update_self Naming.seen,
    proj_update_self Naming.told, update_same Naming.wrote, update_same Naming.seen]
  exact h.attested.tell hseen rfl hauthorized

theorem Named.inner (h : Named cfg first log st s) {c : Call} {r : Reply c}
    (hallow : (st i).Allows c) (hs : s.step c = .reply r s')
    (hfair : Undisturbed log s (i, .inner c r)) :
    Named cfg first (log ++ [(i, .inner c r)]) (Function.update st i ((st i).after cfg c r)) s' := by
  cases c with
  | apply changes =>
    obtain rfl : r = .ok () := hfair changes r rfl
    exact h.apply hallow hs
  | settings =>
    obtain ⟨rfl, rfl⟩ := Outcome.reply.inj hs
    exact h.settings i
  | setUser authorized user => exact h.setUser hallow hs
  | setSession session => exact hallow.elim
  | _ =>
    have hframes := Shared.frames_of_step hs
    refine h.quiet rfl ⟨_, rfl⟩ (h.attested.congr ?_ ?_)
    · rw [hframes.store_eq (by simp)]
    · rw [hframes.session_eq]
      rfl

/-- What comes from outside tells a job nothing of what is stored. -/
theorem Naming.after_of_outside {c : Call} (h : ∃ v, Shared.step v c = .outside) (t : Naming)
    (r : Reply c) : ∃ inquiry, t.after cfg c r = { t with inquiry } := by
  obtain ⟨v, hv⟩ := h
  cases c with
  | apply changes => exact absurd hv (by simp [Shared.step])
  | settings => exact absurd hv (by simp [Shared.step])
  | setUser authorized user => exact absurd hv (by simp [Shared.step])
  | _ => exact ⟨_, rfl⟩

theorem keeps_named : (naming cfg).Keeps Shared.step Undisturbed (Named (ι := ι) cfg first) where
  inner h hallow hs hfair := ⟨trivial, h.inner hallow hs hfair⟩
  asked {log st s i c} h _ _ := by
    refine ⟨fun j => ?_, h.attested⟩
    have hnone : World.repliesTo j [(i, AccountGate.Event.asked c)] = [] := by
      rw [World.repliesTo_singleton]
      split <;> rfl
    rw [World.repliesTo_append, hnone, List.append_nil, h.inquiry_eq]
  answered h _ hout _ := ⟨trivial, h.quiet rfl (Naming.after_of_outside hout _ _) h.attested⟩

/-- The record from which a job took the user, if it got one. -/
def recordOf (cfg : Config) (i : ι) (log : Trace interface ι) : Option Json :=
  (Inquiry.ofReplies cfg (World.repliesTo i log)).record?

variable {jobs : ι → Job} {w : World interface Shared ι Unit}

/-- Where all jobs are in the end, and where their names come from. -/
theorem named_of_reaches (h : World.Reaches Shared.step (begunJobs cfg jobs s) log w)
    (hwrites : ∀ i changes stored, (i, .inner (.apply changes) stored) ∈ log → stored = .ok ())
    (hdone : ∀ i, w.task i = .running (.done ())) :
    ∃ st, Named cfg (s.store.settings.value Key.userId) log st w.state ∧
      ∀ i, (st i).Ended (jobs i) := by
  have hfair : Conduct.FairRun Shared.step Undisturbed (begunJobs cfg jobs s) log := by
    rintro before ⟨i, e⟩ after w₁ w₂ rfl - - changes stored he
    obtain rfl : e = .inner (.apply changes) stored := he
    exact hwrites i changes stored (by simp)
  have hstart : Named cfg (s.store.settings.value Key.userId) [] (fun _ : ι => ({} : Naming)) s :=
    ⟨fun _ => rfl, .inl ⟨rfl, fun _ => rfl⟩, nofun, .inl fun _ => rfl⟩
  obtain ⟨st, hnamed, hleads⟩ := keeps_named.of_reaches hstart (fun _ => rfl)
    (fun i => leads_ofJob_naming cfg (jobs i)) h hfair
  refine ⟨st, hnamed, fun i => ?_⟩
  have hlead := hleads i
  rw [hdone i] at hlead
  exact hlead

theorem Naming.Ended.told_iff {t : Naming} {job : Job} (h : t.Ended job) :
    t.told = true ↔ job = .refreshUser := by
  cases job with
  | refreshUser => exact iff_of_true h.1 rfl
  | refreshSupport => exact iff_of_false (by simp [h.1]) (by simp)

/-- Only a job for the user stores one, and nobody only if its record says so. -/
theorem Naming.Ended.wrote {t : Naming} {job : Job} (h : t.Ended job) {id : String}
    (hwrote : t.wrote = some id) : job = .refreshUser ∧
      (id = "" → ∃ record, t.inquiry.record? = some record ∧ (User.ofRecord record).isEmpty = true) := by
  cases job with
  | refreshSupport => exact absurd (h.2.symm.trans hwrote) (by simp)
  | refreshUser =>
    refine ⟨rfl, fun hempty => ?_⟩
    subst hempty
    have hfollows := h.2
    unfold Naming.Follows at hfollows
    cases hrecord : t.inquiry.record? with
    | none =>
      rw [hrecord] at hfollows
      exact absurd hwrote hfollows
    | some record =>
      rw [hrecord, hwrote] at hfollows
      exact ⟨record, rfl, String.isEmpty_iff.mpr (Option.some.inj hfollows).symm⟩

/-- A job that got a record stores the user of it. -/
theorem Naming.Ended.wrote_eq {t : Naming} (h : t.Ended .refreshUser) {record : Json}
    (hrecord : t.inquiry.record? = some record) : t.wrote = some (User.ofRecord record).userId := by
  have hfollows := h.2
  unfold Naming.Follows at hfollows
  rwa [hrecord] at hfollows

/-- The stored user and the session after any number of jobs in any order, with any licenses and
any answers: somebody who is signed in stays so unless some record names nobody; and if the records
of all jobs name nobody then nobody is signed in. -/
theorem signed_in_unless_record_names_nobody
    (hstored : s.store.settings.value Key.userId ≠ "")
    (h : World.Reaches Shared.step (begunJobs cfg jobs s) log w)
    (hwrites : ∀ i changes stored, (i, .inner (.apply changes) stored) ∈ log → stored = .ok ())
    (hdone : ∀ i, w.task i = .running (.done ())) (hjob : ∃ i, jobs i = .refreshUser) :
    (w.state.store.settings.value Key.userId = "" ∨ w.state.session.authorized = false →
      ∃ i record, jobs i = .refreshUser ∧ recordOf cfg i log = some record ∧
        (User.ofRecord record).isEmpty = true) ∧
    ((∀ i, jobs i = .refreshUser → ∃ record, recordOf cfg i log = some record ∧
        (User.ofRecord record).isEmpty = true) →
      w.state.store.settings.value Key.userId = "" ∧ w.state.session.authorized = false) := by
  obtain ⟨st, ⟨hinquiry, hattested⟩, hend⟩ := named_of_reaches h hwrites hdone
  have hrecord (i : ι) : recordOf cfg i log = (st i).inquiry.record? := by rw [recordOf, hinquiry]
  obtain ⟨i₀, hi₀⟩ := hjob
  have htold : (st i₀).told = true := (hend i₀).told_iff.mpr hi₀
  constructor
  · intro hlost
    rcases hattested.first_or_wrote_of_lost htold hlost with hfirst | ⟨j, hj⟩
    · exact absurd hfirst hstored
    · obtain ⟨hjob, hnameless⟩ := (hend j).wrote hj
      obtain ⟨record, hfound, hempty⟩ := hnameless rfl
      exact ⟨j, record, hjob, (hrecord j).trans hfound, hempty⟩
  · intro hall
    have hwrote (i : ι) (hi : jobs i = .refreshUser) : (st i).wrote = some "" := by
      obtain ⟨record, hfound, hempty⟩ := hall i hi
      have hi' := hend i
      rw [hi] at hi'
      rw [hi'.wrote_eq ((hrecord i).symm.trans hfound), String.isEmpty_iff.mp hempty]
    refine hattested.lost_of_wrote htold (fun j hj => hwrote j ((hend j).told_iff.mp hj)) ?_
    intro j id hj
    exact Option.some.inj (hj.symm.trans (hwrote j ((hend j).wrote hj).1))

end Runs

section Sample

open Program (Scripted)

/-- A record without any member. -/
def blankAnswer : Answer := .ok { body := Text.bytes "\x7b\x7d" }

/-- The job for the user of the sample gets a record without any member. -/
theorem exists_blank_sample : ∃ log w,
    World.Reaches Shared.step (begunJobs sampleConfig (fun _ : Unit => .refreshUser) sample) log w ∧
    (∀ i changes stored, (i, .inner (.apply changes) stored) ∈ log → stored = .ok ()) ∧
    (∀ i, w.task i = .running (.done ())) ∧
    w.state.store.settings.value Key.userId = "" ∧ w.state.session.authorized = false := by
  have hnobody : (User.ofRecord (.object [])).userId = "" := rfl
  have hne : (User.ofRecord (.object [])).userId ≠ sample.store.settings.value Key.userId := by
    decide
  have hsolo : ∃ counters, Flow.Solo Shared.step (Scripted noon fun _ => blankAnswer)
      (Program.ofJob sampleConfig .refreshUser) sample ()
      (Program.replaced sample (User.ofRecord (.object [])) noon counters) :=
    Program.solo_refreshUser_other bare_sample rfl (jsonOutcome_of_parse parse?_blank _) hne
  obtain ⟨counters, hsolo⟩ := hsolo
  have htask : (begunJobs sampleConfig (fun _ : Unit => .refreshUser) sample).task () =
      .running ((Program.ofJob sampleConfig .refreshUser).bind .done) := by
    rw [Flow.bind_done]
    rfl
  obtain ⟨log, hreach, hreplies⟩ := World.reaches_of_solo hsolo (by rfl) htask
  have hvalue : (sample.store.settings.merge (User.ofRecord (.object [])).changes).value Key.userId =
      "" := (Settings.value_userId_merge_user _ _).trans hnobody
  refine ⟨log, _, hreach, fun i changes stored he => ?_, fun i => ?_, hvalue, ?_⟩
  · exact hreplies _ he ⟨.apply changes, stored⟩ rfl
  · exact World.set_task_self _ _ _ _
  · have hnone := mt Settings.isSome_value?_iff.mp (not_not_intro hvalue)
    exact eq_false_of_ne_true hnone

/-- Somebody is signed out by a record that names nobody: what holds of every run tells why. -/
theorem signed_out_by_blank_record : ∃ log w record,
    sample.store.settings.value Key.userId ≠ "" ∧
    World.Reaches Shared.step (begunJobs sampleConfig (fun _ : Unit => .refreshUser) sample) log w ∧
    (∀ i changes stored, (i, .inner (.apply changes) stored) ∈ log → stored = .ok ()) ∧
    (∀ i, w.task i = .running (.done ())) ∧
    recordOf sampleConfig () log = some record ∧ (User.ofRecord record).isEmpty = true := by
  obtain ⟨log, w, hreach, hwrites, hdone, hvalue, -⟩ := exists_blank_sample
  have hstored : sample.store.settings.value Key.userId ≠ "" := by decide
  obtain ⟨hnameless, -⟩ := signed_in_unless_record_names_nobody hstored hreach hwrites hdone ⟨(), rfl⟩
  obtain ⟨⟨⟩, record, -, hrecord, hempty⟩ := hnameless (.inl hvalue)
  exact ⟨log, w, record, hstored, hreach, hwrites, hdone, hrecord, hempty⟩

/-- A refresh can sign somebody out: the service answers with a record without any member, all writes
succeed, and in the end nobody is stored and nobody is signed in. -/
theorem refresh_forgets_user : ∃ log w,
    sample.store.settings.value Key.userId = "u1" ∧
    World.Reaches Shared.step (begunJobs sampleConfig (fun _ : Unit => .refreshUser) sample) log w ∧
    (∀ i changes stored, (i, .inner (.apply changes) stored) ∈ log → stored = .ok ()) ∧
    (∀ i, w.task i = .running (.done ())) ∧
    w.state.store.settings.value Key.userId = "" ∧ w.state.session.authorized = false := by
  obtain ⟨log, w, hreach, hwrites, hdone, hvalue, hsession⟩ := exists_blank_sample
  exact ⟨log, w, rfl, hreach, hwrites, hdone, hvalue, hsession⟩

end Sample

end AccountGate.Account
