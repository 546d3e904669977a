import AccountGate.Proofs.Account.Enlisted
import AccountGate.Proofs.Auth.Header
import AccountGate.Proofs.Auth.TokenBodies
import AccountGate.Proofs.Decimal.Signed
import AccountGate.Proofs.Json.Numbers

/-!
Sessions that are not over. Main statement: whatever runs at once, as long as everybody who puts
tokens has made them of such that were there, a session that is not over has an access token.
-/

namespace AccountGate

namespace Auth

namespace TokenResponse

theorem fits_wholeSeconds (x : Float) : Decimal.fits64 (wholeSeconds x) = true := by
  rw [Decimal.fits64_iff, wholeSeconds, Decimal.minInt64, Decimal.maxInt64]
  split <;> omega

theorem fits_of_seconds? {v : Json} {n : Int} (hv : Json.Word v) (h : seconds? v = some n) :
    Decimal.fits64 n = true := by
  rw [seconds?.eq_def] at h
  split at h
  · next m =>
    obtain ⟨hlow, -⟩ : -(Json.minMagnitude : Int) ≤ m ∧ m ≤ Json.maxWord := hv
    rw [Json.minMagnitude] at hlow
    rw [← Option.some.inj h, Decimal.fits64_iff, Decimal.minInt64, Decimal.maxInt64]
    split <;> omega
  · next x =>
    rw [← Option.some.inj h]
    exact fits_wholeSeconds x
  · exact Decimal.fits64_of_readInt64? h
  · exact absurd h (by simp)

/-- The lifetime in a response fits into 64 bits, whatever the body says. -/
theorem fits_of_parse? {body : Bytes} {response : TokenResponse} (h : parse? body = some response)
    {n : Int} (hn : response.expiresIn = some n) : Decimal.fits64 n = true := by
  obtain ⟨fields, hread, -, -, hexpires, -⟩ := parse?_eq_some_iff.mp h
  obtain ⟨v, hv, hseconds⟩ := Option.bind_eq_some_iff.mp (hexpires.trans hn)
  exact fits_of_seconds? (Json.Record.words_of_read? hread 2 v hv) hseconds

end TokenResponse

theorem Accepts.fits {r : Response} {response : TokenResponse} (h : Accepts r response) {n : Int}
    (hn : Decimal.fits64 n = true) : Decimal.fits64 (response.expiresIn.getD n) = true := by
  cases hexpires : response.expiresIn with
  | none => exact hn
  | some m => exact TokenResponse.fits_of_parse? h.decoded hexpires

theorem exists_accepts_of_refreshed {a : Answer} {response : TokenResponse}
    (h : refreshOutcome a = .refreshed response) : ∃ r, Accepts r response := by
  cases a with
  | error cause => exact absurd h (by simp [refreshOutcome])
  | ok r => exact ⟨r, refreshOutcome_eq_refreshed_iff.mp h⟩

theorem exists_accepts_of_exchanged {a : Answer} {issued : String × TokenResponse}
    (h : exchangeOutcome a = .ok issued) : ∃ r, Accepts r issued.2 := by
  cases a with
  | error cause => exact absurd h (by simp [exchangeOutcome])
  | ok r => exact ⟨r, (exchangeOutcome_eq_ok_iff.mp h).1⟩

/-- The session is over, or it has an access token; its lifetime fits into 64 bits. -/
structure Tokens.IsSound (t : Tokens) : Prop where
  access_ne : t.status ≠ .expired → t.access.value ≠ ""
  fits : Decimal.fits64 t.expiresIn = true

namespace Tokens

theorem isSound_ofCredentials {c : Credentials} (h : Decimal.fits64 c.expiresIn = true) :
    (Bearer.ofCredentials c).tokens.IsSound where
  access_ne hlive hempty := by
    refine hlive (if_pos ?_)
    rw [show c.accessToken = "" from hempty]
    rfl
  fits := h

theorem IsSound.refused {t : Tokens} (h : t.IsSound) : t.refused.IsSound where
  access_ne hlive := absurd rfl hlive
  fits := h.fits

/-- A session that is not over stays sound in any state. -/
theorem IsSound.withStatus {t : Tokens} (h : t.IsSound) (hlive : t.status ≠ .expired)
    (status : TokenState) : IsSound { t with status } where
  access_ne _ := h.access_ne hlive
  fits := h.fits

theorem IsSound.renewed {t : Tokens} (h : t.IsSound) (hlive : t.status ≠ .expired) {r : Response}
    {response : TokenResponse} (haccepts : Accepts r response) (now : Int) :
    (t.renewed response now).IsSound where
  access_ne _ := by
    rw [Tokens.renewed]
    cases hfilled : filled response.accessToken with
    | none => exact h.access_ne hlive
    | some access => simpa [Secret.replace] using (Option.filter_eq_some_iff.mp hfilled).2
  fits := haccepts.fits h.fits

end Tokens

end Auth

namespace Account

open AccountGate.Flow (Makes makes_done)
open Conduct (leads_of_makes)

/-- Tokens that are put are sound as long as those that are taken are. -/
def minding : Conduct interface where
  Stage := Unit
  Allows _ c := match c with
    | .auth (.create (.bearer b)) => b.tokens.IsSound
    | .auth (.update _ t) => t.IsSound
    | _ => True
  Expects _ c := match c with
    | .auth (.acquire _) => fun t : Auth.Tokens => t.IsSound
    | _ => fun _ => True
  after _ _ _ := ()

/-- A program that makes the tokens that it puts of such that it has taken. -/
def Minds {α : Type} (p : Program α) : Prop := minding.Leads (fun _ _ => True) () p

theorem Minds.bind {α β : Type} {p : Program α} {f : α → Program β} (hp : Minds p)
    (hf : ∀ a, Minds (f a)) : Minds (p.bind f) :=
  Conduct.Leads.bind hp fun a _ _ => hf a

/-- A call that puts no tokens. -/
def Call.SparesTokens : Call → Prop
  | .auth (.create _) => False
  | .auth (.update _ _) => False
  | _ => True

namespace Program

variable {α β : Type} {cfg : Config}

theorem minds_of_spares {p : Program α} (h : Makes Call.SparesTokens p) : Minds p := by
  refine (leads_of_makes (k := minding) (h.mono fun c hc => ⟨?_, fun _ => rfl⟩)).mono
    fun _ _ _ => trivial
  cases c with
  | auth c =>
    cases c with
    | create strategy => exact hc.elim
    | update id t => exact hc.elim
    | _ => trivial
  | _ => trivial

theorem sparesTokens_of_tame {c : Call} (h : c.IsTame) : c.SparesTokens := by
  cases c with
  | auth c =>
    cases c with
    | create strategy => exact h.elim
    | update id t => exact h.elim
    | _ => trivial
  | _ => trivial

theorem minds_of_tame {p : Program α} (h : Makes Call.IsTame p) : Minds p :=
  minds_of_spares (h.mono fun _ hc => sparesTokens_of_tame hc)

theorem minds_leave (id : Nat) (a : Auth.Authorization) :
    Minds (ofAuth (Auth.leave id a)) := ⟨trivial, fun _ _ => trivial⟩

theorem minds_finish (id : Nat) {t : Auth.Tokens} (h : t.IsSound) (counter : Counter) :
    Minds (ofAuth (Auth.finish id t counter)) :=
  ⟨h, fun _ _ => ⟨trivial, fun _ _ => minds_leave id t.answer⟩⟩

/-- A question for a header puts tokens that it has taken, the renewed ones, or an end. -/
theorem minds_bearerHeader (id : Nat) (clientId tokenServer : String) :
    Minds (ofAuth (Auth.Program.bearerHeader id clientId tokenServer)) := by
  rw [Auth.bearerHeader_eq]
  refine ⟨trivial, fun t ht => ?_⟩
  change Minds (ofAuth (ite (t.status = .expired) _ _))
  by_cases hexpired : t.status = .expired
  · rw [if_pos hexpired]
    exact minds_leave id t.answer
  rw [if_neg hexpired]
  have hsound : t.IsSound := ht
  refine ⟨trivial, fun clock _ => ?_⟩
  change Minds (ofAuth (ite (t.isFresh (max 0 clock) = true) _ _))
  split
  · exact minds_leave id t.answer
  · refine ⟨hsound.withStatus hexpired .refreshing, fun _ _ => ⟨trivial, fun a _ => ?_⟩⟩
    change Minds (ofAuth ((Auth.Program.settled t (Auth.refreshOutcome a)).bind _))
    cases houtcome : Auth.refreshOutcome a with
    | refreshed response =>
      obtain ⟨r, haccepts⟩ := Auth.exists_accepts_of_refreshed houtcome
      exact ⟨trivial, fun now _ => minds_finish id (hsound.renewed hexpired haccepts (max 0 now)) _⟩
    | unreachable cause => exact minds_finish id (hsound.withStatus hexpired .valid) _
    | rejected reason => exact minds_finish id hsound.refused _

theorem minds_resolve (url : String) : Minds (ofAuth (Auth.Program.resolve url)) := by
  refine ⟨trivial, fun found _ => ?_⟩
  rcases found with _ | ⟨id, encoded⟩ | ⟨id, clientId, tokenServer⟩
  · trivial
  · trivial
  · exact minds_bearerHeader id clientId tokenServer

theorem minds_fetchAny (url : String) :
    Minds (ofAuth (Auth.Program.fetchAuthorized (.getAny url))) := by
  rw [Auth.fetchAuthorized_eq rfl]
  refine ⟨trivial, fun suspended _ => ?_⟩
  cases suspended with
  | true => exact ⟨trivial, fun _ _ => trivial⟩
  | false =>
    change Minds (ofAuth (Flow.bind (Auth.Program.resolve _) _))
    rw [ofAuth, Flow.expand_bind]
    exact (minds_resolve url).bind fun a => ⟨trivial, fun _ _ => trivial⟩

theorem minds_ofJob (cfg : Config) (job : Job) : Minds (ofJob cfg job) :=
  leads_ofJob_of (fun hp => minds_of_tame hp) (fun _ => minds_fetchAny _) job

theorem minds_andThen {p : Program (Except Error α)} {f : α → Program (Except Error β)}
    (hp : Minds p) (hf : ∀ a, Minds (f a)) : Minds (andThen p f) :=
  hp.bind fun result => by cases result with
    | ok a => exact hf a
    | error e => trivial

theorem minds_registerSession (cfg : Config) {c : Auth.Credentials}
    (h : Decimal.fits64 c.expiresIn = true) : Minds (registerSession cfg c).run := by
  rw [run_registerSession]
  split
  · trivial
  · exact ⟨Auth.Tokens.isSound_ofCredentials h, fun _ _ => ⟨trivial, fun _ _ => trivial⟩⟩

theorem fits_storedCredentials {stored : Settings} {c : Auth.Credentials}
    (h : storedCredentials cfg stored = some c) : Decimal.fits64 c.expiresIn = true := by
  obtain ⟨access, -, rfl⟩ := Option.map_eq_some_iff.mp h
  change Decimal.fits64 (((stored.value? Key.expiresIn).bind Decimal.readInt64?).getD 0) = true
  cases hread : (stored.value? Key.expiresIn).bind Decimal.readInt64? with
  | none => decide
  | some n =>
    obtain ⟨text, -, hn⟩ := Option.bind_eq_some_iff.mp hread
    exact Decimal.fits64_of_readInt64? hn

theorem minds_loadSession (cfg : Config) : Minds (loadSession cfg).run := by
  have htakeUp (stored : Settings) : Minds (takeUp stored).run := by
    rw [run_takeUp]
    exact minds_of_tame ((tame_check _).bind fun _ => ⟨trivial, fun _ => trivial⟩)
  rw [run_loadSession]
  refine ⟨trivial, fun stored _ => ?_⟩
  change Minds (ite _ _ _)
  split
  · trivial
  · split
    · next c hc =>
      exact minds_andThen (minds_registerSession cfg (fits_storedCredentials hc)) fun _ =>
        htakeUp stored
    · exact htakeUp stored

theorem minds_restore (cfg : Config) : Minds (restore cfg).run := by
  rw [run_restore]
  exact minds_andThen (minds_loadSession cfg) fun found =>
    minds_of_spares (makes_resume trivial (fun _ => trivial) found)

theorem leads_exchange_minding (x : Auth.CodeExchange) : minding.Leads
    (fun result _ => ∀ c, result = .ok c → Decimal.fits64 c.expiresIn = true) ()
    (ofAuth (Auth.Program.exchange x)) := by
  rw [Auth.exchange_eq]
  refine ⟨trivial, fun answer _ => ?_⟩
  simp only [Flow.done_bind]
  cases houtcome : Auth.exchangeOutcome answer with
  | error e => exact fun c hc => absurd hc (by simp)
  | ok issued =>
    obtain ⟨r, haccepts⟩ := Auth.exists_accepts_of_exchanged houtcome
    refine ⟨trivial, fun now _ c hc => ?_⟩
    rw [← Except.ok.inj hc]
    exact haccepts.fits (by decide)

/-- A sign-in obtains a lifetime that fits into 64 bits. -/
theorem leads_obtain_minding (cfg : Config) (given : Option Nat) : minding.Leads
    (fun result _ => ∀ c, result = .ok c → Decimal.fits64 c.expiresIn = true) ()
    (obtain cfg given).run :=
  leads_obtain_of given (fun hp => minds_of_tame (hp.mono fun _ hc => hc.isTame))
    fun _ _ _ _ => leads_exchange_minding _

theorem minds_loginBy (cfg : Config) (given : Option Nat) : Minds (loginBy cfg given) := by
  rw [loginBy_eq, counted_eq, run_bind]
  refine Minds.bind ?_ fun _ => ⟨trivial, fun _ _ => trivial⟩
  refine (leads_obtain_minding cfg given).bind fun result _ hfits => ?_
  cases result with
  | error e => trivial
  | ok c =>
    change Minds (establish cfg c).run
    rw [run_establish]
    refine minds_andThen (minds_registerSession cfg (hfits c rfl)) fun _ => minds_of_tame ?_
    exact (tame_saveCredentials cfg).bind (makes_announce trivial fun _ => trivial)

theorem sparesTokens_logout (cfg : Config) : Makes Call.SparesTokens (logout cfg) := by
  refine makes_logout_of (fun _ => trivial) (fun start logoutUrl => makes_inside ?_) trivial
    (fun _ => trivial) cfg
  exact Auth.makes_unregister_of trivial (fun _ => Auth.makes_tokens_of trivial trivial)
    (fun _ _ _ => trivial) logoutUrl

end Program

/-- Each of the actions makes the tokens that it puts of such that it has taken. -/
theorem Action.minds (cfg : Config) (action : Action)
    (hother : ∀ p spares, action = .other p spares → Minds p) : Minds (action.program cfg) := by
  open Program in
  cases action with
  | loadSession => exact (minds_loadSession cfg).bind fun _ => trivial
  | restore => exact (minds_restore cfg).bind fun _ => trivial
  | login given => exact (minds_loginBy cfg given).bind fun _ => trivial
  | logout => exact minds_of_spares ((sparesTokens_logout cfg).bind fun _ => makes_done ())
  | refresh job => exact minds_ofJob cfg job
  | probe url => exact ⟨trivial, fun _ _ => ⟨trivial, fun _ _ => trivial⟩⟩
  | save => exact minds_of_tame ((tame_saveCredentials cfg).bind fun _ => makes_done ())
  | checkStored => exact minds_of_tame (tame_checkStored.bind fun _ => makes_done ())
  | other p spares => exact hother p spares rfl

section Runs

variable {ι : Type} [DecidableEq ι] {cfg : Config} {actions : ι → Action} {s : Shared}
  {w : World interface Shared ι Unit} {log : Trace interface ι}

/-- No session has lost its access token but those that are over. -/
def Shared.IsSound (s : Shared) : Prop := ∀ id, (s.vault.tokensOf id).IsSound

theorem Shared.IsSound.putTokens (h : s.IsSound) {t : Auth.Tokens} (ht : t.IsSound) (id other : Nat) :
    ((s.vault.putTokens id t).tokensOf other).IsSound := by
  rw [Auth.Vault.tokensOf_putTokens]
  split
  · exact ht
  · exact h other

theorem Shared.IsSound.step {c : Call} {r : Reply c} {t : Shared} (h : s.IsSound)
    (hallows : minding.Allows () c) (hs : s.step c = .reply r t) :
    minding.Expects () c r ∧ t.IsSound := by
  cases c with
  | auth c =>
    cases c with
    | create strategy =>
      obtain ⟨-, rfl⟩ := Outcome.reply.inj hs
      cases strategy with
      | basic encoded => exact ⟨trivial, h⟩
      | bearer b => exact ⟨trivial, h.putTokens hallows _⟩
    | update id tokens =>
      obtain ⟨-, rfl⟩ := Outcome.reply.inj hs
      exact ⟨trivial, h.putTokens hallows id⟩
    | acquire id =>
      by_cases hheld : id ∈ s.vault.held
      · exact absurd hs (by simp [Shared.step, Auth.Vault.step, hheld])
      · obtain ⟨rfl, rfl⟩ : s.vault.tokensOf id = r ∧ _ = t := by
          simpa [Shared.step, Auth.Vault.step, hheld] using hs
        exact ⟨h id, h⟩
    | clock => exact absurd hs (by simp [Shared.step, Auth.Vault.step])
    | send o => exact absurd hs (by simp [Shared.step, Auth.Vault.step])
    | _ =>
      obtain ⟨-, rfl⟩ := Outcome.reply.inj hs
      exact ⟨trivial, h⟩
  | _ =>
    refine ⟨trivial, fun id => ?_⟩
    rw [(Shared.frames_of_step hs).vault_eq (by simp)]
    exact h id

/-- What comes from outside are no tokens. -/
theorem expects_of_outside {c : Call} (r : Reply c) (h : ∃ s, Shared.step s c = .outside) :
    minding.Expects () c r := by
  obtain ⟨s, hs⟩ := h
  cases c with
  | auth c =>
    cases c with
    | acquire id =>
      by_cases hheld : id ∈ s.vault.held <;>
        exact absurd hs (by simp [Shared.step, Auth.Vault.step, hheld])
    | _ => trivial
  | _ => trivial

theorem isSound_of_reaches (hs : s.IsSound)
    (hothers : ∀ i p spares, actions i = .other p spares → Minds p)
    (h : World.Reaches Shared.step (begun cfg actions s) log w) : w.state.IsSound := by
  have hkeeps : minding.Keeps Shared.step (ι := ι) (fun _ _ _ => True) fun _ _ s => s.IsSound := {
    inner := fun hsound hallows hstep _ => hsound.step hallows hstep
    asked := fun hsound _ _ => hsound
    answered := fun hsound _ houtside _ => ⟨expects_of_outside _ houtside, hsound⟩ }
  obtain ⟨_, hsound, -⟩ := hkeeps.of_reaches hs (fun _ => rfl)
    (fun i => (actions i).minds cfg (hothers i)) h fun _ _ _ _ _ _ _ _ => trivial
  exact hsound

end Runs

end Account

end AccountGate
