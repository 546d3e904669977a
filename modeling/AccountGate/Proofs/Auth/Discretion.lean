import AccountGate.Auth.Pkce
import AccountGate.Proofs.Auth.Redacted

/-!
Two runs that differ in nothing but secrets: in stored tokens, in a verifier, and in the tokens of a
body. Main statement: they say the same of what has come of them, unless a failure is explained by
the whole body of an answer; then the body is told with the tokens in it.
-/

namespace AccountGate.Auth

open Program

/-- Two answers that differ in nothing but the tokens of their bodies. -/
inductive AnswersAlike : Answer → Answer → Prop
  | unanswered (cause : TransportError) : AnswersAlike (.error cause) (.error cause)
  | answered {r r' : Response} : r.status = r'.status → BodiesAlike r.body r'.body →
      AnswersAlike (.ok r) (.ok r')

theorem AnswersAlike.symm {answer answer' : Answer} (h : AnswersAlike answer answer') :
    AnswersAlike answer' answer := by
  cases h with
  | unanswered cause => exact .unanswered cause
  | answered hstatus hbody => exact .answered hstatus.symm hbody.symm

/-- Two logs with the same readings of the clock and answers that are alike, as far as both go. -/
structure LogsAlike (log log' : Log) : Prop where
  clocks : ∀ p ∈ (log.filterMap clockOf).zip (log'.filterMap clockOf), p.1 = p.2
  answers : ∀ p ∈ (log.filterMap answerOf).zip (log'.filterMap answerOf), AnswersAlike p.1 p.2

/-- A failure that is explained by its whole body, since that has no explanation of its own. -/
structure Quotes (r : Response) : Prop where
  failed : ¬ (200 ≤ r.status ∧ r.status < 300)
  unexplained : (TokenResponse.parse? r.body).bind TokenResponse.rejection? = none

/-- If the first answer is quoted, the second has the same text. -/
def QuotesAlike (answer answer' : Answer) : Prop :=
  ∀ r r', answer = .ok r → answer' = .ok r' → Quotes r → r.text = r'.text

/-- What comes of an answer, with the tokens hidden. -/
def RefreshOutcome.redacted : RefreshOutcome → RefreshOutcome
  | .refreshed response => .refreshed response.redacted
  | outcome => outcome

theorem RefreshOutcome.shown_redacted (outcome : RefreshOutcome) :
    outcome.redacted.shown = outcome.shown := by
  cases outcome with
  | refreshed response => rw [redacted, shown, shown, response.shown_redacted]
  | _ => rfl

/-- The tokens that an exchange yields, hidden. -/
def issuedRedacted (issued : String × TokenResponse) : String × TokenResponse :=
  (hidden issued.1, issued.2.redacted)

section Answers

variable {r r' : Response} {answer answer' : Answer}

theorem isSuccess_eq (h : r.status = r'.status) : r.isSuccess = r'.isSuccess := by
  rw [Response.isSuccess, Response.isSuccess, h]

theorem failureReason_of_quotes (h : Quotes r) :
    failureReason r = "token endpoint returned " ++ toString r.status ++ ": " ++ r.text := by
  unfold failureReason
  dsimp only
  rw [h.unexplained, Option.getD_none]

theorem BodiesAlike.rejection? {body body' : Bytes} (h : BodiesAlike body body') :
    (TokenResponse.parse? body).bind TokenResponse.rejection? =
      (TokenResponse.parse? body').bind TokenResponse.rejection? := by
  have hredacted (t : Option TokenResponse) : t.bind TokenResponse.rejection? =
      (t.map TokenResponse.redacted).bind TokenResponse.rejection? := by
    cases t <;> rfl
  rw [hredacted, h.parse?, ← hredacted]

theorem isSuccess_eq_false_iff : r.isSuccess = false ↔ ¬ (200 ≤ r.status ∧ r.status < 300) := by
  rw [← isSuccess_iff, Bool.not_eq_true]

/-- Two failures have the same reason unless they are quoted, and then if they have the same
text. -/
theorem failureReason_eq_iff (hstatus : r.status = r'.status) (hbody : BodiesAlike r.body r'.body)
    (hfailed : r.isSuccess = false) :
    failureReason r = failureReason r' ↔ (Quotes r → r.text = r'.text) := by
  by_cases hquotes : Quotes r
  · have hquotes' : Quotes r' := ⟨hstatus ▸ hquotes.failed, hbody.rejection? ▸ hquotes.unexplained⟩
    rw [failureReason_of_quotes hquotes, failureReason_of_quotes hquotes', hstatus,
      String.append_right_inj]
    exact ⟨fun htext _ => htext, fun htext => htext hquotes⟩
  · refine iff_of_true ?_ fun h => absurd h hquotes
    obtain ⟨reason, hreason⟩ := Option.ne_none_iff_exists'.mp fun hnone =>
      hquotes ⟨isSuccess_eq_false_iff.mp hfailed, hnone⟩
    unfold failureReason
    dsimp only
    rw [← hbody.rejection?, hreason, Option.getD_some, Option.getD_some, hstatus]

theorem outcomes_of_failed (hfailed : r.isSuccess = false) :
    refreshOutcome (.ok r) = .rejected (failureReason r) ∧
      exchangeOutcome (.ok r) = .error (.exchangeRefused (failureReason r)) := by
  unfold refreshOutcome exchangeOutcome
  dsimp only
  rw [hfailed]
  exact ⟨rfl, rfl⟩

/-- Of two successes that are alike the same is made, the tokens apart. -/
theorem outcomes_of_success (hbody : BodiesAlike r.body r'.body) (hs : r.isSuccess = true)
    (hs' : r'.isSuccess = true) :
    (refreshOutcome (.ok r)).redacted = (refreshOutcome (.ok r')).redacted ∧
      (exchangeOutcome (.ok r)).map issuedRedacted =
        (exchangeOutcome (.ok r')).map issuedRedacted := by
  unfold refreshOutcome exchangeOutcome
  dsimp only
  rw [hs, hs']
  have hparse := hbody.parse?
  generalize TokenResponse.parse? r.body = first at hparse ⊢
  generalize TokenResponse.parse? r'.body = second at hparse ⊢
  match first, second with
  | none, none => exact ⟨rfl, rfl⟩
  | none, some u => exact absurd hparse (by simp)
  | some t, none => exact absurd hparse (by simp)
  | some t, some u =>
    have hsame : t.redacted = u.redacted := Option.some.inj hparse
    have hreason : t.rejection? = u.rejection? := by
      rw [← t.rejection?_redacted, hsame, u.rejection?_redacted]
    have hfilled : (filled t.accessToken).map hidden = (filled u.accessToken).map hidden := by
      rw [← TokenResponse.filled_map_hidden, ← TokenResponse.filled_map_hidden]
      exact congrArg (fun t => filled t.accessToken) hsame
    dsimp only
    rw [← hreason]
    cases t.rejection? with
    | some reason => exact ⟨rfl, rfl⟩
    | none =>
      refine ⟨congrArg RefreshOutcome.refreshed hsame, ?_⟩
      dsimp only
      generalize filled t.accessToken = access at hfilled ⊢
      generalize filled u.accessToken = access' at hfilled ⊢
      match access, access' with
      | none, none => rfl
      | none, some _ => exact absurd hfilled (by simp)
      | some _, none => exact absurd hfilled (by simp)
      | some access, some access' =>
        have haccess : hidden access = hidden access' := Option.some.inj hfilled
        simp [Except.map, issuedRedacted, haccess, hsame]

/-- What may be told of two refreshes: with the tokens hidden they are the same exactly when the
same is quoted. -/
structure ToldAlike (answer answer' : Answer) (outcome outcome' : RefreshOutcome) : Prop where
  redacted_iff : outcome.redacted = outcome'.redacted ↔ QuotesAlike answer answer'
  shown_eq : QuotesAlike answer answer' → outcome.shown = outcome'.shown

theorem quotesAlike_of_success (hs : r.isSuccess = true) : QuotesAlike (.ok r) answer' := by
  rintro _ _ ⟨⟩ - hquotes
  exact absurd (isSuccess_iff.mp hs) hquotes.failed

theorem quotesAlike_iff : QuotesAlike (.ok r) (.ok r') ↔ (Quotes r → r.text = r'.text) := by
  constructor
  · exact fun h => h r r' rfl rfl
  · rintro h _ _ ⟨⟩ ⟨⟩
    exact h

theorem AnswersAlike.toldAlike (h : AnswersAlike answer answer') :
    ToldAlike answer answer' (refreshOutcome answer) (refreshOutcome answer') := by
  have hiff : (refreshOutcome answer).redacted = (refreshOutcome answer').redacted ↔
      QuotesAlike answer answer' := by
    cases h with
    | unanswered cause => exact iff_of_true rfl fun _ _ heq => absurd heq (by simp)
    | @answered r r' hstatus hbody =>
      have hsame := isSuccess_eq hstatus
      cases hs : r.isSuccess with
      | true =>
        exact iff_of_true (outcomes_of_success hbody hs (hsame ▸ hs)).1 (quotesAlike_of_success hs)
      | false =>
        rw [(outcomes_of_failed hs).1, (outcomes_of_failed (hsame ▸ hs)).1, quotesAlike_iff,
          ← failureReason_eq_iff hstatus hbody hs]
        exact ⟨RefreshOutcome.rejected.inj, congrArg RefreshOutcome.rejected⟩
  refine ⟨hiff, fun hquotes => ?_⟩
  rw [← RefreshOutcome.shown_redacted, hiff.mpr hquotes, RefreshOutcome.shown_redacted]

theorem exists_accepts_of_alike {response : TokenResponse} (h : AnswersAlike (.ok r) (.ok r'))
    (haccepts : Accepts r response) :
    ∃ response', Accepts r' response' ∧ response.redacted = response'.redacted := by
  cases h with
  | answered hstatus hbody =>
    have hparse := hbody.parse?
    rw [haccepts.decoded, Option.map_some] at hparse
    obtain ⟨response', hdecoded, hsame⟩ := Option.map_eq_some_iff.mp hparse.symm
    have herror : response'.redacted.error = response.redacted.error := congrArg _ hsame
    exact ⟨response', ⟨hstatus ▸ haccepts.success, hdecoded, fun error he =>
      haccepts.no_error error (herror.symm.trans he)⟩, hsame.symm⟩

theorem refuses_iff_of_alike (h : AnswersAlike (.ok r) (.ok r')) : Refuses r ↔ Refuses r' := by
  rw [refuses_iff, refuses_iff]
  constructor
  · intro hrefuses response' haccepts
    obtain ⟨response, hfirst, -⟩ := exists_accepts_of_alike h.symm haccepts
    exact hrefuses response hfirst
  · intro hrefuses response haccepts
    obtain ⟨response', hsecond, -⟩ := exists_accepts_of_alike h haccepts
    exact hrefuses response' hsecond

end Answers

section Sessions

/-- Credentials that differ in nothing but their tokens; an access token is there in both or in
neither. -/
structure Credentials.Alike (c c' : Credentials) : Prop where
  clientId_eq : c.clientId = c'.clientId
  tokenServer_eq : c.tokenServer = c'.tokenServer
  access_iff : c.accessToken = "" ↔ c'.accessToken = ""
  expiresIn_eq : c.expiresIn = c'.expiresIn
  lastRefresh_eq : c.lastRefresh = c'.lastRefresh

/-- Sessions that differ in nothing but their tokens, and are both over or both not. -/
structure TokenSet.Alike (t u : TokenSet) : Prop where
  access_iff : t.access = "" ↔ u.access = ""
  expiresIn_eq : t.expiresIn = u.expiresIn
  lastRefresh_eq : t.lastRefresh = u.lastRefresh

theorem Credentials.Alike.tokenSet {c c' : Credentials} (h : c.Alike c') :
    (TokenSet.ofCredentials c).Alike (.ofCredentials c') :=
  ⟨h.access_iff, h.expiresIn_eq, h.lastRefresh_eq⟩

/-- What may be told of credentials, and of the strategy that is made of them. -/
def Credentials.told (c : Credentials) : String × String :=
  (c.shown, (Strategy.bearer (.ofCredentials c)).shown)

theorem Credentials.Alike.told_eq {c c' : Credentials} (h : c.Alike c') : c.told = c'.told := by
  refine Prod.ext ?_ ?_
  · show c.shown = c'.shown
    unfold Credentials.shown
    rw [h.clientId_eq, h.tokenServer_eq, h.expiresIn_eq, h.lastRefresh_eq]
  · show (Strategy.bearer (.ofCredentials c)).shown = (Strategy.bearer (.ofCredentials c')).shown
    unfold Strategy.shown Bearer.shown Bearer.ofCredentials
    dsimp only
    rw [h.clientId_eq, h.tokenServer_eq]

/-- What may be told of an exchange is the same exactly when the same is quoted. -/
theorem AnswersAlike.exchange_iff {answer answer' : Answer} (h : AnswersAlike answer answer')
    (x : CodeExchange) (verifier : Option String) (clock : Int) :
    (x.result answer clock).map Credentials.told =
        ({ x with codeVerifier := verifier }.result answer' clock).map Credentials.told ↔
      QuotesAlike answer answer' := by
  -- The tokens may be hidden first.
  have hredacted (answer : Answer) : (x.result answer clock).map Credentials.told =
      ((exchangeOutcome answer).map issuedRedacted).map fun issued =>
        (x.credentials issued.1 issued.2 (max 0 clock)).told := by
    unfold CodeExchange.result
    cases exchangeOutcome answer with
    | error e => rfl
    | ok issued =>
      have halike : (x.credentials issued.1 issued.2 (max 0 clock)).Alike
          (x.credentials (hidden issued.1) issued.2.redacted (max 0 clock)) :=
        ⟨rfl, rfl, hidden_eq_empty_iff.symm, rfl, rfl⟩
      exact congrArg Except.ok halike.told_eq
  have hverifier : { x with codeVerifier := verifier }.result answer' clock =
    x.result answer' clock := rfl
  rw [hverifier]
  cases h with
  | unanswered cause => exact iff_of_true rfl fun _ _ heq => absurd heq (by simp)
  | @answered r r' hstatus hbody =>
    have hsame := isSuccess_eq hstatus
    cases hs : r.isSuccess with
    | true =>
      refine iff_of_true ?_ (quotesAlike_of_success hs)
      rw [hredacted, (outcomes_of_success hbody hs (hsame ▸ hs)).2, ← hredacted]
    | false =>
      have hresult {r : Response} (hs : r.isSuccess = false) :
          (x.result (.ok r) clock).map Credentials.told =
            .error (.exchangeRefused (failureReason r)) := by
        rw [CodeExchange.result, (outcomes_of_failed hs).2]
        rfl
      rw [hresult hs, hresult (hsame ▸ hs), quotesAlike_iff,
        ← failureReason_eq_iff hstatus hbody hs, Except.error.injEq, Error.exchangeRefused.injEq]

variable {t t' u u' : TokenSet} {clientId tokenServer : String} {log log' : Log}
  {a a' : Authorization}

theorem TokenSet.Alike.fresh_iff (h : t.Alike u) (clock : Int) : t.Fresh clock ↔ u.Fresh clock := by
  rw [TokenSet.Fresh, TokenSet.Fresh, h.expiresIn_eq, h.lastRefresh_eq]

theorem orKept_eq_empty_iff {old : String} {new : Option String} :
    orKept old new = "" ↔ old = "" ∧ filled new = none := by
  rw [filled_eq_none_iff]
  cases new with
  | none => simp [orKept]
  | some s =>
    by_cases hs : s = ""
    · simp [orKept, hs]
    · simp [orKept, hs]

theorem TokenSet.Alike.accepted (h : t.Alike u) {response response' : TokenResponse}
    (hsame : response.redacted = response'.redacted) (clock : Int) :
    ((t.accepted response).stamped clock).Alike ((u.accepted response').stamped clock) := by
  refine ⟨?_, ?_, rfl⟩
  · have hhidden (r : TokenResponse) :
        filled r.redacted.accessToken = none ↔ filled r.accessToken = none := by
      rw [show r.redacted.accessToken = r.accessToken.map hidden from rfl,
        TokenResponse.filled_map_hidden, Option.map_eq_none_iff]
    have hfilled : filled response.accessToken = none ↔ filled response'.accessToken = none := by
      rw [← hhidden, hsame, hhidden]
    show orKept t.access response.accessToken = "" ↔ orKept u.access response'.accessToken = ""
    rw [orKept_eq_empty_iff, orKept_eq_empty_iff, h.access_iff, hfilled]
  · have hexpires : response.redacted.expiresIn = response'.redacted.expiresIn :=
      congrArg _ hsame
    show response.expiresIn.getD t.expiresIn = response'.expiresIn.getD u.expiresIn
    rw [show response.expiresIn = response'.expiresIn from hexpires, h.expiresIn_eq]

/-- What two questions for the header say: the same header, and of each refresh what may be
told. -/
structure TurnsAlike (turn turn' : Log × Authorization) : Prop where
  shown_eq : turn.2.shown = turn'.2.shown
  outcomes : List.Forall₂
    (fun answer answer' =>
      ToldAlike answer answer' (refreshOutcome answer) (refreshOutcome answer'))
    (turn.1.filterMap answerOf) (turn'.1.filterMap answerOf)

/-- Two questions for the header that see the same of the outside. -/
theorem Turn.alike (h : Turn clientId tokenServer t log a t')
    (h' : Turn clientId tokenServer u log' a' u') (ht : t.Alike u) (hlogs : LogsAlike log log') :
    TurnsAlike (log, a) (log', a') ∧ t'.Alike u' := by
  have hclock {clock clock' : Int} {rest rest' : List Int}
      (hlog : log.filterMap clockOf = clock :: rest)
      (hlog' : log'.filterMap clockOf = clock' :: rest') : clock = clock' := by
    refine hlogs.clocks (clock, clock') ?_
    rw [hlog, hlog']
    exact List.mem_cons_self
  have hanswer {answer answer' : Answer} (hlog : log.filterMap answerOf = [answer])
      (hlog' : log'.filterMap answerOf = [answer']) : AnswersAlike answer answer' := by
    refine hlogs.answers (answer, answer') ?_
    rw [hlog, hlog']
    exact List.mem_cons_self
  cases h with
  | ended hover =>
    cases h' with
    | ended _ => exact ⟨⟨rfl, .nil⟩, ht⟩
    | _ => exact absurd (ht.access_iff.mp hover) ‹_›
  | current clock hlive hfresh =>
    cases h' with
    | ended hover => exact absurd (ht.access_iff.mpr hover) hlive
    | current clock' _ _ => exact ⟨⟨rfl, .nil⟩, ht⟩
    | _ =>
      obtain rfl := hclock rfl rfl
      exact absurd ((ht.fresh_iff clock).mp hfresh) ‹_›
  | unanswered clock cause hlive hstale =>
    cases h' with
    | ended hover => exact absurd (ht.access_iff.mpr hover) hlive
    | current clock' _ hfresh =>
      obtain rfl := hclock rfl rfl
      exact absurd ((ht.fresh_iff clock).mpr hfresh) hstale
    | unanswered clock' cause' _ _ => exact ⟨⟨rfl, .cons (hanswer rfl rfl).toldAlike .nil⟩, ht⟩
    | _ => exact nomatch hanswer rfl rfl
  | refused clock r hlive hstale hrefuses =>
    cases h' with
    | ended hover => exact absurd (ht.access_iff.mpr hover) hlive
    | current clock' _ hfresh =>
      obtain rfl := hclock rfl rfl
      exact absurd ((ht.fresh_iff clock).mpr hfresh) hstale
    | unanswered clock' cause' _ _ => exact nomatch hanswer rfl rfl
    | refused clock' r' _ _ _ =>
      exact ⟨⟨rfl, .cons (hanswer rfl rfl).toldAlike .nil⟩, Iff.rfl, ht.expiresIn_eq,
        ht.lastRefresh_eq⟩
    | accepted clock' later' r' response' _ _ haccepts =>
      have hrefuses' := (refuses_iff_of_alike (hanswer rfl rfl)).mp hrefuses
      exact absurd haccepts (refuses_iff.mp hrefuses' response')
  | accepted clock later r response hlive hstale haccepts =>
    cases h' with
    | ended hover => exact absurd (ht.access_iff.mpr hover) hlive
    | current clock' _ hfresh =>
      obtain rfl := hclock rfl rfl
      exact absurd ((ht.fresh_iff clock).mpr hfresh) hstale
    | unanswered clock' cause' _ _ => exact nomatch hanswer rfl rfl
    | refused clock' r' _ _ hrefuses' =>
      have hrefuses := (refuses_iff_of_alike (hanswer rfl rfl)).mpr hrefuses'
      exact absurd haccepts (refuses_iff.mp hrefuses response)
    | accepted clock' later' r' response' _ _ haccepts' =>
      obtain rfl : later = later' := hlogs.clocks (later, later') (by simp [List.filterMap_cons])
      obtain ⟨response'', hsecond, hsame⟩ := exists_accepts_of_alike (hanswer rfl rfl) haccepts
      obtain rfl := Option.some.inj (hsecond.decoded.symm.trans haccepts'.decoded)
      exact ⟨⟨rfl, .cons (hanswer rfl rfl).toldAlike .nil⟩, ht.accepted hsame later⟩

/-- Questions one after another, each of which sees the same of the outside as the other one. -/
theorem Turns.alike {turns turns' : List (Log × Authorization)}
    (h : Turns clientId tokenServer t turns t') (h' : Turns clientId tokenServer u turns' u')
    (ht : t.Alike u) (hlogs : List.Forall₂ (fun p p' => LogsAlike p.1 p'.1) turns turns') :
    List.Forall₂ TurnsAlike turns turns' := by
  induction h generalizing u turns' with
  | nil t =>
    cases h' with
    | nil _ => exact .nil
    | cons _ _ => exact nomatch hlogs
  | cons hturn _ ih =>
    cases h' with
    | nil _ => exact nomatch hlogs
    | cons hturn' hturns' =>
      obtain ⟨hlog, hrest⟩ := List.forall₂_cons.mp hlogs
      obtain ⟨hsaid, ht⟩ := hturn.alike hturn' ht hlog
      exact .cons hsaid (ih hturns' ht hrest)

/-- Strategies that differ in nothing but their secrets. -/
inductive Strategy.Alike : Strategy → Strategy → Prop
  | basic (encoded encoded' : Secret) : Alike (.basic encoded) (.basic encoded')
  | bearer {c c' : Credentials} : c.Alike c' →
      Alike (.bearer (.ofCredentials c)) (.bearer (.ofCredentials c'))

theorem Strategy.Alike.shown_eq {s s' : Strategy} (h : s.Alike s') : s.shown = s'.shown := by
  cases h with
  | basic encoded encoded' => rfl
  | bearer hc => exact congrArg Prod.snd hc.told_eq

theorem Strategy.Alike.handle_shown_eq {s s' : Strategy} (h : s.Alike s') (v v' : Vault) :
    (v.create s).1.shown = (v'.create s').1.shown := by
  cases h with
  | basic encoded encoded' => rfl
  | bearer hc =>
    unfold Vault.create Handle.shown Bearer.ofCredentials
    dsimp only
    rw [hc.clientId_eq, hc.tokenServer_eq]

/-- Basic credentials are answered without a question to the outside. -/
theorem turnsAlike_of_basic {id id' : Nat} {encoded encoded' : Secret} {v v' w w' : Vault}
    {turns turns' : List (Log × Authorization)}
    (h : Flow.InRow Vault.step (Program.header (.basic id encoded)) v turns w)
    (h' : Flow.InRow Vault.step (Program.header (.basic id' encoded')) v' turns' w')
    (hlogs : List.Forall₂ (fun p p' => LogsAlike p.1 p'.1) turns turns') :
    List.Forall₂ TurnsAlike turns turns' := by
  induction hlogs generalizing v v' with
  | nil => exact .nil
  | cons _ _ ih =>
    cases h with
    | cons hrun hrest =>
      cases h' with
      | cons hrun' hrest' =>
        obtain ⟨hlog, ha, -⟩ := Flow.alone_done_iff.mp hrun
        obtain ⟨hlog', ha', -⟩ := Flow.alone_done_iff.mp hrun'
        rw [hlog, hlog', ← ha, ← ha']
        exact .cons ⟨rfl, .nil⟩ (ih hrest hrest')

/-- Questions for the header of two strategies in use, one after another, that see the same of the
outside. -/
theorem Strategy.Alike.turns {s s' : Strategy} (h : s.Alike s') {v v' w w' : Vault}
    (hfree : v.created ∉ v.held) (hfree' : v'.created ∉ v'.held)
    {turns turns' : List (Log × Authorization)}
    (hturns : Flow.InRow Vault.step (Program.header (v.create s).1) (v.create s).2 turns w)
    (hturns' : Flow.InRow Vault.step (Program.header (v'.create s').1) (v'.create s').2 turns' w')
    (hlogs : List.Forall₂ (fun p p' => LogsAlike p.1 p'.1) turns turns') :
    List.Forall₂ TurnsAlike turns turns' := by
  cases h with
  | basic encoded encoded' =>
    exact turnsAlike_of_basic hturns hturns' hlogs
  | @bearer c c' hc =>
    have hstarted : v.created ∉ (v.create (.bearer (.ofCredentials c))).2.held := hfree
    have hstarted' : v'.created ∉ (v'.create (.bearer (.ofCredentials c'))).2.held := hfree'
    obtain ⟨t, hrows, -⟩ :=
      Vault.turns_of_inRow hstarted (Vault.tokensOf_create_bearer v c) hturns
    obtain ⟨t', hrows', -⟩ :=
      Vault.turns_of_inRow hstarted' (Vault.tokensOf_create_bearer v' c') hturns'
    have hsame : Turns c.clientId c.tokenServer (.ofCredentials c') turns' t' := by
      rw [hc.clientId_eq, hc.tokenServer_eq]
      exact hrows'
    exact Turns.alike hrows hsame hc.tokenSet hlogs

end Sessions

/-- Two runs that differ in nothing but a verifier, stored tokens, Basic credentials and the tokens
in answers tell the same: of an exchange and of a refresh exactly when no body is quoted, or quoted
bodies have the same text; of questions for the header whatever the answers were, and of each
refresh among them as of one alone. What is shown of strategies, credentials, bodies and pairs never
depends on what is secret in them. -/
theorem secrets_told_only_in_quoted_bodies (v v' : Vault) :
    (∀ answer answer' clock x verifier result result', AnswersAlike answer answer' →
      Yields (exchange x) v answer clock result →
      Yields (exchange { x with codeVerifier := verifier }) v' answer' clock result' →
      (result.map Credentials.told = result'.map Credentials.told ↔
        QuotesAlike answer answer')) ∧
    (∀ answer answer' clock tokenServer clientId token token' outcome outcome',
      AnswersAlike answer answer' →
      Yields (refresh tokenServer clientId token) v answer clock outcome →
      Yields (refresh tokenServer clientId token') v' answer' clock outcome' →
      ToldAlike answer answer' outcome outcome') ∧
    (∀ s s', Strategy.Alike s s' →
      s.shown = s'.shown ∧ (v.create s).1.shown = (v'.create s').1.shown ∧
      (v.created ∉ v.held → v'.created ∉ v'.held → ∀ turns turns' w w',
        Flow.InRow Vault.step (Program.header (v.create s).1) (v.create s).2 turns w →
        Flow.InRow Vault.step (Program.header (v'.create s').1) (v'.create s').2 turns' w' →
        List.Forall₂ (fun turn turn' => LogsAlike turn.1 turn'.1) turns turns' →
        List.Forall₂ TurnsAlike turns turns')) ∧
    (∀ body body', BodiesAlike body body' →
      (TokenResponse.parse? body).map (fun t => (t.shown, t.rejection?)) =
        (TokenResponse.parse? body').map fun t => (t.shown, t.rejection?)) ∧
    (∀ c c' : Credentials, c.Alike c' → c.told = c'.told) ∧
    (∀ (p : PkcePair) (verifier : String), { p with verifier }.shown = p.shown) ∧
    (∀ secret secret' : Secret, secret.shown = secret'.shown) := by
  refine ⟨?_, ?_, fun s s' h => ⟨h.shown_eq, h.handle_shown_eq v v', ?_⟩, fun _ _ => ?_,
    fun _ _ => Credentials.Alike.told_eq, fun _ _ => rfl, Secret.shown_eq⟩
  · intro answer answer' clock x verifier result result' h hrun hrun'
    obtain rfl := yields_exchange_iff.mp hrun
    obtain rfl := yields_exchange_iff.mp hrun'
    exact h.exchange_iff x verifier clock
  · intro answer answer' clock tokenServer clientId token token' outcome outcome' h hrun hrun'
    obtain rfl := yields_refresh_iff.mp hrun
    obtain rfl := yields_refresh_iff.mp hrun'
    exact h.toldAlike
  · intro hfree hfree' turns turns' w w' hturns hturns' hlogs
    exact h.turns hfree hfree' hturns hturns' hlogs
  · intro h
    have hredacted (t : Option TokenResponse) : t.map (fun t => (t.shown, t.rejection?)) =
        (t.map TokenResponse.redacted).map fun t => (t.shown, t.rejection?) := by
      cases t with
      | none => rfl
      | some t =>
        rw [Option.map_some, Option.map_some, Option.map_some, t.shown_redacted,
          t.rejection?_redacted]
    rw [hredacted, h.parse?, ← hredacted]

section Sample

set_option maxRecDepth 10000

/-- A body with nothing in it but an access token. -/
def tokenBody (token : String) : Bytes :=
  Text.bytes ("\x7b\"access_token\":\"" ++ token ++ "\"\x7d")

theorem bodiesAlike_tokenBody : BodiesAlike (tokenBody "A1") (tokenBody "A2") := by
  have hfirst : Json.texts? (tokenBody "A1") = some [("access_token", "A1")] := by decide +kernel
  have hsecond : Json.texts? (tokenBody "A2") = some [("access_token", "A2")] := by decide +kernel
  exact .objects (Json.members?_of_texts? hfirst) (Json.members?_of_texts? hsecond) rfl

/-- The exchanges of a session without a time stamp that is renewed with such a body. -/
def renewalLog (refresh token : String) : Log :=
  [read 7, posted "" "" refresh (.ok { body := tokenBody token }), read 7, counted .tokenRefreshed]

theorem inRow_renewalLog {c : Credentials} (token : String)
    (hc : c = { accessToken := c.accessToken, refreshToken := c.refreshToken })
    (hlive : c.accessToken ≠ "") (htoken : token ≠ "")
    (ho : refreshOutcome (.ok { body := tokenBody token }) =
      .refreshed { accessToken := some token }) :
    let started := ({} : Vault).create (.bearer (.ofCredentials c))
    ∃ w, Flow.InRow Vault.step (Program.header started.1) started.2
      [(renewalLog c.refreshToken token, .header "Bearer" token)] w := by
  rw [hc]
  intro started
  have hstale : ¬ (TokenSet.mk c.accessToken c.refreshToken 0 0).Fresh 7 := by
    simp only [TokenSet.Fresh, Int.not_lt]
    decide
  have hturn : Turn "" "" ⟨c.accessToken, c.refreshToken, 0, 0⟩ _ _ _ :=
    .accepted 7 7 { body := tokenBody token } { accessToken := some token } hlive hstale
      (refreshOutcome_eq_refreshed_iff.mp ho)
  have hkept : orKept c.accessToken (some token) = token := if_neg htoken
  simp only [TokenSet.accepted, hkept] at hturn
  have hfree : 0 ∉ started.2.held := List.not_mem_nil
  obtain ⟨w, hrow, -⟩ := Vault.inRow_of_turns hfree
    (Vault.tokensOf_create_bearer {} _) (.cons hturn (.nil _))
  exact ⟨w, hrow⟩

/-- Two sessions are renewed with different tokens, and nothing tells them apart. -/
theorem new_tokens_are_untold :
    let first : Answer := .ok { body := tokenBody "A1" }
    let second : Answer := .ok { body := tokenBody "A2" }
    let x : CodeExchange := {
      tokenServer := "https://id.test/token"
      clientId := "abc"
      code := "xyz"
      redirectUri := "http://127.0.0.1:65020"
      codeVerifier := some "v1" }
    let c : Credentials := { accessToken := "A", refreshToken := "R" }
    let c' : Credentials := { accessToken := "B", refreshToken := "S" }
    let started := ({} : Vault).create (.bearer (.ofCredentials c))
    let started' := ({} : Vault).create (.bearer (.ofCredentials c'))
    QuotesAlike first second ∧
    (x.result first 7).map Credentials.told =
      ({ x with codeVerifier := some "v2" }.result second 7).map Credentials.told ∧
    ToldAlike first second (refreshOutcome first) (refreshOutcome second) ∧
    started.1.shown = started'.1.shown ∧
    (∃ w w',
      Flow.InRow Vault.step (Program.header started.1) started.2
        [(renewalLog "R" "A1", .header "Bearer" "A1")] w ∧
      Flow.InRow Vault.step (Program.header started'.1) started'.2
        [(renewalLog "S" "A2", .header "Bearer" "A2")] w' ∧
      TurnsAlike (renewalLog "R" "A1", .header "Bearer" "A1")
        (renewalLog "S" "A2", .header "Bearer" "A2")) ∧
    (TokenResponse.parse? (tokenBody "A1")).map (fun t => (t.shown, t.rejection?)) =
      (TokenResponse.parse? (tokenBody "A2")).map (fun t => (t.shown, t.rejection?)) ∧
    c.told = c'.told := by
  intro first second x c c' started started'
  obtain ⟨hexchange, hrefresh, hheader, hbody, hcredentials, -⟩ :=
    secrets_told_only_in_quoted_bodies {} {}
  have halike : AnswersAlike first second := .answered rfl bodiesAlike_tokenBody
  have hquotes : QuotesAlike first second := quotesAlike_of_success (by decide)
  have hc : c.Alike c' := ⟨rfl, rfl, by decide, rfl, rfl⟩
  have hlogs : LogsAlike (renewalLog "R" "A1") (renewalLog "S" "A2") := by
    refine ⟨by decide, ?_⟩
    rintro p hmem
    obtain rfl : p = (first, second) := List.mem_singleton.mp hmem
    exact halike
  obtain ⟨w, hrow⟩ := inRow_renewalLog (c := c) "A1" rfl (by decide) (by decide)
    (by decide +kernel)
  obtain ⟨w', hrow'⟩ := inRow_renewalLog (c := c') "A2" rfl (by decide) (by decide)
    (by decide +kernel)
  obtain ⟨-, hshown, hturns⟩ := hheader _ _ (.bearer hc)
  have hsaid := hturns (by decide) (by decide) _ _ w w' hrow hrow' (.cons hlogs .nil)
  exact ⟨hquotes,
    (hexchange first second 7 x (some "v2") _ _ halike (yields_exchange_iff.mpr rfl)
      (yields_exchange_iff.mpr rfl)).mpr hquotes,
    hrefresh first second 7 "" "" "R" "S" _ _ halike (yields_refresh_iff.mpr rfl)
      (yields_refresh_iff.mpr rfl),
    hshown, ⟨w, w', hrow, hrow', (List.forall₂_cons.mp hsaid).1⟩, hbody _ _ bodiesAlike_tokenBody,
    hcredentials c c' hc⟩

/-- A failure without an explanation of its own tells the token that stands in its body. -/
theorem token_in_failure_is_told :
    let failed (token : String) : Response := { status := 400, body := tokenBody token }
    let quoted (token : String) : String :=
      "token endpoint returned 400: \x7b\"access_token\":\"" ++ token ++ "\"\x7d"
    let x : CodeExchange := {
      tokenServer := "https://id.test/token"
      clientId := "abc"
      code := "xyz"
      redirectUri := "http://127.0.0.1:65020" }
    AnswersAlike (.ok (failed "A1")) (.ok (failed "A2")) ∧
    (∀ token ∈ ["A1", "A2"],
      Yields (refresh "https://id.test/token" "abc" "R1") {} (.ok (failed token)) 7
        (.rejected (quoted token)) ∧
      Yields (exchange x) {} (.ok (failed token)) 7 (.error (.exchangeRefused (quoted token)))) ∧
    (RefreshOutcome.rejected (quoted "A1")).shown ≠
      (RefreshOutcome.rejected (quoted "A2")).shown ∧
    (Error.exchangeRefused (quoted "A1")).message ≠
      (Error.exchangeRefused (quoted "A2")).message := by
  intro failed quoted x
  refine ⟨.answered rfl bodiesAlike_tokenBody, fun token hmem => ?_, by decide +kernel,
    by decide +kernel⟩
  have hreason : failureReason (failed token) = quoted token := by
    simp only [List.mem_cons, List.not_mem_nil, or_false] at hmem
    rcases hmem with rfl | rfl <;> decide +kernel
  obtain ⟨hrefresh, hexchange⟩ := outcomes_of_failed (r := failed token) rfl
  rw [hreason] at hrefresh hexchange
  refine ⟨yields_refresh_iff.mpr hrefresh.symm, yields_exchange_iff.mpr ?_⟩
  rw [CodeExchange.result, hexchange]
  rfl

end Sample

end AccountGate.Auth
