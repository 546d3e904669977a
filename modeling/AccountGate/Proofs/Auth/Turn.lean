import AccountGate.Auth.Session
import AccountGate.Proofs.Flow.Alone
import Mathlib.Tactic.Common

/-!
A bearer session as a machine over its two tokens, its lifetime and its time stamp. A turn is one
question for the header: what it asks of the outside, what it answers and what it leaves. Main
statements: an answer of the token server is either silence, a refusal or an acceptance; and after
any number of turns the tokens are the last that the server issued.
-/

namespace AccountGate.Auth

/-- The four fields of a session. It is over exactly when the access token is empty. -/
structure TokenSet where
  access : String
  refresh : String
  expiresIn : Int
  lastRefresh : Int
  deriving DecidableEq

abbrev Log := List (Exchange interface)

/-- The server refuses: no success, a body that does not decode, or an error that is not empty. -/
def Refuses (r : Response) : Prop :=
  ¬ (200 ≤ r.status ∧ r.status < 300) ∨ TokenResponse.parse? r.body = none ∨
    ∃ response error, TokenResponse.parse? r.body = some response ∧
      response.error = some error ∧ error ≠ ""

/-- The server accepts: a success whose body decodes and has no error, or an empty one. -/
structure Accepts (r : Response) (response : TokenResponse) : Prop where
  success : 200 ≤ r.status ∧ r.status < 300
  decoded : TokenResponse.parse? r.body = some response
  no_error : ∀ error, response.error = some error → error = ""

/-- A new value counts when it is there and not empty. -/
def orKept (old : String) : Option String → String
  | some new => if new = "" then old else new
  | none => old

/-- The request for new tokens; credentials are withheld from it. -/
def refreshRequest (clientId tokenServer refreshToken : String) : Outgoing where
  request := .postForm tokenServer [("grant_type", "refresh_token"), ("client_id", clientId),
    ("refresh_token", refreshToken)]
  suspended := true

namespace TokenSet

def ofCredentials (c : Credentials) : TokenSet :=
  ⟨c.accessToken, c.refreshToken, c.expiresIn, c.lastRefresh⟩

/-- The tokens as they are kept between two questions. -/
def tokens (t : TokenSet) : Tokens where
  access := ⟨t.access⟩
  refresh := ⟨t.refresh⟩
  expiresIn := t.expiresIn
  lastRefresh := t.lastRefresh
  status := if t.access.isEmpty then .expired else .valid

/-- A clock before 1970 reads as 0. -/
def Fresh (t : TokenSet) (clock : Int) : Prop := max 0 clock - t.lastRefresh + 5 < t.expiresIn

def refused (t : TokenSet) : TokenSet := { t with access := "" }

/-- What a response brings, before the time stamp. -/
def accepted (t : TokenSet) (response : TokenResponse) : TokenSet where
  access := orKept t.access response.accessToken
  refresh := orKept t.refresh response.refreshToken
  expiresIn := response.expiresIn.getD t.expiresIn
  lastRefresh := t.lastRefresh

def stamped (t : TokenSet) (clock : Int) : TokenSet := { t with lastRefresh := max 0 clock }

end TokenSet

section Exchanges

def read (clock : Int) : Exchange interface := ⟨.clock, clock⟩

def counted (counter : Counter) : Exchange interface := ⟨.count counter, ()⟩

def posted (clientId tokenServer refreshToken : String) (a : Answer) : Exchange interface :=
  ⟨.send (refreshRequest clientId tokenServer refreshToken), a⟩

end Exchanges

/-- One question for the header: its exchanges with the outside, its answer, and what it leaves. -/
inductive Turn (clientId tokenServer : String) : TokenSet → Log → Authorization → TokenSet → Prop
  | ended {t : TokenSet} : t.access = "" → Turn clientId tokenServer t [] .expired t
  | current {t : TokenSet} (clock : Int) : t.access ≠ "" → t.Fresh clock →
      Turn clientId tokenServer t [read clock] (.header "Bearer" t.access) t
  | unanswered {t : TokenSet} (clock : Int) (cause : TransportError) :
      t.access ≠ "" → ¬ t.Fresh clock →
      Turn clientId tokenServer t
        [read clock, posted clientId tokenServer t.refresh (.error cause),
          counted .refreshUnanswered]
        (.header "Bearer" t.access) t
  | refused {t : TokenSet} (clock : Int) (r : Response) :
      t.access ≠ "" → ¬ t.Fresh clock → Refuses r →
      Turn clientId tokenServer t
        [read clock, posted clientId tokenServer t.refresh (.ok r), counted .refreshRefused]
        .expired t.refused
  | accepted {t : TokenSet} (clock later : Int) (r : Response) (response : TokenResponse) :
      t.access ≠ "" → ¬ t.Fresh clock → Accepts r response →
      Turn clientId tokenServer t
        [read clock, posted clientId tokenServer t.refresh (.ok r), read later,
          counted .tokenRefreshed]
        (.header "Bearer" (t.accepted response).access) ((t.accepted response).stamped later)

/-- Turns one after another, each with its exchanges and its answer. -/
inductive Turns (clientId tokenServer : String) :
    TokenSet → List (Log × Authorization) → TokenSet → Prop
  | nil (t : TokenSet) : Turns clientId tokenServer t [] t
  | cons {t log a t' turns u} : Turn clientId tokenServer t log a t' →
      Turns clientId tokenServer t' turns u → Turns clientId tokenServer t ((log, a) :: turns) u

theorem filled_eq_none_iff {s : Option String} : filled s = none ↔ ∀ t, s = some t → t = "" := by
  cases s with
  | none => simp [filled]
  | some t => simp [filled, Option.filter_eq_none_iff]

theorem filled_eq_some_iff {s : Option String} {t : String} :
    filled s = some t ↔ s = some t ∧ t ≠ "" := by
  simp [filled, Option.filter_eq_some_iff]

theorem rejection?_eq_none_iff {response : TokenResponse} :
    response.rejection? = none ↔ ∀ error, response.error = some error → error = "" := by
  rw [← filled_eq_none_iff, TokenResponse.rejection?]
  cases filled response.error with
  | none => simp
  | some error => cases filled response.errorDescription <;> simp

theorem isSuccess_iff {r : Response} : r.isSuccess = true ↔ 200 ≤ r.status ∧ r.status < 300 := by
  simp [Response.isSuccess]

theorem refreshOutcome_eq_refreshed_iff {r : Response} {response : TokenResponse} :
    refreshOutcome (.ok r) = .refreshed response ↔ Accepts r response := by
  constructor
  · intro h
    unfold refreshOutcome at h
    dsimp only at h
    split at h
    · exact absurd h (by simp)
    · next hs =>
      split at h
      · exact absurd h (by simp)
      · next token hd =>
        split at h
        · exact absurd h (by simp)
        · next he =>
          obtain rfl := RefreshOutcome.refreshed.inj h
          exact ⟨isSuccess_iff.mp (by simpa using hs), hd, rejection?_eq_none_iff.mp he⟩
  · rintro ⟨hs, hd, he⟩
    simp [refreshOutcome, isSuccess_iff.mpr hs, hd, rejection?_eq_none_iff.mpr he]

/-- A response is refused exactly when it is not accepted. -/
theorem refuses_iff {r : Response} : Refuses r ↔ ∀ response, ¬ Accepts r response := by
  constructor
  · rintro (hs | hd | ⟨response, error, hd, he, hne⟩) response' h
    · exact hs h.success
    · rw [h.decoded] at hd
      exact absurd hd (by simp)
    · obtain rfl := Option.some.inj (hd.symm.trans h.decoded)
      exact hne (h.no_error error he)
  · intro h
    by_cases hs : 200 ≤ r.status ∧ r.status < 300
    · cases hd : TokenResponse.parse? r.body with
      | none => exact .inr (.inl hd)
      | some response =>
        have hsome : ¬ ∀ error, response.error = some error → error = "" :=
          fun he => h response ⟨hs, hd, he⟩
        push Not at hsome
        obtain ⟨error, he, hne⟩ := hsome
        exact .inr (.inr ⟨response, error, hd, he, hne⟩)
    · exact .inl hs

theorem refreshOutcome_ok_ne_unreachable (r : Response) (cause : TransportError) :
    refreshOutcome (.ok r) ≠ .unreachable cause := by
  unfold refreshOutcome
  dsimp only
  split
  · simp
  · split
    · simp
    · split <;> simp

theorem refuses_of_rejected {r : Response} {reason : String}
    (h : refreshOutcome (.ok r) = .rejected reason) : Refuses r := by
  rw [refuses_iff]
  intro response ha
  exact absurd (h.symm.trans (refreshOutcome_eq_refreshed_iff.mpr ha)) (by simp)

theorem rejected_of_refuses {r : Response} (h : Refuses r) :
    ∃ reason, refreshOutcome (.ok r) = .rejected reason := by
  cases ho : refreshOutcome (.ok r) with
  | refreshed response =>
    exact absurd (refreshOutcome_eq_refreshed_iff.mp ho) (refuses_iff.mp h response)
  | unreachable cause => exact absurd ho (refreshOutcome_ok_ne_unreachable r cause)
  | rejected reason => exact ⟨reason, rfl⟩

namespace TokenSet

variable {t : TokenSet} {clock : Int} {response : TokenResponse}

theorem status_tokens_eq_expired_iff : t.tokens.status = .expired ↔ t.access = "" := by
  simp [tokens]

theorem isFresh_tokens_iff : t.tokens.isFresh (max 0 clock) = true ↔ t.Fresh clock := by
  simp [Tokens.isFresh, tokens, Fresh, safetyMargin]

theorem orKept_eq (old : Secret) (new : Option String) :
    ((filled new).map old.replace).getD old = ⟨orKept old.value new⟩ := by
  cases new with
  | none => rfl
  | some s =>
    by_cases h : s = ""
    · subst h
      rfl
    · simp [filled, orKept, h, Secret.replace, Option.filter]

theorem accepted_access_ne (response : TokenResponse) (h : t.access ≠ "") :
    (t.accepted response).access ≠ "" := by
  simp only [accepted, orKept]
  split
  · split
    · exact h
    · assumption
  · exact h

theorem renewed_tokens (h : t.access ≠ "") :
    t.tokens.renewed response (max 0 clock) = ((t.accepted response).stamped clock).tokens := by
  have hne := accepted_access_ne response h
  simp only [Tokens.renewed, orKept_eq]
  simp [tokens, stamped, accepted] at hne ⊢
  simp [hne]

theorem kept_tokens (h : t.access ≠ "") : t.tokens.kept = t.tokens := by
  simp [Tokens.kept, tokens, h]

theorem refused_tokens : t.tokens.refused = t.refused.tokens := by
  simp [Tokens.refused, tokens, refused, Secret.clear, Secret.empty]

theorem answer_tokens_of_ended (h : t.access = "") : t.tokens.answer = .expired := by
  simp [Tokens.answer, tokens, h]

theorem answer_tokens_of_live (h : t.access ≠ "") :
    t.tokens.answer = .header "Bearer" t.access := by
  simp [Tokens.answer, Tokens.header, tokens, h]

theorem answer_tokens_of_accepted (h : t.access ≠ "") :
    ((t.accepted response).stamped clock).tokens.answer =
      .header "Bearer" (t.accepted response).access :=
  answer_tokens_of_live (t := (t.accepted response).stamped clock) (accepted_access_ne response h)

end TokenSet

/-- The reading of an exchange with the clock. -/
def clockOf : Exchange interface → Option Int
  | ⟨.clock, clock⟩ => some clock
  | _ => none

/-- The answer to a request. -/
def answerOf : Exchange interface → Option Answer
  | ⟨.send _, answer⟩ => some answer
  | _ => none

section Exchanges

variable (clientId tokenServer refreshToken : String)

@[simp] theorem clockOf_read (clock : Int) : clockOf (read clock) = some clock := rfl
@[simp] theorem clockOf_counted (counter : Counter) : clockOf (counted counter) = none := rfl
@[simp] theorem clockOf_posted (answer : Answer) :
    clockOf (posted clientId tokenServer refreshToken answer) = none := rfl
@[simp] theorem answerOf_read (clock : Int) : answerOf (read clock) = none := rfl
@[simp] theorem answerOf_counted (counter : Counter) : answerOf (counted counter) = none := rfl
@[simp] theorem answerOf_posted (answer : Answer) :
    answerOf (posted clientId tokenServer refreshToken answer) = some answer := rfl

end Exchanges

/-- The response that an answer accepts a refresh with. -/
def acceptedOf (answer : Answer) : Option TokenResponse :=
  match refreshOutcome answer with
  | .refreshed response => some response
  | _ => none

def acceptedIn (log : Log) : List TokenResponse := (log.filterMap answerOf).filterMap acceptedOf

/-- The last value that is there and not empty, or else the first one. -/
def lastIssued (first : String) (values : List (Option String)) : String :=
  (values.filterMap filled).getLast?.getD first

theorem lastIssued_append (first : String) (xs ys : List (Option String)) :
    lastIssued first (xs ++ ys) = lastIssued (lastIssued first xs) ys := by
  simp only [lastIssued, List.filterMap_append, List.getLast?_append]
  cases (ys.filterMap filled).getLast? <;> rfl

theorem lastIssued_singleton (first : String) (value : Option String) :
    lastIssued first [value] = orKept first value := by
  cases value with
  | none => rfl
  | some s =>
    by_cases h : s = ""
    · subst h
      rfl
    · simp [lastIssued, filled, orKept, h, Option.filter]

theorem acceptedIn_append (xs ys : Log) :
    acceptedIn (xs ++ ys) = acceptedIn xs ++ acceptedIn ys := by
  simp [acceptedIn]

/-- The tokens are those issued last; a session that is over has no access token. -/
structure Issued (first : TokenSet) (responses : List TokenResponse) (t : TokenSet) : Prop where
  refresh_eq : t.refresh = lastIssued first.refresh (responses.map TokenResponse.refreshToken)
  access_eq : t.access ≠ "" →
    t.access = lastIssued first.access (responses.map TokenResponse.accessToken)

namespace Issued

variable {first t : TokenSet} {responses : List TokenResponse}

theorem start (t : TokenSet) : Issued t [] t := ⟨rfl, fun _ => rfl⟩

theorem refused (h : Issued first responses t) : Issued first responses t.refused :=
  ⟨h.refresh_eq, fun hne => absurd rfl hne⟩

theorem stamped (h : Issued first responses t) (clock : Int) :
    Issued first responses (t.stamped clock) :=
  ⟨h.refresh_eq, h.access_eq⟩

theorem accepted (h : Issued first responses t) (response : TokenResponse) :
    Issued first (responses ++ [response]) (t.accepted response) := by
  constructor
  · rw [List.map_append, List.map_singleton, lastIssued_append, lastIssued_singleton,
      ← h.refresh_eq]
    rfl
  · intro hne
    rw [List.map_append, List.map_singleton, lastIssued_append, lastIssued_singleton]
    change orKept t.access response.accessToken = _
    by_cases hold : t.access = ""
    · -- A new token came, or there would be none now.
      have hnew : orKept t.access response.accessToken ≠ "" := hne
      rw [hold] at hnew ⊢
      unfold orKept at hnew ⊢
      split <;> simp_all
    · rw [← h.access_eq hold]

end Issued

/-- What a turn leaves are the tokens issued last. -/
theorem Turn.issued {clientId tokenServer : String} {first t t' : TokenSet} {log : Log}
    {a : Authorization} {responses : List TokenResponse} (h : Turn clientId tokenServer t log a t')
    (ht : Issued first responses t) : Issued first (responses ++ acceptedIn log) t' := by
  have hnone : ∀ {xs : Log}, acceptedIn xs = [] → responses ++ acceptedIn xs = responses := by
    intro xs hxs
    rw [hxs, List.append_nil]
  cases h with
  | ended _ =>
    rw [hnone rfl]
    exact ht
  | current clock _ hf =>
    rw [hnone rfl]
    exact ht
  | unanswered clock cause _ hf =>
    rw [hnone rfl]
    exact ht
  | refused clock r _ hf hr =>
    obtain ⟨reason, ho⟩ := rejected_of_refuses hr
    rw [hnone (by simp [acceptedIn, List.filterMap_cons, acceptedOf, ho])]
    exact ht.refused
  | accepted clock later r response _ hf hr =>
    have ho := refreshOutcome_eq_refreshed_iff.mpr hr
    have hone : acceptedIn [read clock, posted clientId tokenServer t.refresh (.ok r), read later,
        counted .tokenRefreshed] = [response] := by
      simp [acceptedIn, List.filterMap_cons, acceptedOf, ho]
    rw [hone]
    exact (ht.accepted response).stamped later

/-- All exchanges of some turns. -/
def exchanges (turns : List (Log × Authorization)) : Log := turns.flatMap Prod.fst

theorem Turns.issued {clientId tokenServer : String} {first t t' : TokenSet}
    {turns : List (Log × Authorization)} {responses : List TokenResponse}
    (h : Turns clientId tokenServer t turns t') (ht : Issued first responses t) :
    Issued first (responses ++ acceptedIn (exchanges turns)) t' := by
  induction h generalizing responses with
  | nil t => simpa [exchanges, acceptedIn] using ht
  | @cons t log a middle turns u hturn hturns ih =>
    have hlog : exchanges ((log, a) :: turns) = log ++ exchanges turns := rfl
    rw [hlog, acceptedIn_append, ← List.append_assoc]
    exact ih (hturn.issued ht)

section Found

variable {clientId tokenServer : String} {t t' : TokenSet} {log : Log} {a : Authorization}

/-- A turn that finds the session over. -/
theorem Turn.of_ended (h : Turn clientId tokenServer t log a t') (ht : t.access = "") :
    log = [] ∧ a = .expired := by
  cases h with
  | ended _ => exact ⟨rfl, rfl⟩
  | current _ hne _ => exact absurd ht hne
  | unanswered _ _ hne _ => exact absurd ht hne
  | refused _ _ hne _ _ => exact absurd ht hne
  | accepted _ _ _ _ hne _ _ => exact absurd ht hne

/-- A turn that finds the tokens fresh. -/
theorem Turn.of_fresh {clock : Int} (h : Turn clientId tokenServer t (read clock :: log) a t')
    (hf : t.Fresh clock) : log = [] ∧ a = .header "Bearer" t.access ∧ t.access ≠ "" := by
  generalize hlog : read clock :: log = whole at h
  have hread {clock' : Int} {more : Log} (heq : read clock :: log = read clock' :: more) :
      t.Fresh clock' := by
    -- The clock is read first, and only once before the tokens are judged.
    have hclock := congrArg (fun l : Log => l.head?.bind clockOf) heq
    obtain rfl : clock = clock' := Option.some.inj hclock
    exact hf
  cases h with
  | ended _ => exact absurd hlog (by simp)
  | current clock' hne _ => exact ⟨(List.cons.inj hlog).2, rfl, hne⟩
  | unanswered _ _ _ hstale => exact absurd (hread hlog) hstale
  | refused _ _ _ hstale _ => exact absurd (hread hlog) hstale
  | accepted _ _ _ _ _ hstale _ => exact absurd (hread hlog) hstale

end Found

/-- Whatever the clock says and the server answers, a turn follows. -/
theorem exists_turn (clientId tokenServer : String) (t : TokenSet) (clock later : Int)
    (answer : Answer) : ∃ log a t', Turn clientId tokenServer t log a t' ∧
      log.filterMap clockOf <+: [clock, later] ∧ log.filterMap answerOf <+: [answer] := by
  by_cases ht : t.access = ""
  · exact ⟨_, _, _, .ended ht, by simp, by simp⟩
  · by_cases hf : t.Fresh clock
    · exact ⟨_, _, _, .current clock ht hf, by simp,
        by simp [List.filterMap_cons]⟩
    · cases answer with
      | error cause => exact ⟨_, _, _, .unanswered clock cause ht hf, by simp [List.filterMap_cons],
          by simp [List.filterMap_cons]⟩
      | ok r =>
        by_cases hr : Refuses r
        · exact ⟨_, _, _, .refused clock r ht hf hr, by simp [List.filterMap_cons],
            by simp [List.filterMap_cons]⟩
        · have hsome : ∃ response, Accepts r response := by
            by_contra hnone
            exact hr (refuses_iff.mpr fun response ha => hnone ⟨response, ha⟩)
          obtain ⟨response, ha⟩ := hsome
          exact ⟨_, _, _, .accepted clock later r response ht hf ha, by simp [List.filterMap_cons],
            by simp [List.filterMap_cons]⟩

end AccountGate.Auth
