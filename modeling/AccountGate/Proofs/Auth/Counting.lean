import AccountGate.Proofs.Auth.Requests
import AccountGate.Proofs.Flow.Conduct

/-!
How refreshes are counted. Main statement: whatever is asked of the registry, the tokens and the
service, each request for new tokens is counted once, by what came of it and before another goes
out, and nothing else is counted.
-/

namespace AccountGate

/-- How a refresh ended is counted so. -/
def Counter.isOfRefresh : Counter → Bool
  | .tokenRefreshed => true
  | .refreshUnanswered => true
  | .refreshRefused => true
  | .verification _ => false
  | .login _ => false

namespace Auth

open Program AccountGate.Flow
open Conduct (leads_of_makes)

/-- A form for new tokens, from which credentials are withheld. -/
def Outgoing.isRefresh (o : Outgoing) : Bool :=
  o.suspended && match o.request.payload with
    | .form fields => fields.lookup "grant_type" == some "refresh_token"
    | .plain _ _ => false

/-- The counter of a refresh that came to an answer. -/
def refreshCounter (answer : Answer) : Counter := counterOf (refreshOutcome answer)

theorem isOfRefresh_refreshCounter (answer : Answer) : (refreshCounter answer).isOfRefresh = true := by
  rw [refreshCounter]
  cases refreshOutcome answer <;> rfl

/-- The answer to a request for new tokens. -/
def refreshAnswer? : Exchange interface → Option Answer
  | ⟨.send o, answer⟩ => if o.isRefresh then some answer else none
  | _ => none

def counter? : Exchange interface → Option Counter
  | ⟨.count counter, _⟩ => some counter
  | _ => none

/-- The answers to requests for new tokens. -/
def refreshAnswers (xs : List (Exchange interface)) : List Answer := xs.filterMap refreshAnswer?

def countsIn (xs : List (Exchange interface)) : List Counter := xs.filterMap counter?

theorem refreshAnswers_cons (x : Exchange interface) (xs : List (Exchange interface)) :
    refreshAnswers (x :: xs) = (refreshAnswer? x).toList ++ refreshAnswers xs := by
  rw [refreshAnswers, List.filterMap_cons]
  cases refreshAnswer? x <;> rfl

theorem countsIn_cons (x : Exchange interface) (xs : List (Exchange interface)) :
    countsIn (x :: xs) = (counter? x).toList ++ countsIn xs := by
  rw [countsIn, List.filterMap_cons]
  cases counter? x <;> rfl

/-- Who has heard from the token server counts that before anything else is counted or sent. A
program stands where a refresh has been answered and not been counted yet, or where none has. -/
def counting : Conduct interface where
  Stage := Option Answer
  Allows
    | none, .count _ => False
    | some answer, .count counter => counter = refreshCounter answer
    | some _, .send _ => False
    | _, _ => True
  Expects _ c := match c with
    | .suspended => fun suspended => suspended = false
    | _ => fun _ => True
  after
    | none, .send o, answer => if o.isRefresh then some answer else none
    | some _, .count _, _ => none
    | due, _, _ => due

/-- A program that leaves no refresh uncounted. -/
def Counts {α : Type} (p : Program α) : Prop := counting.Leads (fun _ due => due = none) none p

variable {α β : Type}

theorem counts_done (a : α) : Counts (.done a) := rfl

theorem Counts.bind {p : Program α} {f : α → Program β} (hp : Counts p) (hf : ∀ a, Counts (f a)) :
    Counts (Flow.bind p f) := by
  apply Conduct.Leads.bind hp
  intro a due hdue
  rw [hdue]
  exact hf a

/-- What one exchange brings to be counted, with what was due before it, is what it counts, with what
is due after it. -/
theorem balance {due : Option Answer} {c : Call} (r : Reply c) (h : counting.Allows due c) :
    (due.map refreshCounter).toList ++ ((refreshAnswer? ⟨c, r⟩).map refreshCounter).toList =
      (counter? ⟨c, r⟩).toList ++ ((counting.after due c r).map refreshCounter).toList := by
  cases due with
  | none =>
    cases c with
    | count counter => exact h.elim
    | _ => rfl
  | some answer =>
    cases c with
    | count counter =>
      obtain rfl : counter = refreshCounter answer := h
      rfl
    | send o => exact h.elim
    | _ => rfl

/-- Along every path the books are balanced. -/
theorem balance_of_path {Q : α → Option Answer → Prop} {due : Option Answer} {p q : Program α}
    {xs : List (Exchange interface)} (h : counting.Leads Q due p) (hpath : Path p xs q)
    (hopen : ∀ suspended, ⟨.suspended, suspended⟩ ∈ xs → suspended = false) :
    ∃ due', (due.map refreshCounter).toList ++ (refreshAnswers xs).map refreshCounter =
      countsIn xs ++ (due'.map refreshCounter).toList ∧ counting.Leads Q due' q := by
  induction hpath generalizing due with
  | nil p => exact ⟨due, by simp [refreshAnswers, countsIn], h⟩
  | @cons c next rest q r _ ih =>
    have hexpects : counting.Expects due c r := by
      cases c with
      | suspended => exact hopen r List.mem_cons_self
      | _ => trivial
    obtain ⟨due', hrest, hleads⟩ := ih (h.2 r hexpects)
      fun suspended hmem => hopen suspended (List.mem_cons_of_mem _ hmem)
    refine ⟨due', ?_, hleads⟩
    rw [refreshAnswers_cons, countsIn_cons, List.map_append, ← List.append_assoc, List.append_assoc _ _
      (due'.map refreshCounter).toList, ← hrest, ← List.append_assoc, ← balance r h.1]
    cases refreshAnswer? (⟨c, r⟩ : Exchange interface) <;> rfl

/-- A call that neither asks for new tokens nor counts. -/
def Call.IsPlain : Call → Prop
  | .send o => o.isRefresh = false
  | .count _ => False
  | _ => True

theorem counts_of_makes {p : Program α} (h : Makes Call.IsPlain p) : Counts p := by
  apply leads_of_makes (k := counting)
  apply h.mono
  intro c hc
  cases c with
  | send o =>
    have hplain : o.isRefresh = false := hc
    exact ⟨trivial, fun answer => if_neg (by simp [hplain])⟩
  | count counter => exact hc.elim
  | _ => exact ⟨trivial, fun _ => rfl⟩

theorem isRefresh_refreshRequest (clientId tokenServer refreshToken : String) :
    (refreshRequest clientId tokenServer refreshToken).isRefresh = true := by
  simp [Outgoing.isRefresh, refreshRequest, Request.postForm]

theorem isRefresh_exchangeRequest (x : CodeExchange) : (exchangeRequest x).isRefresh = false := by
  simp [Outgoing.isRefresh, exchangeRequest, Request.postForm, CodeExchange.fields]

theorem isRefresh_revokeRequest (logoutUrl clientId refreshToken : String) :
    (revokeRequest logoutUrl clientId refreshToken).isRefresh = false := by
  simp [Outgoing.isRefresh, revokeRequest, Request.postForm, List.lookup_cons]

/-- Once the token server has answered, the refresh is due to be counted. -/
theorem after_refresh {o : Outgoing} (h : o.isRefresh = true) (answer : Answer) :
    counting.after none (.send o) answer = some answer := by
  change (if o.isRefresh = true then some answer else none : Option Answer) = some answer
  rw [if_pos h]

section Header

theorem leads_leave_counting (id : Nat) (a : Authorization) :
    counting.Leads (fun _ due => due = none) none (leave id a) :=
  ⟨trivial, fun _ _ => rfl⟩

theorem leads_finish_counting (id : Nat) (t : Tokens) (answer : Answer) :
    counting.Leads (fun _ due => due = none) (some answer) (finish id t (refreshCounter answer)) :=
  ⟨trivial, fun _ _ => ⟨rfl, fun _ _ => leads_leave_counting id t.answer⟩⟩

/-- However a refresh ends, it is counted so. -/
theorem leads_settled_counting (id : Nat) (t : Tokens) (answer : Answer) :
    counting.Leads (fun _ due => due = none) (some answer)
      ((settled t (refreshOutcome answer)).bind fun t' =>
        finish id t' (counterOf (refreshOutcome answer))) := by
  have hfinish (t' : Tokens) := leads_finish_counting id t' answer
  rw [refreshCounter] at hfinish
  cases houtcome : refreshOutcome answer with
  | refreshed response =>
    rw [houtcome] at hfinish
    exact ⟨trivial, fun later _ => hfinish _⟩
  | unreachable cause =>
    rw [houtcome] at hfinish
    exact hfinish _
  | rejected reason =>
    rw [houtcome] at hfinish
    exact hfinish _

theorem counts_bearerHeader (id : Nat) (clientId tokenServer : String) :
    Counts (bearerHeader id clientId tokenServer) := by
  rw [bearerHeader_eq]
  refine ⟨trivial, fun t _ => ?_⟩
  change Counts (ite _ _ _)
  split
  · exact leads_leave_counting id t.answer
  · refine ⟨trivial, fun clock _ => ?_⟩
    change Counts (ite _ _ _)
    split
    · exact leads_leave_counting id t.answer
    · refine ⟨trivial, fun _ _ => ⟨trivial, fun answer _ => ?_⟩⟩
      have hrefresh := isRefresh_refreshRequest clientId tokenServer t.refresh.value
      change counting.Leads _ (counting.after none (.send _) answer) _
      rw [after_refresh hrefresh]
      exact leads_settled_counting id t answer

theorem counts_header (handle : Handle) : Counts (header handle) := by
  cases handle with
  | basic id encoded => exact counts_done _
  | bearer id clientId tokenServer => exact counts_bearerHeader id clientId tokenServer

end Header

theorem plain_tokens (id : Nat) : Makes Call.IsPlain (tokens id) := makes_tokens_of trivial trivial

theorem plain_propertiesFor (url : String) : Makes Call.IsPlain (propertiesFor url) :=
  makes_propertiesFor_of trivial plain_tokens

theorem plain_register (starts : List String) (strategy : Strategy) :
    Makes Call.IsPlain (register starts strategy) :=
  makes_register_of trivial fun _ => trivial

theorem plain_exchange (x : CodeExchange) : Makes Call.IsPlain (exchange x) :=
  makes_exchange_of (isRefresh_exchangeRequest x) trivial

theorem counts_resolve (url : String) : Counts (resolve url) := by
  refine ⟨trivial, fun found _ => ?_⟩
  cases found with
  | none => exact counts_done _
  | some handle => exact counts_header handle

/-- A request of a host is no request for new tokens, whatever it carries. -/
theorem counts_fetchAuthorized (request : Request) : Counts (fetchAuthorized request) := by
  have hsend (o : Outgoing) (hopen : o.suspended = false) :
      Counts (.ask (I := interface) (.send o) .done) := by
    apply counts_of_makes
    exact ⟨by simp [Call.IsPlain, Outgoing.isRefresh, hopen], fun _ => trivial⟩
  cases hown : request.hasAuthorization with
  | true =>
    rw [fetchAuthorized_eq_of_own hown]
    refine ⟨trivial, fun suspended hsuspended => ?_⟩
    exact hsend _ hsuspended
  | false =>
    rw [fetchAuthorized_eq hown]
    refine ⟨trivial, fun suspended hsuspended => ?_⟩
    obtain rfl : suspended = false := hsuspended
    exact (counts_resolve request.url).bind fun a => hsend _ rfl

/-- What a host or an account asks of the registry, the tokens and the service. -/
inductive Errand : {β : Type} → Program β → Prop
  | header (handle : Handle) : Errand (Program.header handle)
  | properties (handle : Handle) : Errand (Program.properties handle)
  | resolve (url : String) : Errand (Program.resolve url)
  | propertiesFor (url : String) : Errand (Program.propertiesFor url)
  | status (url : String) : Errand (Program.status url)
  | register (starts : List String) (strategy : Strategy) :
      Errand (Program.register starts strategy)
  | exchange (x : CodeExchange) : Errand (Program.exchange x)
  | exchangeAndRegister (starts : List String) (x : CodeExchange) :
      Errand (Program.exchangeAndRegister starts x)
  | unregister (start : String) (logoutUrl : Option String) :
      Errand (Program.unregister start logoutUrl)
  | fetch (request : Request) : Errand (Program.fetchAuthorized request)
  /-- A try whether the service is there. -/
  | head (url : String) : Errand (Program.fetchAuthorized (.head url)).withoutAuth

/-- All of them count the refreshes that they make, and count nothing else. -/
theorem Errand.counts {p : Program β} (h : Errand p) : Counts p := by
  cases h with
  | header handle => exact counts_header handle
  | properties handle => exact counts_of_makes (makes_properties_of plain_tokens handle)
  | resolve url => exact counts_resolve url
  | propertiesFor url => exact counts_of_makes (plain_propertiesFor url)
  | status url => exact counts_of_makes (makes_status_of trivial plain_tokens)
  | register starts strategy => exact counts_of_makes (plain_register starts strategy)
  | exchange x => exact counts_of_makes (plain_exchange x)
  | exchangeAndRegister starts x =>
    exact counts_of_makes (makes_exchangeAndRegister_of (plain_exchange x) (plain_register starts))
  | unregister start logoutUrl =>
    apply counts_of_makes
    exact makes_unregister_of trivial plain_tokens isRefresh_revokeRequest logoutUrl
  | fetch request => exact counts_fetchAuthorized request
  | head url =>
    apply counts_of_makes
    exact ⟨by simp [Call.IsPlain, Outgoing.isRefresh, Request.head], fun _ => trivial⟩

section Path

variable {xs : List (Exchange interface)} {a : Authorization}

theorem counts_of_leave {id : Nat} {b : Authorization} (h : Path (leave id b) xs (.done a)) :
    refreshAnswers xs = [] ∧ countsIn xs = [] := by
  obtain ⟨_, rest, rfl, hrest⟩ := path_ask_done_iff.mp h
  obtain ⟨rfl, -⟩ := path_done_iff.mp hrest
  exact ⟨rfl, rfl⟩

theorem counts_of_finish {id : Nat} {t : Tokens} {counter : Counter}
    (h : Path (finish id t counter) xs (.done a)) :
    refreshAnswers xs = [] ∧ countsIn xs = [counter] := by
  obtain ⟨_, rest, rfl, hrest⟩ := path_ask_done_iff.mp h
  obtain ⟨_, rest, rfl, hleave⟩ := path_ask_done_iff.mp hrest
  obtain ⟨hanswers, hcounts⟩ := counts_of_leave hleave
  exact ⟨hanswers, congrArg (List.cons counter) hcounts⟩

theorem counts_of_settled {id : Nat} {t : Tokens} {outcome : RefreshOutcome} {counter : Counter}
    (h : Path ((settled t outcome).bind fun t' => finish id t' counter) xs (.done a)) :
    refreshAnswers xs = [] ∧ countsIn xs = [counter] := by
  cases outcome with
  | refreshed response =>
    obtain ⟨later, rest, rfl, hrest⟩ := path_ask_done_iff.mp h
    obtain ⟨hanswers, hcounts⟩ := counts_of_finish hrest
    exact ⟨hanswers, hcounts⟩
  | unreachable cause => exact counts_of_finish h
  | rejected reason => exact counts_of_finish h

/-- A question for the header asks for new tokens once at most, and counts what came of it. -/
theorem counts_of_header {handle : Handle} (h : Path (header handle) xs (.done a)) :
    ∃ answer : Option Answer, refreshAnswers xs = answer.toList ∧
      countsIn xs = (answer.map refreshCounter).toList := by
  cases handle with
  | basic id encoded =>
    obtain ⟨rfl, -⟩ := path_done_iff.mp h
    exact ⟨none, rfl, rfl⟩
  | bearer id clientId tokenServer =>
    rw [header, bearerHeader_eq] at h
    obtain ⟨t, rest, rfl, hread⟩ := path_ask_done_iff.mp h
    split at hread
    · obtain ⟨hanswers, hcounts⟩ := counts_of_leave hread
      exact ⟨none, hanswers, hcounts⟩
    · obtain ⟨clock, rest, rfl, hclock⟩ := path_ask_done_iff.mp hread
      split at hclock
      · obtain ⟨hanswers, hcounts⟩ := counts_of_leave hclock
        exact ⟨none, hanswers, hcounts⟩
      · obtain ⟨_, rest, rfl, hmarked⟩ := path_ask_done_iff.mp hclock
        obtain ⟨answer, rest, rfl, hsent⟩ := path_ask_done_iff.mp hmarked
        obtain ⟨hanswers, hcounts⟩ := counts_of_settled hsent
        refine ⟨some answer, ?_, hcounts⟩
        change refreshAnswers (⟨.send _, answer⟩ :: rest) = [answer]
        rw [refreshAnswers_cons, hanswers, refreshAnswer?,
          if_pos (isRefresh_refreshRequest clientId tokenServer t.refresh.value)]
        rfl

end Path

end Auth

end AccountGate
