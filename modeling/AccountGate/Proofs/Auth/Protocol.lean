import AccountGate.Auth.Store
import AccountGate.Proofs.Auth.Header

/-!
What a program may do to a session that others share. A program that does not hold the tokens leaves
them alone; one that holds them reads the clock, marks them, sends the one request, reads the clock
again when new tokens came, puts the tokens and lets go. Main statement: all operations of the
store keep to this.
-/

namespace AccountGate.Auth

open Program

/-- Where a program stands with a session: it holds no tokens, or it holds these. -/
inductive Stage where
  | free
  | read (t : TokenSet)
  | marked (t : TokenSet)
  | unstamped (t : TokenSet)
  | settled (t : TokenSet)
  | put (t : TokenSet)

def TokenSet.ofTokens (t : Tokens) : TokenSet :=
  ⟨t.access.value, t.refresh.value, t.expiresIn, t.lastRefresh⟩

theorem TokenSet.ofTokens_tokens (t : TokenSet) : ofTokens t.tokens = t := rfl

/-- A handle with the number of the session is the one that the session was given. -/
def IsShared (id : Nat) (clientId tokenServer : String) (handle : Handle) : Prop :=
  handle.id = id → handle = .bearer id clientId tokenServer

section Protocol

variable (id : Nat) (clientId tokenServer : String)

/-- The calls that a program may make where it stands. -/
def Stage.Allows : Stage → Call → Prop
  | .free, .update other _ => other ≠ id
  | .free, .release other => other ≠ id
  | .free, .enrol _ handle => IsShared id clientId tokenServer handle
  | .free, _ => True
  | .read _, .clock => True
  | .read _, .release other => other = id
  | .read t, .update other tokens =>
    other = id ∧ t.access ≠ "" ∧ tokens = { t.tokens with status := .refreshing }
  | .marked t, .send o => o = refreshRequest clientId tokenServer t.refresh
  | .unstamped _, .clock => True
  | .settled t, .update other tokens => other = id ∧ tokens = t.tokens
  | .put _, .count _ => True
  | .put _, .release other => other = id
  | _, _ => False

/-- The replies that can come to a program that does not hold the tokens. -/
def Expected : (c : Call) → Reply c → Prop
  | .acquire other, tokens => other = id → tokens = (TokenSet.ofTokens tokens).tokens
  | .find _, found => ∀ handle ∈ found, IsShared id clientId tokenServer handle
  | .remove _, found => ∀ handle ∈ found, IsShared id clientId tokenServer handle
  | .create _, handle => handle.id ≠ id
  | _, _ => True

/-- The tokens after the answer to a refresh. -/
def Stage.afterAnswer (t : TokenSet) (answer : Answer) : Stage :=
  match refreshOutcome answer with
  | .refreshed response => .unstamped (t.accepted response)
  | .unreachable _ => .settled t
  | .rejected _ => .settled t.refused

/-- Where a program stands after a call. -/
def Stage.after : Stage → (c : Call) → Reply c → Stage
  | .free, .acquire other, tokens => if other = id then .read (.ofTokens tokens) else .free
  | .read t, .update _ _, _ => .marked t
  | .read _, .release _, _ => .free
  | .marked t, .send _, answer => afterAnswer t answer
  | .unstamped t, .clock, clock => .settled (t.stamped clock)
  | .settled t, .update _ _, _ => .put t
  | .put _, .release _, _ => .free
  | stage, _, _ => stage

/-- A program that keeps to the protocol from where it stands, and ends without the tokens. -/
def Obeys {α : Type} : Stage → Program α → Prop
  | stage, .done _ => stage = .free
  | stage, .ask c next => stage.Allows id clientId tokenServer c ∧
      ∀ r, (stage = .free → Expected id clientId tokenServer c r) →
        Obeys (stage.after id c r) (next r)

end Protocol

variable {id : Nat} {clientId tokenServer : String} {α β : Type}

theorem Obeys.bind {stage : Stage} {p : Program α} {f : α → Program β}
    (hp : Obeys id clientId tokenServer stage p)
    (hf : ∀ a, Obeys id clientId tokenServer .free (f a)) :
    Obeys id clientId tokenServer stage (Flow.bind p f) := by
  induction p generalizing stage with
  | done a =>
    have hstage : stage = .free := hp
    subst hstage
    exact hf a
  | ask c next ih =>
    obtain ⟨hallow, hnext⟩ := hp
    exact ⟨hallow, fun r hr => ih r (hnext r hr)⟩

theorem obeys_done (a : α) : Obeys id clientId tokenServer .free (.done a) := rfl

/-- A call that does not take the tokens of the session. -/
theorem obeys_ask {c : Call} {next : Reply c → Program α}
    (hallow : Stage.free.Allows id clientId tokenServer c)
    (hafter : ∀ r, Stage.free.after id c r = .free)
    (hnext : ∀ r, Expected id clientId tokenServer c r →
      Obeys id clientId tokenServer .free (next r)) :
    Obeys id clientId tokenServer .free (.ask c next) := by
  refine ⟨hallow, fun r hr => ?_⟩
  rw [hafter r]
  exact hnext r (hr rfl)

theorem obeys_leave_of_read (t : TokenSet) (a : Authorization) :
    Obeys id clientId tokenServer (.read t) (leave id a) :=
  ⟨rfl, fun _ _ => rfl⟩

theorem obeys_finish (t : TokenSet) (counter : Counter) :
    Obeys id clientId tokenServer (.settled t) (finish id t.tokens counter) :=
  ⟨⟨rfl, rfl⟩, fun _ _ => ⟨trivial, fun _ _ => ⟨rfl, fun _ _ => rfl⟩⟩⟩

/-- What follows the answer to a refresh. -/
theorem obeys_settled {t : TokenSet} (ht : t.access ≠ "") (answer : Answer) :
    Obeys id clientId tokenServer (.afterAnswer t answer)
      ((settled t.tokens (refreshOutcome answer)).bind fun t' =>
        finish id t' (counterOf (refreshOutcome answer))) := by
  unfold Stage.afterAnswer
  cases ho : refreshOutcome answer with
  | refreshed response =>
    refine ⟨trivial, fun later _ => ?_⟩
    show Obeys id clientId tokenServer (.settled ((t.accepted response).stamped later))
      (finish id (t.tokens.renewed response (max 0 later)) _)
    rw [TokenSet.renewed_tokens ht]
    exact obeys_finish _ _
  | unreachable cause =>
    show Obeys id clientId tokenServer (.settled t) (finish id t.tokens.kept _)
    rw [TokenSet.kept_tokens ht]
    exact obeys_finish _ _
  | rejected reason =>
    show Obeys id clientId tokenServer (.settled t.refused) (finish id t.tokens.refused _)
    rw [TokenSet.refused_tokens]
    exact obeys_finish _ _

theorem obeys_bearerHeader_self :
    Obeys id clientId tokenServer .free (bearerHeader id clientId tokenServer) := by
  rw [bearerHeader_eq]
  refine ⟨trivial, fun tokens htokens => ?_⟩
  have hread : Stage.free.after id (.acquire id) tokens = .read (.ofTokens tokens) := if_pos rfl
  rw [hread, htokens rfl rfl, TokenSet.ofTokens_tokens]
  generalize TokenSet.ofTokens tokens = t
  beta_reduce
  by_cases ht : t.access = ""
  · rw [if_pos (TokenSet.status_tokens_eq_expired_iff.mpr ht)]
    exact obeys_leave_of_read t _
  · rw [if_neg (mt TokenSet.status_tokens_eq_expired_iff.mp ht)]
    refine ⟨trivial, fun clock _ => ?_⟩
    beta_reduce
    by_cases hf : t.tokens.isFresh (max 0 clock) = true
    · rw [if_pos hf]
      exact obeys_leave_of_read t _
    · rw [if_neg hf]
      exact ⟨⟨rfl, ht, rfl⟩, fun _ _ => ⟨rfl, fun answer _ => obeys_settled ht answer⟩⟩

/-- A program that works on another session. -/
theorem obeys_bearerHeader_of_ne {other : Nat} (hne : other ≠ id) (client server : String) :
    Obeys id clientId tokenServer .free (bearerHeader other client server) := by
  have hleave : ∀ a, Obeys id clientId tokenServer .free (leave other a) :=
    fun a => obeys_ask hne (fun _ => rfl) fun _ _ => obeys_done a
  have hfinish : ∀ t counter, Obeys id clientId tokenServer .free (finish other t counter) := by
    intro t counter
    refine obeys_ask hne (fun _ => rfl) fun _ _ => ?_
    exact obeys_ask trivial (fun _ => rfl) fun _ _ => hleave _
  have hsettled : ∀ t outcome, Obeys id clientId tokenServer .free (settled t outcome) := by
    intro t outcome
    cases outcome with
    | refreshed response => exact obeys_ask trivial (fun _ => rfl) fun _ _ => obeys_done _
    | unreachable cause => exact obeys_done _
    | rejected reason => exact obeys_done _
  rw [bearerHeader_eq]
  refine obeys_ask trivial (fun _ => if_neg hne) fun t _ => ?_
  split
  · exact hleave _
  · refine obeys_ask trivial (fun _ => rfl) fun clock _ => ?_
    split
    · exact hleave _
    · refine obeys_ask hne (fun _ => rfl) fun _ _ => ?_
      refine obeys_ask trivial (fun _ => rfl) fun answer _ => ?_
      exact (hsettled t _).bind fun t' => hfinish t' _

theorem obeys_header {handle : Handle} (h : IsShared id clientId tokenServer handle) :
    Obeys id clientId tokenServer .free (header handle) := by
  cases handle with
  | basic other encoded => exact obeys_done _
  | bearer other client server =>
    by_cases hne : other = id
    · obtain ⟨rfl, rfl, rfl⟩ := Handle.bearer.inj (h hne)
      exact obeys_bearerHeader_self
    · exact obeys_bearerHeader_of_ne hne client server

/-- Tokens that are only looked at. -/
theorem obeys_tokens (other : Nat) : Obeys id clientId tokenServer .free (tokens other) := by
  by_cases hne : other = id
  · subst hne
    refine ⟨trivial, fun t _ => ?_⟩
    have hread : Stage.free.after other (.acquire other) t = .read (.ofTokens t) := if_pos rfl
    rw [hread]
    exact ⟨rfl, fun _ _ => rfl⟩
  · refine obeys_ask trivial (fun _ => if_neg hne) fun t _ => ?_
    exact obeys_ask hne (fun _ => rfl) fun _ _ => obeys_done t

theorem obeys_properties (handle : Handle) :
    Obeys id clientId tokenServer .free (properties handle) := by
  cases handle with
  | basic other encoded => exact obeys_done _
  | bearer other client server => exact (obeys_tokens other).bind fun _ => obeys_done _

/-- What a host may ask of the store; `header` and `properties` of strategies taken out before. -/
inductive Operation where
  | header (handle : Handle)
  | properties (handle : Handle)
  | resolve (url : String)
  | propertiesFor (url : String)
  | status (url : String)
  | register (starts : List String) (strategy : Strategy)
  | exchange (starts : List String) (x : CodeExchange)
  | unregister (start : String) (logoutUrl : Option String)
  | fetch (request : Request)

/-- What an operation answers. -/
inductive Result where
  | authorization (a : Authorization)
  | properties (p : Properties)
  | status (s : Option String)
  | registered (r : Except Error Handle)
  | removed (b : Bool)
  | fetched (answer : Answer)

namespace Operation

def program : Operation → Program Result
  | .header handle => Flow.bind (Program.header handle) fun a => .done (.authorization a)
  | .properties handle => Flow.bind (Program.properties handle) fun p => .done (.properties p)
  | .resolve url => Flow.bind (Program.resolve url) fun a => .done (.authorization a)
  | .propertiesFor url => Flow.bind (Program.propertiesFor url) fun p => .done (.properties p)
  | .status url => Flow.bind (Program.status url) fun s => .done (.status s)
  | .register starts strategy =>
    Flow.bind (Program.register starts strategy) fun r => .done (.registered r)
  | .exchange starts x =>
    Flow.bind (Program.exchangeAndRegister starts x) fun r => .done (.registered r)
  | .unregister start logoutUrl =>
    Flow.bind (Program.unregister start logoutUrl) fun b => .done (.removed b)
  | .fetch request =>
    Flow.bind (Program.fetchAuthorized request) fun answer => .done (.fetched answer)

/-- The strategies that an operation was given are those of the session, or of others. -/
def Uses (id : Nat) (clientId tokenServer : String) : Operation → Prop
  | .header handle => IsShared id clientId tokenServer handle
  | .properties handle => IsShared id clientId tokenServer handle
  | _ => True

end Operation

theorem obeys_resolve (url : String) : Obeys id clientId tokenServer .free (resolve url) := by
  refine obeys_ask trivial (fun _ => rfl) fun found hfound => ?_
  cases found with
  | none => exact obeys_done _
  | some handle => exact obeys_header (hfound handle rfl)

theorem obeys_propertiesFor (url : String) :
    Obeys id clientId tokenServer .free (propertiesFor url) := by
  refine obeys_ask trivial (fun _ => rfl) fun found _ => ?_
  cases found with
  | none => exact obeys_done _
  | some handle => exact obeys_properties handle

theorem obeys_status (url : String) : Obeys id clientId tokenServer .free (status url) := by
  refine obeys_ask trivial (fun _ => rfl) fun found _ => ?_
  cases found with
  | none => exact obeys_done _
  | some handle =>
    cases handle with
    | basic other encoded => exact obeys_done _
    | bearer other client server => exact (obeys_tokens other).bind fun _ => obeys_done _

theorem obeys_post (url : String) (fields : List (String × String)) :
    Obeys id clientId tokenServer .free (post url fields) :=
  obeys_ask trivial (fun _ => rfl) fun _ _ => obeys_done _

theorem obeys_register (starts : List String) (strategy : Strategy) :
    Obeys id clientId tokenServer .free (register starts strategy) := by
  unfold register
  cases Registry.fault? starts with
  | some e => exact obeys_done _
  | none =>
    refine obeys_ask trivial (fun _ => rfl) fun handle hnew => ?_
    -- A strategy that is taken into use gets a number that no session had before.
    have hshared : IsShared id clientId tokenServer handle := fun heq => absurd heq hnew
    exact obeys_ask hshared (fun _ => rfl) fun _ _ => obeys_done _

theorem obeys_exchangeAndRegister (starts : List String) (x : CodeExchange) :
    Obeys id clientId tokenServer .free (exchangeAndRegister starts x) := by
  unfold exchangeAndRegister
  split
  · exact obeys_done _
  · have hexchange : Obeys id clientId tokenServer .free (exchange x) := by
      refine (obeys_post _ _).bind fun answer => ?_
      cases exchangeOutcome answer with
      | error e => exact obeys_done _
      | ok issued => exact obeys_ask trivial (fun _ => rfl) fun _ _ => obeys_done _
    refine hexchange.bind fun result => ?_
    cases result with
    | error e => exact obeys_done _
    | ok credentials => exact obeys_register starts _

theorem obeys_unregister (start : String) (logoutUrl : Option String) :
    Obeys id clientId tokenServer .free (unregister start logoutUrl) := by
  refine obeys_ask trivial (fun _ => rfl) fun found _ => ?_
  cases found with
  | none => exact obeys_done _
  | some handle =>
    cases logoutUrl with
    | none => exact obeys_done _
    | some url =>
      cases handle with
      | basic other encoded => exact obeys_done _
      | bearer other client server =>
        refine (obeys_tokens other).bind fun tokens => ?_
        exact ((obeys_post _ _).bind fun _ => obeys_done _).bind fun _ => obeys_done _

theorem obeys_fetchAuthorized (request : Request) :
    Obeys id clientId tokenServer .free (fetchAuthorized request) := by
  refine obeys_ask trivial (fun _ => rfl) fun suspended _ => ?_
  show Obeys id clientId tokenServer .free (if _ then _ else _)
  split
  · exact obeys_ask trivial (fun _ => rfl) fun _ _ => obeys_done _
  · have hhook : Obeys id clientId tokenServer .free (authorization request.url) :=
      (obeys_resolve request.url).bind fun _ => obeys_done _
    exact hhook.bind fun _ => obeys_ask trivial (fun _ => rfl) fun _ _ => obeys_done _

/-- All operations of the store keep to the protocol. -/
theorem obeys_operation {op : Operation} (h : op.Uses id clientId tokenServer) :
    Obeys id clientId tokenServer .free op.program := by
  cases op with
  | header handle => exact (obeys_header h).bind fun _ => obeys_done _
  | properties handle => exact (obeys_properties handle).bind fun _ => obeys_done _
  | resolve url => exact (obeys_resolve url).bind fun _ => obeys_done _
  | propertiesFor url => exact (obeys_propertiesFor url).bind fun _ => obeys_done _
  | status url => exact (obeys_status url).bind fun _ => obeys_done _
  | register starts strategy => exact (obeys_register starts strategy).bind fun _ => obeys_done _
  | exchange starts x => exact (obeys_exchangeAndRegister starts x).bind fun _ => obeys_done _
  | unregister start logoutUrl =>
    exact (obeys_unregister start logoutUrl).bind fun _ => obeys_done _
  | fetch request => exact (obeys_fetchAuthorized request).bind fun _ => obeys_done _

end AccountGate.Auth
