import AccountGate.Proofs.Auth.Requests
import AccountGate.Proofs.Flow.Conduct

/-!
Tokens that are renewed where the clock stands and the network always answers the same. Main
statements: a second renewal changes nothing; and whoever has sent a request knows the renewed tokens.
-/

namespace AccountGate.Auth

open Program

/-- What a refresh leaves of tokens. -/
def Tokens.after (t : Tokens) (now : Int) : RefreshOutcome → Tokens
  | .refreshed response => t.renewed response now
  | .unreachable _ => t.kept
  | .rejected _ => t.refused

/-- What the answer of the token server leaves of tokens. -/
def Tokens.heard (t : Tokens) (answer : Answer) (now : Int) : Tokens :=
  t.after now (refreshOutcome answer)

/-- What a question for the header leaves of tokens. -/
def Tokens.settled (t : Tokens) (answer : Answer) (now : Int) : Tokens :=
  if t.status = .expired ∨ t.isFresh now = true then t else t.heard answer now

theorem Tokens.renewed_renewed (t : Tokens) (response : TokenResponse) (now : Int) :
    (t.renewed response now).renewed response now = t.renewed response now := by
  simp only [renewed]
  cases filled response.accessToken <;> cases filled response.refreshToken <;>
    cases response.expiresIn <;> rfl

/-- The same answer once more brings nothing new. -/
theorem Tokens.settled_settled (t : Tokens) (answer : Answer) (now : Int) :
    (t.settled answer now).settled answer now = t.settled answer now := by
  by_cases h : t.status = .expired ∨ t.isFresh now = true
  · have hself : t.settled answer now = t := if_pos h
    rw [hself, hself]
  · have hheard : t.settled answer now = t.heard answer now := if_neg h
    rw [hheard, settled]
    split
    · rfl
    · unfold heard
      cases refreshOutcome answer with
      | refreshed response => exact t.renewed_renewed response now
      | unreachable cause => rfl
      | rejected reason => rfl

/-- What tasks with the same credentials meet: the strategy that serves all their addresses, the
answers, the clock, and the tokens before and after they have been renewed. -/
structure Scene where
  found : Option Handle
  urls : List String
  answer : String → String → Answer
  now : Int
  first : Tokens
  last : Tokens

namespace Scene

def id? (sc : Scene) : Option Nat :=
  match sc.found with
  | some (.bearer id _ _) => some id
  | _ => none

/-- What a request leaves of tokens. -/
def settle (sc : Scene) (t : Tokens) : Tokens :=
  match sc.found with
  | some (.bearer _ _ tokenServer) => t.settled (sc.answer "POST" tokenServer) (max 0 sc.now)
  | _ => t

theorem settle_settle (sc : Scene) (t : Tokens) : sc.settle (sc.settle t) = sc.settle t := by
  unfold settle
  cases sc.found with
  | none => rfl
  | some handle =>
    cases handle with
    | basic id encoded => rfl
    | bearer id clientId tokenServer => exact t.settled_settled _ _

def properties (sc : Scene) (t : Tokens) : Properties :=
  match sc.found with
  | none => []
  | some (.basic _ encoded) => (Strategy.basic encoded).properties
  | some (.bearer _ clientId tokenServer) => Bearer.properties ⟨clientId, tokenServer, t⟩

/-- The tokens are the ones before or the ones after. -/
def Has (sc : Scene) (t : Tokens) : Prop := t = sc.first ∨ t = sc.last

/-- The replies of the clock and of the network. -/
def Answers (sc : Scene) : (c : Call) → Reply c → Prop
  | .clock, clock => clock = sc.now
  | .send o, answer => answer = sc.answer o.request.method o.request.url
  | _, _ => True

end Scene

/-- What a task has in hand of the tokens; `heard` are those that it has not put yet. -/
inductive Hand where
  | free
  | holds (t : Tokens)
  | marked (t : Tokens)
  | heard (t : Tokens)
  | put (t : Tokens)

/-- What a task has in hand of the tokens, and those that it last let go of. -/
structure Grip where
  hand : Hand
  known : Tokens

/-- A request of the host goes out with free hands, the one for new tokens by who has marked them. -/
def Hand.Sends (sc : Scene) (o : Outgoing) : Hand → Prop
  | .free => True
  | .marked t => t.heard (sc.answer o.request.method o.request.url) (max 0 sc.now) = sc.last
  | _ => False

namespace Grip

def Allows (sc : Scene) (g : Grip) : Call → Prop
  | .suspended => g.hand = .free
  | .find url => g.hand = .free ∧ url ∈ sc.urls
  | .acquire id => g.hand = .free ∧ sc.id? = some id
  | .clock => True
  | .count _ => True
  | .send o => g.hand.Sends sc o
  | .update id t => sc.id? = some id ∧
      ((∃ u, g.hand = .holds u ∧ t = { u with status := .refreshing }) ∨ g.hand = .heard t)
  | .release id => sc.id? = some id ∧ ((∃ t, g.hand = .holds t) ∨ ∃ t, g.hand = .put t)
  | _ => False

def Expects (sc : Scene) (g : Grip) : (c : Call) → Reply c → Prop
  | .suspended, suspended => suspended = false
  | .find _, found => found = sc.found
  | .acquire _, t => t = g.known ∨ t = sc.last
  | c, r => sc.Answers c r

def after (sc : Scene) (g : Grip) : (c : Call) → Reply c → Grip
  | .acquire _, t => { g with hand := .holds t }
  | .update _ t, _ => match g.hand with
    | .holds u => { g with hand := .marked u }
    | .heard _ => { g with hand := .put t }
    | _ => g
  | .send _, answer => match g.hand with
    | .marked t => { g with hand := .heard (t.heard answer (max 0 sc.now)) }
    | _ => g
  | .release _, _ => match g.hand with
    | .holds t => ⟨.free, t⟩
    | .put t => ⟨.free, t⟩
    | _ => g
  | _, _ => g

end Grip

/-- The rules for programs that only look at the tokens of a session, or have them renewed. -/
def renewal (sc : Scene) : Conduct interface where
  Stage := Grip
  Allows := Grip.Allows sc
  Expects := Grip.Expects sc
  after := Grip.after sc

section Programs

variable {sc : Scene} {t : Tokens}

theorem leads_leave {id : Nat} (hid : sc.id? = some id) {hand : Hand} {known : Tokens}
    (hhand : hand = .holds t ∨ hand = .put t) (a : Authorization) :
    (renewal sc).Leads (fun _ g => g = ⟨.free, t⟩) ⟨hand, known⟩ (leave id a) := by
  rcases hhand with rfl | rfl
  · exact ⟨⟨hid, .inl ⟨t, rfl⟩⟩, fun _ _ => rfl⟩
  · exact ⟨⟨hid, .inr ⟨t, rfl⟩⟩, fun _ _ => rfl⟩

theorem leads_finish {id : Nat} (hid : sc.id? = some id) (known : Tokens) (counter : Counter) :
    (renewal sc).Leads (fun _ g => g = ⟨.free, t⟩) ⟨.heard t, known⟩ (finish id t counter) :=
  ⟨⟨hid, .inr rfl⟩, fun _ _ => ⟨trivial, fun _ _ => leads_leave hid (.inr rfl) _⟩⟩

/-- The clock is read once more for new tokens only. -/
theorem leads_settled {id : Nat} (hid : sc.id? = some id) (u known : Tokens)
    (outcome : RefreshOutcome) (counter : Counter) :
    (renewal sc).Leads (fun _ g => g = ⟨.free, u.after (max 0 sc.now) outcome⟩)
      ⟨.heard (u.after (max 0 sc.now) outcome), known⟩
      ((settled u outcome).bind fun t' => finish id t' counter) := by
  cases outcome with
  | refreshed response =>
    refine ⟨trivial, fun later hlater => ?_⟩
    obtain rfl : later = sc.now := hlater
    exact leads_finish hid known counter
  | unreachable cause => exact leads_finish hid known counter
  | rejected reason => exact leads_finish hid known counter

/-- Whoever has asked for the header knows the renewed tokens. -/
theorem leads_bearerHeader {id : Nat} {clientId tokenServer : String}
    (hfound : sc.found = some (.bearer id clientId tokenServer))
    (hlast : sc.settle sc.first = sc.last) (ht : sc.Has t) :
    (renewal sc).Leads (fun _ g => g = ⟨.free, sc.last⟩) ⟨.free, t⟩
      (bearerHeader id clientId tokenServer) := by
  have hid : sc.id? = some id := by rw [Scene.id?, hfound]
  rw [bearerHeader_eq]
  refine ⟨⟨rfl, hid⟩, fun u hu => ?_⟩
  have hsettle : u.settled (sc.answer "POST" tokenServer) (max 0 sc.now) = sc.last := by
    have hu : sc.settle u = sc.last := by
      have hagain : sc.settle sc.last = sc.last := by
        rw [← hlast, sc.settle_settle]
      rcases hu with rfl | rfl
      · rcases ht with rfl | rfl
        · exact hlast
        · exact hagain
      · exact hagain
    rwa [Scene.settle, hfound] at hu
  show (renewal sc).Leads _ ⟨.holds u, t⟩ (if u.status = .expired then _ else _)
  by_cases hexpired : u.status = .expired
  · rw [if_pos hexpired, ← hsettle, Tokens.settled, if_pos (.inl hexpired)]
    exact leads_leave hid (.inl rfl) _
  · rw [if_neg hexpired]
    refine ⟨trivial, fun clock hclock => ?_⟩
    obtain rfl : clock = sc.now := hclock
    show (renewal sc).Leads _ ⟨.holds u, t⟩ (if u.isFresh (max 0 sc.now) = true then _ else _)
    by_cases hfresh : u.isFresh (max 0 sc.now) = true
    · rw [if_pos hfresh, ← hsettle, Tokens.settled, if_pos (.inr hfresh)]
      exact leads_leave hid (.inl rfl) _
    · rw [if_neg hfresh]
      have hheard : u.heard (sc.answer "POST" tokenServer) (max 0 sc.now) = sc.last := by
        rw [← hsettle, Tokens.settled, if_neg (not_or.mpr ⟨hexpired, hfresh⟩)]
      refine ⟨⟨hid, .inl ⟨u, rfl, rfl⟩⟩, fun _ _ => ⟨hheard, fun answer hanswer => ?_⟩⟩
      obtain rfl : answer = sc.answer "POST" tokenServer := hanswer
      have hsettled := leads_settled hid u t (refreshOutcome (sc.answer "POST" tokenServer))
        (counterOf (refreshOutcome (sc.answer "POST" tokenServer)))
      exact hsettled.mono fun _ g hg => hg.trans (congrArg (Grip.mk .free) hheard)

/-- Whoever has sent a request knows the renewed tokens. -/
theorem leads_fetchAuthorized {request : Request} (hown : request.hasAuthorization = false)
    (hurl : request.url ∈ sc.urls) (hlast : sc.settle sc.first = sc.last) (ht : sc.Has t) :
    (renewal sc).Leads (fun answer g => answer = sc.answer request.method request.url ∧
      g = ⟨.free, sc.last⟩) ⟨.free, t⟩ (fetchAuthorized request) := by
  rw [fetchAuthorized_eq hown]
  refine ⟨rfl, fun suspended hsuspended => ?_⟩
  obtain rfl : suspended = false := hsuspended
  have hsend (a : Authorization) : (renewal sc).Leads (fun answer g =>
      answer = sc.answer request.method request.url ∧ g = ⟨.free, sc.last⟩) ⟨.free, sc.last⟩
      (.ask (.send (carrying request a)) .done) :=
    ⟨trivial, fun answer hanswer => ⟨hanswer, rfl⟩⟩
  -- Without a bearer session there is nothing to renew.
  have hsame (hfound : ∀ u, sc.settle u = u) : t = sc.last := by
    rcases ht with rfl | rfl
    · rw [← hlast, hfound]
    · rfl
  refine Conduct.Leads.bind (Q := fun _ (g : Grip) => g = ⟨.free, sc.last⟩) ?_
    fun a g hg => hg ▸ hsend a
  refine ⟨⟨rfl, hurl⟩, fun found hfound => ?_⟩
  obtain rfl : found = sc.found := hfound
  cases hfound : sc.found with
  | none =>
    rw [hsame fun u => by rw [Scene.settle, hfound]]
    rfl
  | some handle =>
    cases handle with
    | basic id encoded =>
      rw [hsame fun u => by rw [Scene.settle, hfound]]
      rfl
    | bearer id clientId tokenServer => exact leads_bearerHeader hfound hlast ht

end Programs

end AccountGate.Auth
