import AccountGate.Proofs.Account.Redirects
import AccountGate.Proofs.Account.SignIn
import AccountGate.Proofs.Account.Solo
import AccountGate.Proofs.Flow.Conduct
import AccountGate.Proofs.Url.Query

/-!
The code of a sign-in. The browser takes a state along and brings one back; only with the same one
does the code that it brings go to the token server. Main statement: whatever is drawn and whatever
the browser brings, a sign-in sends at most one request, which redeems the code for the address that
was opened.
-/

namespace AccountGate.Account

open AccountGate.Flow (Makes Path)
open Program (redirectUri question exchangeOf)
open Url (pairsIn)
open Url.Form (Pairs values values_append)

variable {α β : Type} {cfg : Config} {port : Nat}

/-- The form redeems the code of a redirect to the port. Whoever opened the address asked for it with
its pairs, of which the first are the endpoint's own. -/
structure Redeems (cfg : Config) (port : Nat) (own pairs : Pairs) (redirect : Redirect)
    (fields : Pairs) : Prop where
  noError : ∀ e ∈ redirect.error, e = ""
  noDescription : ∀ e ∈ redirect.errorDescription, e = ""
  state : ∃ state, redirect.state = some state ∧
    values "state" pairs = values "state" own ++ [state]
  code : ∃ code, redirect.code = some code ∧ code ≠ "" ∧ values "code" fields = [code]
  grant : values "grant_type" fields = ["authorization_code"]
  redirectUri : values "redirect_uri" pairs = values "redirect_uri" own ++ [redirectUri port] ∧
    values "redirect_uri" fields = [redirectUri port]
  clientId : values "client_id" pairs = values "client_id" own ++ [cfg.clientId] ∧
    values "client_id" fields = [cfg.clientId]
  /-- There is a verifier exactly where its digest was in the address. -/
  verifier : ∃ verifier : Option String, values "code_verifier" fields = verifier.toList ∧
    values "code_challenge" pairs = values "code_challenge" own ++ (verifier.map fun v =>
      Codec.Base64.encodeUrl (Digest.Sha256.digest (Text.bytes v))).toList ∧
    values "code_challenge_method" pairs =
      values "code_challenge_method" own ++ (verifier.map fun _ => "S256").toList

/-- The request redeems the code that a redirect to the port brings, for the address. -/
def Grants (cfg : Config) (url : String) (port : Nat) (redirect : Redirect) (o : Auth.Outgoing) :
    Prop :=
  ∃ endpoint fields, Url.parse cfg.authEndpoint = .ok endpoint ∧
    o.request = .postForm cfg.tokenEndpoint fields ∧
    Redeems cfg port endpoint.pairs (pairsIn url) redirect fields

/-- How far a sign-in has come with the browser. -/
inductive Leg where
  | home
  | out (url : String)
  | back (url : String) (port : Nat) (redirect : Redirect)
  | spent

namespace Leg

def after : Leg → (c : Call) → Reply c → Leg
  | _, .openBrowser url, .ok _ => out url
  | out url, .awaitRedirect port _, some redirect => back url port redirect
  | _, .auth (.send _), _ => spent
  | leg, _, _ => leg

/-- The browser is opened and awaited once, and then one request is sent. -/
def Allows (cfg : Config) (leg : Leg) : Call → Prop
  | .openBrowser _ => leg = home
  | .awaitRedirect _ seconds => (∃ url, leg = out url) ∧ seconds = cfg.loginTimeout
  | .auth (.send o) => ∃ url port redirect, leg = back url port redirect ∧
    Grants cfg url port redirect o
  | _ => True

end Leg

/-- A call that has to do neither with the browser nor with requests. -/
def Call.IsAside : Call → Prop
  | .openBrowser _ => False
  | .awaitRedirect _ _ => False
  | .auth (.send _) => False
  | _ => True

/-- The browser was opened, it came back, or a request was sent. -/
def Call.isMilestone : (c : Call) → Reply c → Bool
  | .openBrowser _, .ok _ => true
  | .awaitRedirect _ _, some _ => true
  | .auth (.send _), _ => true
  | _, _ => false

theorem Call.IsAside.passes {c : Call} (h : c.IsAside) (cfg : Config) (leg : Leg) :
    leg.Allows cfg c ∧ ∀ r, leg.after c r = leg ∧ c.isMilestone r = false := by
  cases c with
  | auth c =>
    cases c with
    | send o => exact h.elim
    | _ => exact ⟨trivial, fun _ => ⟨by cases leg <;> rfl, rfl⟩⟩
  | openBrowser url => exact h.elim
  | awaitRedirect port seconds => exact h.elim
  | _ => exact ⟨trivial, fun _ => ⟨by cases leg <;> rfl, rfl⟩⟩

section Programs

variable {leg : Leg}

end Programs

section Runs

def milestones (xs : List (Exchange interface)) : List (Exchange interface) :=
  xs.filter fun x => x.call.isMilestone x.reply

/-- What has come to pass in a run. -/
def Leg.Tells (cfg : Config) (xs : List (Exchange interface)) : Leg → Prop
  | home => milestones xs = []
  | out url => milestones xs = [⟨.openBrowser url, .ok ()⟩]
  | back url port redirect => milestones xs =
    [⟨.openBrowser url, .ok ()⟩, ⟨.awaitRedirect port cfg.loginTimeout, some redirect⟩]
  | spent => ∃ url port redirect o answer, Grants cfg url port redirect o ∧ milestones xs =
    [⟨.openBrowser url, .ok ()⟩, ⟨.awaitRedirect port cfg.loginTimeout, some redirect⟩,
      ⟨.auth (.send o), answer⟩]

variable {leg : Leg} {xs : List (Exchange interface)} {c : Call} {q : Program α}

theorem milestones_snoc (xs : List (Exchange interface)) (c : Call) (r : Reply c) :
    milestones (xs ++ [⟨c, r⟩]) = milestones xs ++ if c.isMilestone r then [⟨c, r⟩] else [] := by
  by_cases h : c.isMilestone r <;> simp [milestones, h]

theorem Leg.Tells.congr {ys : List (Exchange interface)} (h : leg.Tells cfg xs)
    (hys : milestones ys = milestones xs) : leg.Tells cfg ys := by
  cases leg with
  | spent =>
    obtain ⟨url, port, redirect, o, answer, hgrants, hxs⟩ := h
    exact ⟨url, port, redirect, o, answer, hgrants, hys.trans hxs⟩
  | _ => exact hys.trans h

/-- One exchange adds the milestone that it is. -/
theorem Leg.Tells.snoc (h : leg.Tells cfg xs) (hc : leg.Allows cfg c) (r : Reply c) :
    (leg.after c r).Tells cfg (xs ++ [⟨c, r⟩]) := by
  have hsame (hnot : c.isMilestone r = false) : leg.Tells cfg (xs ++ [⟨c, r⟩]) := by
    refine h.congr ?_
    rw [milestones_snoc, hnot]
    simp
  have haside (haside : c.IsAside) : (leg.after c r).Tells cfg (xs ++ [⟨c, r⟩]) := by
    obtain ⟨hafter, hnot⟩ := (haside.passes cfg leg).2 r
    rw [hafter]
    exact hsame hnot
  cases c with
  | openBrowser url =>
    obtain rfl := hc
    cases r with
    | error e => exact hsame rfl
    | ok _ => exact (milestones_snoc _ _ _).trans (congrArg (· ++ _) h)
  | awaitRedirect port seconds =>
    obtain ⟨⟨url, rfl⟩, rfl⟩ := hc
    cases r with
    | none => exact hsame rfl
    | some redirect => exact (milestones_snoc _ _ _).trans (congrArg (· ++ _) h)
  | auth c =>
    cases c with
    | send o =>
      obtain ⟨url, port, redirect, rfl, hgrants⟩ := hc
      exact ⟨url, port, redirect, o, r, hgrants, (milestones_snoc _ _ _).trans (congrArg (· ++ _) h)⟩
    | _ => exact haside trivial
  | _ => exact haside trivial

end Runs

end AccountGate.Account
