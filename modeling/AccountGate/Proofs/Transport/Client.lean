import AccountGate.Proofs.Transport.Headers
import AccountGate.Transport.Client
import Mathlib.Data.ENat.Lattice

/-!
How a request fares in its setting, whatever that is. Main statements: credentials are asked for
once at most, and what goes out under each name follows the rules for headers; and the same request
goes out again as long as there is no connection and attempts are left, never after an answer.
-/

namespace AccountGate.Transport.Client

open Headers

variable {α β : Type} {s : Setting} {earlier : Nat}

/-- All that goes out by some calls. -/
def sentIn (calls : List Call) : List Dispatch := calls.filterMap Call.sent?

/-- The hooks that are consulted by some calls, each with the address. -/
def consultsIn (calls : List Call) : List (Nat × String) :=
  calls.filterMap fun
    | .consult hook url => some (hook, url)
    | _ => none

/-- The pauses among some calls. -/
def pausesIn (calls : List Call) : List Nat :=
  calls.filterMap fun
    | .delivery (.pause seconds) => some seconds
    | _ => none

theorem sentIn_append (calls more : List Call) :
    sentIn (calls ++ more) = sentIn calls ++ sentIn more := List.filterMap_append

theorem consultsIn_append (calls more : List Call) :
    consultsIn (calls ++ more) = consultsIn calls ++ consultsIn more := List.filterMap_append

theorem pausesIn_append (calls more : List Call) :
    pausesIn (calls ++ more) = pausesIn calls ++ pausesIn more := List.filterMap_append

namespace Setting

/-- The credentials that are found for a request. -/
def found (s : Setting) (r : Request) : Option String :=
  if s.suspended || r.hasAuthorization then none
  else s.hook?.bind fun hook => s.credentials hook r.url

/-- What is asked before a request goes out. -/
def asked (s : Setting) (r : Request) : List Call :=
  .suspended :: if s.suspended || r.hasAuthorization then []
    else .hook :: s.hook?.toList.map fun hook => .consult hook r.url

/-- What a request comes to by its last attempt. -/
def outcome (s : Setting) : Attempted → Answer
  | .ok head => head.answer s.body
  | .error f => .error f.error

theorem play_ask {c : Call} {next : Reply c → Program α} (hc : c.sent? = none) :
    s.play earlier (.ask c next) =
      ((s.play earlier (next (s.reply earlier c))).1,
        c :: (s.play earlier (next (s.reply earlier c))).2) := by
  simp [play, hc]

theorem play_attempt {d : Dispatch} {next : Attempted → Program α} :
    s.play earlier (.ask (.delivery (.attempt d)) next) =
      ((s.play (earlier + 1) (next (s.attempted earlier d))).1,
        .delivery (.attempt d) :: (s.play (earlier + 1) (next (s.attempted earlier d))).2) := rfl

theorem play_find {url : String} {f : Option String → Program α} :
    s.play earlier ((find url).bind f) =
      let rest := s.play earlier (f (s.hook?.bind fun hook => s.credentials hook url))
      (rest.1, .hook :: s.hook?.toList.map (fun hook => .consult hook url) ++ rest.2) := by
  have hfind : (find url).bind f = .ask .hook fun
    | some hook => .ask (.consult hook url) f
    | none => f none := by
    apply congrArg (Flow.ask (I := interface) Call.hook)
    funext hook
    cases hook <;> rfl
  rw [hfind, play_ask rfl, reply]
  cases s.hook? with
  | none => rfl
  | some hook =>
    dsimp only
    rw [play_ask rfl]
    rfl

/-- Before anything goes out, the credentials are found. -/
theorem play_send (p : Policy) (r : Request) :
    s.play earlier (send p r) =
      let rest := s.play earlier (ofDelivery (deliver p (dispatch p (s.found r) r)))
      (rest.1, s.asked r ++ rest.2) := by
  have hsend : send p r = .ask .suspended fun suspended =>
      if suspended || r.hasAuthorization then ofDelivery (deliver p (dispatch p none r))
      else (find r.url).bind fun found => ofDelivery (deliver p (dispatch p found r)) := rfl
  rw [hsend, play_ask rfl, reply, found, asked]
  by_cases hwithheld : (s.suspended || r.hasAuthorization) = true
  · simp only [if_pos hwithheld]
    rfl
  · simp only [if_neg hwithheld, play_find]
    rfl

theorem play_conclude {attempted : Attempted} :
    s.play earlier (ofDelivery (Delivery.conclude attempted)) =
      (s.outcome attempted, if attempted.isOk then [.delivery .readBody] else []) := by
  cases attempted with
  | ok head => rfl
  | error f => rfl

/-- A request goes out again after each failure to connect, as long as attempts are left. -/
theorem exists_play_tries (s : Setting) (pause : Nat) (d : Dispatch) (limit earlier : Nat) :
    ∃ k ≤ limit, (∀ i < k, (s.attempted (earlier + i) d).isUnconnected = true) ∧
      (k < limit → (s.attempted (earlier + k) d).isUnconnected = false) ∧
      s.play earlier (ofDelivery (Delivery.tries pause d limit)) =
        (s.outcome (s.attempted (earlier + k) d),
          (List.replicate k [.delivery (.attempt d), .delivery (.pause pause)]).flatten ++
            .delivery (.attempt d) ::
              if (s.attempted (earlier + k) d).isOk then [.delivery .readBody] else []) := by
  induction limit generalizing earlier with
  | zero =>
    refine ⟨0, le_rfl, fun i hi => absurd hi (Nat.not_lt_zero i), fun h => absurd h (lt_irrefl 0), ?_⟩
    have hlast : ofDelivery (Delivery.tries pause d 0) = .ask (.delivery (.attempt d))
        fun attempted => ofDelivery (Delivery.conclude attempted) := rfl
    rw [hlast, play_attempt, play_conclude]
    rfl
  | succ limit ih =>
    have htry : ofDelivery (Delivery.tries pause d (limit + 1)) = .ask (.delivery (.attempt d))
        fun attempted => if attempted.isUnconnected then
          .ask (.delivery (.pause pause)) fun _ => ofDelivery (Delivery.tries pause d limit)
        else ofDelivery (Delivery.conclude attempted) := by
      apply congrArg (Flow.ask (I := interface) (Call.delivery (.attempt d)))
      funext attempted
      change ofDelivery (ite (attempted.isUnconnected = true) _ _) = ite _ _ _
      split <;> rfl
    rw [htry, play_attempt]
    by_cases hfailed : (s.attempted earlier d).isUnconnected = true
    · obtain ⟨k, hk, hbefore, hafter, hplay⟩ := ih (earlier + 1)
      have hshift (i : Nat) : earlier + 1 + i = earlier + (i + 1) := by omega
      refine ⟨k + 1, Nat.succ_le_succ hk, fun i hi => ?_, fun h => ?_, ?_⟩
      · cases i with
        | zero => exact hfailed
        | succ i => exact hshift i ▸ hbefore i (Nat.lt_of_succ_lt_succ hi)
      · exact hshift k ▸ hafter (Nat.lt_of_succ_lt_succ h)
      · rw [if_pos hfailed, play_ask rfl, hplay, hshift, List.replicate_succ, List.flatten_cons]
        rfl
    · refine ⟨0, Nat.zero_le _, fun i hi => absurd hi (Nat.not_lt_zero i),
        fun _ => eq_false_of_ne_true hfailed, ?_⟩
      rw [if_neg hfailed, play_conclude]
      rfl

end Setting

/-- How many come to a failure before one that does not: none at all may. -/
noncomputable def leading (failed : ℕ → Bool) : ℕ∞ := ⨅ i, ⨅ _ : failed i = false, (i : ℕ∞)

theorem eq_min_leading {failed : ℕ → Bool} {limit k : ℕ} (hk : k ≤ limit)
    (hbefore : ∀ i < k, failed i = true) (hafter : k < limit → failed k = false) :
    (k : ℕ∞) = min (limit : ℕ∞) (leading failed) := by
  apply le_antisymm
  · refine le_min (Nat.cast_le.mpr hk) (le_iInf₂ fun i hi => Nat.cast_le.mpr ?_)
    by_contra hlt
    exact absurd (hbefore i (not_le.mp hlt)) (by simp [hi])
  · rcases hk.eq_or_lt with rfl | hlt
    · exact min_le_left _ _
    · exact (min_le_right _ _).trans (iInf₂_le k (hafter hlt))

/-- A request that is tried so many times again, with all that was done for it. -/
def triedAgain (p : Policy) (d : Dispatch) (again : ℕ) (last : Attempted) : List Call :=
  (List.replicate again [.delivery (.attempt d), .delivery (.pause p.retryDelay)]).flatten ++
    .delivery (.attempt d) :: if last.isOk then [.delivery .readBody] else []

section Counts

variable {p : Policy} {d : Dispatch} {last : Attempted}

theorem triedAgain_succ (k : ℕ) : triedAgain p d (k + 1) last =
    .delivery (.attempt d) :: .delivery (.pause p.retryDelay) :: triedAgain p d k last := by
  rw [triedAgain, List.replicate_succ, List.flatten_cons]
  rfl

theorem sentIn_triedAgain (k : ℕ) :
    sentIn (triedAgain p d k last) = List.replicate (k + 1) d := by
  induction k with
  | zero => cases last <;> rfl
  | succ k ih =>
    rw [triedAgain_succ, List.replicate_succ, ← ih]
    rfl

theorem pausesIn_triedAgain (k : ℕ) :
    pausesIn (triedAgain p d k last) = List.replicate k p.retryDelay := by
  induction k with
  | zero => cases last <;> rfl
  | succ k ih =>
    rw [triedAgain_succ, List.replicate_succ, ← ih]
    rfl

theorem consultsIn_triedAgain (k : ℕ) : consultsIn (triedAgain p d k last) = [] := by
  induction k with
  | zero => cases last <;> rfl
  | succ k ih =>
    rw [triedAgain_succ, ← ih]
    rfl

end Counts

/-- All that is done for a request. -/
theorem exists_play_send (p : Policy) (r : Request) (s : Setting) :
    ∃ k : ℕ, (k : ℕ∞) = min (p.maxRetry : ℕ∞)
        (leading fun i => (s.attempted i (dispatch p (s.found r) r)).isUnconnected) ∧
      let d := dispatch p (s.found r) r
      s.play 0 (send p r) =
        (s.outcome (s.attempted k d), s.asked r ++ triedAgain p d k (s.attempted k d)) := by
  obtain ⟨k, hk, hbefore, hafter, hplay⟩ :=
    s.exists_play_tries p.retryDelay (dispatch p (s.found r) r) p.maxRetry 0
  simp only [Nat.zero_add] at hbefore hafter hplay
  refine ⟨k, eq_min_leading hk hbefore hafter, ?_⟩
  rw [Setting.play_send]
  dsimp only
  rw [deliver, hplay]
  rfl

theorem nothing_of_asked (s : Setting) (r : Request) :
    sentIn (s.asked r) = [] ∧ pausesIn (s.asked r) = [] ∧
    consultsIn (s.asked r) = if s.suspended || r.hasAuthorization then []
      else s.hook?.toList.map fun hook => (hook, r.url) := by
  rw [Setting.asked]
  split
  · exact ⟨rfl, rfl, rfl⟩
  · cases s.hook? with
    | none => exact ⟨rfl, rfl, rfl⟩
    | some hook => exact ⟨rfl, rfl, rfl⟩

/-- Whatever is configured and whoever asks: a request has for credentials its own, or else none
when they are withheld, when there is no hook or when the hook has none, or else those of the hook;
under every other name it has what the last legal entry of the configuration says, or else its own;
illegal entries change nothing; and the hook is consulted once at most, never for a request that has
credentials or that they are withheld from. -/
theorem headers_by_rule (p : Policy) (r : Request) (s : Setting) :
    let own := values authorizationName r.headers
    let calls := (s.play 0 (send p r)).2
    sentIn calls ≠ [] ∧
    (∀ d ∈ sentIn calls,
      values authorizationName d.headers =
        (if own ≠ [] then own
        else if s.suspended then []
        else (s.hook?.bind fun hook => s.credentials hook r.url).toList) ∧
      ∀ name, name ≠ authorizationName → values name d.headers =
        match lastSetting? name p.headers with
        | some value => [value]
        | none => values name (ownHeaders r)) ∧
    send { p with headers := p.headers.filter isLegalEntry } r = send p r ∧
    consultsIn calls = if s.suspended ∨ own ≠ [] then []
      else s.hook?.toList.map fun hook => (hook, r.url) := by
  intro own calls
  obtain ⟨k, -, hplay⟩ := exists_play_send p r s
  obtain ⟨hsent, -, hconsults⟩ := nothing_of_asked s r
  have hcalls : calls = s.asked r ++ triedAgain p _ k _ := congrArg Prod.snd hplay
  have hall : sentIn calls = List.replicate (k + 1) (dispatch p (s.found r) r) := by
    rw [hcalls, sentIn_append, hsent, sentIn_triedAgain, List.nil_append]
  refine ⟨by simp [hall], fun d hd => ?_, ?_, ?_⟩
  · rw [hall] at hd
    obtain rfl := List.eq_of_mem_replicate hd
    refine ⟨?_, fun name hname => values_dispatch hname p _ r⟩
    rw [values_authorizationName_dispatch]
    by_cases hown : own ≠ []
    · rw [if_pos hown, if_pos hown]
    · have hnone : r.hasAuthorization = false :=
        eq_false_of_ne_true (mt Request.hasAuthorization_iff.mp hown)
      rw [if_neg hown, if_neg hown, Setting.found, hnone, Bool.or_false]
      cases s.suspended <;> rfl
  · exact congrArg (Request.sendBy _ _ · r) (funext fun _ => funext fun found => by
      rw [dispatch_filter_isLegalEntry, deliver, deliver])
  · rw [hcalls, consultsIn_append, hconsults, consultsIn_triedAgain, List.append_nil]
    simp only [Bool.or_eq_true, Request.hasAuthorization_iff, own]

/-- Configured credentials, a name with a blank and a value with a line break count for nothing. -/
example :
    let p : Policy := { headers := [("AUTHORIZATION", "Bearer X"), ("no name", "x"),
      ("User-Agent", "agent/0.1"), ("user-agent", "agent\n")] }
    let s : Setting :=
      { installed := some 1
        credentials := fun _ _ => some "Bearer A1"
        attempted := fun _ _ => .ok {} }
    (sentIn (s.play 0 (send p (.get "https://a.io"))).2).map Dispatch.headers =
      [[("user-agent", "agent/0.1"), ("authorization", "Bearer A1")]] := by decide +kernel

/-- Whatever comes of each attempt: a request goes out once, and once more for each of the failures
to connect with which its attempts begin, but not more often than is allowed, each time as it is and
after a pause; it comes to what the last attempt comes to; and credentials are asked for once at
most, before the first. -/
theorem tried_while_unconnected (p : Policy) (r : Request) (s : Setting) :
    let d := dispatch p (s.found r) r
    let calls := (s.play 0 (send p r)).2
    ∃ k : ℕ, (k : ℕ∞) = min (p.maxRetry : ℕ∞) (leading fun i => (s.attempted i d).isUnconnected) ∧
      sentIn calls = List.replicate (k + 1) d ∧ pausesIn calls = List.replicate k p.retryDelay ∧
      (s.play 0 (send p r)).1 = (match s.attempted k d with
        | .ok head => head.answer s.body
        | .error f => .error f.error) ∧
      calls = s.asked r ++ triedAgain p d k (s.attempted k d) ∧
      sentIn (s.asked r) = [] ∧ (consultsIn (s.asked r)).length ≤ 1 ∧
      consultsIn (triedAgain p d k (s.attempted k d)) = [] := by
  intro d calls
  obtain ⟨k, hk, hplay⟩ := exists_play_send p r s
  obtain ⟨hsent, hpauses, hconsults⟩ := nothing_of_asked s r
  have hcalls : calls = s.asked r ++ triedAgain p d k (s.attempted k d) := congrArg Prod.snd hplay
  refine ⟨k, hk, ?_, ?_, ?_, hcalls, hsent, ?_, consultsIn_triedAgain k⟩
  · rw [hcalls, sentIn_append, hsent, sentIn_triedAgain, List.nil_append]
  · rw [hcalls, pausesIn_append, hpauses, pausesIn_triedAgain, List.nil_append]
  · rw [hplay]
    rfl
  · rw [hconsults]
    split
    · exact Nat.zero_le 1
    · rw [List.length_map]
      cases s.hook? with
      | none => exact Nat.zero_le 1
      | some hook => exact le_rfl

/-- After two failures to connect an answer comes, whose status does not matter; or the attempts are
at an end before it. -/
example :
    let failed (i : ℕ) : Failure := { unconnected := true, timedOut := i = 1, detail := "" }
    let s : Setting :=
      { attempted := fun i _ => if i < 2 then .error (failed i) else .ok { status := 500 } }
    let outcome (retries : ℕ) := s.play 0 (send { maxRetry := retries } (.get "https://a.io"))
    ((outcome 3).1, (sentIn (outcome 3).2).length) = (.ok { status := 500 }, 3) ∧
      ((outcome 1).1, (sentIn (outcome 1).2).length) = (.error (.timeout ""), 2) := by
  decide +kernel

end AccountGate.Transport.Client
