import AccountGate.Proofs.Auth.Protocol
import AccountGate.Proofs.Auth.Registry
import AccountGate.Proofs.Flow.World
import Mathlib.Data.List.Induction

/-!
A session among tasks that share it. The ledger reads off a trace what the server has issued and
who holds the tokens. Main statement: as long as all tasks keep to the protocol, at most one of
them holds the tokens, and when nobody does the tokens in the vault are those of the ledger.
-/

namespace AccountGate.Auth

open Program

/-- What a trace says about a session: the tokens as the server left them, the tasks that hold
them, whether a time stamp is still to come, and all answers of the server. -/
structure Ledger (ι : Type) where
  tokens : TokenSet
  holders : List ι := []
  unstamped : Bool := false
  answers : List Answer := []

namespace Ledger

variable {ι : Type}

def heard (l : Ledger ι) (answer : Answer) : Ledger ι :=
  match refreshOutcome answer with
  | .refreshed response =>
    { l with
      tokens := l.tokens.accepted response
      unstamped := true
      answers := l.answers ++ [answer] }
  | .unreachable _ => { l with answers := l.answers ++ [answer] }
  | .rejected _ => { l with tokens := l.tokens.refused, answers := l.answers ++ [answer] }

theorem answers_heard (l : Ledger ι) (answer : Answer) :
    (l.heard answer).answers = l.answers ++ [answer] := by
  unfold heard
  cases refreshOutcome answer <;> rfl

variable [DecidableEq ι]

/-- One event. Only the answers that holders get to their requests change the tokens. -/
def note (id : Nat) (l : Ledger ι) : ι × Event interface → Ledger ι
  | (i, .inner (.acquire other) _) =>
    if other = id then { l with holders := i :: l.holders } else l
  | (i, .inner (.release other) _) =>
    if other = id then { l with holders := l.holders.filter fun j => j ≠ i } else l
  | (i, .answered (.send _) answer) => if i ∈ l.holders then l.heard answer else l
  | (i, .answered .clock clock) =>
    if i ∈ l.holders ∧ l.unstamped = true then
      { l with tokens := l.tokens.stamped clock, unstamped := false }
    else l
  | _ => l

/-- A whole trace, for a session that starts with the given tokens. -/
def ofTrace (id : Nat) (t : TokenSet) (log : Trace interface ι) : Ledger ι :=
  log.foldl (note id) { tokens := t }

theorem ofTrace_snoc (id : Nat) (t : TokenSet) (log : Trace interface ι) (e : ι × Event interface) :
    ofTrace id t (log ++ [e]) = (ofTrace id t log).note id e := by
  simp [ofTrace]

variable {l : Ledger ι} {i : ι} {id : Nat} {clientId tokenServer : String}

/-- A task that does not hold the tokens changes nothing unless it takes them. -/
theorem note_inner_of_free {c : Call} (r : Reply c)
    (hallow : Stage.free.Allows id clientId tokenServer c) (hc : c ≠ .acquire id) :
    l.note id (i, .inner c r) = l := by
  cases c with
  | acquire other => exact if_neg fun h => hc (congrArg Call.acquire h)
  | release other => exact if_neg hallow
  | _ => rfl

theorem note_answered_of_free {c : Call} (r : Reply c) (hi : i ∉ l.holders) :
    l.note id (i, .answered c r) = l := by
  cases c with
  | clock => exact if_neg fun h => hi h.1
  | send o => exact if_neg hi
  | _ => rfl

/-- What an event does to the tokens: nothing, or a holder hears the server or stamps new ones. -/
theorem note_cases (id : Nat) (l : Ledger ι) (i : ι) (e : Event interface) :
    ((l.note id (i, e)).tokens = l.tokens ∧ (l.note id (i, e)).answers = l.answers) ∨
    (∃ o answer, e = .answered (.send o) answer ∧ i ∈ l.holders ∧
      l.note id (i, e) = l.heard answer) ∨
    ∃ clock, (l.note id (i, e)).tokens = l.tokens.stamped clock ∧
      (l.note id (i, e)).answers = l.answers := by
  cases e with
  | asked c => exact .inl ⟨rfl, rfl⟩
  | inner c r =>
    left
    cases c with
    | acquire other =>
      simp only [note]
      split <;> exact ⟨rfl, rfl⟩
    | release other =>
      simp only [note]
      split <;> exact ⟨rfl, rfl⟩
    | _ => exact ⟨rfl, rfl⟩
  | answered c r =>
    cases c with
    | send o =>
      by_cases hi : i ∈ l.holders
      · exact .inr (.inl ⟨o, r, rfl, hi, if_pos hi⟩)
      · have hnote : l.note id (i, .answered (.send o) r) = l := if_neg hi
        rw [hnote]
        exact .inl ⟨rfl, rfl⟩
    | clock =>
      by_cases hi : i ∈ l.holders ∧ l.unstamped = true
      · have hnote : l.note id (i, .answered .clock r) =
            { l with tokens := l.tokens.stamped r, unstamped := false } := if_pos hi
        rw [hnote]
        exact .inr (.inr ⟨r, rfl, rfl⟩)
      · have hnote : l.note id (i, .answered .clock r) = l := if_neg hi
        rw [hnote]
        exact .inl ⟨rfl, rfl⟩
    | _ => exact .inl ⟨rfl, rfl⟩

/-- The responses that the server accepted a refresh with. -/
def accepted (l : Ledger ι) : List TokenResponse := l.answers.filterMap acceptedOf

omit [DecidableEq ι] in
theorem issued_heard {t : TokenSet} (h : Issued t l.accepted l.tokens) (answer : Answer) :
    Issued t (l.heard answer).accepted (l.heard answer).tokens := by
  have hlast : (l.answers ++ [answer]).filterMap acceptedOf =
      l.accepted ++ (acceptedOf answer).toList := by
    rw [List.filterMap_append]
    cases ha : acceptedOf answer <;> simp [accepted, ha]
  unfold heard accepted
  cases ho : refreshOutcome answer with
  | refreshed response =>
    have hone : acceptedOf answer = some response := by simp [acceptedOf, ho]
    rw [hlast, hone]
    exact h.accepted response
  | unreachable cause =>
    have hnone : acceptedOf answer = none := by simp [acceptedOf, ho]
    rw [hlast, hnone, Option.toList_none, List.append_nil]
    exact h
  | rejected reason =>
    have hnone : acceptedOf answer = none := by simp [acceptedOf, ho]
    rw [hlast, hnone, Option.toList_none, List.append_nil]
    exact h.refused

/-- After any trace the tokens of the ledger are those that the server issued last. -/
theorem issued_ofTrace (id : Nat) (t : TokenSet) (log : Trace interface ι) :
    Issued t (ofTrace id t log).accepted (ofTrace id t log).tokens := by
  induction log using List.reverseRecOn with
  | nil => exact .start t
  | append_singleton log e ih =>
    obtain ⟨i, e⟩ := e
    rw [ofTrace_snoc]
    rcases note_cases id (ofTrace id t log) i e with ⟨htokens, hanswers⟩ |
      ⟨o, answer, _, _, hheard⟩ | ⟨clock, htokens, hanswers⟩
    · rw [accepted, htokens, hanswers]
      exact ih
    · rw [hheard]
      exact issued_heard ih answer
    · rw [accepted, htokens, hanswers]
      exact ih.stamped clock

theorem mem_holders_note (hi : i ∈ l.holders) {e : ι × Event interface}
    (he : e ≠ (i, .inner (.release id) ())) : i ∈ (l.note id e).holders := by
  obtain ⟨j, e⟩ := e
  cases e with
  | asked c => exact hi
  | inner c r =>
    cases c with
    | acquire other =>
      simp only [note]
      split
      · exact List.mem_cons_of_mem j hi
      · exact hi
    | release other =>
      simp only [note]
      split
      · next hother =>
        -- It is another task that lets go.
        have hne : i ≠ j := by
          rintro rfl
          exact he (by rw [hother])
        simpa [hne] using hi
      · exact hi
    | _ => exact hi
  | answered c r =>
    cases c with
    | send o =>
      simp only [note, Ledger.heard]
      split
      · split <;> exact hi
      · exact hi
    | clock =>
      simp only [note]
      split <;> exact hi
    | _ => exact hi

theorem eq_or_mem_of_mem_note {j : ι} {e : Event interface} (h : j ∈ (l.note id (i, e)).holders) :
    j = i ∨ j ∈ l.holders := by
  cases e with
  | asked c => exact .inr h
  | inner c r =>
    cases c with
    | acquire other =>
      simp only [note] at h
      split at h
      · exact List.mem_cons.mp h
      · exact .inr h
    | release other =>
      simp only [note] at h
      split at h
      · exact .inr (List.mem_filter.mp h).1
      · exact .inr h
    | _ => exact .inr h
  | answered c r =>
    right
    cases c with
    | send o =>
      simp only [note, Ledger.heard] at h
      split at h
      · split at h <;> exact h
      · exact h
    | clock =>
      simp only [note] at h
      split at h <;> exact h
    | _ => exact h

/-- While only one task works, no other takes the tokens. -/
theorem eq_or_mem_of_mem_append {t : TokenSet} {j : ι} {log more : Trace interface ι}
    (hmore : ∀ e ∈ more, e.1 = i) (h : j ∈ (ofTrace id t (log ++ more)).holders) :
    j = i ∨ j ∈ (ofTrace id t log).holders := by
  induction more using List.reverseRecOn with
  | nil =>
    rw [List.append_nil] at h
    exact .inr h
  | append_singleton more e ih =>
    obtain ⟨k, e⟩ := e
    obtain rfl : k = i := hmore (k, e) (by simp)
    rw [← List.append_assoc, ofTrace_snoc] at h
    rcases eq_or_mem_of_mem_note h with heq | hmem
    · exact .inl heq
    · exact ih (fun e he => hmore e (List.mem_append_left _ he)) hmem

/-- Who holds the tokens holds them until it lets go. -/
theorem mem_holders_append {t : TokenSet} {before : Trace interface ι}
    (hi : i ∈ (ofTrace id t before).holders) {after : Trace interface ι}
    (hafter : (i, .inner (.release id) ()) ∉ after) :
    i ∈ (ofTrace id t (before ++ after)).holders := by
  induction after using List.reverseRecOn with
  | nil => simpa using hi
  | append_singleton after e ih =>
    rw [← List.append_assoc, ofTrace_snoc]
    simp only [List.mem_append, List.mem_singleton, not_or] at hafter
    exact mem_holders_note (ih hafter.1) (Ne.symm hafter.2)

/-- When nobody holds the tokens, whoever held them has let go. -/
theorem released_of_not_held {t : TokenSet} {before front rest : Trace interface ι} {j : ι}
    (h : (ofTrace id t before).holders = []) (hbefore : before = front ++ rest)
    (hj : j ∈ (ofTrace id t front).holders) : (j, .inner (.release id) ()) ∈ rest := by
  subst hbefore
  -- Otherwise it would still hold them.
  by_contra hkept
  have hmem := mem_holders_append hj hkept
  rw [h] at hmem
  exact List.not_mem_nil hmem

end Ledger

/-- The registry has no other strategy under the number of the session, and never will. -/
structure Sound (id : Nat) (clientId tokenServer : String) (v : Vault) : Prop where
  registry : ∀ record ∈ v.registry, IsShared id clientId tokenServer record.handle
  created : id < v.created

namespace Vault

variable {v v' : Vault} {id : Nat} {clientId tokenServer : String}

/-- What a call does to a session whose tokens the caller does not hold: nothing. -/
structure Spares (id : Nat) (v v' : Vault) : Prop where
  tokens_eq : v'.tokensOf id = v.tokensOf id
  held_iff : id ∈ v'.held ↔ id ∈ v.held

theorem create_spares (strategy : Strategy) (hv : id < v.created) :
    Spares id v (v.create strategy).2 ∧ (v.create strategy).1.id ≠ id ∧
      (v.create strategy).2.registry = v.registry ∧ id < (v.create strategy).2.created := by
  have hne : id ≠ v.created := Nat.ne_of_lt hv
  cases strategy with
  | basic encoded => exact ⟨⟨rfl, Iff.rfl⟩, Ne.symm hne, rfl, Nat.lt_succ_of_lt hv⟩
  | bearer b =>
    refine ⟨⟨?_, Iff.rfl⟩, Ne.symm hne, rfl, Nat.lt_succ_of_lt hv⟩
    show (v.putTokens v.created b.tokens).tokensOf id = v.tokensOf id
    rw [tokensOf_putTokens, if_neg hne]

/-- A call of a program that does not hold the tokens, other than the one that takes them. -/
theorem step_of_free {c : Call} {r : Reply c} (hv : Sound id clientId tokenServer v)
    (hallow : Stage.free.Allows id clientId tokenServer c) (hc : c ≠ .acquire id)
    (h : v.step c = .reply r v') :
    Sound id clientId tokenServer v' ∧ Expected id clientId tokenServer c r ∧ Spares id v v' ∧
      Stage.free.after id c r = .free := by
  cases c with
  | suspended =>
    obtain ⟨rfl, rfl⟩ := Outcome.reply.inj h
    exact ⟨hv, trivial, ⟨rfl, Iff.rfl⟩, rfl⟩
  | clock => exact absurd h (by simp [step])
  | send o => exact absurd h (by simp [step])
  | count counter => exact absurd h (by simp [step])
  | create strategy =>
    obtain ⟨rfl, rfl⟩ := Outcome.reply.inj h
    obtain ⟨hspares, hne, hregistry, hcreated⟩ := create_spares strategy hv.created
    have hregistry' : ∀ record ∈ (v.create strategy).2.registry,
        IsShared id clientId tokenServer record.handle := by
      rw [hregistry]
      exact hv.registry
    exact ⟨⟨hregistry', hcreated⟩, hne, hspares, rfl⟩
  | enrol starts handle =>
    obtain ⟨rfl, rfl⟩ := Outcome.reply.inj h
    refine ⟨⟨fun record hr => ?_, hv.created⟩, trivial, ⟨rfl, Iff.rfl⟩, rfl⟩
    rcases Registry.mem_of_mem_enrol hr with heq | hmem
    · rw [heq]
      exact hallow
    · exact hv.registry record hmem
  | remove start =>
    obtain ⟨rfl, rfl⟩ := Outcome.reply.inj h
    obtain ⟨hfound, hleft⟩ := Registry.mem_of_remove start v.registry
    refine ⟨⟨fun record hr => hv.registry record (hleft record hr), hv.created⟩,
      fun handle hh => ?_, ⟨rfl, Iff.rfl⟩, rfl⟩
    obtain ⟨record, hr, rfl⟩ := hfound handle hh
    exact hv.registry record hr
  | find url =>
    obtain ⟨rfl, rfl⟩ := Outcome.reply.inj h
    refine ⟨hv, fun handle hh => ?_, ⟨rfl, Iff.rfl⟩, rfl⟩
    obtain ⟨record, hr, rfl⟩ := Registry.mem_of_find? hh
    exact hv.registry record hr
  | starts =>
    obtain ⟨rfl, rfl⟩ := Outcome.reply.inj h
    exact ⟨hv, trivial, ⟨rfl, Iff.rfl⟩, rfl⟩
  | acquire other =>
    have hne : other ≠ id := fun heq => hc (congrArg Call.acquire heq)
    simp only [step] at h
    split at h
    · exact absurd h (by simp)
    · obtain ⟨rfl, rfl⟩ := Outcome.reply.inj h
      refine ⟨⟨hv.registry, hv.created⟩, fun heq => absurd heq hne, ⟨rfl, ?_⟩, if_neg hne⟩
      simp [Ne.symm hne]
  | update other tokens =>
    obtain ⟨rfl, rfl⟩ := Outcome.reply.inj h
    refine ⟨⟨hv.registry, hv.created⟩, trivial, ⟨?_, Iff.rfl⟩, rfl⟩
    rw [tokensOf_putTokens, if_neg (Ne.symm hallow)]
  | release other =>
    obtain ⟨rfl, rfl⟩ := Outcome.reply.inj h
    refine ⟨⟨hv.registry, hv.created⟩, trivial, ⟨rfl, ?_⟩, rfl⟩
    have hne : id ≠ other := Ne.symm hallow
    simp [hne]

end Vault

end AccountGate.Auth
