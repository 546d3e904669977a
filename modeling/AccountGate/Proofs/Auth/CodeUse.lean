import AccountGate.Proofs.Auth.Enrolment
import AccountGate.Proofs.Auth.Exchange

/-!
Exchanging a code and registering the session in one go. The list of starts is looked at twice:
before the exchange only for being empty, and after it for an empty start. Main statement: a failure
leaves the vault as it was, and a list with an empty start costs the code.
-/

namespace AccountGate.Auth

open Program AccountGate.Flow

/-- The errors of arguments that are refused. -/
def Error.IsInvalidArgument : Error → Prop
  | .noPrefix | .emptyPrefix | .noUrl | .invalidEndpoint _ _ => True
  | _ => False

/-- No answer of the server is an invalid argument. -/
theorem exchangeOutcome_valid {answer : Answer} {e : Error} (h : exchangeOutcome answer = .error e) :
    ¬ e.IsInvalidArgument := by
  have hverdict := verdict answer
  rw [h] at hverdict
  generalize refreshOutcome answer = outcome at hverdict
  cases hverdict <;> exact id

/-- The ways an exchange with a registration goes. -/
inductive CodeUse (given : List String) (x : CodeExchange) (v : Vault) :
    Log → Except Error Handle → Vault → Prop
  | unlisted : given = [] → CodeUse given x v [] (.error .noUrl) v
  | failed (answer : Answer) (e : Error) : given ≠ [] → exchangeOutcome answer = .error e →
      CodeUse given x v [⟨.send (exchangeRequest x), answer⟩] (.error e) v
  | wasted (answer : Answer) (clock : Int) (issued : String × TokenResponse) : "" ∈ given →
      exchangeOutcome answer = .ok issued →
      CodeUse given x v [⟨.send (exchangeRequest x), answer⟩, read clock] (.error .emptyPrefix) v
  | registered (answer : Answer) (clock : Int) (issued : String × TokenResponse) (handle : Handle)
      (made : Vault) : given ≠ [] → "" ∉ given → exchangeOutcome answer = .ok issued →
      v.create (.bearer (.ofCredentials (x.credentials issued.1 issued.2 (max 0 clock)))) =
        (handle, made) →
      CodeUse given x v [⟨.send (exchangeRequest x), answer⟩, read clock] (.ok handle)
        { made with registry := made.registry.enrol given handle }

section Runs

variable {given : List String} {x : CodeExchange} {v v' : Vault} {log : Log}
  {result : Except Error Handle} {strategy : Strategy}

theorem alone_register_of_fault {e : Error} (h : Registry.fault? given = some e) :
    Alone Vault.step (register given strategy) v log result v' ↔
      log = [] ∧ result = .error e ∧ v' = v := by
  rw [register, h]
  exact alone_result_iff

theorem alone_register_of_sound (h : Registry.fault? given = none) {handle : Handle} {made : Vault}
    (hmade : v.create strategy = (handle, made)) :
    Alone Vault.step (register given strategy) v log result v' ↔
      log = [] ∧ result = .ok handle ∧
        v' = { made with registry := made.registry.enrol given handle } := by
  have hcreate : v.step (.create strategy) = .reply handle made := by rw [Vault.step, hmade]
  rw [register, h]
  exact (alone_ask_of_reply hcreate).trans ((alone_ask_of_reply rfl).trans alone_result_iff)

theorem exchangeAndRegister_nil : exchangeAndRegister [] x = .done (.error .noUrl) := rfl

/-- What is left to do when the exchange has come to something. -/
def enlist (given : List String) : Except Error Credentials → Program (Except Error Handle)
  | .error e => .done (.error e)
  | .ok c => register given (.bearer (.ofCredentials c))

theorem exchangeAndRegister_eq (h : given ≠ []) :
    exchangeAndRegister given x = (exchange x).bind (enlist given) := by
  have hsome : given.isEmpty = false := by simpa using h
  rw [exchangeAndRegister, hsome]
  refine congrArg (exchange x).bind (funext fun exchanged => ?_)
  cases exchanged <;> rfl

theorem alone_exchanged_iff (h : given ≠ []) :
    Alone Vault.step (exchangeAndRegister given x) v log result v' ↔
      ∃ answer clock rest, log = x.log answer clock ++ rest ∧
        Alone Vault.step (enlist given (x.result answer clock)) v rest result v' := by
  rw [exchangeAndRegister_eq h, alone_bind_iff]
  constructor
  · rintro ⟨first, rest, exchanged, u, rfl, hexchange, hrest⟩
    obtain ⟨answer, clock, rfl, rfl, rfl⟩ := alone_exchange_iff.mp hexchange
    exact ⟨answer, clock, rest, rfl, hrest⟩
  · rintro ⟨answer, clock, rest, rfl, hrest⟩
    exact ⟨_, rest, _, v, rfl, alone_exchange_iff.mpr ⟨answer, clock, rfl, rfl, rfl⟩, hrest⟩

theorem fault?_of_ne_nil (h : given ≠ []) :
    Registry.fault? given = if "" ∈ given then some .emptyPrefix else none := by
  rw [Registry.fault?_eq, if_neg h]

theorem codeUse_of_alone (h : Alone Vault.step (exchangeAndRegister given x) v log result v') :
    CodeUse given x v log result v' := by
  by_cases hnil : given = []
  · subst hnil
    rw [exchangeAndRegister_nil, alone_result_iff] at h
    obtain ⟨rfl, rfl, rfl⟩ := h
    exact .unlisted rfl
  obtain ⟨answer, clock, rest, rfl, hrest⟩ := (alone_exchanged_iff hnil).mp h
  have hfault := fault?_of_ne_nil hnil
  unfold CodeExchange.log CodeExchange.result at *
  cases houtcome : exchangeOutcome answer with
  | error e =>
    rw [houtcome] at hrest
    obtain ⟨rfl, rfl, rfl⟩ := alone_result_iff.mp hrest
    exact .failed answer e hnil houtcome
  | ok issued =>
    rw [houtcome] at hrest
    by_cases hblank : "" ∈ given
    · rw [if_pos hblank] at hfault
      obtain ⟨rfl, rfl, rfl⟩ := (alone_register_of_fault hfault).mp hrest
      exact .wasted answer clock issued hblank houtcome
    · rw [if_neg hblank] at hfault
      obtain ⟨rfl, rfl, rfl⟩ := (alone_register_of_sound hfault rfl).mp hrest
      exact .registered answer clock issued _ _ hnil hblank houtcome rfl

theorem alone_of_codeUse (h : CodeUse given x v log result v') :
    Alone Vault.step (exchangeAndRegister given x) v log result v' := by
  cases h with
  | unlisted hnil =>
    rw [hnil, exchangeAndRegister_nil]
    exact .done _ v
  | failed answer e hne houtcome =>
    refine (alone_exchanged_iff hne).mpr ⟨answer, 0, [], ?_, ?_⟩
    · simp [CodeExchange.log, houtcome]
    · rw [CodeExchange.result, houtcome]
      exact .done _ v
  | wasted answer clock issued hblank houtcome =>
    have hne : given ≠ [] := List.ne_nil_of_mem hblank
    have hfault := fault?_of_ne_nil hne
    rw [if_pos hblank] at hfault
    refine (alone_exchanged_iff hne).mpr ⟨answer, clock, [], ?_, ?_⟩
    · simp [CodeExchange.log, houtcome]
    · rw [CodeExchange.result, houtcome]
      exact (alone_register_of_fault hfault).mpr ⟨rfl, rfl, rfl⟩
  | registered answer clock issued handle made hne hfilled houtcome hmade =>
    have hsound := fault?_of_ne_nil hne
    rw [if_neg hfilled] at hsound
    refine (alone_exchanged_iff hne).mpr ⟨answer, clock, [], ?_, ?_⟩
    · simp [CodeExchange.log, houtcome]
    · rw [CodeExchange.result, houtcome]
      exact (alone_register_of_sound hsound hmade).mpr ⟨rfl, rfl, rfl⟩

/-- Those are all the ways. -/
theorem alone_exchangeAndRegister_iff :
    Alone Vault.step (exchangeAndRegister given x) v log result v' ↔
      CodeUse given x v log result v' :=
  ⟨codeUse_of_alone, alone_of_codeUse⟩

/-- An answer and a reading of the clock leave one way. -/
theorem exists_codeUse (given : List String) (x : CodeExchange) (v : Vault) (answer : Answer)
    (clock : Int) : ∃ log result v', CodeUse given x v log result v' ∧
      log.filterMap answerOf <+: [answer] ∧ log.filterMap clockOf <+: [clock] := by
  by_cases hnil : given = []
  · exact ⟨_, _, _, .unlisted hnil, by simp, by simp⟩
  cases houtcome : exchangeOutcome answer with
  | error e =>
    exact ⟨_, _, _, .failed answer e hnil houtcome, List.prefix_rfl, List.nil_prefix⟩
  | ok issued =>
    by_cases hblank : "" ∈ given
    · exact ⟨_, _, _, .wasted answer clock issued hblank houtcome, List.prefix_rfl,
        List.prefix_rfl⟩
    · exact ⟨_, _, _, .registered answer clock issued _ _ hnil hblank houtcome rfl,
        List.prefix_rfl, List.prefix_rfl⟩

end Runs

/-- What a run has done with its code, and with the vault. -/
structure SpentOn (given : List String) (x : CodeExchange) (v : Vault) (log : Log)
    (result : Except Error Handle) (v' : Vault) : Prop where
  unchanged : ∀ e, result = .error e → v' = v
  kept : given = [] → log = [] ∧ result = .error .noUrl
  spent : given ≠ [] → ∃ answer rest, log = ⟨.send (exchangeRequest x), answer⟩ :: rest ∧
    rest.filterMap answerOf = [] ∧
    (∀ e, exchangeOutcome answer = .error e → result = .error e ∧ ¬ e.IsInvalidArgument) ∧
    ∀ issued, exchangeOutcome answer = .ok issued →
      if "" ∈ given then result = .error .emptyPrefix else ∃ handle, result = .ok handle
  refused : ∀ e, result = .error e → e.IsInvalidArgument → (Registry.fault? given).isSome

theorem CodeUse.spentOn {given : List String} {x : CodeExchange} {v v' : Vault} {log : Log}
    {result : Except Error Handle} (h : CodeUse given x v log result v') :
    SpentOn given x v log result v' := by
  cases h with
  | unlisted hnil =>
    refine ⟨fun _ _ => rfl, fun _ => ⟨rfl, rfl⟩, fun hne => absurd hnil hne, fun _ _ _ => ?_⟩
    rw [hnil]
    rfl
  | failed answer e hne houtcome =>
    have hvalid := exchangeOutcome_valid houtcome
    refine ⟨fun _ _ => rfl, fun hnil => absurd hnil hne, fun _ => ⟨answer, [], rfl, rfl, ?_, ?_⟩, ?_⟩
    · intro e' houtcome'
      obtain rfl := Except.error.inj (houtcome.symm.trans houtcome')
      exact ⟨rfl, hvalid⟩
    · intro issued houtcome'
      exact absurd (houtcome.symm.trans houtcome') (by simp)
    · intro e' he hinvalid
      obtain rfl := Except.error.inj he
      exact absurd hinvalid hvalid
  | wasted answer clock issued hblank houtcome =>
    have hne : given ≠ [] := List.ne_nil_of_mem hblank
    refine ⟨fun _ _ => rfl, fun hnil => absurd hnil hne,
      fun _ => ⟨answer, _, rfl, rfl, ?_, ?_⟩, fun _ _ _ => ?_⟩
    · intro e houtcome'
      exact absurd (houtcome.symm.trans houtcome') (by simp)
    · intro _ _
      rw [if_pos hblank]
    · rw [fault?_of_ne_nil hne, if_pos hblank]
      rfl
  | registered answer clock issued handle made hne hfilled houtcome hmade =>
    refine ⟨fun _ herror => absurd herror (by simp), fun hnil => absurd hnil hne,
      fun _ => ⟨answer, _, rfl, rfl, ?_, ?_⟩, fun _ herror => absurd herror (by simp)⟩
    · intro e houtcome'
      exact absurd (houtcome.symm.trans houtcome') (by simp)
    · intro _ _
      rw [if_neg hfilled]
      exact ⟨handle, rfl⟩

/-- Whatever the vault, the starts and the server's answer, a failure changes nothing. No starts at
all are refused without a request. Any others send the code once and only once, and only when
tokens have come for it is an empty start among them refused. -/
theorem code_is_spent_before_starts_are_checked (given : List String) (x : CodeExchange)
    (v : Vault) :
    (∀ log result v', Alone Vault.step (exchangeAndRegister given x) v log result v' →
      SpentOn given x v log result v') ∧
    ∀ answer clock, ∃ log result v',
      Alone Vault.step (exchangeAndRegister given x) v log result v' ∧
      log.filterMap answerOf <+: [answer] ∧ log.filterMap clockOf <+: [clock] := by
  constructor
  · intro log result v' hrun
    exact (alone_exchangeAndRegister_iff.mp hrun).spentOn
  · intro answer clock
    obtain ⟨log, result, v', huse, hanswers, hclocks⟩ := exists_codeUse given x v answer clock
    exact ⟨log, result, v', alone_exchangeAndRegister_iff.mpr huse, hanswers, hclocks⟩

/-- The empty start of this list is found once the code has been exchanged. -/
theorem empty_start_costs_code :
    let x : CodeExchange := ⟨"https://id.test/token", "abc", "xyz", "http://127.0.0.1:65020", none⟩
    let r : Response := { body := Text.bytes "\x7b\"access_token\":\"A1\"\x7d" }
    Registry.fault? ["https://api.example.com", ""] = some .emptyPrefix ∧
    Alone Vault.step (exchangeAndRegister ["https://api.example.com", ""] x) {}
      [⟨.send (exchangeRequest x), .ok r⟩, read 1750000000] (.error .emptyPrefix) {} := by
  intro x r
  have hgranted : exchangeOutcome (.ok r) = .ok ("A1", { accessToken := some "A1" }) := by
    decide +kernel
  exact ⟨by decide, alone_exchangeAndRegister_iff.mpr
    (.wasted (.ok r) 1750000000 _ (by decide) hgranted)⟩

end AccountGate.Auth
