import AccountGate.Proofs.Account.SignIn
import AccountGate.Proofs.Account.Solo

/-!
What a sign-in that fails leaves behind. Main statement: nothing but its own count, unless it fails
because new credentials cannot be stored; these stay registered.
-/

namespace AccountGate.Account

open AccountGate.Flow (Solo)

/-- New credentials are registered before they are stored, and stay so where that fails. -/
theorem failed_sign_in_leaves_no_trace {cfg : Config} {P : (c : Call) → Reply c → Prop}
    {s t : Shared} {given : Option Nat} {e : Error}
    (h : Solo Shared.step P (Program.loginBy cfg given) s (.error e) t) :
    t.session = s.session ∧ t.events = s.events ∧
    (t = { s with counters := s.counters ++ [.login false] } ∨
      ∃ c u, Auth.Registry.fault? cfg.origins = none ∧
        (s.registered cfg c).step (.apply (Program.credentialChanges
          ((s.registered cfg c).credentials cfg))) = .reply (.error e) u ∧
        t = { u with counters := u.counters ++ [.login false] }) := by
  obtain ⟨u, rfl, ⟨_, -, rfl, -⟩ | ⟨c, -, hestablish⟩⟩ := solo_loginBy h
  · exact ⟨rfl, rfl, .inl rfl⟩
  · rcases solo_establish hestablish with ⟨_, -, -, rfl⟩ | ⟨hfault, saved, m, -, hs, hend⟩
    · exact ⟨rfl, rfl, .inl rfl⟩
    -- What comes after the settings are written cannot fail.
    · rcases hend with ⟨e', rfl, hresult, rfl⟩ | ⟨-, ⟨_, habsurd⟩, -⟩
      · obtain rfl := Except.error.inj hresult
        have hkept : u.session = s.session ∧ u.events = s.events := by
          obtain ⟨-, rfl⟩ := Outcome.reply.inj hs
          exact ⟨rfl, rfl⟩
        exact ⟨hkept.1, hkept.2, .inr ⟨c, u, hfault, hs, rfl⟩⟩
      · exact absurd habsurd (by simp)

section Sample

set_option maxRecDepth 10000

/-- A redirect with another state: nothing is left of the sign-in but its count. -/
theorem forged_redirect_leaves_no_trace : ∃ t,
    Solo Shared.step (fun _ _ => True) (Program.loginBy sampleConfig (some 65020)) sample
      (.error .stateMismatch) t ∧
    t = { sample with counters := [.login false] } := by
  have hview : (Flow.play Shared.step (fun _ _ => True)
      (comingBack { code := some "c", state := some "x" })
      (Program.loginBy sampleConfig (some 65020)) sample).map Prod.fst =
      some (.error .stateMismatch) := by
    decide +kernel
  obtain ⟨⟨result, t⟩, hplay, rfl⟩ := Option.map_eq_some_iff.mp hview
  have hsolo := Flow.solo_of_play hplay
  refine ⟨t, hsolo, ?_⟩
  obtain ⟨-, -, heq | ⟨c, u, -, hs, -⟩⟩ := failed_sign_in_leaves_no_trace hsolo
  · exact heq
  · exact absurd (Outcome.reply.inj hs).1 (by simp [Shared.registered, sample])

/-- An account whose settings cannot be stored. -/
def crowded : Shared := { sample with store := .memory sample.store.settings (some "disk full") }

/-- A sign-in that fails at the very end: its credentials serve the account from then on. -/
theorem unstored_credentials_stay : ∃ t,
    Solo Shared.step (fun _ _ => True) (Program.loginBy sampleConfig (some 65020)) crowded
      (.error (.settings "disk full")) t ∧
    crowded.vault.registry = [] ∧ t.vault.registry.starts = ["https://a.io"] ∧
    fieldsOf (t.credentials sampleConfig) = ["A1", "", "0"] := by
  have hview : (Flow.play Shared.step (fun _ _ => True)
      (comingBack { code := some "c", state := some (Auth.stateOf (List.replicate 16 0)) })
      (Program.loginBy sampleConfig (some 65020)) crowded).map (fun x =>
        (x.1, x.2.vault.registry.starts, fieldsOf (x.2.credentials sampleConfig))) =
      some (.error (.settings "disk full"), ["https://a.io"], ["A1", "", "0"]) := by
    decide +kernel
  obtain ⟨⟨result, t⟩, hplay, hview⟩ := Option.map_eq_some_iff.mp hview
  obtain ⟨rfl, hstarts, hfields⟩ : _ ∧ _ ∧ _ := by simpa using hview
  exact ⟨t, Flow.solo_of_play hplay, rfl, hstarts, hfields⟩

end Sample

end AccountGate.Account
