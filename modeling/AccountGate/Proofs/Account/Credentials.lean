import AccountGate.Account.Access
import AccountGate.Proofs.Account.Merge
import AccountGate.Proofs.Account.Settled
import AccountGate.Proofs.Flow.Solo

/-!
The strategy that serves the account, read and stored by a program that runs by itself. Main
statements: reading its properties changes nothing; storing them is one write, or none where no
strategy serves the account; and what has been stored are its tokens and their lifetime.
-/

namespace AccountGate.Account

open AccountGate.Flow (Solo)

/-- The properties of the strategy that serves the account. -/
def Shared.credentials (cfg : Config) (s : Shared) : Auth.Properties :=
  match s.vault.registry.find? cfg.apiEndpoint with
  | none => []
  | some (.basic _ encoded) => (Auth.Strategy.basic encoded).properties
  | some (.bearer id clientId tokenServer) =>
    Auth.Bearer.properties ⟨clientId, tokenServer, s.vault.tokensOf id⟩

/-- What is stored of credentials. -/
def tokenKeys : List String := [Key.accessToken, Key.updateToken, Key.expiresIn]

/-- The stored tokens and their lifetime. -/
def Shared.stored (s : Shared) : List String := tokenKeys.map s.store.settings.value

/-- Tokens and lifetime of a strategy, as they are stored. -/
def fieldsOf (properties : Auth.Properties) : List String :=
  ["accessToken", "refreshToken", "expiresIn"].map fun name => (properties.lookup name).getD ""

variable {cfg : Config} {s t : Shared} {P : (c : Call) → Reply c → Prop} {properties : Auth.Properties}

theorem credentials_eq_nil_iff :
    s.credentials cfg = [] ↔ s.vault.registry.find? cfg.apiEndpoint = none := by
  rw [Shared.credentials]
  rcases s.vault.registry.find? cfg.apiEndpoint with _ | ⟨id, encoded⟩ | ⟨id, clientId, tokenServer⟩
  · simp
  · simp [Auth.Strategy.properties]
  · simp [Auth.Bearer.properties]

theorem Shared.credentials_congr (h : t.vault = s.vault) : t.credentials cfg = s.credentials cfg := by
  rw [Shared.credentials, Shared.credentials, h]

/-- The tokens of a session are read as they are. -/
theorem solo_tokens {id : Nat} {tokens : Auth.Tokens}
    (h : Solo Shared.step P (Program.ofAuth (Auth.Program.tokens id)) s tokens t) :
    tokens = s.vault.tokensOf id ∧ t = s := by
  by_cases hheld : id ∈ s.vault.held
  · have hwait : s.step (.auth (.acquire id)) = .wait := by
      simp [Shared.step, Auth.Vault.step, hheld]
    cases h with
    | inner hs _ _ => exact absurd (hwait.symm.trans hs) (by simp)
    | outer _ hs _ _ => exact absurd (hwait.symm.trans hs) (by simp)
  · have hreply : s.step (.auth (.acquire id)) = .reply (s.vault.tokensOf id)
        { s with vault := { s.vault with held := id :: s.vault.held } } := by
      simp [Shared.step, Auth.Vault.step, hheld]
    have hback : (id :: s.vault.held).filter (· != id) = s.vault.held := by
      have hall : ∀ other ∈ s.vault.held, (other != id) = true := fun other hother =>
        bne_iff_ne.mpr fun heq => hheld (heq ▸ hother)
      rw [List.filter_cons_of_neg (by simp), List.filter_eq_self.mpr hall]
    obtain ⟨-, h⟩ := (Flow.solo_ask_of_reply hreply).mp h
    obtain ⟨-, h⟩ := (Flow.solo_ask_of_reply rfl).mp h
    obtain ⟨rfl, rfl⟩ := Flow.solo_done_iff.mp h
    refine ⟨rfl, ?_⟩
    rw [hback]

/-- The properties that are read are those of the strategy that serves the account. -/
theorem solo_credentialProperties
    (h : Solo Shared.step P (Program.credentialProperties cfg) s properties t) :
    properties = s.credentials cfg ∧ t = s := by
  obtain ⟨-, h⟩ := (Flow.solo_ask_of_reply rfl).mp h
  generalize hfound : s.vault.registry.find? cfg.apiEndpoint = found at h
  rcases found with _ | ⟨id, encoded⟩ | ⟨id, clientId, tokenServer⟩
  · obtain ⟨rfl, rfl⟩ := Flow.solo_done_iff.mp h
    exact ⟨by rw [Shared.credentials, hfound], rfl⟩
  · obtain ⟨rfl, rfl⟩ := Flow.solo_done_iff.mp h
    exact ⟨by rw [Shared.credentials, hfound], rfl⟩
  · have hsplit : Program.ofAuth (Auth.Program.properties (.bearer id clientId tokenServer)) =
        (Program.ofAuth (Auth.Program.tokens id)).bind
          fun tokens => .done (Auth.Bearer.properties ⟨clientId, tokenServer, tokens⟩) :=
      Flow.expand_bind _ _ _
    change Solo _ _ (Program.ofAuth (Auth.Program.properties (.bearer id clientId tokenServer)))
      _ _ _ at h
    rw [hsplit] at h
    obtain ⟨tokens, u, htokens, hdone⟩ := Flow.solo_bind_iff.mp h
    obtain ⟨rfl, rfl⟩ := Flow.solo_done_iff.mp hdone
    obtain ⟨rfl, rfl⟩ := solo_tokens htokens
    exact ⟨by rw [Shared.credentials, hfound], rfl⟩

/-- Credentials are stored in one write, if there are any. -/
theorem solo_saveCredentials {result : Except Error Unit}
    (h : Solo Shared.step P (Program.saveCredentials cfg) s result t) :
    (s.credentials cfg = [] ∧ result = .ok () ∧ t = s) ∨
    (s.credentials cfg ≠ [] ∧ P (.apply (Program.credentialChanges (s.credentials cfg))) result ∧
      s.step (.apply (Program.credentialChanges (s.credentials cfg))) = .reply result t) := by
  rw [Program.saveCredentials_eq] at h
  obtain ⟨properties, u, hread, h⟩ := Flow.solo_bind_iff.mp h
  obtain ⟨rfl, rfl⟩ := solo_credentialProperties hread
  split at h
  · next hempty =>
    obtain ⟨rfl, rfl⟩ := Flow.solo_done_iff.mp h
    exact .inl ⟨List.isEmpty_iff.mp hempty, rfl, rfl⟩
  · next hsome =>
    cases h with
    | inner hs hr h =>
      obtain ⟨rfl, rfl⟩ := Flow.solo_done_iff.mp h
      exact .inr ⟨fun hempty => hsome (List.isEmpty_iff.mpr hempty), hr, hs⟩
    | outer _ hs _ _ => exact absurd hs (by simp [Shared.step])

/-- Each field is stored under a key of its own. -/
theorem get?_credentialChanges {key text : String}
    (h : (key, text) ∈ Program.credentialChanges properties) (stored : Settings) :
    (stored.merge (Program.credentialChanges properties)).get? key = some text := by
  have hnodup : ((Program.credentialChanges properties).map Prod.fst).Nodup := by
    rw [keys_credentialChanges]
    decide
  exact Settings.get?_merge_of_nodup hnodup h stored

/-- What has been stored of a strategy are its tokens and their lifetime. -/
theorem stored_of_changes (cfg : Config)
    (hs : s.step (.apply (Program.credentialChanges properties)) = .reply (.ok ()) t) :
    t.stored = fieldsOf properties ∧ t.credentials cfg = s.credentials cfg ∧
      t.vault.registry = s.vault.registry := by
  obtain ⟨hsettings, hrest⟩ := Shared.merged_of_apply hs
  refine ⟨?_, by rw [hrest]; rfl, by rw [hrest]⟩
  have hvalue {key text : String} (hmem : (key, text) ∈ Program.credentialChanges properties) :
      t.store.settings.value key = text := by
    rw [hsettings]
    exact Settings.value_of_get? (get?_credentialChanges hmem _)
  have haccess := hvalue (.head _)
  have hrefresh := hvalue (.tail _ (.head _))
  have hlifetime := hvalue (.tail _ (.tail _ (.head _)))
  rw [Shared.stored, tokenKeys, List.map_cons, List.map_cons, List.map_cons, haccess, hrefresh,
    hlifetime]
  rfl

end AccountGate.Account
