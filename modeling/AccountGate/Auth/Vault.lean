import AccountGate.Assoc
import AccountGate.Auth.Call

/-!
The registry and the tokens that programs share. Whoever wants to change tokens holds them first;
all others that ask for them wait. Main statement: tokens that are put are found under their number,
and those of no other session change.
-/

namespace AccountGate

/-- What becomes of a call: a reply, a wait for another program, or a question for the outside. -/
inductive Outcome (σ ρ : Type) where
  | reply (r : ρ) (s : σ)
  | wait
  | outside

namespace Auth

/-- `tokens` are those of the sessions in use, `held` the sessions of which somebody holds them. -/
structure Vault where
  registry : Registry := []
  tokens : List (Nat × Tokens) := []
  held : List Nat := []
  created : Nat := 0
  deriving DecidableEq

namespace Vault

def noTokens : Tokens := ⟨.empty, .empty, 0, 0, .expired⟩

def tokensOf (v : Vault) (id : Nat) : Tokens := (v.tokens.lookup id).getD noTokens

def putTokens (v : Vault) (id : Nat) (t : Tokens) : Vault :=
  { v with tokens := (id, t) :: v.tokens.filter fun e => e.1 != id }

theorem tokensOf_putTokens (v : Vault) (id : Nat) (t : Tokens) (other : Nat) :
    (v.putTokens id t).tokensOf other = if other = id then t else v.tokensOf other := by
  by_cases h : other = id
  · simp [tokensOf, putTokens, h]
  · simp [tokensOf, putTokens, List.lookup_cons, beq_false_of_ne h, h, Assoc.lookup_filter_ne h]

def create (v : Vault) : Strategy → Handle × Vault
  | .basic encoded => (.basic v.created encoded, { v with created := v.created + 1 })
  | .bearer b =>
    (.bearer v.created b.clientId b.tokenServer,
      { v.putTokens v.created b.tokens with created := v.created + 1 })

def step (v : Vault) : (c : Call) → Outcome Vault (Reply c)
  | .suspended => .reply false v
  | .create strategy => let (handle, v) := v.create strategy; .reply handle v
  | .enrol starts handle => .reply () { v with registry := v.registry.enrol starts handle }
  | .remove start =>
    let (handle, registry) := v.registry.remove start
    .reply handle { v with registry }
  | .find url => .reply (v.registry.find? url) v
  | .starts => .reply v.registry.starts v
  | .acquire id =>
    if v.held.contains id then .wait else .reply (v.tokensOf id) { v with held := id :: v.held }
  | .update id tokens => .reply () (v.putTokens id tokens)
  | .release id => .reply () { v with held := v.held.filter (· != id) }
  | .clock => .outside
  | .send _ => .outside
  | .count _ => .outside

end Vault

end Auth

end AccountGate
