import AccountGate.Codec.Base64
import AccountGate.Codec.Hex
import AccountGate.Digest.Sha256
import AccountGate.Text.Quoted

/-!
The proof that the party that redeems a code is the one that asked for it: a random verifier, of
which only the digest travels with the question; and the random state that comes back with the code.
-/

namespace AccountGate.Auth

/-- Bytes of randomness in a verifier. -/
def verifierSize : Nat := 32

/-- Bytes of randomness in a state. -/
def stateSize : Nat := 16

def verifierOf (random : Bytes) : String := Codec.Hex.encode random

/-- The digest of a verifier in the URL alphabet. -/
def challenge (verifier : String) : String :=
  Codec.Base64.encodeUrl (Digest.Sha256.digest (Text.bytes verifier))

/-- A random identifier: the high bits of two bytes tell its version and variant. -/
def stateOf (random : Bytes) : String :=
  Codec.Hex.encode <| random.mapIdx fun i b =>
    if i = 6 then b &&& 0x0F ||| 0x40 else if i = 8 then b &&& 0x3F ||| 0x80 else b

structure PkcePair where
  verifier : String
  challenge : String
  deriving DecidableEq, Repr

namespace PkcePair

def ofRandom (random : Bytes) : PkcePair :=
  let verifier := verifierOf random
  ⟨verifier, Auth.challenge verifier⟩

/-- The form for messages, without the verifier. -/
def shown (p : PkcePair) : String :=
  "PkcePair \x7b verifier: " ++ Text.quoted "[REDACTED]" ++ ", challenge: " ++
    Text.quoted p.challenge ++ " \x7d"

end PkcePair

end AccountGate.Auth
