import AccountGate.Rsa.Der
import AccountGate.Rsa.Pem

/-!
RSA public keys and their two text forms: the key alone, and the key with its algorithm.
-/

namespace AccountGate.Rsa

structure PublicKey where
  modulus : Nat
  exponent : Nat
  deriving DecidableEq, Repr

namespace PublicKey

def bitLength (n : Nat) : Nat := if n = 0 then 0 else Nat.log2 n + 1

/-- The length of a signature in bytes. -/
def size (key : PublicKey) : Nat := (bitLength key.modulus + 7) / 8

def maxBits : Nat := 4096
def minExponent : Nat := 2
def maxExponent : Nat := 8589934591

/-- An odd modulus of at most 4096 bits and an odd exponent between 2 and 33 bits below it. -/
def Accepted (key : PublicKey) : Prop :=
  bitLength key.modulus ≤ maxBits ∧ key.modulus % 2 = 1 ∧ key.exponent < key.modulus ∧
    key.exponent % 2 = 1 ∧ minExponent ≤ key.exponent ∧ key.exponent ≤ maxExponent

instance (key : PublicKey) : Decidable key.Accepted := by unfold Accepted; infer_instance

/-- The sequence of modulus and exponent. -/
def bareData (key : PublicKey) : Bytes :=
  Der.element Der.sequenceTag (Der.unsigned key.modulus ++ Der.unsigned key.exponent)

def ofBareData? (data : Bytes) : Option PublicKey := do
  let (content, rest) ← Der.readElement Der.sequenceTag data
  guard rest.isEmpty
  let (modulus, content) ← Der.readUnsigned content
  let (exponent, content) ← Der.readUnsigned content
  guard content.isEmpty
  let key : PublicKey := ⟨modulus, exponent⟩
  guard key.Accepted
  return key

/-- The identifier of RSA encryption and its empty parameters. -/
def algorithm : Bytes :=
  Der.element Der.sequenceTag
    (Der.element Der.identifierTag [0x2A, 0x86, 0x48, 0x86, 0xF7, 0x0D, 0x01, 0x01, 0x01] ++
      Der.element Der.nullTag [])

/-- The algorithm and the bare key as a bit string without unused bits. -/
def subjectData (key : PublicKey) : Bytes :=
  Der.element Der.sequenceTag (algorithm ++ Der.element Der.bitStringTag (0 :: key.bareData))

def ofSubjectData? (data : Bytes) : Option PublicKey := do
  let (content, rest) ← Der.readElement Der.sequenceTag data
  guard rest.isEmpty
  let content ← Pem.dropPrefix? algorithm content
  let (bits, rest) ← Der.readElement Der.bitStringTag content
  guard rest.isEmpty
  match bits with
  | unused :: bare => do
    guard (unused = 0)
    ofBareData? bare
  | [] => none

def subjectLabel : String := "PUBLIC KEY"
def bareLabel : String := "RSA PUBLIC KEY"

def subjectText (key : PublicKey) : String := Pem.encode subjectLabel key.subjectData
def bareText (key : PublicKey) : String := Pem.encode bareLabel key.bareData

/-- Reads either form; blanks around the text do not count. -/
def parse? (text : String) : Option PublicKey :=
  let text := Text.trim text
  match Pem.decode? subjectLabel text >>= ofSubjectData? with
  | some key => some key
  | none => Pem.decode? bareLabel text >>= ofBareData?

end PublicKey

end AccountGate.Rsa
