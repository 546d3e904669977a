import AccountGate.Url.Address
import AccountGate.Url.Domain
import AccountGate.Url.Error
import AccountGate.Url.Percent

/-!
Hosts in a URL.
-/

namespace AccountGate.Url

inductive Host where
  | domain (name : List Char)
  | ipv4 (address : Nat)
  | ipv6 (words : List Nat)
  deriving DecidableEq, Repr

namespace Host

def render : Host → List Char
  | .domain name => name
  | .ipv4 address => Ipv4.render address
  | .ipv6 words => '[' :: (Ipv6.render words ++ [']'])

/-- An address between brackets. -/
def ofBrackets (cs : List Char) : Except Error Host :=
  if cs.getLast? == some ']' then
    match Ipv6.parse? (cs.dropLast.drop 1) with
    | some words => .ok (.ipv6 words)
    | none => .error .ipv6
  else .error .ipv6

/-- The host of a scheme that is known to have one: a domain name or an address. -/
def ofSpecial (cs : List Char) : Except Error Host :=
  if cs.head? == some '[' then ofBrackets cs
  else
    let decoded := (Text.decodeChars? (decode (Text.bytesOf cs))).bind Domain.toAscii?
    match decoded with
    | none => .error .internationalName
    | some [] => .error .emptyHost
    | some name =>
      let parts := Text.pieces '.' name
      if Ipv4.endsInNumber parts then
        match Ipv4.parse? parts with
        | some address => .ok (.ipv4 address)
        | none => .error .ipv4
      else .ok (.domain name)

def isForbiddenOpaque (c : Char) : Bool :=
  ['\x00', '\t', '\n', '\r', ' ', '#', '/', ':', '<', '>', '?', '@', '[', '\\', ']', '^',
    '|'].contains c

/-- The host of any other scheme: kept as it is. -/
def ofOpaque (cs : List Char) : Except Error Host :=
  if cs.head? == some '[' then ofBrackets cs
  else if cs.any isForbiddenOpaque then .error .domainCharacter
  else .ok (.domain (encode controls cs))

end Host

end AccountGate.Url
