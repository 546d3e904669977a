/-!
Why a text is no URL.
-/

namespace AccountGate.Url

inductive Error where
  | emptyHost
  | internationalName
  | port
  | ipv4
  | ipv6
  | domainCharacter
  | relativeWithoutBase
  deriving DecidableEq, Repr

def Error.message : Error → String
  | .emptyHost => "empty host"
  | .internationalName => "invalid international domain name"
  | .port => "invalid port number"
  | .ipv4 => "invalid IPv4 address"
  | .ipv6 => "invalid IPv6 address"
  | .domainCharacter => "invalid domain character"
  | .relativeWithoutBase => "relative URL without a base"

end AccountGate.Url
