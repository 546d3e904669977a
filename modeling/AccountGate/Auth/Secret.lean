/-!
Sensitive texts. Whatever is shown of one is the same for all of them.
-/

namespace AccountGate

structure Secret where
  value : String
  deriving DecidableEq

namespace Secret

def empty : Secret := ⟨""⟩

def isEmpty (s : Secret) : Bool := s.value.isEmpty

def replace (_ : Secret) (value : String) : Secret := ⟨value⟩

def clear (_ : Secret) : Secret := empty

/-- What messages show. -/
def shown (_ : Secret) : String := "[REDACTED]"

theorem shown_eq (a b : Secret) : a.shown = b.shown := rfl

end Secret

end AccountGate
