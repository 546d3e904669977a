/-!
Programs that put calls to their surroundings and go on with the replies. A program is a tree: what
it does is read off it, whatever the surroundings are. Main statements: the laws of a monad, and
that putting programs in place of calls respects sequencing.
-/

namespace AccountGate

/-- The calls that a program may make, and the type of the reply to each. -/
structure Interface where
  Call : Type
  Reply : Call → Type

inductive Flow (I : Interface) (α : Type) where
  | done (a : α)
  | ask (c : I.Call) (next : I.Reply c → Flow I α)

namespace Flow

variable {I J : Interface} {α β γ : Type}

def bind : Flow I α → (α → Flow I β) → Flow I β
  | .done a, f => f a
  | .ask c next, f => .ask c fun r => (next r).bind f

instance : Monad (Flow I) where
  pure := .done
  bind := bind

/-- One call. -/
def call (c : I.Call) : Flow I (I.Reply c) := .ask c .done

/-- Puts a program in place of each call. -/
def expand (f : (c : I.Call) → Flow J (I.Reply c)) : Flow I α → Flow J α
  | .done a => .done a
  | .ask c next => (f c).bind fun r => (next r).expand f

theorem done_bind (a : α) (f : α → Flow I β) : (done a).bind f = f a := rfl

theorem ask_bind (c : I.Call) (next : I.Reply c → Flow I α) (f : α → Flow I β) :
    (ask c next).bind f = .ask c fun r => (next r).bind f := rfl

theorem bind_done (p : Flow I α) : p.bind .done = p := by
  induction p with
  | done a => rfl
  | ask c next ih => simp only [bind, ih]

theorem bind_assoc (p : Flow I α) (f : α → Flow I β) (g : β → Flow I γ) :
    (p.bind f).bind g = p.bind fun a => (f a).bind g := by
  induction p with
  | done a => rfl
  | ask c next ih => simp only [bind, ih]

theorem expand_bind (h : (c : I.Call) → Flow J (I.Reply c)) (p : Flow I α)
    (f : α → Flow I β) :
    (p.bind f).expand h = (p.expand h).bind fun a => (f a).expand h := by
  induction p with
  | done a => rfl
  | ask c next ih => simp only [bind, expand, bind_assoc, ih]

instance : LawfulMonad (Flow I) where
  map_const := rfl
  id_map := bind_done
  seqLeft_eq p q := by
    change p.bind (fun a => q.bind fun _ => .done a) = (p.bind fun a => .done (Function.const _ a)).bind
      fun f => q.bind fun a => .done (f a)
    rw [bind_assoc]
    rfl
  seqRight_eq p q := by
    change p.bind (fun _ => q) = (p.bind fun a => .done (Function.const _ id a)).bind
      fun f => q.bind fun a => .done (f a)
    rw [bind_assoc]
    simp only [done_bind]
    exact congrArg _ (funext fun _ => (bind_done q).symm)
  pure_seq f p := rfl
  bind_pure_comp f p := rfl
  bind_map f p := rfl
  pure_bind _ _ := rfl
  bind_assoc := bind_assoc

end Flow

end AccountGate
