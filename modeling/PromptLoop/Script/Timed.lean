set_option autoImplicit false

namespace PromptLoop.Script

structure Timed (ε α : Type) where
  waits : List Nat
  outcome : Except ε α
deriving Repr

namespace Timed
variable {ε α β : Type}

def ok (a : α) : Timed ε α := ⟨[], .ok a⟩

def fail (e : ε) : Timed ε α := ⟨[], .error e⟩

def ofExcept (x : Except ε α) : Timed ε α := ⟨[], x⟩

def after (wait : Nat) (a : α) : Timed ε α := ⟨[wait], .ok a⟩

def bind (x : Timed ε α) (f : α → Timed ε β) : Timed ε β :=
  match x.outcome with
  | .ok a =>
    let y := f a
    ⟨x.waits ++ y.waits, y.outcome⟩
  | .error e => ⟨x.waits, .error e⟩

instance : Monad (Timed ε) where
  pure := ok
  bind := bind

def duration (x : Timed ε α) : Nat :=
  x.waits.foldr (· + ·) 0

theorem bind_ok (a : α) (f : α → Timed ε β) : (ok a).bind f = f a := by
  simp [bind, ok]

theorem bind_outcome (x : Timed ε α) (f : α → Timed ε β) :
    (x.bind f).outcome = x.outcome.bind fun a => (f a).outcome := by
  cases h : x.outcome <;> simp [bind, h, Except.bind]

theorem bind_assoc {γ : Type} (x : Timed ε α) (f : α → Timed ε β) (g : β → Timed ε γ) :
    (x.bind f).bind g = x.bind fun a => (f a).bind g := by
  obtain ⟨waits, e | a⟩ := x
  · rfl
  · cases h : (f a).outcome <;> simp [bind, h]

end Timed
end PromptLoop.Script
