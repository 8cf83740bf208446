import PacketPolicy.Render.Log

/-!
This module contains computations that log and may fail. What was logged before a failure is kept.
-/

namespace PacketPolicy

structure Traced (ε α : Type) where
  log : List Log.Entry
  result : Except ε α

namespace Traced

protected def pure (a : α) : Traced ε α :=
  ⟨[], .ok a⟩

protected def bind (x : Traced ε α) (f : α → Traced ε β) : Traced ε β :=
  match x.result with
  | .error e => ⟨x.log, .error e⟩
  | .ok a => ⟨x.log ++ (f a).log, (f a).result⟩

instance : Monad (Traced ε) where
  pure := Traced.pure
  bind := Traced.bind

def fail (e : ε) : Traced ε α :=
  ⟨[], .error e⟩

def tell (entries : List Log.Entry) : Traced ε Unit :=
  ⟨entries, .ok ()⟩

def ofExcept (x : Except ε α) : Traced ε α :=
  ⟨[], x⟩

end Traced
end PacketPolicy
