import SyntaxTriage.Failure
import SyntaxTriage.Mode

/-!
Results with a log. The log tells when a thread makes the parser that it will use for all sources,
which sources have been read in full and which failures have been translated, in the order in which
this was done; an error keeps what was logged before.
-/

namespace SyntaxTriage

inductive Event where
  | building (thread : String)
  /-- A source of so many characters has been read in full. -/
  | parsed (characters : Nat) (mode : Mode)
  | translated (failure : Failure)
  deriving DecidableEq

def Event.message : Event → String
  | building thread => "pyfront.parser: Building Python LALR parser for " ++ thread
  | parsed characters mode =>
    s!"pyfront.parser: Parsed {characters} characters in {mode.name} mode"
  | translated failure =>
    "pyfront.engine: Translated " ++ failure.shapeName ++ " into " ++
      failure.toParseError.toDiagnostic.debug

structure Traced (ε α : Type) where
  events : List Event
  result : Except ε α

namespace Traced

variable {ε α β : Type}

def ofExcept (result : Except ε α) : Traced ε α := ⟨[], result⟩

def log (event : Event) : Traced ε Unit := ⟨[event], .ok ()⟩

protected def bind (x : Traced ε α) (f : α → Traced ε β) : Traced ε β :=
  match x.result with
  | .ok a => ⟨x.events ++ (f a).events, (f a).result⟩
  | .error e => ⟨x.events, .error e⟩

instance : Monad (Traced ε) where
  pure a := ofExcept (.ok a)
  bind := Traced.bind

def handle {ε' : Type} (x : Traced ε α) (onError : ε → Traced ε' β) (onOk : α → Traced ε' β) :
    Traced ε' β :=
  let next := match x.result with
    | .ok a => onOk a
    | .error e => onError e
  ⟨x.events ++ next.events, next.result⟩

end Traced

end SyntaxTriage
