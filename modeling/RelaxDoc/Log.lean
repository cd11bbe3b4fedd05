/-! Messages about the progress of a run, and values that come with them. -/
namespace RelaxDoc

/-- How much a message matters, the gravest first. -/
inductive Level where
  | warn
  | info
  | debug
  | trace
  deriving DecidableEq, Repr

/-- The position of a level: a run that shows a level shows all before it. -/
def Level.rank : Level → Nat
  | .warn => 0
  | .info => 1
  | .debug => 2
  | .trace => 3

/-- The name of a level as it stands in front of a message. -/
def Level.name : Level → String
  | .warn => "WARN"
  | .info => "INFO"
  | .debug => "DEBUG"
  | .trace => "TRACE"

/-- One message of a run. -/
structure Message where
  level : Level
  text : String
  deriving DecidableEq, Repr

/-- Whether a run that shows messages up to `limit` shows this one. -/
def Message.shownAt (limit : Level) (m : Message) : Bool := m.level.rank ≤ limit.rank

/-- A value with the messages that arose on the way to it, in order. -/
structure Traced (α : Type) where
  messages : List Message
  value : α

namespace Traced

instance : Monad Traced where
  pure a := ⟨[], a⟩
  bind x f := ⟨x.messages ++ (f x.value).messages, (f x.value).value⟩

instance : LawfulMonad Traced := .mk' Traced
  (fun x => congrArg (Traced.mk · x.value) (List.append_nil x.messages))
  (fun _ _ => rfl)
  (fun _ _ _ => congrArg (Traced.mk · _) (List.append_assoc ..))

/-- A message and nothing else. -/
def say (level : Level) (text : String) : Traced Unit := ⟨[⟨level, text⟩], ()⟩

/-- Messages and nothing else. -/
def sayAll (messages : List Message) : Traced Unit := ⟨messages, ()⟩

@[simp] theorem value_bind {α β : Type} (x : Traced α) (f : α → Traced β) :
    (x >>= f).value = (f x.value).value := rfl

end Traced

end RelaxDoc
