import RelaxDoc.Error
import RelaxDoc.Log

/-! Runs: computations that may fail and leave messages, also when they fail. -/
namespace RelaxDoc

/-- A computation that may fail and leaves messages. -/
abbrev Run (α : Type) : Type := ExceptT Error Traced α

namespace Run

/-- The run of a computation that leaves no message. -/
def ofExcept {α : Type} (result : Except Error α) : Run α := ExceptT.mk (pure result)

/-- A run that leaves a message and nothing else. -/
def say (level : Level) (text : String) : Run Unit := ExceptT.lift (Traced.say level text)

/-- A run that leaves messages and nothing else. -/
def sayAll (messages : List Message) : Run Unit := ExceptT.lift (Traced.sayAll messages)

/-- What a run comes to. -/
def result {α : Type} (run : Run α) : Except Error α := (ExceptT.run run).value

/-- The messages that a run leaves. -/
def messages {α : Type} (run : Run α) : List Message := (ExceptT.run run).messages

theorem ofExcept_ok {α : Type} (a : α) : ofExcept (.ok a) = pure a := rfl

theorem ofExcept_error_bind {α β : Type} (e : Error) (next : α → Run β) :
    ofExcept (.error e) >>= next = ofExcept (.error e) := rfl

theorem sayAll_append (before after : List Message) :
    sayAll (before ++ after) = sayAll before >>= fun _ => sayAll after := by
  refine congrArg (fun messages => (⟨messages, .ok ()⟩ : Traced (Except Error Unit))) ?_
  change before ++ after ++ [] = before ++ [] ++ (after ++ [])
  simp only [List.append_nil]

end Run

end RelaxDoc
