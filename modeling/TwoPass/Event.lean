import TwoPass.Error

/-!
Events: what an assembler run reports while it works, and runs that keep them in order beside their
result.
-/

namespace TwoPass

inductive EventLevel where
  | debug
  | trace
deriving DecidableEq

inductive Event where
  | sourceParsed (statements : Nat)
  | frontEndDone (before after : Nat)
  | firstPassDone (labels : Nat) (instructions : UInt32)
  | encoded (address : UInt32) (word : UInt16) (mnemonic : String)
  | secondPassDone (instructions : Nat)
deriving DecidableEq

namespace Event

def level : Event → EventLevel
  | encoded .. => .trace
  | _ => .debug

def message : Event → String
  | sourceParsed _ => "parsed source"
  | frontEndDone .. => "front end done"
  | firstPassDone .. => "pass 1 complete"
  | encoded .. => "encoded"
  | secondPassDone _ => "pass 2 complete"

end Event

structure Run (α : Type) where
  events : List Event
  result : Except AssemblyError α

namespace Run

def report (event : Event) : Run Unit :=
  ⟨[event], .ok ()⟩

def ofExcept {α : Type} (result : Except AssemblyError α) : Run α :=
  ⟨[], result⟩

def andThen {α β : Type} (run : Run α) (next : α → Run β) : Run β :=
  match run.result with
  | .error error => ⟨run.events, .error error⟩
  | .ok value =>
      let rest := next value
      ⟨run.events ++ rest.events, rest.result⟩

instance : Monad Run where
  pure value := ⟨[], .ok value⟩
  bind := andThen

variable {α β : Type}

theorem bind_of_ok {run : Run α} {value : α} (ended : run.result = .ok value) (next : α → Run β) :
    run >>= next = ⟨run.events ++ (next value).events, (next value).result⟩ := by
  change run.andThen next = _
  simp [andThen, ended]

theorem bind_of_error {run : Run α} {error : AssemblyError} (ended : run.result = .error error)
    (next : α → Run β) : run >>= next = ⟨run.events, .error error⟩ := by
  change run.andThen next = _
  simp [andThen, ended]

end Run

end TwoPass
