import WordC.Diagnostic
import WordC.Module

namespace WordC

-- The tool chain that finished modules are handed to, with all that is known of it here: why it refuses a module when
-- it checks it or loads it, where it puts a function, and what calling the function gives.
structure Backend where
  refusal? : Module → Option String
  loadRefusal? : Module → Option String
  address? : Module → String → Option Nat
  value : Module → String → Except String Int

namespace Backend

def verify (backend : Backend) (m : Module) : Except BackendFailure Unit :=
  match backend.refusal? m with
  | none => .ok ()
  | some reason => .error (.rejected reason)

def load (backend : Backend) (m : Module) : Except BackendFailure Unit :=
  match backend.loadRefusal? m with
  | none => .ok ()
  | some reason => .error (.jitFailed reason)

def address (backend : Backend) (m : Module) (entry : String) : Except BackendFailure Nat :=
  match backend.address? m entry with
  | none => .error (.noAddress entry)
  | some address => .ok address

def call (backend : Backend) (m : Module) (entry : String) : Except BackendFailure Int :=
  (backend.value m entry).mapError (.noResult entry)

end Backend

end WordC
