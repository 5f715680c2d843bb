set_option autoImplicit false

namespace PromptLoop

inductive SessionError where
  | protocolViolation (message : String)
  | compile (message : String)
  | runtime (message : String)
  | transport (message : String)
  | interrupted
  | invalidConfiguration (message : String)
deriving DecidableEq, Repr

namespace SessionError

def message : SessionError → String
  | .protocolViolation m => "Protocol violation: " ++ m
  | .compile m => "SyntaxError: " ++ m
  | .runtime m => "Error: " ++ m
  | .transport m => "Transport error: " ++ m
  | .interrupted => "Interrupted"
  | .invalidConfiguration m => "Invalid configuration: " ++ m

def isFatal : SessionError → Bool
  | .protocolViolation _ => true
  | .transport _ => true
  | _ => false

end SessionError
end PromptLoop
