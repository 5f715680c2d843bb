import PromptLoop.Value

set_option autoImplicit false

namespace PromptLoop

structure Host where
  processId : Nat := 1
  platform : String := "linux"
  architecture : String := "x86_64"

def version : String := "0.1.0"

def processName : String := "process"

def Host.value (h : Host) : Value :=
  .object [("pid", .ofInt h.processId), ("platform", .string h.platform),
    ("arch", .string h.architecture)]

def Host.seeds (h : Host) : Bindings Value :=
  [(processName, h.value), ("prepl", .object [("version", .string version)])]

/-- A context without the description of the process, unless the name was bound to something
else. -/
def Host.withoutProcess (h : Host) (context : Bindings Value) : Bindings Value :=
  context.filter fun (name, v) => !(name == processName && v.same h.value)

end PromptLoop
