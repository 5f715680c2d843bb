set_option autoImplicit false

namespace PromptLoop.Terminal

inductive Attribute where
  | bold | dim | red | green | yellow | blue | magenta
deriving DecidableEq, Repr

def Attribute.code : Attribute → List Char
  | .bold => ['1']
  | .dim => ['2']
  | .red => ['3', '1']
  | .green => ['3', '2']
  | .yellow => ['3', '3']
  | .blue => ['3', '4']
  | .magenta => ['3', '5']

def sequence (code : List Char) : List Char :=
  '\x1b' :: '[' :: code ++ ['m']

def paint (attributes : List Attribute) (text : List Char) : List Char :=
  attributes.flatMap (fun a => sequence a.code) ++ text ++ sequence ['0']

/-- Paints only where styling is on. -/
def paintIf (styled : Bool) (attributes : List Attribute) (text : List Char) : List Char :=
  if styled then paint attributes text else text

end PromptLoop.Terminal
