import PromptLoop.Number.Numeral
import PromptLoop.Session.Evaluator
import PromptLoop.Text.Split

set_option autoImplicit false

namespace PromptLoop.LineCommands

def contains (part text : String) : Bool :=
  let part := part.toList
  let rec go : List Char → Bool
    | [] => part.isEmpty
    | c :: rest => part.isPrefixOf (c :: rest) || go rest
  go text.toList

def splitBinding? : List Char → Option (List Char × List Char)
  | [] => none
  | ':' :: '=' :: rest => some ([], rest)
  | c :: rest => (splitBinding? rest).map fun (before, after) => (c :: before, after)

def unitText (text : List Char) : String :=
  String.ofList (text.map fun c => if c = '\n' then ' ' else c)

def declaration (left : List Char) : Declaration :=
  let left := Text.trim left
  if "let ".toList.isPrefixOf left then ⟨String.ofList (Text.trim (left.drop 4)), true⟩
  else ⟨String.ofList left, false⟩

def compile (source : String) : Compilation String :=
  let chars := Text.trim source.toList
  let text := String.ofList chars
  if contains "bad" text then .fatal (.compile "Unexpected identifier")
  else if contains "abort" text then .fatal (.protocolViolation "abort")
  else if text.startsWith "open" && !contains "close" text then .incomplete
  else match splitBinding? chars with
    | some (left, right) => .ready (unitText (Text.trim right)) (some (declaration left))
    | none => .ready (unitText chars) none

def words (text : String) : List String :=
  let parts := text.toList.foldr (fun c (parts : List (List Char)) =>
    if Unicode.isWhiteSpace c then [] :: parts
    else match parts with
      | [] => [[c]]
      | part :: rest => (c :: part) :: rest) [[]]
  (parts.filter (!·.isEmpty)).map String.ofList

def lateOutcome : Option String → Except SessionError (Option Value)
  | none => .ok none
  | some "boom" => .error (.runtime "late boom")
  | some "fatal" => .error (.protocolViolation "late fatal")
  | some word => .ok (some (.string word))

def wait (word : String) : Nat :=
  if word.isEmpty || !word.toList.all Char.isDigit then 0 else Numeral.natural word.toList

def execute (unit : String) (context : Bindings Value) : Execution × Bindings Value :=
  match words unit with
  | "boom" :: _ => (.failed (.runtime "boom"), context)
  | "fatal" :: _ => (.failed (.protocolViolation "fatal"), context)
  | "config" :: _ => (.failed (.invalidConfiguration "config"), context)
  | "quiet" :: _ => (.immediate none, context)
  | "forever" :: _ => (.pending ⟨none, .ok none⟩, context)
  | "get" :: rest => (.immediate (context.get? (rest.headD "")), context)
  | "put" :: rest =>
    (.immediate none, context.insert (rest.headD "") (.ofInt (rest.length + 1)))
  | "later" :: rest =>
    (.pending ⟨some (wait (rest.headD "")), lateOutcome (rest.drop 1).head?⟩, context)
  | _ => (.immediate (some (.string unit)), context)

def evaluator : Evaluator String := ⟨compile, execute⟩

end PromptLoop.LineCommands
