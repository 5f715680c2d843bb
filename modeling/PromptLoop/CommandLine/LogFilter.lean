import PromptLoop.Script.Word
import PromptLoop.Text.Split

set_option autoImplicit false

namespace PromptLoop.CommandLine.LogFilter

def levels : List String :=
  ["trace", "debug", "info", "warn", "error", "off", "0", "1", "2", "3", "4", "5"]

def isLevel (text : List Char) : Bool :=
  levels.contains (String.ofList (text.map Char.toLower))

def isTargetPart (c : Char) : Bool :=
  Unicode.isAlphabetic c || Unicode.isNumeric c || c == '_' || c == ':' || c == '-'

def afterSpan (text : List Char) : List Char :=
  match text with
  | '[' :: rest =>
    match rest.dropWhile (· != ']') with
    | _ :: rest => rest
    | [] => text
  | _ => text

def isDirective (text : List Char) : Bool :=
  isLevel text ||
    let rest := afterSpan (text.dropWhile isTargetPart)
    rest.length < text.length &&
      match rest with
      | [] => true
      | '=' :: level => level.isEmpty || isLevel level
      | _ => false

/-- Whether a text is a filter; empty directives do not count. -/
def isValid (text : String) : Bool :=
  (Text.splitAll ',' text.toList).all fun directive => directive.isEmpty || isDirective directive

end PromptLoop.CommandLine.LogFilter
