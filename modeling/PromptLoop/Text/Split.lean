import PromptLoop.Unicode.WhiteSpace

set_option autoImplicit false

namespace PromptLoop.Text

def trimStart (s : List Char) : List Char :=
  s.dropWhile Unicode.isWhiteSpace

def trimEnd (s : List Char) : List Char :=
  (s.reverse.dropWhile Unicode.isWhiteSpace).reverse

def trim (s : List Char) : List Char :=
  trimEnd (trimStart s)

def splitFirst? (separator : Char) : List Char → Option (List Char × List Char)
  | [] => none
  | c :: rest =>
    if c = separator then some ([], rest)
    else (splitFirst? separator rest).map fun (before, after) => (c :: before, after)

def splitAll (separator : Char) : List Char → List (List Char)
  | [] => [[]]
  | c :: rest =>
    if c = separator then [] :: splitAll separator rest
    else match splitAll separator rest with
      | [] => [[c]]
      | part :: parts => (c :: part) :: parts

end PromptLoop.Text
