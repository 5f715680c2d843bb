import PromptLoop.Unicode.GraphemeExtend
import PromptLoop.Unicode.Hidden

set_option autoImplicit false

namespace PromptLoop.Visible

def hexDigits (n : Nat) : List Char :=
  Nat.toDigits 16 n

def byNumber (c : Char) : List Char :=
  ['\\', 'u', '\x7b'] ++ hexDigits c.toNat ++ ['\x7d']

def escape (c : Char) : List Char :=
  if c = '\x00' then ['\\', '0']
  else if c = '\t' then ['\\', 't']
  else if c = '\r' then ['\\', 'r']
  else if c = '\n' then ['\\', 'n']
  else if c = '"' then ['\\', '"']
  else if c = '\\' then ['\\', '\\']
  else if Unicode.isCombining c || Unicode.isHidden c then byNumber c
  else [c]

def encode (s : List Char) : List Char :=
  '"' :: s.flatMap escape ++ ['"']

end PromptLoop.Visible
