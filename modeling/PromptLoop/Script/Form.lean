import PromptLoop.Script.Expr
import PromptLoop.Value.Text

set_option autoImplicit false

namespace PromptLoop.Script

def quotedName (name : String) : List Char :=
  Value.chars (.string name)

mutual

def Expr.form : Expr → List Char
  | .literal v => "(lit ".toList ++ v.chars ++ [')']
  | .name n => "(id ".toList ++ quotedName n ++ [')']
  | .array items => "(arr".toList ++ formOfItems items ++ [')']
  | .object entries => "(obj".toList ++ formOfEntries entries ++ [')']
  | .member target name => "(mem ".toList ++ target.form ++ ' ' :: quotedName name ++ [')']
  | .index target position => "(idx ".toList ++ target.form ++ ' ' :: position.form ++ [')']
  | .unary .negate operand => "(neg ".toList ++ operand.form ++ [')']
  | .unary .not operand => "(not ".toList ++ operand.form ++ [')']
  | .binary op left right =>
    "(bin ".toList ++ op.symbol.toList ++ ' ' :: left.form ++ ' ' :: right.form ++ [')']
  | .call function arguments =>
    "(call ".toList ++ quotedName function ++ formOfItems arguments ++ [')']
termination_by structural e => e

def formOfItems : List Expr → List Char
  | [] => []
  | e :: rest => ' ' :: e.form ++ formOfItems rest
termination_by structural items => items

def formOfEntries : List (String × Expr) → List Char
  | [] => []
  | entry :: rest => ' ' :: formOfEntry entry ++ formOfEntries rest
termination_by structural entries => entries

def formOfEntry : String × Expr → List Char
  | (key, e) => '(' :: quotedName key ++ ' ' :: e.form ++ [')']
termination_by structural entry => entry

end

def Statement.form : Statement → List Char
  | .empty => "(empty)".toList
  | .expr e => "(expr ".toList ++ e.form ++ [')']
  | .assign name e false => "(assign ".toList ++ quotedName name ++ ' ' :: e.form ++ [')']
  | .assign name e true => "(let ".toList ++ quotedName name ++ ' ' :: e.form ++ [')']

end PromptLoop.Script
