import MockTree.Value.Basic
/-! The syntax of templates: text, tags that print a value, blocks, partials and raw blocks. -/
namespace MockTree.Template

/-- An argument of a tag. -/
inductive Argument
  | literal (s : Scalar)
  | path (segments : List String)
  | call (name : String) (positional : List Argument) (named : List (String × Argument))
  deriving Repr

/-- The arguments of a tag: those by position come first. -/
structure Arguments where
  positional : List Argument
  named : List (String × Argument)
  deriving Repr

inductive Node
  | text (s : List Char)
  /-- Prints a value, with special characters replaced if it is to be escaped. -/
  | print (escaped : Bool) (path : List String) (args : Arguments)
  /-- An inverted block prints its body where another prints its alternative. -/
  | block (inverted : Bool) (name : String) (args : Arguments) (body : List Node)
      (hasAlternative : Bool) (alternative : List Node)
  | part (name : String)
  /-- A block whose text is taken as it stands. -/
  | raw (name : String) (args : Arguments) (text : List Char)
  deriving Repr

end MockTree.Template
