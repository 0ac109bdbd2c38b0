import MockTree.Template.Datum
import MockTree.Decimal.Reader
import MockTree.Text.Case
import MockTree.Text.Blank
/-! The named arguments that directives take, and what they make of them. -/
namespace MockTree.Directive
open Text

/-- The fields of a directive's arguments with what they hold when they are not given, and other
names for them. -/
structure Signature where
  fields : List (String × Value)
  aliases : List (String × String)

namespace Signature

def fieldOf (s : Signature) (name : String) : String := (s.aliases.lookup name).getD name

/-- The last argument given for a field, by any of its names. -/
def given? (s : Signature) (field : String) (args : List (String × Datum)) : Option Datum :=
  (args.reverse.find? fun a => s.fieldOf a.1 == field).map (·.2)

/-- Every field with what it holds. Arguments for no field are left out. -/
def fill (s : Signature) (args : List (String × Datum)) : List (String × Datum) :=
  s.fields.map fun (name, usual) => (name, (s.given? name args).getD (.value usual))

/-- What a field holds. -/
def get (s : Signature) (field : String) (args : List (String × Datum)) : Datum :=
  (s.given? field args).getD ((s.fields.lookup field).elim .null .value)

end Signature

/-- A whole number; null and booleans are none. -/
def wholeNumber? : Datum → Option Int
  | .value .null | .value (.bool _) => none
  | d => Decimal.readInt? (trim d.plain)

/-- A whole number, or a decimal cut down to one. -/
def bound? : Datum → Option Int
  | .value .null | .value (.bool _) => none
  | d => (wholeNumber? d).or ((Decimal.read? (trim d.plain)).bind Double.truncate?)

def isYes : Datum → Bool
  | .value (.bool b) => b
  | d => lowerList (trim d.plain) == "true".toList

def isNull : Datum → Bool
  | .null => true
  | _ => false

/-- Whether a datum is this text. -/
def isText (s : String) : Datum → Bool
  | .value (.text t) => t == s
  | _ => false

end MockTree.Directive
