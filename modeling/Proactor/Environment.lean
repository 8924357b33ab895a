import Proactor.Text.Blank
/-! # Environment variables

Named values, read with blanks at their ends dropped.  A variable that is not set, one whose value
is no text, and one that cannot be read are alike: each gives the default. -/

namespace Proactor

/-- The variables that are set, with their values; a value that is no text is `none`. -/
structure Environment where
  bindings : List (String × Option String) := []
deriving Repr, Inhabited

namespace Environment

/-- The value of a variable as it is set, if it is a text. -/
def get? (env : Environment) (key : String) : Option String :=
  (env.bindings.find? (·.1 == key)).bind (·.2)

/-- Whether a variable is set at all. -/
def isSet (env : Environment) (key : String) : Bool := env.bindings.any (·.1 == key)

/-- The value of a variable if it is set and can be read. -/
def read? {α : Type} (env : Environment) (key : String) (parse : String → Option α) : Option α :=
  (env.get? key).bind fun value => parse (Text.trim value)

/-- The value of a variable, or the default. -/
def read {α : Type} (env : Environment) (key : String) (parse : String → Option α)
    (default : α) : α :=
  (env.read? key parse).getD default

/-- The words for a switch, in any case. -/
def switch? (value : String) : Option Bool :=
  match Text.folded value with
  | "1" | "true" | "yes" | "on" => some true
  | "0" | "false" | "no" | "off" => some false
  | _ => none

/-- The switch that a variable holds, or the default. -/
def switch (env : Environment) (key : String) (default : Bool) : Bool :=
  env.read key switch? default

end Environment
end Proactor
