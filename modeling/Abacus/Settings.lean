import Abacus.Numeral.Free
import Abacus.Text.Quoted

/-!
# Settings

The two settings that the environment gives: whether scanning is strict, and how many significant
digits are displayed.

## Main definitions

* `Settings` — the settings, and `Settings.override`, with options over them.
* `Settings.SettingError` — a variable that cannot be understood, with its wording.
* `Settings.ofEnvironment` — the settings that an environment gives.
-/

namespace Abacus

/-- Scanning and display settings. Without a number of digits, values are displayed in full. -/
structure Settings where
  strict : Bool
  digits : Option Int
  deriving DecidableEq, Repr

namespace Settings

/-- The variable for strict scanning. -/
def strictVariable : String := "RECKON_STRICT_TOKENS"

/-- The variable for the number of significant digits. -/
def digitsVariable : String := "RECKON_DIGITS"

/-- The words that turn a setting on. -/
def onWords : List String := ["1", "true", "yes", "on"]

/-- The words that turn a setting off; so does a variable that is empty or missing. -/
def offWords : List String := ["0", "false", "no", "off"]

/-- A variable that cannot be understood. -/
inductive SettingError where
  /-- The variable is none of the words for on and off. -/
  | notASwitch (variableName text : String)
  /-- The variable is no integer. -/
  | notAnInteger (variableName text : String)
  /-- The integer is below one. -/
  | belowOne (variableName : String) (n : Int)
  deriving DecidableEq, Repr

/-- The wording of an error. -/
def SettingError.message : SettingError → String
  | notASwitch variableName text =>
    variableName ++ " must be one of " ++ ", ".intercalate (onWords ++ offWords) ++ ", got " ++
      Text.quote text
  | notAnInteger variableName text =>
    variableName ++ " must be an integer, got " ++ Text.quote text
  | belowOne variableName n => variableName ++ " must be at least 1, got " ++ toString n

/-- The switch that a variable spells, with blanks around and in any case. Only the case of ASCII
letters is changed: no letter of another alphabet has a lower case that stands in a word. -/
def switchOf (variableName text : String) : Except SettingError Bool :=
  let word := String.ofList ((Text.trim text).toList.map Char.toLower)
  if onWords.contains word then .ok true
  else if word.isEmpty || offWords.contains word then .ok false
  else .error (.notASwitch variableName text)

/-- The number of digits that a variable spells; none if it is blank. It may be any integer from one
on; whether numbers can be shown in so many digits is found out later. -/
def digitsOf (variableName text : String) : Except SettingError (Option Int) :=
  if Text.isAllBlank text then .ok none
  else
    match Numeral.integer? text with
    | none => .error (.notAnInteger variableName text)
    | some n => if n < 1 then .error (.belowOne variableName n) else .ok (some n)

/-- The value of a variable; a missing one is empty. Of two variables of one name the first
counts. -/
def variableText (environment : List (String × String)) (name : String) : String :=
  ((environment.find? fun entry => entry.1 == name).map Prod.snd).getD ""

/-- The settings of an environment. Of two variables that cannot be understood, the one for strict
scanning is reported. -/
def ofEnvironment (environment : List (String × String)) : Except SettingError Settings := do
  let strict ← switchOf strictVariable (variableText environment strictVariable)
  let digits ← digitsOf digitsVariable (variableText environment digitsVariable)
  return ⟨strict, digits⟩

/-- The settings with each option that is given in place of the setting. An option wins whatever the
variable says, as long as the variable can be understood. -/
def override (settings : Settings) (strict : Option Bool) (digits : Option Int) : Settings where
  strict := strict.getD settings.strict
  digits := digits.or settings.digits

end Settings

end Abacus
