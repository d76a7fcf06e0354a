import Abacus.Binary64.Decimal
import Abacus.Json.Basic
import Abacus.Json.Quoted
import Abacus.Numeral.Free

/-!
# Tokens of JSON text

JSON text is cut into brackets, separators and scalars. A word is a run of letters, digits, signs
and points: a number, or one of the constants, among them three for the binary64 numbers that are
not finite. The tokens end where the text stops being JSON, with the error as the last token.

## Main definitions

* `Json.ReadError` — why a text cannot be read.
* `Json.Token` — the tokens.
* `Json.Token.scan` — the tokens of a text.
* `Json.ofWord` — the scalar a word stands for.
-/

namespace Abacus.Json

/-- Why a text cannot be read as JSON. The last of these is told apart from the others by what comes
of it: it ends loading, where others make a file hold no report. -/
inductive ReadError where
  /-- The text is no JSON text. -/
  | malformed
  /-- An integer has too many digits. -/
  | integerTooLong
  /-- Arrays and objects are nested too deep. -/
  | tooDeep
  deriving DecidableEq, Repr

/-- A token of JSON text. Strings, numbers and words are scalars, with their values. -/
inductive Token where
  | openArray
  | closeArray
  | openObject
  | closeObject
  | comma
  | colon
  | scalar (v : Json)
  | stop (error : ReadError)

/-- The four characters that may stand between tokens. -/
def isSpace (c : Char) : Bool := c == ' ' || c == '\t' || c == '\n' || c == '\r'

/-- The characters of words. Numbers are words too, and so have their marks among these. -/
def isWordChar (c : Char) : Bool := c.isAlphanum || c == '+' || c == '-' || c == '.'

/-- An unsigned whole number as JSON spells it: no leading zeros. -/
def isWhole : List Char → Bool
  | [] => false
  | ['0'] => true
  | c :: cs => c != '0' && (c :: cs).all Char.isDigit

/-- The number that a word without its sign spells. A number with a point or an exponent is a
binary64 number, any other is an integer. -/
def ofNumber (negative : Bool) (body : List Char) : Except ReadError Json :=
  let isMark (c : Char) : Bool := c == 'e' || c == 'E'
  let mantissa := body.takeWhile (!isMark ·)
  let power := body.dropWhile (!isMark ·)
  let whole := mantissa.takeWhile (· != '.')
  let places := mantissa.dropWhile (· != '.')
  if !isWhole whole || places == ['.'] then .error .malformed
  else if places.isEmpty && power.isEmpty then
    -- The sign of a zero is lost here: zero is one integer.
    if Numeral.maxIntegerDigits < whole.length then .error .integerTooLong
    else
      let n : Int := Decimal.ofDigits whole
      .ok (.int (if negative then -n else n))
  else
    match Numeral.scientific? body with
    | some d => .ok (.float (.ofDecimal negative d))
    | none => .error .malformed

/-- The scalar that a word stands for. Three words for numbers that are not finite are read,
although strict JSON has none. -/
def ofWord (word : List Char) : Except ReadError Json :=
  match String.ofList word with
  | "null" => .ok .null
  | "true" => .ok (.bool true)
  | "false" => .ok (.bool false)
  | "NaN" => .ok (.float .nan)
  | "Infinity" => .ok (.float (.infinite false))
  | "-Infinity" => .ok (.float (.infinite true))
  | _ =>
    match word with
    | '-' :: body => ofNumber true body
    | body => ofNumber false body

/-- The tokens of a text, up to the first place where there is none; then the error is the last of
them. So a reader that takes them one by one finds the first error of the text, whether it is one of
tokens or of what may follow what. -/
def Token.scan (cs : List Char) : List Token :=
  match cs with
  | [] => []
  | c :: rest =>
    if isSpace c then scan rest
    else if c = '[' then .openArray :: scan rest
    else if c = ']' then .closeArray :: scan rest
    else if c = '\x7b' then .openObject :: scan rest
    else if c = '\x7d' then .closeObject :: scan rest
    else if c = ',' then .comma :: scan rest
    else if c = ':' then .colon :: scan rest
    else if c = '"' then
      match h : Quoted.close? rest with
      | none => [.stop .malformed]
      | some (body, after) =>
        have := Quoted.close?_length h
        match Quoted.decode? body with
        | none => [.stop .malformed]
        | some s => .scalar (.str (String.ofList s)) :: scan after
    else if isWordChar c then
      have := (List.dropWhile_suffix isWordChar (l := rest)).length_le
      match ofWord (c :: rest.takeWhile isWordChar) with
      | .error e => [.stop e]
      | .ok v => .scalar v :: scan (rest.dropWhile isWordChar)
    else [.stop .malformed]
termination_by cs.length

end Abacus.Json
