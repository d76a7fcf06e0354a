import Abacus.Display.Style
import Abacus.Text.Blank

/-!
# Tags of styles

A tag has a name between its brackets and, behind an equals sign, parameters. Many spellings stand
for one name: `b` for `bold`, letters of either case, the words of a style in any order. What they
stand for is up to the display, as are the styles themselves and what a handler, a tag whose name
begins with `@`, may be given.

None of this is settled here. How tags are read is a parameter of all that is shown, and no more is
known of it than that the name of a colour stands for itself and has the style of that colour. So
what is proved of shown text holds however else tags are read. `TagReading.basic` is the reading of
the programs that are run.

## Main definitions

* `Tag` — a tag that is open.
* `TagReading` — how a display reads tags.
* `TagReading.basic` — a reading that knows the eight colours and three attributes.
-/

namespace Abacus.Display

/-- A tag that is open: the name that its spelling stands for, and its parameters, if it has an
equals sign. -/
structure Tag where
  name : String
  parameters : Option String
  deriving DecidableEq, Repr

/-- How a display reads tags. It is a class so that statements about shown text carry it without a
word; every display is one instance. -/
class TagReading where
  /-- The name that a spelling stands for. A closing tag closes an open tag of the same name. There
  is none where the display fails on a spelling. -/
  name? : String → Option String
  /-- The style of what stands inside a tag, the plain one where the display knows no better. There
  is none where the display fails to make the style. -/
  style? : Tag → Option Style
  /-- Whether the parameters of a handler can be evaluated. -/
  evaluates : String → Bool
  name?_colour (colour : Colour) : name? colour.name = some colour.name
  style?_colour (colour : Colour) : style? ⟨colour.name, none⟩ = some (.ofColour colour)

namespace Tag

/-- The spelling of a name, up to the first equals sign. -/
def spelling (inside : List Char) : String := String.ofList (inside.takeWhile (· != '='))

/-- The parameters behind the first equals sign, if there is one. -/
def parameters? (inside : List Char) : Option String :=
  match inside.dropWhile (· != '=') with
  | [] => none
  | _ :: parameters => some (String.ofList parameters)

variable [TagReading]

/-- The tag that opens, if its name can be read. Parameters are kept as they are; they are looked at
when the tag is closed. -/
def read? (inside : List Char) : Option Tag :=
  (TagReading.name? (spelling inside)).map fun name => ⟨name, parameters? inside⟩

/-- Whether a tag can be closed. It is only then that the parameters of a handler are evaluated, so
one that stays open may have any. -/
def canClose (tag : Tag) : Bool :=
  match tag.name.toList, tag.parameters with
  | '@' :: _, some parameters => parameters.isEmpty || TagReading.evaluates parameters
  | _, _ => true

end Tag

namespace TagReading

/-- The name of a spelling in lower-case letters, three short forms written out. -/
def basicName (spelling : String) : String :=
  match String.ofList ((Text.trim spelling).toList.map Char.toLower) with
  | "b" => "bold"
  | "d" => "dim"
  | "i" => "italic"
  | name => name

/-- The reading that programs are run with. It knows the eight colours and three attributes, each
alone and without parameters; every other tag has the plain style, and a handler can be given a name
but no arguments. -/
instance basic : TagReading where
  name? spelling := some (basicName spelling)
  style? tag := some (if tag.parameters.isNone then .ofName tag.name else .plain)
  evaluates parameters :=
    (Text.trim parameters).toList.all fun c => c.isAlphanum || c == '_' || c == '.'
  name?_colour colour := by cases colour <;> decide +kernel
  style?_colour colour := by cases colour <;> decide +kernel

end TagReading

end Abacus.Display
