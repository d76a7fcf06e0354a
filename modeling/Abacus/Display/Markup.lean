import Abacus.Display.Tag

/-!
# Markup

Text with style tags: `[red]` opens a style and `[/red]` or `[/]` closes one. A bracket that starts
with a lower-case letter, `#`, `/` or `@` is a tag; backslashes before a tag count: pairs of them
show as one, and with an odd number of them the tag is text. Other brackets are text anyway.

## Main definitions

* `Markup.pieces` — the characters and tags of a text.
* `Markup.escape` — the markup that is meant to show a text as it is.
* `Markup.Open` — the tags that are open, `Open.apply` for one more tag.
* `Markup.render` — the styled text of markup.

## Design notes

What the inside of a tag means is up to a `TagReading`; which brackets are tags, and which open tag
a closing one closes, is settled here. Two things differ from a display. It makes the style of a tag
when it shows what stands inside, and only then fails if there is none, while such a tag fails here
as soon as it opens; the two part ways where nothing is shown inside. And names between colons are
left as they are, where a display may show a picture.
-/

namespace Abacus.Display.Markup

/-- What may follow the bracket of a tag. Capital letters and digits may not, so brackets with these
are shown. -/
def startsTag (c : Char) : Bool :=
  ('a' ≤ c && c ≤ 'z') || c == '#' || c == '/' || c == '@'

/-- The inside of a tag at the front of a text, and what follows the tag. A tag ends at the first
closing bracket, and no opening bracket comes before it. -/
def tag? : List Char → Option (List Char × List Char)
  | '[' :: c :: rest =>
    if startsTag c then
      let inside (d : Char) : Bool := d != '[' && d != ']'
      match rest.dropWhile inside with
      | ']' :: after => some (c :: rest.takeWhile inside, after)
      | _ => none
    else none
  | _ => none

theorem tag?_length {cs inside after : List Char} (h : tag? cs = some (inside, after)) :
    after.length < cs.length := by
  unfold tag? at h
  split at h
  · rename_i c rest
    split at h
    · dsimp only at h
      split at h
      · rename_i tail htail
        have hsuffix := (List.dropWhile_suffix
          (fun d : Char => d != '[' && d != ']') (l := rest)).length_le
        rw [htail] at hsuffix
        cases h
        simp only [List.length_cons] at hsuffix ⊢
        omega
      · cases h
    · cases h
  · cases h

/-- A part of a text in terms of markup. -/
inductive Piece where
  | char (c : Char)
  /-- A bracket that looks like a tag, with the number of backslashes before it. -/
  | tag (backslashes : Nat) (inside : List Char)
  deriving DecidableEq, Repr

/-- The parts of a text. Backslashes are part of a tag only if it follows directly; all others are
characters of the text. -/
def pieces (cs : List Char) : List Piece :=
  match h : tag? (cs.dropWhile (· == '\\')) with
  | some (inside, after) =>
    have := tag?_length h
    have := (List.dropWhile_suffix (· == '\\') (l := cs)).length_le
    .tag (cs.takeWhile (· == '\\')).length inside :: pieces after
  | none =>
    match cs with
    | [] => []
    | c :: rest => .char c :: pieces rest
termination_by cs.length
decreasing_by
  · omega
  · simp only [List.length_cons]; omega

/-- A bracket around the inside of a tag. -/
def bracket (inside : List Char) : List Char := '[' :: inside ++ [']']

/-- A part of a text with backslashes that make it text: one more than twice those before a
tag. -/
def escapePiece : Piece → List Char
  | .char c => [c]
  | .tag backslashes inside => List.replicate (2 * backslashes + 1) '\\' ++ bracket inside

/-- Whether a text ends in exactly one backslash. -/
def endsInBackslash (cs : List Char) : Bool :=
  match cs.reverse with
  | '\\' :: '\\' :: _ => false
  | '\\' :: _ => true
  | _ => false

/-- The markup for a text: tags are made text, and a single backslash at the end is doubled, so that
it does not reach a tag that follows. No other backslash is looked at, and rendering takes some of
them away; so not every text is shown as it was. -/
def escape (cs : List Char) : List Char :=
  let escaped := (pieces cs).flatMap escapePiece
  if endsInBackslash escaped then escaped ++ ['\\'] else escaped

/-- What is wrong with a tag. Which of them a tag has depends on how the display reads tags, and on
what is open around it. -/
inductive Fault where
  /-- A closing tag closes nothing. -/
  | unopened (name : String)
  /-- No name is known by the spelling. -/
  | unreadable (spelling : String)
  /-- There is no style for a tag that opens. -/
  | unstyled (tag : Tag)
  /-- A handler is closed whose parameters cannot be evaluated. -/
  | unevaluated (tag : Tag)
  deriving DecidableEq, Repr

/-- The tags that are open, innermost first. -/
abbrev Open := List Tag

namespace Open

variable [TagReading]

/-- The style of text inside open tags. What an inner tag leaves open is taken from those around
it. -/
def style (opened : Open) : Style :=
  opened.foldr (fun tag outer => ((TagReading.style? tag).getD .plain).within outer) .plain

/-- The open tags after one opens. A tag may open again inside itself. -/
def enter (opened : Open) (inside : List Char) : Except Fault Open :=
  match Tag.read? inside with
  | none => .error (.unreadable (Tag.spelling inside))
  | some tag =>
    if (TagReading.style? tag).isSome then .ok (tag :: opened) else .error (.unstyled tag)

/-- The open tags after the innermost of those that fit a closing tag is closed. It need not be the
innermost of all: tags may cross. -/
def leave (opened : Open) (name : String) (fits : Tag → Bool) : Except Fault Open :=
  match opened.find? fits with
  | none => .error (.unopened name)
  | some tag => if tag.canClose then .ok (opened.eraseP fits) else .error (.unevaluated tag)

/-- The open tags after a tag. A closing tag closes the innermost tag of its name, or the innermost
of all if it has no name. -/
def apply (opened : Open) (inside : List Char) : Except Fault Open :=
  match inside with
  | '/' :: rest =>
    let spelling := Text.trim (Tag.spelling rest)
    if spelling.isEmpty then opened.leave spelling fun _ => true
    else
      match TagReading.name? spelling with
      | none => .error (.unreadable spelling)
      | some name => opened.leave name fun tag => tag.name == name
  | _ => opened.enter inside

end Open

section Render

variable [TagReading]

/-- The styled text of the parts of markup. Outside tags a backslash before an opening bracket is
not shown. -/
def renderPieces (opened : Open) : List Piece → Except Fault StyledText
  | [] => .ok []
  | .char '\\' :: .char '[' :: rest =>
    (renderPieces opened rest).map (('[', opened.style) :: ·)
  | .char c :: rest => (renderPieces opened rest).map ((c, opened.style) :: ·)
  | .tag backslashes inside :: rest =>
    let shown := StyledText.ofChars opened.style (List.replicate (backslashes / 2) '\\')
    if backslashes % 2 = 1 then
      (renderPieces opened rest).map
        (shown ++ StyledText.ofChars opened.style (bracket inside) ++ ·)
    else
      match opened.apply inside with
      | .error fault => .error fault
      | .ok next => (renderPieces next rest).map (shown ++ ·)

/-- The styled text of markup, or the first fault in it. Styles that are still open at the end are
closed there. -/
def render (cs : List Char) : Except Fault StyledText := renderPieces [] (pieces cs)

end Render

/-- Text between the tags of a style. The text is markup itself, and may leave tags open. -/
def tagged (name : String) (cs : List Char) : List Char :=
  bracket name.toList ++ cs ++ bracket ('/' :: name.toList)

end Abacus.Display.Markup
