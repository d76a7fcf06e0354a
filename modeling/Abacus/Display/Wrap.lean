import Abacus.Display.Style
import Abacus.Text.Blank
import Abacus.Text.Cluster

/-!
# Wrapping

Text is broken into lines of a width at words. The blanks after a word belong to it; they may stand
beyond the width, where they are dropped. A word that is wider than a line starts a line of its own
and is folded, or, where folding is not wanted, left to be cut. Clusters are never divided.

## Main definitions

* `Wrap.words` — the words of a text with the blanks around them.
* `Wrap.breaks` — the positions at which lines start.
* `Wrap.wrap` — the lines of a text.
* `Wrap.cut`, `Wrap.elide` — a text cut to a width, the latter with an ellipsis.
* `Wrap.alignLeft`, `alignRight`, `alignCentre` — a line filled up to a width.
-/

namespace Abacus.Display.Wrap

theorem length_dropWhile_le (p : Char → Bool) (cs : List Char) :
    (cs.dropWhile p).length ≤ cs.length :=
  (List.dropWhile_suffix p).length_le

/-- The words of a text, each with the blanks after it, and the first with those before it. So words
put together give the text, and a line can be broken before any of them but the first. -/
def words (cs : List Char) : List (List Char) :=
  match h : cs.dropWhile Text.isBlank with
  | [] => []
  | c :: rest =>
    let after := rest.dropWhile (!Text.isBlank ·)
    have shrinks : (after.dropWhile Text.isBlank).length < cs.length := by
      have first := length_dropWhile_le Text.isBlank cs
      have second : after.length ≤ rest.length := length_dropWhile_le _ rest
      have third := length_dropWhile_le Text.isBlank after
      rw [h, List.length_cons] at first
      omega
    (cs.takeWhile Text.isBlank ++ c :: rest.takeWhile (!Text.isBlank ·) ++
      after.takeWhile Text.isBlank) :: words (after.dropWhile Text.isBlank)
termination_by cs.length

/-- The word without the blanks after it. -/
def trimEnd (cs : List Char) : List Char := (cs.reverse.dropWhile Text.isBlank).reverse

/-- The pieces with characters in front of the first. -/
def prepend (front : List Char) : List (List Char) → List (List Char)
  | [] => [front]
  | piece :: others => (front ++ piece) :: others

/-- The pieces of clusters that fill lines of a width: `used` is the width of the piece before
them. -/
def fill (width used : Nat) : List Text.Cluster → List (List Char)
  | [] => [[]]
  | cluster :: rest =>
    if width < used + cluster.width then
      [] :: prepend cluster.chars (fill width cluster.width rest)
    else prepend cluster.chars (fill width (used + cluster.width) rest)

/-- The pieces of a word that fill lines of a width. A word is cut between clusters only. -/
def chop (width : Nat) (word : List Char) : List (List Char) :=
  fill width 0 (Text.clusters word)

theorem flatten_prepend (front : List Char) (pieces : List (List Char)) :
    (prepend front pieces).flatten = front ++ pieces.flatten := by
  cases pieces <;> simp [prepend]

theorem flatten_fill (width used : Nat) (clusters : List Text.Cluster) :
    (fill width used clusters).flatten = clusters.flatMap Text.Cluster.chars := by
  induction clusters generalizing used with
  | nil => rfl
  | cons cluster rest ih =>
    rw [fill]
    split <;> simp [flatten_prepend, ih]

/-- A word that is folded keeps its characters. -/
theorem flatten_chop (width : Nat) (word : List Char) : (chop width word).flatten = word := by
  rw [chop, flatten_fill, Text.flatMap_chars_clusters]

/-- The positions at which the pieces of a word start, from the position of the first. -/
def pieceStarts (start : Nat) : List (List Char) → List Nat
  | [] => []
  | piece :: rest => start :: pieceStarts (start + piece.length) rest

/-- The positions at which lines start, for words from a position on, where the line is filled up
to `used`. -/
def breaksFrom (width : Nat) (fold : Bool) (start used : Nat) : List (List Char) → List Nat
  | [] => []
  | word :: rest =>
    let next := start + word.length
    let visible := Text.width (trimEnd word)
    if visible ≤ width - used then breaksFrom width fold next (used + Text.width word) rest
    else if width < visible then
      -- No line holds the word: it starts one, and its last piece is followed by the next word.
      if fold then
        let chopped := chop width word
        (pieceStarts start chopped).filter (0 < ·) ++
          breaksFrom width fold next (Text.width (chopped.getLast?.getD [])) rest
      else
        (if 0 < start then [start] else []) ++
          breaksFrom width fold next (Text.width word) rest
    -- The word fits a line, but not what is left of this one.
    else if 0 < used ∧ 0 < start then
      start :: breaksFrom width fold next (Text.width word) rest
    else breaksFrom width fold next used rest

/-- The positions at which the lines of a text start, the first one left out. At each of them there
is a word, or a piece of one that was folded. -/
def breaks (width : Nat) (fold : Bool) (cs : List Char) : List Nat :=
  breaksFrom width fold 0 0 (words cs)

/-- The pieces of a list between positions. -/
def divideAt {α : Type} (start : Nat) (xs : List α) : List Nat → List (List α)
  | [] => [xs]
  | position :: rest =>
    xs.take (position - start) :: divideAt position (xs.drop (position - start)) rest

/-- The line without as many of its last blanks as it has characters beyond the width. A line with
no more characters than the width keeps its blanks. -/
def dropExcess (width : Nat) (text : StyledText) : StyledText :=
  let trailing := (text.chars.reverse.takeWhile Text.isBlank).length
  text.take (text.length - min trailing (text.length - width))

/-- The lines of a text between its newlines. -/
def paragraphs (text : StyledText) : List StyledText :=
  match text with
  | [] => [[]]
  | c :: rest =>
    match paragraphs rest with
    | [] => [[c]]
    | line :: others => if c.1 = '\n' then [] :: line :: others else (c :: line) :: others

/-- The lines of a text, none of its words wider than the width if they are folded. -/
def wrap (width : Nat) (fold : Bool) (text : StyledText) : List StyledText :=
  (paragraphs text).flatMap fun line =>
    (divideAt 0 line (breaks width fold (StyledText.chars line))).map (dropExcess width)

/-- The text of the first clusters, as many as fit a width. A cluster of two columns may leave one
column free, which a blank fills. -/
def keep (width : Nat) : List Text.Cluster → StyledText → StyledText
  | [], _ => []
  | cluster :: rest, text =>
    let size := cluster.chars.length
    if 0 < width ∧ cluster.width ≤ width then
      text.take size ++ keep (width - cluster.width) rest (text.drop size)
    else
      match text with
      | [] => []
      | (_, style) :: _ => StyledText.blanks style width

/-- The clusters at the front of a text that fit a width; a blank stands in for the first half of
one that does not fit whole. -/
def cut (width : Nat) (text : StyledText) : StyledText :=
  keep width (Text.clusters text.chars) text

/-- The text, or if it is too wide as much of it as fits before an ellipsis. The ellipsis takes one
column and the style of what it stands for. -/
def elide (width : Nat) (text : StyledText) : StyledText :=
  if Text.width text.chars ≤ width then text
  else
    let kept := cut (width - 1) text
    let style := ((text[kept.length]?).map Prod.snd).getD .plain
    kept ++ [('…', style)]

/-- The text, or if it is too wide as much of it as fits. -/
def crop (width : Nat) (text : StyledText) : StyledText :=
  if Text.width text.chars ≤ width then text else cut width text

/-- The text without its last blanks. -/
def withoutEnd (text : StyledText) : StyledText :=
  text.take (trimEnd text.chars).length

/-- The blanks that are missing from a text to fill a width. There are none where the text is too
wide. -/
def missing (width : Nat) (text : StyledText) : Nat := width - Text.width text.chars

/-- The text at the left of a width. -/
def alignLeft (width : Nat) (text : StyledText) : StyledText :=
  text ++ .blanks .plain (missing width text)

/-- The text at the right of a width. -/
def alignRight (width : Nat) (text : StyledText) : StyledText :=
  .blanks .plain (missing width text) ++ text

/-- The text in the middle of a width; of an odd number of blanks the right side has one more. -/
def alignCentre (width : Nat) (text : StyledText) : StyledText :=
  alignLeft width (.blanks .plain (missing width text / 2) ++ text)

end Abacus.Display.Wrap
