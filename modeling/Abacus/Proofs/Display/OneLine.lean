import Mathlib
import Abacus.Display.Console

/-!
# Text that fits a line

Text without newlines whose columns fit a width is one line of that width, with all its characters,
whether long words are folded or not. The blanks that the text ends in are the exception: they may
be dropped where the text has more characters than the line has columns.

## Main statements

* `Text.width_append_le` — text side by side takes at least the columns of its parts.
* `Display.Wrap.breaks_eq_nil` — text that fits is not broken.
* `Display.Wrap.wrap_eq_singleton` — text that fits is one line.
* `Display.Console.showText_eq` — text that fits is printed as it is.
* `Display.Table.cellLines_toRight` — a cell that fits has one line.
-/

namespace Abacus

/-! ### Columns of text side by side -/

namespace Text

variable {last : Option Char} {cs ds : List Char}

theorem widthAfter_none_le (last : Option Char) (cs : List Char) :
    widthAfter none cs ≤ widthAfter last cs := by
  fun_induction widthAfter last cs with
  | case1 => exact le_rfl
  | case2 => simp [widthAfter]
  | case3 last joined rest ih => rwa [widthAfter_joiner_cons]
  | case4 last rest _ ih =>
      rw [widthAfter_selector_cons]
      simp [pictureGain]
  | case5 last c rest unjoined unselected empty ih =>
      rw [widthAfter_cons none rest unjoined unselected, if_pos empty]
      exact ih
  | case6 last c rest unjoined unselected taken ih =>
      rw [widthAfter_cons none rest unjoined unselected, if_neg taken]

/-- Text behind other text takes columns of its own, unless a joiner makes its first character part
of the other. -/
theorem widthAfter_append_le (h : cs.getLast? ≠ some joiner) (ds : List Char) :
    widthAfter last cs + width ds ≤ widthAfter last (cs ++ ds) := by
  fun_induction widthAfter last cs with
  | case1 last =>
      rw [Nat.zero_add]
      exact widthAfter_none_le last ds
  | case2 last => exact absurd rfl h
  | case3 last joined rest ih =>
      rw [List.cons_append, List.cons_append, widthAfter_joiner_cons]
      refine ih fun ends => h ?_
      simp [List.getLast?_cons, ends]
  | case4 last rest _ ih =>
      rw [List.cons_append, widthAfter_selector_cons, Nat.add_assoc]
      refine Nat.add_le_add_left (ih fun ends => h ?_) _
      simp [List.getLast?_cons, ends]
  | case5 last c rest unjoined unselected empty ih =>
      rw [List.cons_append, widthAfter_cons last _ unjoined unselected, if_pos empty]
      refine ih fun ends => h ?_
      simp [List.getLast?_cons, ends]
  | case6 last c rest unjoined unselected taken ih =>
      rw [List.cons_append, widthAfter_cons last _ unjoined unselected, if_neg taken, Nat.add_assoc]
      refine Nat.add_le_add_left (ih fun ends => h ?_) _
      simp [List.getLast?_cons, ends]

theorem width_append_le (h : cs.getLast? ≠ some joiner) (ds : List Char) :
    width cs + width ds ≤ width (cs ++ ds) :=
  widthAfter_append_le h ds

theorem widthAfter_le_append (last : Option Char) (cs ds : List Char) :
    widthAfter last cs ≤ widthAfter last (cs ++ ds) := by
  fun_induction widthAfter last cs with
  | case1 => exact Nat.zero_le _
  | case2 => exact Nat.zero_le _
  | case3 last joined rest ih =>
      rwa [List.cons_append, List.cons_append, widthAfter_joiner_cons]
  | case4 last rest _ ih =>
      rw [List.cons_append, widthAfter_selector_cons]
      exact Nat.add_le_add_left ih _
  | case5 last c rest unjoined unselected empty ih =>
      rwa [List.cons_append, widthAfter_cons last _ unjoined unselected, if_pos empty]
  | case6 last c rest unjoined unselected taken ih =>
      rw [List.cons_append, widthAfter_cons last _ unjoined unselected, if_neg taken]
      exact Nat.add_le_add_left ih _

/-- The front of a text takes no more columns than the text. -/
theorem width_le_append (cs ds : List Char) : width cs ≤ width (cs ++ ds) :=
  widthAfter_le_append none cs ds

theorem not_isBlank_joiner : isBlank joiner = false := by decide

end Text

namespace Display.Wrap

variable {width : Nat} {fold : Bool} {text : StyledText} {cs : List Char}

/-! ### Words -/

theorem trimEnd_isPrefix (cs : List Char) : trimEnd cs <+: cs := by
  have back := List.dropWhile_suffix Text.isBlank (l := cs.reverse)
  rw [← List.reverse_prefix] at back
  rwa [List.reverse_reverse] at back

theorem width_trimEnd_le (cs : List Char) : Text.width (trimEnd cs) ≤ Text.width cs := by
  obtain ⟨blanks, split⟩ := trimEnd_isPrefix cs
  conv_rhs => rw [← split]
  exact Text.width_le_append ..

/-- Where blanks end in front of further text, there is one. -/
theorem getLast?_takeWhile_isBlank {after : List Char}
    (first : ∀ c ∈ after.head?, Text.isBlank c = true)
    (more : after.dropWhile Text.isBlank ≠ []) :
    ∃ b, (after.takeWhile Text.isBlank).getLast? = some b ∧ Text.isBlank b = true := by
  have some : after.takeWhile Text.isBlank ≠ [] := by
    cases after with
    | nil => exact absurd rfl more
    | cons c rest => rw [List.takeWhile_cons_of_pos (first c rfl)]; exact List.cons_ne_nil _ _
  exact ⟨_, List.getLast?_eq_some_getLast some,
    List.mem_takeWhile_imp (p := Text.isBlank) (List.getLast_mem some)⟩

/-- Text that fits what is left of a line is not broken. -/
theorem breaksFrom_words_eq_nil {used : Nat} (start : Nat)
    (fits : used + Text.width cs ≤ width) : breaksFrom width fold start used (words cs) = [] := by
  fun_induction words cs generalizing start used with
  | case1 cs blank => rfl
  | case2 cs c rest front after shorter =>
      rename_i ih
      have parts : cs = (cs.takeWhile Text.isBlank ++ c :: rest.takeWhile (!Text.isBlank ·) ++
          after.takeWhile Text.isBlank) ++ after.dropWhile Text.isBlank := by
        conv_lhs => rw [← List.takeWhile_append_dropWhile (p := Text.isBlank) (l := cs), front,
          ← List.takeWhile_append_dropWhile (p := (!Text.isBlank ·)) (l := rest)]
        simp only [after, List.append_assoc, List.cons_append, List.takeWhile_append_dropWhile]
      have first : ∀ d ∈ after.head?, Text.isBlank d = true := by
        intro d member
        have seen := List.head?_dropWhile_not (fun d => !Text.isBlank d) rest
        rw [Option.mem_def.1 member] at seen
        simpa using seen
      -- The words are measured one by one and the text as a whole. The two agree as long as no word
      -- ends in a joiner, and between words there are blanks.
      have ends : after.dropWhile Text.isBlank = [] ∨
          (cs.takeWhile Text.isBlank ++ c :: rest.takeWhile (!Text.isBlank ·) ++
            after.takeWhile Text.isBlank).getLast? ≠ some Text.joiner := by
        refine or_iff_not_imp_left.2 fun more joined => ?_
        obtain ⟨b, last, blank⟩ := getLast?_takeWhile_isBlank first more
        rw [List.getLast?_append, last] at joined
        obtain rfl : b = Text.joiner := Option.some.inj joined
        rw [Text.not_isBlank_joiner] at blank
        cases blank
      generalize cs.takeWhile Text.isBlank ++ c :: rest.takeWhile (!Text.isBlank ·) ++
        after.takeWhile Text.isBlank = word at parts ends
      generalize after.dropWhile Text.isBlank = others at parts ends ih
      have columns : Text.width word + Text.width others ≤ Text.width cs := by
        rw [parts]
        rcases ends with rfl | ends
        · rw [List.append_nil]
          exact le_rfl
        · exact Text.width_append_le ends others
      have visible := width_trimEnd_le word
      rw [breaksFrom]
      dsimp only
      rw [if_pos (by omega)]
      exact ih _ (by omega)

theorem breaks_eq_nil (fits : Text.width cs ≤ width) : breaks width fold cs = [] :=
  breaksFrom_words_eq_nil 0 (by rwa [Nat.zero_add])

/-! ### Lines -/

theorem paragraphs_eq_singleton (plain : ∀ c ∈ text.chars, c ≠ '\n') :
    paragraphs text = [text] := by
  induction text with
  | nil => rfl
  | cons c rest ih =>
      have others : paragraphs rest = [rest] :=
        ih fun d member => plain d (List.mem_cons_of_mem _ member)
      rw [paragraphs, others]
      exact if_neg (plain c.1 List.mem_cons_self)

/-- The text ends in no blank. -/
def EndsInWord (cs : List Char) : Prop := ∀ c ∈ cs.getLast?, Text.isBlank c = false

theorem trimEnd_eq_self (h : EndsInWord cs) : trimEnd cs = cs := by
  unfold EndsInWord at h
  rw [← List.head?_reverse] at h
  rw [trimEnd]
  cases back : cs.reverse with
  | nil => simpa using back.symm
  | cons c rest =>
      rw [List.dropWhile_cons_of_neg (by simp [h c (by rw [back]; rfl)]), ← back,
        List.reverse_reverse]

theorem dropExcess_eq_self (h : EndsInWord text.chars) : dropExcess width text = text := by
  unfold EndsInWord at h
  rw [← List.head?_reverse] at h
  have none : text.chars.reverse.takeWhile Text.isBlank = [] := by
    cases back : text.chars.reverse with
    | nil => rfl
    | cons c rest => exact List.takeWhile_cons_of_neg (by simp [h c (by rw [back]; rfl)])
  rw [dropExcess, none]
  simp

/-- Text that is one line where it fits: it has no newline and ends in no blank. -/
structure IsLine (cs : List Char) : Prop where
  plain : ∀ c ∈ cs, c ≠ '\n'
  last : EndsInWord cs

instance : DecidablePred IsLine := fun cs =>
  decidable_of_iff (cs.all (· != '\n') && cs.getLast?.all (!Text.isBlank ·)) <| by
    simp only [Bool.and_eq_true, List.all_eq_true, Option.all_eq_true, bne_iff_ne,
      Bool.not_eq_true']
    exact ⟨fun h => ⟨h.1, h.2⟩, fun h => ⟨h.plain, h.last⟩⟩

/-- **Text that fits is one line,** whether long words are folded or not. Words are measured one by
one, so this takes that their columns add up to those of the text. -/
theorem wrap_eq_singleton (line : IsLine text.chars) (fits : Text.width text.chars ≤ width) :
    wrap width fold text = [text] := by
  rw [wrap, paragraphs_eq_singleton line.plain, List.flatMap_singleton, breaks_eq_nil fits,
    divideAt, List.map_singleton, dropExcess_eq_self line.last]

/-- A line that ends in no blank and fits is neither trimmed nor cut short. -/
theorem elide_withoutEnd_eq_self (ends : EndsInWord text.chars)
    (fits : Text.width text.chars ≤ width) :
    elide width (withoutEnd text) = text := by
  have whole : withoutEnd text = text := by
    rw [withoutEnd, trimEnd_eq_self ends, StyledText.chars, List.length_map, List.take_length]
  rw [whole, elide, if_pos fits]

end Display.Wrap

namespace Display

variable {text other : StyledText}

/-! ### Runs -/

/-- The characters of a line. -/
def Line.chars (line : Line) : List Char := line.flatMap Run.text

theorem StyledText.style_of_mem_ofChars {style : Style} {cs : List Char} {c : Char × Style}
    (h : c ∈ ofChars style cs) : c.2 = style := by
  obtain ⟨_, -, rfl⟩ := List.mem_map.1 h
  rfl

namespace Run

theorem ofText_ofChars (style : Style) {cs : List Char} (h : cs ≠ []) :
    ofText (.ofChars style cs) = [⟨cs, style⟩] := by
  have one : (StyledText.ofChars style cs).splitBy (fun a b => a.2 == b.2) =
      [StyledText.ofChars style cs] := by
    refine List.splitBy_of_isChain (by simpa [StyledText.ofChars] using h) ?_
    refine (List.pairwise_of_forall_mem_list fun a first b second => ?_).isChain
    rw [StyledText.style_of_mem_ofChars first, StyledText.style_of_mem_ofChars second]
    exact beq_self_eq_true style
  obtain ⟨c, rest, rfl⟩ := List.exists_cons_of_ne_nil h
  rw [ofText, one]
  simp [StyledText.ofChars, Function.comp_def]

/-- Texts whose styles differ where they meet have runs of their own. -/
theorem ofText_append (apart : ∀ c ∈ text.getLast?, ∀ d ∈ other.head?, c.2 ≠ d.2) :
    ofText (text ++ other) = ofText text ++ ofText other := by
  rw [ofText,
    List.splitBy_append fun c last d first => beq_eq_false_iff_ne.2 (apart c last d first),
    List.filterMap_append]
  rfl

/-- The runs of a text have its characters. -/
theorem chars_ofText (text : StyledText) : Line.chars (ofText text) = text.chars := by
  have pieces : ∀ parts : List StyledText, [] ∉ parts →
      Line.chars (parts.filterMap fun piece => piece.head?.map fun first =>
        Run.mk (piece.map Prod.fst) first.2) = StyledText.chars parts.flatten := by
    intro parts nonempty
    induction parts with
    | nil => rfl
    | cons piece parts ih =>
        cases piece with
        | nil => exact absurd List.mem_cons_self nonempty
        | cons c rest =>
            have others := ih fun member => nonempty (List.mem_cons_of_mem _ member)
            simp only [Line.chars, StyledText.chars] at others
            simp [Line.chars, StyledText.chars, others]
  rw [ofText, pieces _ (List.nil_notMem_splitBy _ _), List.flatten_splitBy]

end Run

namespace Console

/-- Runs that fit a width together are not cropped. -/
theorem cropLine_eq_self {width : Nat} {line : Line}
    (fits : (line.map fun run => Text.width run.text).sum ≤ width) :
    cropLine width line = line := by
  induction line generalizing width with
  | nil => rfl
  | cons run rest ih =>
      rw [List.map_cons, List.sum_cons] at fits
      rw [cropLine, if_pos (by omega), ih (by omega)]

/-- **On a console without colours, text that fits a line is printed as it is.** Its runs have to
fit as well, since they are measured one by one, and a joiner between two of them counts. -/
theorem showText_eq {console : Console} (colourless : console.colours = false)
    (line : Wrap.IsLine text.chars) (fits : Text.width text.chars ≤ console.width)
    (runs : ((Run.ofText text).map fun run => Text.width run.text).sum ≤ console.width) :
    console.showText text = String.ofList (text.chars ++ ['\n']) := by
  have display : Run.display console.colours = Run.text := by
    funext run
    simp [Run.display, colourless]
  rw [showText, Wrap.wrap_eq_singleton line fits, List.map_singleton, Wrap.crop, if_pos fits,
    showLines, List.flatMap_singleton, cropLine_eq_self runs, display]
  exact congrArg (fun cs => String.ofList (cs ++ ['\n'])) (Run.chars_ofText text)

end Console

namespace Table

/-- A cell at the right of its column has one line if it fits. -/
theorem cellLines_toRight {column : Column} (toRight : column.toRight = true) (style : Style)
    {width : Nat} (line : Wrap.IsLine text.chars)
    (fits : Text.width text.chars + 2 * margin ≤ width) :
    (cellLines column style width text).map Line.chars =
      [List.replicate (width - margin - Text.width text.chars) ' ' ++ text.chars ++
        List.replicate margin ' '] := by
  have inner : Text.width text.chars ≤ width - 2 * margin := by omega
  have blanks : width - margin - Text.width text.chars =
      margin + (width - 2 * margin - Text.width text.chars) := by
    rw [margin] at fits ⊢
    omega
  rw [cellLines, Wrap.wrap_eq_singleton line inner, List.map_singleton, List.map_singleton,
    cellLine, if_pos toRight, Wrap.elide_withoutEnd_eq_self line.last inner]
  have middle := Run.chars_ofText ((Wrap.alignRight (width - 2 * margin) text).within style)
  rw [StyledText.chars_within] at middle
  rw [Line.chars, List.flatMap_append, List.flatMap_cons, ← Line.chars, middle, blanks,
    List.replicate_add margin]
  simp [-List.replicate_append_replicate, Wrap.alignRight, Wrap.missing, StyledText.blanks,
    StyledText.chars]

end Table

end Display

end Abacus
