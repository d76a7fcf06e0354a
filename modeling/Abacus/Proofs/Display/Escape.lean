import Abacus.Proofs.Display.Markup

/-!
# The parts of escaped text

Escaped text has the parts of the text itself, with an odd number of backslashes before each tag.
Only the backslashes that the text ends in are not settled by the text: they count for the tag that
follows, if one does. So text that is escaped into markup is read as text there: every tag that
counts is one of the markup around it.

## Main definitions

* `Markup.Piece.source` — the text that a part is read from.
* `Markup.tags` — the tags among parts that open or close a style.
* `Markup.trailing` — the number of backslashes that a text ends in.
* `Markup.Complete` — text whose parts do not depend on what follows.
* `Markup.IsText` — text that is read as text between a front and a back.

## Main statements

* `Markup.renders_iff_foldlM_tags` — only the tags that count matter to rendering.
* `Markup.exists_pieces_escape_append` — the parts of escaped text.
* `Markup.isText_escape` — escaped text is read as text.
-/

namespace Abacus.Display.Markup

variable {cs rest : List Char} {body parts : List Piece}

/-! ### Where parts are read -/

/-- The text that a part is read from. The parts of a text give the text again, since reading it
drops nothing. -/
def Piece.source : Piece → List Char
  | .char c => [c]
  | .tag backslashes inside => List.replicate backslashes '\\' ++ bracket inside

/-- The part with one more than twice its backslashes. This is what escaping does to the parts of a
text. The number is odd, so a tag becomes text. -/
def Piece.raised : Piece → Piece
  | .char c => .char c
  | .tag backslashes inside => .tag (2 * backslashes + 1) inside

theorem escapePiece_eq (piece : Piece) : escapePiece piece = piece.raised.source := by
  cases piece <;> rfl

theorem flatMap_source_chars (cs : List Char) : (cs.map Piece.char).flatMap Piece.source = cs := by
  rw [List.flatMap_map]
  exact List.flatMap_singleton' cs

theorem flatMap_source_backslashes (n : Nat) :
    (List.replicate n (Piece.char '\\')).flatMap Piece.source = List.replicate n '\\' := by
  rw [← List.map_replicate, flatMap_source_chars]

/-- The parts of a text are read from it, in order and without a gap. -/
theorem flatMap_source_pieces (cs : List Char) : (pieces cs).flatMap Piece.source = cs := by
  induction cs using tag_induction with
  | tag n inside after isTag ih =>
      rw [pieces_tag isTag, List.flatMap_cons, ih, Piece.source, List.append_assoc]
  | backslashes n => rw [pieces_backslashes, flatMap_source_backslashes]
  | char n c rest other none ih =>
      rw [pieces_backslashes_char other none, List.flatMap_append, flatMap_source_backslashes,
        List.flatMap_cons, ih]
      rfl

theorem disarmed_eq (cs : List Char) :
    disarmed cs = ((pieces cs).map Piece.raised).flatMap Piece.source := by
  rw [disarmed, List.flatMap_map]
  exact congrArg (pieces cs).flatMap (funext escapePiece_eq)

/-! ### Tags that count -/

/-- The inside of a part that opens or closes a style. A tag behind an odd number of backslashes is
text and does neither. -/
def Piece.tag? : Piece → Option (List Char)
  | .char _ => none
  | .tag backslashes inside => if backslashes % 2 = 0 then some inside else none

/-- The tags among parts that open or close a style. Rendering succeeds or fails by these alone, in
their order. -/
def tags (parts : List Piece) : List (List Char) := parts.filterMap Piece.tag?

@[simp]
theorem tags_nil : tags [] = [] := rfl

@[simp]
theorem tags_append (parts others : List Piece) :
    tags (parts ++ others) = tags parts ++ tags others :=
  List.filterMap_append

@[simp]
theorem tags_chars (cs : List Char) : tags (cs.map Piece.char) = [] :=
  List.filterMap_eq_nil_iff.2 (by simp [Piece.tag?])

/-- Raised parts hold no tag that counts. -/
@[simp]
theorem tags_raised (parts : List Piece) : tags (parts.map Piece.raised) = [] := by
  refine List.filterMap_eq_nil_iff.2 fun piece member => ?_
  obtain ⟨original, -, rfl⟩ := List.mem_map.1 member
  cases original with
  | char c => rfl
  | tag n inside => exact if_neg (by omega)

/-- **Only the tags that count matter to whether parts can be rendered.** Characters and tags that
are text can be taken out without changing that. -/
theorem renders_iff_foldlM_tags [TagReading] {opened : Open} :
    Renders opened parts ↔ ∃ next, (tags parts).foldlM Open.apply opened = .ok next := by
  induction parts generalizing opened with
  | nil => exact iff_of_true renders_nil ⟨opened, rfl⟩
  | cons piece parts ih =>
      cases piece with
      | char c => rw [renders_char_iff, ih]; rfl
      | tag n inside =>
          by_cases odd : n % 2 = 1
          · have skipped : tags (.tag n inside :: parts) = tags parts :=
              List.filterMap_cons_none (if_neg (by omega))
            rw [skipped, ← ih, Renders, renderPieces, if_pos odd, exists_map_eq_ok_iff, Renders]
          · have counted : tags (.tag n inside :: parts) = inside :: tags parts :=
              List.filterMap_cons_some (if_pos (by omega))
            rw [counted, List.foldlM_cons, Renders, renderPieces, if_neg odd]
            cases opened.apply inside with
            | error fault => simp [bind, Except.bind]
            | ok next => rw [exists_map_eq_ok_iff]; exact ih

/-! ### Backslashes at the end -/

/-- The number of backslashes that a text ends in. They are what a tag behind the text would take
for its own. -/
def trailing (cs : List Char) : Nat := (cs.reverse.takeWhile (· == '\\')).length

theorem trailing_append_backslashes (cs : List Char) (n : Nat) :
    trailing (cs ++ List.replicate n '\\') = n + trailing cs := by
  rw [trailing, List.reverse_append, List.reverse_replicate, List.takeWhile_append_of_pos,
    List.length_append, List.length_replicate, trailing]
  exact fun c member => beq_iff_eq.2 (List.eq_of_mem_replicate member)

theorem trailing_eq_zero (ends : cs.getLast? ≠ some '\\') : trailing cs = 0 := by
  rw [← List.head?_reverse] at ends
  rw [trailing]
  cases back : cs.reverse with
  | nil => rfl
  | cons c rest => rw [List.takeWhile_cons_of_neg (by simpa [back] using ends)]; rfl

theorem endsInBackslash_eq (cs : List Char) : endsInBackslash cs = (trailing cs == 1) := by
  unfold endsInBackslash trailing
  split
  · next rest back => simp [back]
  · next rest other back =>
      have stops : rest.takeWhile (· == '\\') = [] := by
        cases rest with
        | nil => rfl
        | cons c rest =>
            refine List.takeWhile_cons_of_neg fun backslash => ?_
            exact other rest (by rw [beq_iff_eq.1 backslash])
      simp [back, stops]
  · next _ other =>
      have stops : cs.reverse.takeWhile (· == '\\') = [] := by
        cases back : cs.reverse with
        | nil => rfl
        | cons c rest =>
            refine List.takeWhile_cons_of_neg fun backslash => ?_
            exact other rest (by rw [back, beq_iff_eq.1 backslash])
      simp [stops]

/-- The backslashes that an escaped text ends in, for those that the text ends in. A single one is
doubled, and others are left as they are. -/
def closing (n : Nat) : Nat := if n = 1 then 2 else n

/-- The parts of a text are some that end in no backslash, and the backslashes that the text
ends in. -/
structure EndsIn (cs : List Char) (body : List Piece) (n : Nat) : Prop where
  parts : pieces cs = body ++ List.replicate n (.char '\\')
  last : body.getLast? ≠ some (.char '\\')

/-- The text of parts that end in no backslash ends in none. -/
theorem getLast?_flatMap_source_ne (h : body.getLast? ≠ some (.char '\\')) :
    (body.flatMap Piece.source).getLast? ≠ some '\\' := by
  induction body using List.reverseRecOn with
  | nil => simp
  | append_singleton body piece _ =>
      rw [List.getLast?_concat] at h
      rw [List.flatMap_append, List.flatMap_singleton]
      cases piece with
      | char c => simpa [Piece.source] using h
      | tag n inside =>
          rw [Piece.source, bracket, ← List.append_assoc, ← List.append_assoc, List.getLast?_concat]
          simp

theorem getLast?_map_raised_ne (h : body.getLast? ≠ some (.char '\\')) :
    (body.map Piece.raised).getLast? ≠ some (.char '\\') := by
  rw [List.getLast?_map]
  rcases last : body.getLast? with _ | (_ | _)
  · simp
  · simpa [Piece.raised, last] using h
  · simp [Piece.raised]

theorem EndsIn.eq_append {n : Nat} (h : EndsIn cs body n) :
    cs = body.flatMap Piece.source ++ List.replicate n '\\' := by
  conv_lhs => rw [← flatMap_source_pieces cs]
  rw [h.parts, List.flatMap_append, flatMap_source_backslashes]

theorem EndsIn.trailing_eq {n : Nat} (h : EndsIn cs body n) : trailing cs = n := by
  rw [h.eq_append, trailing_append_backslashes,
    trailing_eq_zero (getLast?_flatMap_source_ne h.last), Nat.add_zero]

theorem EndsIn.disarmed_eq {n : Nat} (h : EndsIn cs body n) :
    disarmed cs = (body.map Piece.raised).flatMap Piece.source ++ List.replicate n '\\' := by
  rw [Markup.disarmed_eq, h.parts, List.map_append, List.flatMap_append, List.map_replicate,
    Piece.raised, flatMap_source_backslashes]

/-- An escaped text ends in as many backslashes as the text, but in two if that ends in one. -/
theorem EndsIn.escape_eq {n : Nat} (h : EndsIn cs body n) :
    escape cs =
      (body.map Piece.raised).flatMap Piece.source ++ List.replicate (closing n) '\\' := by
  have ends : trailing (disarmed cs) = n := by
    rw [h.disarmed_eq, trailing_append_backslashes,
      trailing_eq_zero (getLast?_flatMap_source_ne (getLast?_map_raised_ne h.last)), Nat.add_zero]
  have single : endsInBackslash (disarmed cs) = (n == 1) := by
    rw [endsInBackslash_eq, ends]
  unfold escape closing
  dsimp only
  rw [← disarmed, single, h.disarmed_eq]
  by_cases one : n = 1
  · simp [one, List.replicate_succ]
  · simp [one]

/-- The parts of a disarmed text are those of the text, raised, up to the backslashes that it
ends in. -/
theorem exists_pieces_disarmed_append (cs : List Char) :
    ∃ body n, EndsIn cs body n ∧ ∀ s, Trails s → pieces (disarmed cs ++ s) =
      body.map Piece.raised ++ pieces (List.replicate n '\\' ++ s) := by
  induction cs using tag_induction with
  | tag k inside after isTag ih =>
      obtain ⟨body, n, ends, behind⟩ := ih
      refine ⟨.tag k inside :: body, n, ⟨?_, ?_⟩, fun s trails => ?_⟩
      · rw [pieces_tag isTag, ends.parts, List.cons_append]
      · rw [List.getLast?_cons]
        cases last : body.getLast? with
        | none => simp
        | some piece => simpa [last] using ends.last
      · rw [disarmed_tag isTag, List.append_assoc, List.append_assoc, pieces_tag isTag,
          behind s trails]
        rfl
  | backslashes n =>
      refine ⟨[], n, ⟨pieces_backslashes n, by simp⟩, fun s _ => ?_⟩
      rw [disarmed_backslashes]
      rfl
  | char k c rest other none ih =>
      obtain ⟨body, n, ends, behind⟩ := ih
      refine ⟨List.replicate k (.char '\\') ++ .char c :: body, n, ⟨?_, ?_⟩, fun s trails => ?_⟩
      · rw [pieces_backslashes_char other none, ends.parts, List.append_assoc, List.cons_append]
      · rw [List.getLast?_append, List.getLast?_cons]
        cases last : body.getLast? with
        | none => simpa using other
        | some piece => simpa [last] using ends.last
      · rw [disarmed_char other none, List.append_assoc, List.cons_append,
          pieces_backslashes_char other (tag?_disarmed_append none trails), behind s trails]
        simp [Piece.raised]

theorem Trails.backslash_cons {s : List Char} (h : Trails s) : Trails ('\\' :: s) :=
  ⟨by simp [startsTag], fun closes => h.2 ((closes_cons rfl).1 closes)⟩

/-- **The parts of an escaped text** are those of the text, raised, up to the backslashes that it
ends in, whatever follows that completes no tag. -/
theorem exists_pieces_escape_append (cs : List Char) :
    ∃ body, EndsIn cs body (trailing cs) ∧ ∀ s, Trails s → pieces (escape cs ++ s) =
      body.map Piece.raised ++ pieces (List.replicate (closing (trailing cs)) '\\' ++ s) := by
  obtain ⟨body, n, ends, behind⟩ := exists_pieces_disarmed_append cs
  rw [ends.trailing_eq]
  refine ⟨body, ends, fun s trails => ?_⟩
  by_cases one : n = 1
  · have doubled : escape cs ++ s = disarmed cs ++ '\\' :: s := by
      rw [ends.escape_eq, ends.disarmed_eq, one]
      simp [closing, List.replicate_succ]
    rw [doubled, behind _ trails.backslash_cons, one]
    rfl
  · have same : escape cs = disarmed cs := by
      rw [ends.escape_eq, ends.disarmed_eq, closing, if_neg one]
    rw [same, behind s trails, closing, if_neg one]

/-! ### Text within markup -/

/-- The parts of the text do not depend on what follows it. A text fails this if it ends in a
backslash, or in a bracket that a closing one behind it would make a tag. -/
def Complete (cs : List Char) : Prop := ∀ rest, pieces (cs ++ rest) = pieces cs ++ pieces rest

theorem complete_nil : Complete [] := fun rest => by rw [pieces_nil]; rfl

theorem Complete.append {ds : List Char} (h : Complete cs) (h' : Complete ds) :
    Complete (cs ++ ds) := by
  intro rest
  rw [List.append_assoc, h, h', h, List.append_assoc]

theorem complete_of_isPlain (h : IsPlain cs) : Complete cs := by
  have parts := pieces_plain_append h []
  rw [List.append_nil, pieces_nil, List.append_nil] at parts
  intro rest
  rw [pieces_plain_append h, parts]

theorem pieces_bracket_append {inside : List Char} (h : IsTag inside) (rest : List Char) :
    pieces (bracket inside ++ rest) = .tag 0 inside :: pieces rest :=
  pieces_tag h 0 rest

theorem complete_bracket {inside : List Char} (h : IsTag inside) : Complete (bracket inside) := by
  have parts := pieces_bracket_append h []
  rw [List.append_nil, pieces_nil] at parts
  intro rest
  rw [pieces_bracket_append h, parts]
  rfl

theorem complete_tagged [TagReading] {name : String} (style : IsStyle name) (h : IsPlain cs) :
    Complete (tagged name cs) :=
  ((complete_bracket style.opening).append (complete_of_isPlain h)).append
    (complete_bracket style.closing)

theorem trails_nil : Trails [] := ⟨by simp, by simp [Closes]⟩

theorem trails_bracket (inside : List Char) : Trails (bracket inside) :=
  ⟨by simp [bracket, startsTag], not_closes_open⟩

theorem trails_of_isPlain (h : IsPlain cs) (apart : ∀ c ∈ cs.head?, startsTag c = false) :
    Trails cs := by
  refine ⟨apart, fun closes => trails_nil.2 ?_⟩
  rwa [← List.append_nil cs, closes_plain_append h] at closes

/-- Between a front and a back, a text is read as text: no part that is read from it is a tag that
counts. The backslashes that it ends in are read with the back. -/
def IsText (front text back : List Char) : Prop :=
  ∃ (body : List Piece) (n : Nat),
    pieces (front ++ text ++ back) =
      pieces front ++ body ++ pieces (List.replicate n '\\' ++ back) ∧
    text = body.flatMap Piece.source ++ List.replicate n '\\' ∧ tags body = []

variable {front back : List Char}

/-- **Escaped text is read as text,** in whatever markup it stands, if what is in front is complete
and what is behind completes no tag. -/
theorem isText_escape (complete : Complete front) (trails : Trails back) (cs : List Char) :
    IsText front (escape cs) back := by
  obtain ⟨body, ends, behind⟩ := exists_pieces_escape_append cs
  refine ⟨body.map Piece.raised, closing (trailing cs), ?_, ends.escape_eq, tags_raised body⟩
  rw [List.append_assoc, complete, behind back trails, List.append_assoc]

theorem tags_bracket_append {inside : List Char} (h : IsTag inside) (rest : List Char) :
    tags (pieces (bracket inside ++ rest)) = inside :: tags (pieces rest) := by
  rw [pieces_bracket_append h]
  rfl

theorem tags_plain_append (h : IsPlain cs) (rest : List Char) :
    tags (pieces (cs ++ rest)) = tags (pieces rest) := by
  rw [pieces_plain_append h, tags_append, tags_chars, List.nil_append]

theorem tags_plain (h : IsPlain cs) : tags (pieces cs) = [] := by
  have none := tags_plain_append h []
  rwa [List.append_nil, pieces_nil] at none

/-- Backslashes in front of plain text make no tag. -/
theorem tags_backslashes_plain (h : IsPlain back) (n : Nat) :
    tags (pieces (List.replicate n '\\' ++ back)) = [] := by
  have first : back.head? ≠ some '\\' := fun first =>
    (h _ (List.mem_of_mem_head? first)).2.2 rfl
  have none : Markup.tag? back = none := by
    rw [tag?_eq_none_iff]
    rintro c rest rfl
    exact absurd rfl (h _ List.mem_cons_self).1
  rw [pieces_backslashes_append first none, tags_append, tags_plain h, ← List.map_replicate,
    tags_chars]
  rfl

/-- Backslashes in front of a tag make it text if their number is odd. -/
theorem tags_backslashes_bracket {inside : List Char} (h : IsTag inside) (n : Nat) :
    tags (pieces (List.replicate n '\\' ++ bracket inside)) =
      if n % 2 = 0 then [inside] else [] := by
  have parts := pieces_tag h n []
  rw [List.append_nil, pieces_nil] at parts
  rw [parts]
  by_cases even : n % 2 = 0
  · rw [if_pos even]
    exact List.filterMap_cons_some (if_pos even)
  · rw [if_neg even]
    exact List.filterMap_cons_none (if_neg even)

end Abacus.Display.Markup
