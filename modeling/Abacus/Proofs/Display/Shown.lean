import Abacus.Proofs.Display.Escape

/-!
# What escaped text shows

Markup shows an escaped text as the text is, with two exceptions. A backslash directly before a
bracket that begins no tag is lost. And the backslashes that the text ends in are not settled by
escaping: at the end of the markup a single one is shown twice, and before a tag each pair of them
is shown once, or the tag is shown as text.

## Main definitions

* `Markup.displayed` — text without the backslashes that are lost.
* `Markup.HidesBackslash` — a backslash of the text is lost.
* `Markup.shownAtEnd`, `Markup.shownBefore` — what is shown of an escaped text at the end of the
  markup and in front of a tag.

## Main statements

* `Markup.renderPieces_escape_append` — what escaped text shows in front of other text.
* `Markup.renderPieces_escape`, `Markup.shownAtEnd_eq_iff` — at the end of the markup.
* `Markup.renderPieces_escape_bracket`, `Markup.shownBefore_eq_iff` — in front of a tag.
-/

namespace Abacus.Display.Markup

variable {cs rest : List Char} {body parts : List Piece}

/-! ### What is shown -/

/-- The characters that raised parts show: those that the parts are read from, but for backslashes
directly before a bracket that is a character. -/
def shown : List Piece → List Char
  | [] => []
  | .char c :: rest =>
    if c = '\\' ∧ rest.head? = some (.char '[') then shown rest else c :: shown rest
  | .tag backslashes inside :: rest =>
    List.replicate backslashes '\\' ++ (bracket inside ++ shown rest)

/-- The text without the backslashes that stand directly before a bracket which begins no tag.
Of several backslashes only the last is lost; before a tag none is, since escaping looks after
these. -/
def displayed : List Char → List Char
  | [] => []
  | c :: rest =>
    if c = '\\' ∧ rest.head? = some '[' ∧ tag? rest = none then displayed rest
    else c :: displayed rest

/-- A backslash of the text stands directly before a bracket that begins no tag. Such a backslash is
lost, wherever the text is shown. -/
def HidesBackslash (cs : List Char) : Prop :=
  ∃ front back, cs = front ++ '\\' :: '[' :: back ∧ tag? ('[' :: back) = none

theorem hidesBackslash_cons_iff {c : Char} :
    HidesBackslash (c :: cs) ↔
      (c = '\\' ∧ cs.head? = some '[' ∧ tag? cs = none) ∨ HidesBackslash cs := by
  constructor
  · rintro ⟨front, back, split, none⟩
    cases front with
    | nil =>
        obtain ⟨rfl, rfl⟩ := List.cons.inj split
        exact .inl ⟨rfl, rfl, none⟩
    | cons d front => exact .inr ⟨front, back, (List.cons.inj split).2, none⟩
  · rintro (⟨rfl, first, none⟩ | ⟨front, back, rfl, none⟩)
    · obtain ⟨back, rfl⟩ := List.head?_eq_some_iff.1 first
      exact ⟨[], back, rfl, none⟩
    · exact ⟨c :: front, back, rfl, none⟩

theorem displayed_sublist (cs : List Char) : (displayed cs).Sublist cs := by
  induction cs with
  | nil => exact .refl []
  | cons c cs ih =>
      rw [displayed]
      split
      · exact ih.cons c
      · exact ih.cons_cons c

/-- The last character is never lost. -/
theorem getLast?_displayed (cs : List Char) : (displayed cs).getLast? = cs.getLast? := by
  induction cs with
  | nil => rfl
  | cons c cs ih =>
      rw [displayed]
      split
      · next hidden =>
          obtain ⟨rest, rfl⟩ := List.head?_eq_some_iff.1 hidden.2.1
          rw [ih, List.getLast?_cons_cons]
      · rw [List.getLast?_cons, List.getLast?_cons, ih]

/-- **Which text loses no backslash:** one without a backslash directly in front of a bracket that
begins no tag. -/
theorem displayed_eq_iff : displayed cs = cs ↔ ¬ HidesBackslash cs := by
  induction cs with
  | nil => simp [displayed, HidesBackslash]
  | cons c cs ih =>
      rw [displayed, hidesBackslash_cons_iff, not_or, ← ih]
      split
      · next hidden =>
          have shorter := (displayed_sublist cs).length_le
          refine iff_of_false (fun same => ?_) fun seen => seen.1 hidden
          rw [same, List.length_cons] at shorter
          omega
      · next seen => simp [seen]

/-- Text in which no bracket opens keeps its backslashes in front of other text. -/
theorem displayed_append {w : List Char} (apart : ∀ c ∈ w, c ≠ '[')
    (first : rest.head? ≠ some '[') : displayed (w ++ rest) = w ++ displayed rest := by
  induction w with
  | nil => rfl
  | cons c w ih =>
      have next : (w ++ rest).head? ≠ some '[' := by
        cases w with
        | nil => exact first
        | cons d w => simpa using apart d (by simp)
      rw [List.cons_append, displayed, if_neg fun hidden => next hidden.2.1,
        ih fun d member => apart d (List.mem_cons_of_mem c member), List.cons_append]

theorem displayed_bracket_append {inside : List Char} (h : IsTag inside) (after : List Char) :
    displayed (bracket inside ++ after) = bracket inside ++ displayed after := by
  obtain ⟨c, w, rfl, starts, within⟩ := h
  have apart : ∀ d ∈ c :: w, d ≠ '[' := by
    rintro d member rfl
    rcases List.mem_cons.1 member with rfl | member
    · exact absurd starts (by decide)
    · exact absurd (within _ member) (by decide)
  have inner : displayed ((c :: w) ++ ']' :: after) = (c :: w) ++ displayed (']' :: after) :=
    displayed_append apart (by simp)
  simp only [bracket, List.cons_append, List.append_assoc, List.nil_append] at inner ⊢
  rw [displayed, if_neg (by simp), inner, displayed, if_neg (by simp)]

theorem displayed_tag {inside : List Char} (h : IsTag inside) (n : Nat) (after : List Char) :
    displayed (List.replicate n '\\' ++ (bracket inside ++ after)) =
      List.replicate n '\\' ++ (bracket inside ++ displayed after) := by
  induction n with
  | zero => exact displayed_bracket_append h after
  | succ n ih =>
      rw [List.replicate_succ, List.cons_append, displayed, if_neg, ih, List.cons_append]
      rintro ⟨-, first, none⟩
      cases n with
      | zero =>
          rw [List.replicate_zero, List.nil_append, tag?_bracket_append h] at none
          cases none
      | succ n => simp [List.replicate_succ] at first

theorem displayed_backslashes (n : Nat) :
    displayed (List.replicate n '\\') = List.replicate n '\\' := by
  have kept : displayed (List.replicate n '\\' ++ []) = List.replicate n '\\' ++ displayed [] :=
    displayed_append (fun c member => by simp [List.eq_of_mem_replicate member]) (by simp)
  rwa [List.append_nil, displayed, List.append_nil] at kept

theorem head?_backslashes_ne (n : Nat) :
    (List.replicate n (Piece.char '\\')).head? ≠ some (.char '[') := by
  cases n <;> simp [List.replicate_succ]

/-- Backslashes behind the parts are shown. -/
theorem shown_append_backslashes (body : List Piece) (n : Nat) :
    shown (body ++ List.replicate n (.char '\\')) = shown body ++ List.replicate n '\\' := by
  induction body with
  | nil =>
      induction n with
      | zero => rfl
      | succ n ih =>
          rw [List.nil_append, shown, List.nil_append] at ih ⊢
          rw [List.replicate_succ, shown, if_neg fun hidden => head?_backslashes_ne n hidden.2, ih]
          rfl
  | cons piece body ih =>
      cases piece with
      | char c =>
          have next : (body ++ List.replicate n (Piece.char '\\')).head? = some (.char '[') ↔
              body.head? = some (.char '[') := by
            cases body with
            | nil => simpa using head?_backslashes_ne n
            | cons piece body => rfl
          rw [List.cons_append, shown, shown, ih]
          simp only [next]
          split <;> rfl
      | tag m inside => simp [shown, ih]

/-- What the parts of a text show when they are raised. -/
theorem shown_pieces (cs : List Char) : shown (pieces cs) = displayed cs := by
  induction cs using tag_induction with
  | tag n inside after isTag ih => rw [pieces_tag isTag, displayed_tag isTag, shown, ih]
  | backslashes n =>
      rw [pieces_backslashes, displayed_backslashes]
      exact shown_append_backslashes [] n
  | char n c rest other none ih =>
      rw [pieces_backslashes_char other none]
      induction n with
      | zero => simp [shown, displayed, other, ih]
      | succ n inner =>
          rw [List.replicate_succ, List.replicate_succ, List.cons_append, List.cons_append, shown,
            displayed, inner]
          refine if_congr (and_congr_right fun _ => ?_) rfl rfl
          cases n with
          | zero => simp [none]
          | succ n => simp [List.replicate_succ]

/-- The text ends in the same backslashes without those that are lost. -/
theorem displayed_eq_append (cs : List Char) :
    displayed cs = (displayed cs).rdrop (trailing cs) ++ List.replicate (trailing cs) '\\' := by
  obtain ⟨body, ends, -⟩ := exists_pieces_escape_append cs
  have split : displayed cs = shown body ++ List.replicate (trailing cs) '\\' := by
    rw [← shown_pieces, ends.parts, shown_append_backslashes]
  have dropped : (shown body ++ List.replicate (trailing cs) '\\').rdrop
      (List.replicate (trailing cs) '\\').length = shown body := List.rdrop_append_length
  rw [List.length_replicate, ← split] at dropped
  rw [dropped]
  exact split

/-- What is shown of an escaped text that markup ends in. The backslash that was doubled at its end
is shown twice, as there is no tag behind it. -/
def shownAtEnd (cs : List Char) : List Char :=
  displayed cs ++ if trailing cs = 1 then ['\\'] else []

/-- **Which text is shown as it is at the end of markup.** One backslash at its end is shown twice;
two or more are shown as they are. -/
theorem shownAtEnd_eq_iff : shownAtEnd cs = cs ↔ ¬ HidesBackslash cs ∧ trailing cs ≠ 1 := by
  rw [← displayed_eq_iff, shownAtEnd]
  by_cases single : trailing cs = 1
  · refine iff_of_false (fun same => ?_) fun seen => seen.2 single
    -- The text would end in two backslashes.
    rw [if_pos single, displayed_eq_append, single, List.append_assoc] at same
    have more := trailing_append_backslashes ((displayed cs).rdrop 1) 2
    rw [show List.replicate 2 '\\' = List.replicate 1 '\\' ++ ['\\'] from rfl, same, single] at more
    omega
  · rw [if_neg single, List.append_nil, and_iff_left single]

theorem mem_shownAtEnd {c : Char} (h : c ∈ shownAtEnd cs) : c ∈ cs ∨ c = '\\' := by
  rw [shownAtEnd, List.mem_append] at h
  refine h.imp (fun member => (displayed_sublist cs).subset member) fun member => ?_
  split at member
  · exact List.mem_singleton.1 member
  · cases member

theorem getLast?_shownAtEnd {c : Char} (h : (shownAtEnd cs).getLast? = some c) :
    cs.getLast? = some c ∨ c = '\\' := by
  rw [shownAtEnd] at h
  split at h
  · rw [List.getLast?_concat] at h
    exact .inr (Option.some.inj h).symm
  · rw [List.append_nil, getLast?_displayed] at h
    exact .inl h

theorem shownAtEnd_ne_nil (h : cs ≠ []) : shownAtEnd cs ≠ [] := by
  intro nothing
  have last := getLast?_displayed cs
  rw [(List.append_eq_nil_iff.1 nothing).1, List.getLast?_nil] at last
  exact h (List.getLast?_eq_none_iff.1 last.symm)

/-- What is shown of an escaped text in front of a tag: of the backslashes that it ends in one for
each pair, and the tag as well where one is left over. -/
def shownBefore (inside cs : List Char) : List Char :=
  (displayed cs).rdrop (trailing cs) ++ (List.replicate (closing (trailing cs) / 2) '\\' ++
    if closing (trailing cs) % 2 = 1 then bracket inside else [])

theorem trailing_bracket (w inside : List Char) : trailing (w ++ bracket inside) = 0 := by
  refine trailing_eq_zero ?_
  rw [bracket, ← List.append_assoc, List.getLast?_concat]
  simp

/-- **Which text is shown as it is in front of a tag.** There the tag takes the backslashes at its
end, and half of them are shown; a single one was doubled before. -/
theorem shownBefore_eq_iff {inside : List Char} :
    shownBefore inside cs = cs ↔ ¬ HidesBackslash cs ∧ trailing cs < 2 := by
  have split := displayed_eq_append cs
  rw [shownBefore]
  generalize (displayed cs).rdrop (trailing cs) = w at split ⊢
  by_cases few : trailing cs < 2
  · rw [and_iff_left few, ← displayed_eq_iff, split]
    obtain none | single : trailing cs = 0 ∨ trailing cs = 1 := by omega
    · simp [closing, none]
    · simp [closing, single]
  · refine iff_of_false (fun same => ?_) fun seen => few seen.2
    have many : closing (trailing cs) = trailing cs := by rw [closing, if_neg (by omega)]
    rw [many] at same
    by_cases odd : trailing cs % 2 = 1
    · -- The text does not end in a bracket.
      have ends := trailing_bracket (w ++ List.replicate (trailing cs / 2) '\\') inside
      rw [if_pos odd, ← List.append_assoc] at same
      rw [same] at ends
      omega
    · -- Half of the backslashes are missing.
      have fits := (displayed_sublist cs).length_le
      have length := congrArg List.length same
      simp only [split, if_neg odd, List.length_append, List.length_replicate, List.append_nil]
        at fits length
      omega

theorem mem_shownBefore {inside : List Char} {c : Char} (h : c ∈ shownBefore inside cs) :
    c ∈ cs ∨ c = '\\' ∨ c ∈ bracket inside := by
  rw [shownBefore, List.mem_append, List.mem_append] at h
  rcases h with member | member | member
  · exact .inl ((displayed_sublist cs).subset (List.mem_of_mem_take member))
  · exact .inr (.inl (List.eq_of_mem_replicate member))
  · split at member
    · exact .inr (.inr member)
    · cases member

theorem getLast?_shownBefore {inside : List Char} {c : Char}
    (h : (shownBefore inside cs).getLast? = some c) :
    cs.getLast? = some c ∨ c = '\\' ∨ c = ']' := by
  rw [shownBefore] at h
  split at h
  · rw [bracket, ← List.append_assoc, ← List.append_assoc, List.getLast?_concat] at h
    exact .inr (.inr (Option.some.inj h).symm)
  · rw [List.append_nil, List.getLast?_append] at h
    by_cases none : trailing cs = 0
    · rw [none, List.rdrop_zero, getLast?_displayed] at h
      exact .inl (by simpa [closing] using h)
    · next even =>
        have nonzero : closing (trailing cs) / 2 ≠ 0 := by
          unfold closing at even ⊢
          split at even <;> split <;> omega
        rw [List.getLast?_replicate, if_neg nonzero] at h
        exact .inr (.inl (Option.some.inj h).symm)

/-! ### What is rendered -/

theorem map_ofChars_nil (style : Style) (rendered : Except Fault StyledText) :
    rendered.map (StyledText.ofChars style [] ++ ·) = rendered := by
  cases rendered <;> rfl

section Rendering

variable [TagReading] {opened : Open}

/-- A character is shown in the style of the place, if it is no backslash directly before a
bracket. -/
theorem renderPieces_char (c : Char) :
    renderPieces opened (.char c :: parts) =
      if c = '\\' ∧ parts.head? = some (.char '[') then renderPieces opened parts
      else (renderPieces opened parts).map ((c, opened.style) :: ·) := by
  split
  · next hidden =>
      obtain ⟨rfl, first⟩ := hidden
      obtain ⟨others, rfl⟩ := List.head?_eq_some_iff.1 first
      rw [renderPieces, renderPieces]
      simp
  · next seen =>
      rw [renderPieces]
      rintro others rfl rfl
      exact seen ⟨rfl, rfl⟩

/-- Raised parts that end in no backslash show their characters, and nothing more, in the style of
the place. -/
theorem renderPieces_raised_append (last : body.getLast? ≠ some (.char '\\')) :
    renderPieces opened (body.map Piece.raised ++ parts) =
      (renderPieces opened parts).map (StyledText.ofChars opened.style (shown body) ++ ·) := by
  induction body with
  | nil =>
      rw [List.map_nil, List.nil_append, shown, map_ofChars_nil]
  | cons piece body ih =>
      have behind : body.getLast? ≠ some (.char '\\') := fun same => by
        rw [List.getLast?_cons, same] at last
        exact last rfl
      rw [List.map_cons, List.cons_append]
      cases piece with
      | char c =>
          have next : c = '\\' →
              ((body.map Piece.raised ++ parts).head? = some (.char '[') ↔
                body.head? = some (.char '[')) := by
            rintro rfl
            cases body with
            | nil => exact absurd rfl last
            | cons piece body => cases piece <;> simp [Piece.raised]
          rw [Piece.raised, renderPieces_char, shown, ih behind]
          by_cases hidden : c = '\\' ∧ body.head? = some (.char '[')
          · rw [if_pos hidden, if_pos ⟨hidden.1, (next hidden.1).2 hidden.2⟩]
          · rw [if_neg hidden, if_neg fun seen => hidden ⟨seen.1, (next seen.1).1 seen.2⟩]
            cases renderPieces opened parts <;> rfl
      | tag n inside =>
          rw [Piece.raised, renderPieces, if_pos (by omega), ih behind, shown,
            show (2 * n + 1) / 2 = n by omega]
          cases renderPieces opened parts <;> simp [Except.map, StyledText.ofChars]

/-- **What escaped text shows** in front of text that completes no tag: the text without the
backslashes that are lost, up to those that it ends in. -/
theorem renderPieces_escape_append {s : List Char} (trails : Trails s) (cs : List Char) :
    renderPieces opened (pieces (escape cs ++ s)) =
      (renderPieces opened (pieces (List.replicate (closing (trailing cs)) '\\' ++ s))).map
        (StyledText.ofChars opened.style ((displayed cs).rdrop (trailing cs)) ++ ·) := by
  obtain ⟨body, ends, behind⟩ := exists_pieces_escape_append cs
  have front : (displayed cs).rdrop (trailing cs) = shown body := by
    refine List.append_cancel_right ((displayed_eq_append cs).symm.trans ?_)
    rw [← shown_pieces, ends.parts, shown_append_backslashes]
  rw [behind s trails, renderPieces_raised_append ends.last, front]

/-- Plain text shows itself, in the style of the place. -/
theorem renderPieces_plain_append (h : IsPlain cs) (rest : List Char) :
    renderPieces opened (pieces (cs ++ rest)) =
      (renderPieces opened (pieces rest)).map (StyledText.ofChars opened.style cs ++ ·) := by
  rw [pieces_plain_append h]
  induction cs with
  | nil => rw [List.map_nil, List.nil_append, map_ofChars_nil]
  | cons c cs ih =>
      have apart : ¬ (c = '\\' ∧ (cs.map Piece.char ++ pieces rest).head? = some (.char '[')) :=
        fun hidden => (h c List.mem_cons_self).2.2 hidden.1
      rw [List.map_cons, List.cons_append, renderPieces_char, if_neg apart,
        ih fun d member => h d (List.mem_cons_of_mem c member)]
      cases renderPieces opened (pieces rest) <;> rfl

theorem renderPieces_bracket_append {inside : List Char} {next : Open} (h : IsTag inside)
    (applied : opened.apply inside = .ok next) (rest : List Char) :
    renderPieces opened (pieces (bracket inside ++ rest)) = renderPieces next (pieces rest) := by
  rw [pieces_bracket_append h, renderPieces, if_neg (by decide), applied]
  exact map_ofChars_nil _ _

/-- Plain text between the tags of a style shows itself in that style. -/
theorem renderPieces_tagged_append {name : String} (style : IsStyle name) (h : IsPlain cs)
    (rest : List Char) :
    renderPieces opened (pieces (tagged name cs ++ rest)) =
      (renderPieces opened (pieces rest)).map
        (StyledText.ofChars (Open.style (⟨name, none⟩ :: opened)) cs ++ ·) := by
  rw [tagged, List.append_assoc, List.append_assoc,
    renderPieces_bracket_append style.opening (style.apply_open opened),
    renderPieces_plain_append h,
    renderPieces_bracket_append style.closing (style.apply_close opened)]

theorem renderPieces_backslashes (opened : Open) (n : Nat) :
    renderPieces opened (List.replicate n (.char '\\')) =
      .ok (StyledText.ofChars opened.style (List.replicate n '\\')) := by
  induction n with
  | zero =>
      rw [List.replicate_zero, renderPieces]
      rfl
  | succ n ih =>
      rw [List.replicate_succ, renderPieces_char,
        if_neg fun hidden => head?_backslashes_ne n hidden.2, ih]
      rfl

/-- **At its end, markup shows an escaped text** without the backslashes that are lost, and with one
more if it ends in one. -/
theorem renderPieces_escape (opened : Open) (cs : List Char) :
    renderPieces opened (pieces (escape cs)) =
      .ok (StyledText.ofChars opened.style (shownAtEnd cs)) := by
  have last : renderPieces opened (pieces (List.replicate (closing (trailing cs)) '\\' ++ [])) =
      .ok (StyledText.ofChars opened.style (List.replicate (closing (trailing cs)) '\\')) := by
    rw [List.append_nil, pieces_backslashes, renderPieces_backslashes]
  have rendered : renderPieces opened (pieces (escape cs ++ [])) = _ :=
    renderPieces_escape_append trails_nil cs
  rw [List.append_nil, last] at rendered
  rw [rendered, shownAtEnd, closing]
  conv_rhs => rw [displayed_eq_append]
  split <;> simp [*, Except.map, StyledText.ofChars, List.replicate_succ]

/-- **In front of a tag, markup shows an escaped text** with half of the backslashes that it ends
in. -/
theorem renderPieces_escape_bracket {inside : List Char} {next : Open} (isTag : IsTag inside)
    (applied : opened.apply inside = .ok next) (cs : List Char) :
    renderPieces opened (pieces (escape cs ++ bracket inside)) =
      .ok (StyledText.ofChars opened.style (shownBefore inside cs)) := by
  have parts := pieces_tag isTag (closing (trailing cs)) []
  rw [List.append_nil, pieces_nil] at parts
  rw [renderPieces_escape_append (trails_bracket inside), parts, renderPieces, shownBefore]
  by_cases odd : closing (trailing cs) % 2 = 1
  · rw [if_pos odd, if_pos odd, renderPieces]
    simp [Except.map, StyledText.ofChars]
  · rw [if_neg odd, if_neg odd, applied]
    simp [Except.map, renderPieces, StyledText.ofChars]

end Rendering

end Abacus.Display.Markup
