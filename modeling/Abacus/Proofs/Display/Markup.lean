import Mathlib
import Abacus.Display.Markup

/-!
# Escaped text is inert

Escaped text neither opens nor closes a style, whatever it says and whatever stands around it: each
of its tags has an odd number of backslashes, and what is no tag of the text becomes none by what
follows it, as long as that does not go on with a tag where the text ends. So markup that is made of
style names, plain words and escaped text can always be rendered.

## Main definitions

* `Markup.Renders` — the parts can be rendered inside open styles.
* `Markup.IsPlain` — text without brackets and backslashes.
* `Markup.Trails` — text that completes no tag in front of it.
* `Markup.Inert` — text that neither opens nor closes a style.

## Main statements

* `Markup.inert_escape` — escaped text is inert.
* `Markup.renders_tagged_append` — inert text between the tags of a style can be rendered.
-/

namespace Abacus.Display.Markup

variable {cs rest : List Char}

/-! ### Tags -/

/-- The inside of a tag. A bracket with any other inside is text, with or without backslashes before
it. -/
def IsTag (inside : List Char) : Prop :=
  ∃ c w, inside = c :: w ∧ startsTag c = true ∧ ∀ d ∈ w, (d != '[' && d != ']') = true

theorem eq_or_eq_of_bracket {c : Char} (h : ¬ (c != '[' && c != ']') = true) :
    c = '[' ∨ c = ']' := by
  by_contra neither
  simp only [not_or] at neither
  simp [neither.1, neither.2] at h

/-- The first bracket of the text, if there is one, closes. Behind an opening bracket this is what
makes a tag of it; a text without brackets closes nothing. -/
def Closes (cs : List Char) : Prop :=
  (cs.dropWhile fun d => d != '[' && d != ']').head? = some ']'

theorem closes_cons {c : Char} (h : (c != '[' && c != ']') = true) :
    Closes (c :: cs) ↔ Closes cs := by
  rw [Closes, List.dropWhile_cons_of_pos (by simpa using h), Closes]

theorem not_closes_open : ¬ Closes ('[' :: cs) := by
  simp [Closes]

theorem closes_close : Closes (']' :: cs) := by
  simp [Closes]

/-- There is no tag in front where a bracket is missing, or what has to follow it. -/
theorem tag?_eq_none_iff :
    tag? cs = none ↔ ∀ c rest, cs = '[' :: c :: rest → startsTag c = true → ¬ Closes rest := by
  unfold tag?
  split
  · next c rest =>
      by_cases starts : startsTag c = true
      · rw [if_pos starts]
        dsimp only
        split
        · next after closed =>
            simp [Closes, closed, starts]
        · next other =>
            simp only [List.cons.injEq, true_and, and_imp, true_iff]
            rintro c' rest' rfl rfl -
            cases found : rest.dropWhile fun d => d != '[' && d != ']' with
            | nil => simp [Closes, found]
            | cons d after =>
                have apart : d ≠ ']' := by
                  rintro rfl
                  exact other after found
                simp [Closes, found, apart]
      · simp [starts]
  · next other =>
      simp only [true_iff]
      rintro c rest rfl
      exact absurd rfl (other c rest)

/-- A tag that is found stands in front. -/
theorem eq_bracket_append {inside after : List Char} (h : tag? cs = some (inside, after)) :
    IsTag inside ∧ cs = bracket inside ++ after := by
  unfold tag? at h
  split at h
  · next c rest =>
      split at h
      · next starts =>
          dsimp only at h
          split at h
          · next tail closed =>
              cases h
              have split := List.takeWhile_append_dropWhile
                (p := fun d => d != '[' && d != ']') (l := rest)
              rw [closed] at split
              have within : ∀ d ∈ rest.takeWhile fun d => d != '[' && d != ']',
                  (d != '[' && d != ']') = true := by
                intro d member
                exact List.mem_takeWhile_imp (p := fun d => d != '[' && d != ']') member
              exact ⟨⟨c, _, rfl, starts, within⟩, by simp [bracket, split]⟩
          · cases h
      · cases h
  · cases h

/-- A tag that stands in front is found. -/
theorem tag?_bracket_append {inside : List Char} (h : IsTag inside) (rest : List Char) :
    tag? (bracket inside ++ rest) = some (inside, rest) := by
  obtain ⟨c, w, rfl, starts, within⟩ := h
  have front : (w ++ ']' :: rest).takeWhile (fun d => d != '[' && d != ']') = w := by
    rw [List.takeWhile_append_of_pos within]
    simp
  have back : (w ++ ']' :: rest).dropWhile (fun d => d != '[' && d != ']') = ']' :: rest := by
    rw [List.dropWhile_append_of_pos within]
    simp
  simp [bracket, tag?, starts, front, back]

/-! ### Parts -/

theorem pieces_nil : pieces [] = [] := by
  rw [pieces]
  rfl

/-- Where no tag follows the backslashes in front, the first character is a part. -/
theorem pieces_cons {c : Char} (h : tag? ((c :: rest).dropWhile (· == '\\')) = none) :
    pieces (c :: rest) = .char c :: pieces rest := by
  rw [pieces]
  split
  · next found => simp [h] at found
  · rfl

/-- Backslashes and the tag behind them are one part. -/
theorem pieces_tag {inside : List Char} (h : IsTag inside) (n : Nat) (rest : List Char) :
    pieces (List.replicate n '\\' ++ (bracket inside ++ rest)) = .tag n inside :: pieces rest := by
  have back : (List.replicate n '\\' ++ (bracket inside ++ rest)).dropWhile (· == '\\') =
      bracket inside ++ rest := by
    rw [List.dropWhile_append_of_pos fun d member => by simp [List.eq_of_mem_replicate member]]
    rfl
  have front : (List.replicate n '\\' ++ (bracket inside ++ rest)).takeWhile (· == '\\') =
      List.replicate n '\\' := by
    rw [List.takeWhile_append_of_pos fun d member => by simp [List.eq_of_mem_replicate member]]
    simp [bracket]
  have found := tag?_bracket_append h rest
  rw [pieces]
  split
  · next inside' after found' =>
      rw [back, found] at found'
      cases found'
      rw [front, List.length_replicate]
  · next none => simp [back, found] at none

/-! ### Plain text -/

/-- Text without brackets and backslashes. It is shown as it is, wherever it stands. -/
def IsPlain (cs : List Char) : Prop := ∀ c ∈ cs, c ≠ '[' ∧ c ≠ ']' ∧ c ≠ '\\'

instance : DecidablePred IsPlain := fun cs =>
  decidable_of_iff (cs.all (fun c => c != '[' && c != ']' && c != '\\') = true) (by
    simp [IsPlain, and_assoc])

@[simp]
theorem isPlain_append {cs ds : List Char} : IsPlain (cs ++ ds) ↔ IsPlain cs ∧ IsPlain ds :=
  List.forall_mem_append

theorem closes_plain_append (h : IsPlain cs) : Closes (cs ++ rest) ↔ Closes rest := by
  induction cs with
  | nil => rfl
  | cons c cs ih =>
      obtain ⟨open_, close, -⟩ := h c List.mem_cons_self
      rw [List.cons_append, closes_cons (by simp [open_, close]),
        ih fun d member => h d (List.mem_cons_of_mem c member)]

/-- In front of any text, plain text is its characters. -/
theorem pieces_plain_append (h : IsPlain cs) (rest : List Char) :
    pieces (cs ++ rest) = cs.map .char ++ pieces rest := by
  induction cs with
  | nil => rfl
  | cons c cs ih =>
      obtain ⟨open_, -, backslash⟩ := h c List.mem_cons_self
      have none : tag? ((c :: (cs ++ rest)).dropWhile (· == '\\')) = none := by
        rw [List.dropWhile_cons_of_neg (by simpa using backslash), tag?_eq_none_iff]
        rintro c' rest' same
        exact absurd (List.cons.inj same).1 open_
      rw [List.cons_append, pieces_cons none,
        ih fun d member => h d (List.mem_cons_of_mem c member)]
      rfl

/-! ### Backslashes, tags and characters -/

/-- Backslashes in front of what does not begin with a tag are characters. -/
theorem pieces_backslashes_append {tail : List Char} (first : tail.head? ≠ some '\\')
    (none : tag? tail = none) (n : Nat) :
    pieces (List.replicate n '\\' ++ tail) = List.replicate n (.char '\\') ++ pieces tail := by
  induction n with
  | zero => rfl
  | succ n ih =>
      have back : ('\\' :: (List.replicate n '\\' ++ tail)).dropWhile (· == '\\') = tail := by
        rw [List.dropWhile_cons_of_pos rfl, List.dropWhile_append_of_pos fun d member => by
          simp [List.eq_of_mem_replicate member]]
        cases tail with
        | nil => rfl
        | cons c rest => exact List.dropWhile_cons_of_neg (by simpa using first)
      rw [List.replicate_succ, List.cons_append, pieces_cons (by rw [back, none]), ih]
      rfl

theorem pieces_backslashes (n : Nat) :
    pieces (List.replicate n '\\') = List.replicate n (.char '\\') := by
  have first : ([] : List Char).head? ≠ some '\\' := by simp
  have parts := pieces_backslashes_append first rfl n
  rwa [List.append_nil, pieces_nil, List.append_nil] at parts

/-- A character that begins no tag is a part, and so are the backslashes in front of it. -/
theorem pieces_backslashes_char {c : Char} (other : c ≠ '\\') (none : tag? (c :: rest) = none)
    (n : Nat) : pieces (List.replicate n '\\' ++ c :: rest) =
      List.replicate n (.char '\\') ++ .char c :: pieces rest := by
  have parts : pieces (c :: rest) = .char c :: pieces rest := by
    refine pieces_cons ?_
    rwa [List.dropWhile_cons_of_neg (by simpa using other)]
  rw [pieces_backslashes_append (by simpa using other) none, parts]

/-- A text is a tag behind backslashes and another text, or backslashes, or a character behind
backslashes, no tag, and another text. -/
theorem tag_induction {motive : List Char → Prop}
    (tag : ∀ n inside after, IsTag inside → motive after →
      motive (List.replicate n '\\' ++ (bracket inside ++ after)))
    (backslashes : ∀ n, motive (List.replicate n '\\'))
    (char : ∀ n c rest, c ≠ '\\' → tag? (c :: rest) = none → motive rest →
      motive (List.replicate n '\\' ++ c :: rest)) (cs : List Char) : motive cs := by
  -- On the length: the backslashes in front are split off, and then a tag or a character is.
  induction length : cs.length using Nat.strongRecOn generalizing cs with
  | _ length' ih =>
    have front : cs.takeWhile (· == '\\') =
        List.replicate (cs.takeWhile (· == '\\')).length '\\' :=
      List.eq_replicate_iff.2 ⟨rfl, fun c member => by simpa using List.mem_takeWhile_imp member⟩
    have split := List.takeWhile_append_dropWhile (p := (· == '\\')) (l := cs)
    rw [front] at split
    have shorter : (cs.dropWhile (· == '\\')).length ≤ length' :=
      length ▸ (List.dropWhile_suffix _).length_le
    have first := List.head?_dropWhile_not (· == '\\') cs
    generalize (cs.takeWhile (· == '\\')).length = n at split
    generalize cs.dropWhile (· == '\\') = tail at split shorter first
    rw [← split]
    cases found : tag? tail with
    | some found' =>
        obtain ⟨isTag, rfl⟩ := eq_bracket_append found
        exact tag n _ _ isTag (ih _ (by simp [bracket] at shorter; omega) _ rfl)
    | none =>
        cases tail with
        | nil =>
            rw [List.append_nil]
            exact backslashes n
        | cons c rest =>
            have other : c ≠ '\\' := by simpa using first
            exact char n c rest other found (ih _ (by simpa using shorter) _ rfl)

/-! ### Escaped text -/

/-- The text with its tags made text. It is the escaped text, but for a single backslash at its
end. -/
def disarmed (cs : List Char) : List Char := (pieces cs).flatMap escapePiece

theorem escape_eq (cs : List Char) :
    escape cs = disarmed cs ∨ escape cs = disarmed cs ++ ['\\'] := by
  unfold escape disarmed
  dsimp only
  split
  · exact .inr rfl
  · exact .inl rfl

theorem disarmed_tag {inside : List Char} (h : IsTag inside) (n : Nat) (after : List Char) :
    disarmed (List.replicate n '\\' ++ (bracket inside ++ after)) =
      List.replicate (2 * n + 1) '\\' ++ (bracket inside ++ disarmed after) := by
  rw [disarmed, pieces_tag h, List.flatMap_cons, escapePiece, List.append_assoc]
  rfl

theorem flatMap_escapePiece_chars (cs : List Char) :
    (cs.map Piece.char).flatMap escapePiece = cs := by
  rw [List.flatMap_map]
  exact List.flatMap_singleton' cs

theorem disarmed_backslashes (n : Nat) :
    disarmed (List.replicate n '\\') = List.replicate n '\\' := by
  rw [disarmed, pieces_backslashes, ← List.map_replicate, flatMap_escapePiece_chars]

theorem disarmed_char {c : Char} (other : c ≠ '\\') (none : tag? (c :: rest) = none) (n : Nat) :
    disarmed (List.replicate n '\\' ++ c :: rest) =
      List.replicate n '\\' ++ c :: disarmed rest := by
  rw [disarmed, pieces_backslashes_char other none, List.flatMap_append, ← List.map_replicate,
    flatMap_escapePiece_chars]
  rfl

theorem closes_backslashes_append (n : Nat) :
    Closes (List.replicate n '\\' ++ cs) ↔ Closes cs := by
  induction n with
  | zero => rfl
  | succ n ih => rw [List.replicate_succ, List.cons_append, closes_cons rfl, ih]

/-- Text that completes no tag in front of it: it does not go on with a tag, and the first bracket
in it does not close. -/
def Trails (s : List Char) : Prop := (∀ c ∈ s.head?, startsTag c = false) ∧ ¬ Closes s

/-- In disarmed text, too, the first bracket closes only where it did. -/
theorem not_closes_disarmed_append {s : List Char} (h : ¬ Closes cs) (trails : ¬ Closes s) :
    ¬ Closes (disarmed cs ++ s) := by
  induction cs using tag_induction with
  | tag n inside after isTag _ =>
      -- The first bracket is that of the tag, and it opens.
      rw [disarmed_tag isTag, List.append_assoc, closes_backslashes_append]
      exact not_closes_open
  | backslashes n => rwa [disarmed_backslashes, closes_backslashes_append]
  | char n c rest other none ih =>
      rw [closes_backslashes_append] at h
      rw [disarmed_char other none, List.append_assoc, closes_backslashes_append,
        List.cons_append]
      by_cases bracket : (c != '[' && c != ']') = true
      · rw [closes_cons bracket] at h ⊢
        exact ih h
      · rcases eq_or_eq_of_bracket bracket with rfl | rfl
        · exact not_closes_open
        · exact absurd closes_close h

/-- What is no tag becomes none by disarming what follows. -/
theorem tag?_disarmed_append {d : Char} {s : List Char} (h : tag? (d :: cs) = none)
    (trails : Trails s) : tag? (d :: (disarmed cs ++ s)) = none := by
  rw [tag?_eq_none_iff] at h ⊢
  intro c others same starts
  obtain ⟨rfl, shape⟩ := List.cons.inj same
  clear same
  have noBackslash : c ≠ '\\' := by
    rintro rfl
    exact absurd starts (by decide)
  -- No backslash can follow the bracket, so the text begins with a character of its own, or is
  -- empty and goes on with `s`.
  induction cs using tag_induction with
  | tag n inside after isTag _ =>
      rw [disarmed_tag isTag, List.replicate_succ] at shape
      exact absurd (List.cons.inj shape).1.symm noBackslash
  | backslashes n =>
      rw [disarmed_backslashes] at shape
      cases n with
      | zero =>
          have first : s.head? = some c := congrArg List.head? shape
          exact absurd starts (by simp [trails.1 c first])
      | succ n => exact absurd (List.cons.inj shape).1.symm noBackslash
  | char n c' rest other none _ =>
      rw [disarmed_char other none] at shape
      cases n with
      | zero =>
          obtain ⟨rfl, rfl⟩ := List.cons.inj shape
          exact not_closes_disarmed_append (h c' rest rfl starts) trails.2
      | succ n => exact absurd (List.cons.inj shape).1.symm noBackslash

/-- Plain text is escaped already. -/
theorem escape_of_isPlain (h : IsPlain cs) : escape cs = cs := by
  have parts : pieces cs = cs.map .char := by
    have parts := pieces_plain_append h []
    rwa [pieces_nil, List.append_nil, List.append_nil] at parts
  have ends : endsInBackslash cs = false := by
    unfold endsInBackslash
    split
    · rfl
    · next rest last =>
        have member : '\\' ∈ cs := List.mem_reverse.1 (last ▸ List.mem_cons_self)
        exact absurd rfl (h _ member).2.2
    · rfl
  rw [escape, parts, flatMap_escapePiece_chars]
  exact if_neg (by simp [ends])

/-! ### Rendering -/

theorem exists_map_eq_ok_iff {α β ε : Type} {read : Except ε α} {f : α → β} :
    (∃ y, read.map f = .ok y) ↔ ∃ x, read = .ok x := by
  cases read <;> simp [Except.map]

section Rendering

variable [TagReading] {opened : Open} {parts : List Piece}

/-- The parts can be rendered inside open styles. What they look like is left open here. -/
def Renders (opened : Open) (parts : List Piece) : Prop :=
  ∃ text, renderPieces opened parts = .ok text

theorem renders_nil : Renders opened [] := ⟨[], by rw [renderPieces]⟩

/-- Characters do not matter. -/
theorem renders_char_iff (c : Char) :
    Renders opened (.char c :: parts) ↔ Renders opened parts := by
  unfold Renders
  by_cases hidden : c = '\\' ∧ ∃ others, parts = .char '[' :: others
  · obtain ⟨rfl, others, rfl⟩ := hidden
    rw [renderPieces, exists_map_eq_ok_iff, renderPieces, exists_map_eq_ok_iff]
    simp
  · rw [renderPieces, exists_map_eq_ok_iff]
    rintro others rfl rfl
    exact hidden ⟨rfl, others, rfl⟩

theorem renders_chars_iff (cs : List Char) :
    Renders opened (cs.map .char ++ parts) ↔ Renders opened parts := by
  induction cs with
  | nil => rfl
  | cons c cs ih => rw [List.map_cons, List.cons_append, renders_char_iff, ih]

theorem renders_backslashes_iff (n : Nat) :
    Renders opened (List.replicate n (.char '\\') ++ parts) ↔ Renders opened parts := by
  rw [← List.map_replicate, renders_chars_iff]

/-- A tag with an odd number of backslashes is text. -/
theorem renders_tag_of_odd {n : Nat} (odd : n % 2 = 1) (inside : List Char)
    (h : Renders opened parts) : Renders opened (.tag n inside :: parts) := by
  rw [Renders, renderPieces, if_pos odd, exists_map_eq_ok_iff]
  exact h

/-- A tag with an even number of backslashes opens or closes a style. -/
theorem renders_tag_of_even {n : Nat} (even : n % 2 = 0) {inside : List Char} {next : Open}
    (applied : opened.apply inside = .ok next) (h : Renders next parts) :
    Renders opened (.tag n inside :: parts) := by
  rw [Renders, renderPieces, if_neg (by omega), applied]
  exact exists_map_eq_ok_iff.2 h

theorem renders_plain_append (h : IsPlain cs) (rest : List Char) :
    Renders opened (pieces (cs ++ rest)) ↔ Renders opened (pieces rest) := by
  rw [pieces_plain_append h, renders_chars_iff]

/-! ### Inert text -/

/-- Text that neither opens nor closes a style, wherever it stands. What follows may make text of
the next tag by the backslashes that the text ends in. -/
def Inert (cs : List Char) : Prop :=
  ∀ (opened : Open) (s : List Char), Trails s →
    (∀ n, Renders opened (pieces (List.replicate n '\\' ++ s))) →
    Renders opened (pieces (cs ++ s))

theorem inert_disarmed (cs : List Char) : Inert (disarmed cs) := by
  intro opened s trails h
  induction cs using tag_induction with
  | tag n inside after isTag ih =>
      rw [disarmed_tag isTag, List.append_assoc, List.append_assoc, pieces_tag isTag]
      exact renders_tag_of_odd (by omega) inside ih
  | backslashes n =>
      rw [disarmed_backslashes]
      exact h n
  | char n c rest other none ih =>
      rw [disarmed_char other none, List.append_assoc, List.cons_append,
        pieces_backslashes_char other (tag?_disarmed_append none trails), renders_backslashes_iff,
        renders_char_iff]
      exact ih

/-- **Escaped text is inert.** The induction is on the text, tag by tag; a backslash that is doubled
at the end changes what the tag behind it means, which is why that may render either way. -/
theorem inert_escape (cs : List Char) : Inert (escape cs) := by
  rcases escape_eq cs with same | same
  · rw [same]
    exact inert_disarmed cs
  · intro opened s trails h
    rw [same, List.append_assoc]
    refine inert_disarmed cs opened _ ⟨by simp [startsTag], ?_⟩ fun n => ?_
    · exact fun closes => trails.2 ((closes_cons rfl).1 closes)
    · have more := h (n + 1)
      rwa [List.replicate_succ', List.append_assoc] at more

theorem inert_of_isPlain (h : IsPlain cs) : Inert cs :=
  fun _ s _ renders => (renders_plain_append h s).2 (renders 0)

/-- Plain text in front of inert text does not matter. -/
theorem Inert.plain_append {w : List Char} (h : Inert cs) (plain : IsPlain w) :
    Inert (w ++ cs) := by
  intro opened s trails renders
  rw [List.append_assoc]
  exact (renders_plain_append plain _).2 (h opened s trails renders)

/-- Nor does plain text behind it, if that does not go on with a tag. -/
theorem Inert.append_plain {c : Char} {w : List Char} (h : Inert cs) (plain : IsPlain (c :: w))
    (apart : startsTag c = false) : Inert (cs ++ c :: w) := by
  intro opened s trails renders
  obtain ⟨open_, -, backslash⟩ := plain c List.mem_cons_self
  have none : tag? (c :: w ++ s) = none := by
    rw [tag?_eq_none_iff]
    rintro c' rest' same
    exact absurd (List.cons.inj same).1 open_
  rw [List.append_assoc]
  refine h opened _ ⟨by simpa using apart, ?_⟩ fun n => ?_
  · rw [closes_plain_append plain]
    exact trails.2
  · rw [pieces_backslashes_append (by simpa using backslash) none, renders_backslashes_iff,
      renders_plain_append plain]
    exact renders 0

theorem Inert.renders (h : Inert cs) (opened : Open) : Renders opened (pieces cs) := by
  have backslashes (n : Nat) : Renders opened (pieces (List.replicate n '\\' ++ [])) := by
    rw [List.append_nil, pieces_backslashes, ← List.append_nil (List.replicate n _),
      renders_backslashes_iff]
    exact renders_nil
  have alone := h opened [] ⟨by simp, by simp [Closes]⟩ backslashes
  rwa [List.append_nil] at alone

/-! ### Styles -/

/-- A name by which a style is opened and closed, however tags are read: it stands for itself, and
there is a style for it. -/
structure IsStyle (name : String) : Prop where
  opening : IsTag name.toList
  apart : ∀ c ∈ name.toList, c ≠ '/' ∧ c ≠ '@' ∧ c ≠ '=' ∧ Text.isBlank c = false
  named : TagReading.name? name = some name
  styled : (TagReading.style? ⟨name, none⟩).isSome = true

namespace IsStyle

variable {name : String}

theorem closing (h : IsStyle name) : IsTag ('/' :: name.toList) := by
  obtain ⟨c, w, shape, starts, within⟩ := h.opening
  have first : (c != '[' && c != ']') = true := by
    by_contra bracket
    rcases eq_or_eq_of_bracket bracket with rfl | rfl <;> exact absurd starts (by decide)
  exact ⟨'/', name.toList, rfl, rfl, shape ▸ List.forall_mem_cons.2 ⟨first, within⟩⟩

theorem spelling_eq (h : IsStyle name) : Tag.spelling name.toList = name := by
  rw [Tag.spelling, List.takeWhile_eq_self_iff.2, String.ofList_toList]
  intro c member
  simpa using (h.apart c member).2.2.1

theorem parameters_eq (h : IsStyle name) : Tag.parameters? name.toList = none := by
  have none : name.toList.dropWhile (· != '=') = [] := by
    rw [List.dropWhile_eq_nil_iff]
    intro c member
    simpa using (h.apart c member).2.2.1
  rw [Tag.parameters?, none]

theorem trim_eq (h : IsStyle name) : Text.trim name = name := by
  have keep {cs : List Char} (visible : ∀ c ∈ cs, Text.isBlank c = false) :
      cs.dropWhile Text.isBlank = cs := by
    cases cs with
    | nil => rfl
    | cons c cs => exact List.dropWhile_cons_of_neg (by simp [visible c List.mem_cons_self])
  have visible : ∀ c ∈ name.toList, Text.isBlank c = false :=
    fun c member => (h.apart c member).2.2.2
  rw [Text.trim, Text.trimBoth, keep visible, keep (by simpa using visible), List.reverse_reverse,
    String.ofList_toList]

/-- The tag of a style opens it. -/
theorem apply_open (h : IsStyle name) (opened : Open) :
    opened.apply name.toList = .ok (⟨name, none⟩ :: opened) := by
  have read : Tag.read? name.toList = some ⟨name, none⟩ := by
    rw [Tag.read?, h.spelling_eq, h.named, h.parameters_eq]
    rfl
  unfold Open.apply
  split
  · next rest slash => exact absurd rfl (h.apart '/' (by simp [slash])).1
  · rw [Open.enter, read]
    exact if_pos h.styled

/-- A style is no handler, so it can be closed. -/
theorem canClose (h : IsStyle name) (parameters : Option String) :
    Tag.canClose ⟨name, parameters⟩ = true := by
  unfold Tag.canClose
  split
  · next handler _ => exact absurd rfl (h.apart '@' (by simp [handler])).2.1
  · rfl

/-- The closing tag of a style closes it. -/
theorem apply_close (h : IsStyle name) (opened : Open) :
    Open.apply (⟨name, none⟩ :: opened) ('/' :: name.toList) = .ok opened := by
  have nonempty : name.isEmpty = false := by
    obtain ⟨c, w, shape, -⟩ := h.opening
    by_contra empty
    rw [Bool.not_eq_false, String.isEmpty_iff] at empty
    simp [empty] at shape
  simp [Open.apply, Open.leave, h.spelling_eq, h.trim_eq, nonempty, h.named, h.canClose]

end IsStyle

/-- The name of a colour is that of a style. -/
theorem isStyle_name (colour : Colour) : IsStyle colour.name where
  opening := by
    have letters : (colour.name.toList.tail.all fun d => d != '[' && d != ']') = true := by
      cases colour <;> decide
    cases colour <;> exact ⟨_, _, rfl, rfl, List.all_eq_true.1 letters⟩
  apart := by
    have letters : (colour.name.toList.all fun c =>
        c != '/' && c != '@' && c != '=' && !Text.isBlank c) = true := by
      cases colour <;> decide
    simpa [and_assoc] using letters
  named := TagReading.name?_colour colour
  styled := by rw [TagReading.style?_colour]; rfl

/-- Inside the tags of a colour, text has that colour. -/
theorem Open.style_colour_cons (colour : Colour) (opened : Open) :
    Open.style (⟨colour.name, none⟩ :: opened) = (Style.ofColour colour).within opened.style := by
  rw [Open.style, List.foldr_cons, TagReading.style?_colour]
  rfl

theorem isStyle_red : IsStyle "red" := isStyle_name .red

theorem isStyle_green : IsStyle "green" := isStyle_name .green

theorem isStyle_yellow : IsStyle "yellow" := isStyle_name .yellow

theorem isStyle_cyan : IsStyle "cyan" := isStyle_name .cyan

theorem isStyle_magenta : IsStyle "magenta" := isStyle_name .magenta

/-- **Inert text between the tags of a style can be rendered,** if what follows can be rendered
whether the style was closed or not. -/
theorem renders_tagged_append {name : String} (style : IsStyle name) (h : Inert cs)
    (behind : ∀ opened, Renders opened (pieces rest)) :
    Renders opened (pieces (tagged name cs ++ rest)) := by
  have shape : tagged name cs ++ rest =
      List.replicate 0 '\\' ++ (bracket name.toList ++ (cs ++
        (bracket ('/' :: name.toList) ++ rest))) := by
    simp [tagged]
  rw [shape, pieces_tag style.opening]
  refine renders_tag_of_even rfl (style.apply_open opened) ?_
  refine h _ _ ⟨by simp [bracket, startsTag], not_closes_open⟩ fun n => ?_
  -- The text may end in backslashes, and then the closing tag is text if their number is odd.
  rw [pieces_tag style.closing]
  rcases Nat.mod_two_eq_zero_or_one n with even | odd
  · exact renders_tag_of_even even (style.apply_close opened) (behind opened)
  · exact renders_tag_of_odd odd _ (behind _)

theorem renders_tagged {name : String} (style : IsStyle name) (h : Inert cs) (opened : Open) :
    Renders opened (pieces (tagged name cs)) := by
  rw [← List.append_nil (tagged name cs)]
  exact renders_tagged_append style h fun _ => pieces_nil ▸ renders_nil

end Rendering

end Abacus.Display.Markup
