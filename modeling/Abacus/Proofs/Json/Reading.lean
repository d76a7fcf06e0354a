import Abacus.Json.Read
import Abacus.Proofs.Json.Scanning

/-!
# Reading what the grammar spells

A text that the grammar derives for a value is read as that value, if the value is within the
reader's limits. The proof follows a derivation: each form takes the reader from a state to another
and leaves the text behind it alone.

## Main definitions

* `Json.run` — the state after the tokens of a text.
* `Json.Reads` — how the reader goes over a form.

## Main statements

* `Json.Spells.reads` — it does so over all that the grammar derives.
* `Json.read_of_isText` — the value of a text is read.
-/

namespace Abacus.Json

/-! ### Single tokens -/

/-- The state after the tokens of a text. The text may be a part of another, which is why it is not
read to its end. -/
def run (state : State) (cs : List Char) : Except ReadError State :=
  (Token.scan cs).foldlM step state

variable {state next : State} {token : Token} {cs rest : List Char}

/-- A token takes the reader to the next state. -/
theorem run_of_scan (scanned : Token.scan cs = token :: Token.scan rest)
    (stepped : step state token = .ok next) : run state cs = run next rest := by
  rw [run, scanned, List.foldlM_cons, stepped]
  rfl

/-- No token is in a gap. So reading does not depend on how a text is laid out. -/
theorem scan_gap_append (h : IsGap cs) (rest : List Char) :
    Token.scan (cs ++ rest) = Token.scan rest := by
  induction cs with
  | nil => rfl
  | cons c cs ih =>
      have space : isSpace c = true := h c List.mem_cons_self
      rw [List.cons_append, Token.scan, if_pos space,
        ih fun d member => h d (List.mem_cons_of_mem c member)]

/-- Gaps are passed over. -/
theorem run_gap_append (h : IsGap cs) (state : State) (rest : List Char) :
    run state (cs ++ rest) = run state rest := by
  rw [run, scan_gap_append h, run]

/-- `Marks c token`: the character is a token by itself. -/
inductive Marks : Char → Token → Prop
  | openArray : Marks '[' .openArray
  | closeArray : Marks ']' .closeArray
  | openObject : Marks '\x7b' .openObject
  | closeObject : Marks '\x7d' .closeObject
  | comma : Marks ',' .comma
  | colon : Marks ':' .colon

theorem Marks.scan_cons {c : Char} (h : Marks c token) (rest : List Char) :
    Token.scan (c :: rest) = token :: Token.scan rest := by
  rw [Token.scan]
  cases h <;> simp [isSpace]

/-- It ends a word in front of it. -/
theorem Marks.endsWord {c : Char} (h : Marks c token) (rest : List Char) :
    EndsWord (c :: rest) := by
  refine endsWord_cons ?_ rest
  cases h <;> rfl

/-! ### The first item and the first name

Where an array or an object has just been opened, its end may follow. What the grammar derives for
items and members does not begin with it, and so is read like what follows a comma.
-/

/-- Characters that end an array or an object, or may stand before its end. Behind an opening
bracket, anything else has to begin a first item or a first name. -/
def IsClosing (c : Char) : Prop := isSpace c = true ∨ c = ']' ∨ c = '\x7d'

theorem not_isClosing_of_isWordChar {c : Char} (h : isWordChar c = true) : ¬ IsClosing c := by
  rintro (space | rfl | rfl)
  · simp [not_isWordChar_of_isSpace space] at h
  · exact absurd h (by decide)
  · exact absurd h (by decide)

/-- The text begins, behind a gap, with a character that ends nothing. So it is not mistaken for the
end of an empty array or object. -/
def Starts (text : List Char) : Prop :=
  ∃ gap c more, text = gap ++ c :: more ∧ IsGap gap ∧ ¬ IsClosing c

theorem starts_cons {c : Char} (h : ¬ IsClosing c) (more : List Char) : Starts (c :: more) :=
  ⟨[], c, more, rfl, isGap_nil, h⟩

theorem Starts.append {text : List Char} (h : Starts text) (others : List Char) :
    Starts (text ++ others) := by
  obtain ⟨gap, c, more, rfl, isGap, start⟩ := h
  exact ⟨gap, c, more ++ others, by rw [List.append_assoc, List.cons_append], isGap, start⟩

theorem IsGap.starts_append {gap text : List Char} (h : IsGap gap) (h' : Starts text) :
    Starts (gap ++ text) := by
  obtain ⟨inner, c, more, rfl, isGap, start⟩ := h'
  exact ⟨gap ++ inner, c, more, by rw [List.append_assoc],
    List.forall_mem_append.2 ⟨h, isGap⟩, start⟩

/-- Numbers begin with no bracket. -/
theorem starts_of_signed (negative : Bool) {cs : List Char} (nonempty : cs ≠ [])
    (inside : ∀ c ∈ cs, isWordChar c = true) : Starts (Binary64.writeSign negative ++ cs) := by
  have word := isWordChar_of_mem_signed negative inside
  cases shape : Binary64.writeSign negative ++ cs with
  | nil => exact absurd (List.append_eq_nil_iff.1 shape).2 nonempty
  | cons c more =>
      rw [shape] at word
      exact starts_cons (not_isClosing_of_isWordChar (word c List.mem_cons_self)) more

theorem SpellsString.starts {s : String} {text : List Char} (h : SpellsString s text) :
    Starts text := by
  obtain ⟨-, -⟩ := h
  exact starts_cons (by simp [IsClosing, isSpace]) _

/-- What the grammar derives does not begin with a closing bracket. This is why a first item or
member can be read like any other. -/
theorem Spells.starts {form : Form} {text : List Char} (h : Spells form text) : Starts text := by
  induction h with
  | null | emptyArray | array | emptyObject | object =>
      exact starts_cons (by simp [IsClosing, isSpace]) _
  | bool b => cases b <;> exact starts_cons (by simp [IsClosing, isSpace]) _
  | int negative whole =>
      exact starts_of_signed negative whole.1.1 (isWordChar_of_mem_digits whole.1)
  | float negative numeral marked =>
      obtain ⟨c, member, -⟩ := marked
      exact starts_of_signed negative (List.ne_nil_of_mem member)
        (isWordChar_of_mem_numeral numeral)
  | str string => exact string.starts
  | element before _ _ ih => exact (before.starts_append ih).append _
  | lastItem _ ih => exact ih
  | moreItems _ _ ih => exact ih.append _
  | member before name _ _ _ => exact ((before.starts_append name.starts).append _).append _
  | lastMember _ ih => exact ih
  | moreMembers _ _ ih => exact ih.append _

/-- The first token of such a text closes nothing. -/
theorem Starts.exists_scan {text : List Char} (h : Starts text) :
    ∃ token others, Token.scan text = token :: others ∧ token ≠ .closeArray ∧
      token ≠ .closeObject := by
  obtain ⟨gap, c, more, rfl, isGap, start⟩ := h
  simp only [IsClosing, not_or, Bool.not_eq_true] at start
  rw [scan_gap_append isGap, Token.scan]
  simp only [start, Bool.false_eq_true, if_false]
  repeat' split
  all_goals exact ⟨_, _, rfl, by simp, by simp⟩

/-- What follows an opening bracket is read like what follows a comma, unless it closes. So the
items of an array are read by one induction. -/
theorem run_firstItem {text : List Char} (h : Starts text) (around : List Frame) :
    run (.firstItem around) text = run (.value (.array [] :: around)) text := by
  obtain ⟨token, others, scanned, array, -⟩ := h.exists_scan
  have same : step (.firstItem around) token = step (.value (.array [] :: around)) token := by
    cases token with
    | closeArray => exact absurd rfl array
    | _ => rfl
  simp only [run, scanned, List.foldlM_cons, same]

/-- What follows an opening brace is read like what follows a comma, unless it closes. So the
members of an object are read by one induction. -/
theorem run_firstName {text : List Char} (h : Starts text) (around : List Frame) :
    run (.firstName around) text = run (.name [] around) text := by
  obtain ⟨token, others, scanned, -, object⟩ := h.exists_scan
  have same : step (.firstName around) token = step (.name [] around) token := by
    cases token with
    | closeObject => exact absurd rfl object
    | scalar v => cases v <;> rfl
    | _ => rfl
  simp only [run, scanned, List.foldlM_cons, same]

/-! ### Derivations -/

/-- A member whose name is new comes last. Names that are distinct give the members in the order of
the text. -/
theorem insertMember_of_not_mem {name : String} {members : List (String × Json)}
    (h : name ∉ members.map Prod.fst) (v : Json) :
    insertMember name v members = members ++ [(name, v)] := by
  induction members with
  | nil => rfl
  | cons entry rest ih =>
      obtain ⟨other, w⟩ := entry
      simp only [List.map_cons, List.mem_cons, not_or] at h
      rw [insertMember, if_neg (Ne.symm h.1), ih h.2, List.cons_append]

/-- Where names are distinct, a name is new behind those before it. -/
theorem not_mem_of_distinct {name : String} {v : Json} {done ms : List (String × Json)}
    (h : ((done ++ (name, v) :: ms).map Prod.fst).Nodup) : name ∉ done.map Prod.fst := by
  rw [List.map_append, List.nodup_append] at h
  exact fun member => h.2.2 name member name (by simp) rfl

/-- From the state in front of it, the reader goes over a text to another state, whatever follows,
if the word that the text may end with ends there. -/
def GoesOver (text : List Char) (before after : State) : Prop :=
  ∀ rest, EndsWord rest → run before (text ++ rest) = run after rest

theorem goesOver_gap {gap : List Char} (h : IsGap gap) (state : State) :
    GoesOver gap state state :=
  fun rest _ => run_gap_append h state rest

/-- Gaps do not matter to the text behind them, nor to that in front of them. With the three lemmas
below, this puts the reading of a text together from that of its parts. -/
theorem GoesOver.gaps {before text after : List Char} {state next : State}
    (h : GoesOver text state next) (gap : IsGap before) (gap' : IsGap after) :
    GoesOver (before ++ text ++ after) state next := by
  intro rest ends
  rw [List.append_assoc, List.append_assoc, run_gap_append gap,
    h _ (gap'.endsWord_append ends), run_gap_append gap']

/-- A mark leads from a text to the next. -/
theorem GoesOver.followed {text others : List Char} {state between next final : State} {c : Char}
    {token : Token} (h : GoesOver text state between) (mark : Marks c token)
    (stepped : step between token = .ok next) (h' : GoesOver others next final) :
    GoesOver (text ++ c :: others) state final := by
  intro rest ends
  calc run state (text ++ c :: others ++ rest)
    _ = run state (text ++ c :: (others ++ rest)) := by rw [List.append_assoc, List.cons_append]
    _ = run between (c :: (others ++ rest)) := h _ (mark.endsWord _)
    _ = run next (others ++ rest) := run_of_scan (mark.scan_cons _) stepped
    _ = run final rest := h' rest ends

/-- Behind a text, it ends that. -/
theorem GoesOver.closed {text : List Char} {state between next : State} {c : Char}
    {token : Token} (h : GoesOver text state between) (mark : Marks c token)
    (stepped : step between token = .ok next) : GoesOver (text ++ [c]) state next :=
  h.followed mark stepped fun _ _ => rfl

/-- In front of a text, it begins that. -/
theorem GoesOver.opened {text : List Char} {state next final : State} {c : Char}
    {token : Token} (h : GoesOver text next final) (mark : Marks c token)
    (stepped : step state token = .ok next) : GoesOver (c :: text) state final :=
  fun rest ends => (run_of_scan (mark.scan_cons _) stepped).trans (h rest ends)

theorem GoesOver.firstItem {text : List Char} {around : List Frame} {next : State}
    (h : GoesOver text (.value (.array [] :: around)) next) (starts : Starts text) :
    GoesOver text (.firstItem around) next :=
  fun rest ends => (run_firstItem (starts.append rest) around).trans (h rest ends)

theorem GoesOver.firstName {text : List Char} {around : List Frame} {next : State}
    (h : GoesOver text (.name [] around) next) (starts : Starts text) :
    GoesOver text (.firstName around) next :=
  fun rest ends => (run_firstName (starts.append rest) around).trans (h rest ends)

/-- How the reader goes over a form within its limits: a value is completed in the frames around
it; items and members are added to those before them. -/
def Reads (text : List Char) : Form → Prop
  | .value v => ∀ {depth : Nat} {around : List Frame}, Fits depth v →
      around.length + depth ≤ nestingLimit →
      GoesOver text (.value around) (.complete v around)
  | .element v => ∀ {depth : Nat} {around : List Frame}, Fits depth v →
      around.length + depth ≤ nestingLimit →
      GoesOver text (.value around) (.complete v around)
  | .items vs => ∀ {depth : Nat} {done : List Json} {around : List Frame},
      (∀ v ∈ vs, Fits depth v) → around.length + 1 + depth ≤ nestingLimit →
      GoesOver text (.value (.array done :: around)) (.afterItem (vs.reverse ++ done) around)
  | .member name v => ∀ {depth : Nat} {done : List (String × Json)} {around : List Frame},
      name ∉ done.map Prod.fst → Fits depth v → around.length + 1 + depth ≤ nestingLimit →
      GoesOver text (.name done around) (.afterMember (done ++ [(name, v)]) around)
  | .members ms => ∀ {depth : Nat} {done : List (String × Json)} {around : List Frame},
      ((done ++ ms).map Prod.fst).Nodup → (∀ member ∈ ms, Fits depth member.2) →
      around.length + 1 + depth ≤ nestingLimit →
      GoesOver text (.name done around) (.afterMember (done ++ ms) around)

/-- A scalar is one token. What follows it must not go on with it, which no gap and no mark does. -/
theorem goesOver_scalar {text : List Char} {v : Json} (around : List Frame)
    (h : ∀ rest, EndsWord rest → Token.scan (text ++ rest) = .scalar v :: Token.scan rest) :
    GoesOver text (.value around) (.complete v around) :=
  fun rest ends => run_of_scan (h rest ends) rfl

/-- A word that stands for a scalar is one. -/
theorem goesOver_word {word : List Char} {v : Json} (nonempty : word ≠ [])
    (inside : ∀ c ∈ word, isWordChar c = true) (value : ofWord word = .ok v)
    (around : List Frame) : GoesOver word (.value around) (.complete v around) :=
  goesOver_scalar around fun _ => Token.scan_word_append nonempty inside value

theorem ofWord_null : ofWord ['n', 'u', 'l', 'l'] = .ok .null := by
  cbv

theorem ofWord_bool (b : Bool) :
    ofWord (if b then ['t', 'r', 'u', 'e'] else ['f', 'a', 'l', 's', 'e']) = .ok (.bool b) := by
  cases b <;> cbv

theorem natAbs_signed (negative : Bool) (n : Nat) : (signed negative n).natAbs = n := by
  cases negative <;> simp [signed]

/-- Brackets open where there is room for another frame. -/
theorem step_openArray {around : List Frame} (room : around.length < nestingLimit) :
    step (.value around) .openArray = .ok (.firstItem around) :=
  if_neg (Nat.not_le.2 room)

/-- Braces open where there is room for another frame. -/
theorem step_openObject {around : List Frame} (room : around.length < nestingLimit) :
    step (.value around) .openObject = .ok (.firstName around) :=
  if_neg (Nat.not_le.2 room)

/-- The end of an array turns its items around. A frame has them last first. -/
theorem step_closeArray (items : List Json) (around : List Frame) :
    step (.afterItem (items.reverse ++ []) around) .closeArray =
      .ok (.complete (.arr items) around) := by
  simp [step]

/-- **The reader goes over whatever the grammar derives.** The induction is on the derivation, one
case for each form, and says what a form adds to the frames around it. -/
theorem Spells.reads {form : Form} {text : List Char} (h : Spells form text) :
    Reads text form := by
  -- By induction on the derivation. `Reads` has the frames around a form and what stands before it
  -- in the innermost one, so an item or a member finds the state that those before it leave.
  induction h with
  | null =>
      intro _ around _ _
      exact goesOver_word (by simp) (by simp [isWordChar]) ofWord_null around
  | bool b =>
      intro _ around _ _
      refine goesOver_word ?_ ?_ (ofWord_bool b) around <;> cases b <;> simp [isWordChar]
  | int negative whole =>
      rintro _ around (_ | _ | short) _
      rw [natAbs_signed] at short
      exact goesOver_word (by simp [whole.1.1])
        (isWordChar_of_mem_signed negative (isWordChar_of_mem_digits whole.1))
        (ofWord_int whole negative short) around
  | float negative numeral marked =>
      intro _ around _ _
      obtain ⟨c, member, -⟩ := id marked
      exact goesOver_word (by simp [List.ne_nil_of_mem member])
        (isWordChar_of_mem_signed negative (isWordChar_of_mem_numeral numeral))
        (ofWord_float numeral marked negative) around
  | str string =>
      intro _ around _ _
      exact goesOver_scalar around fun rest _ => Token.scan_string_append string rest
  | emptyArray gap =>
      rintro _ around ⟨⟩ room
      exact ((goesOver_gap gap _).opened .openArray (step_openArray (by omega))).closed
        .closeArray rfl
  | array items ih =>
      rintro _ around ⟨⟩ room
      next fits =>
      have inner : GoesOver _ (.value (.array [] :: around)) _ := ih fits (by omega)
      have first := inner.firstItem items.starts
      exact (first.opened .openArray (step_openArray (by omega))).closed .closeArray
        (step_closeArray _ around)
  | emptyObject gap =>
      rintro _ around ⟨⟩ room
      exact ((goesOver_gap gap _).opened .openObject (step_openObject (by omega))).closed
        .closeObject rfl
  | object members ih =>
      rintro _ around ⟨⟩ room
      next distinct fits =>
      have inner : GoesOver _ (.name [] around) _ := ih distinct fits (by omega)
      have first := inner.firstName members.starts
      exact (first.opened .openObject (step_openObject (by omega))).closed .closeObject rfl
  | element before _ after ih =>
      intro _ around fits room
      exact (ih fits room).gaps before after
  | lastItem _ ih =>
      intro _ done around fits room
      exact ih (fits _ List.mem_cons_self) room
  | @moreItems v _ _ _ _ _ ih ih' =>
      intro _ done around fits room
      have first : GoesOver _ (.value (.array done :: around)) _ :=
        ih (fits _ List.mem_cons_self) room
      -- Items that are done stand in the frame last first.
      have others : GoesOver _ (.value (.array (v :: done) :: around)) _ :=
        ih' (fun v member => fits v (List.mem_cons_of_mem _ member)) room
      rw [List.reverse_cons, List.append_assoc]
      exact first.followed .comma rfl others
  | @member name v _ _ _ _ before key after _ ih =>
      intro _ done around new fits room
      have named : GoesOver _ (.name done around) (.afterName done name around) :=
        fun rest _ => run_of_scan (Token.scan_string_append key rest) rfl
      have valued : GoesOver _ (.value (.object done name :: around)) _ := ih fits room
      -- The value completes the member: it goes into the frame of its object.
      rw [State.complete, insertMember_of_not_mem new] at valued
      exact (named.gaps before after).followed .colon rfl valued
  | lastMember _ ih =>
      intro _ done around distinct fits room
      exact ih (not_mem_of_distinct distinct) (fits _ List.mem_cons_self) room
  | @moreMembers name v ms _ _ _ _ ih ih' =>
      intro _ done around distinct fits room
      have first := ih (not_mem_of_distinct distinct) (fits _ List.mem_cons_self) room
      have split : done ++ (name, v) :: ms = done ++ [(name, v)] ++ ms := by simp
      rw [split] at distinct ⊢
      exact first.followed .comma rfl
        (ih' distinct (fun member there => fits member (List.mem_cons_of_mem _ there)) room)

/-- **Strict JSON is read as the value that it means,** if the value is within the limits. It
follows from what each form of text does to the state of the reader, by induction on the grammar. -/
theorem read_of_isText {v : Json} {text : String} (h : IsText v text)
    (fits : Fits nestingLimit v) : read text = .ok v := by
  have room : ([] : List Frame).length + nestingLimit ≤ nestingLimit := by simp
  have finished := Spells.reads h fits room [] endsWord_nil
  have nothing : run (.finished v) [] = .ok (.finished v) := by
    rw [run, Token.scan]
    rfl
  rw [List.append_nil, State.complete, nothing, run] at finished
  rw [read, finished]

end Abacus.Json
