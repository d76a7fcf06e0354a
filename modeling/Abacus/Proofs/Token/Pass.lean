import Mathlib
import Abacus.Proofs.Token.Cut

/-!
# One pass over a text

A scan goes over the characters of a text once. What it has read at any time falls into a front,
whose pieces are the tokens that are complete, and a run of one class behind it, which is pending.
So a scan finds the pieces of a text, or refuses its first stray character.

## Main definitions

* `Token.Pass.Holds` — how far a pass has come in the characters it has read.

## Main statements

* `Token.Pass.Holds.exists_step` — what a step preserves.
* `Token.Pass.Holds.exists_run` — what a run preserves.
* `Token.scan_false`, `Token.scan_true` — a scan cuts the text, or names its first stray character.
* `Token.Writes.scan_eq` — a scan depends on the tokens that a text writes.
* `Token.scan_trim` — blanks at the ends of a text do not matter.
-/

namespace Abacus.Token

/-- The class of digits and points, or that of characters of no known class. These are the two that
join, which a pass tells apart by its flag. -/
def classOf (numeric : Bool) : CharClass := if numeric then .numeric else .other

theorem joins_classOf (numeric : Bool) : (classOf numeric).joins = true := by
  cases numeric <;> rfl

theorem classOf_injective : Function.Injective classOf := by
  decide

namespace Pass

variable {pass : Pass} {cs front : List Char} {c : Char}

/-- The characters before the pending ones are cut into the tokens that are complete, and no
character joins them any more: the pending ones are a run that is not theirs, and if there are none,
the last character is of no class that joins. -/
structure Settles (pass : Pass) (front : List Char) : Prop where
  tokens : pass.tokens.reverse = (pieces front).map String.ofList
  pending : ∀ c ∈ pass.pending, CharClass.of c = classOf pass.numeric
  apart : ∀ x ∈ front.getLast?, ∀ y ∈ pass.pending.reverse.head?, inOneToken x y = false
  idle : pass.pending = [] → ∀ x ∈ front.getLast?, (CharClass.of x).joins = false

/-- A pass has read the characters: a front that is settled, and behind it the pending ones. This is
the invariant of a pass. -/
def Holds (pass : Pass) (cs : List Char) : Prop :=
  ∃ front, cs = front ++ pass.pending.reverse ∧ pass.Settles front

theorem holds_start : Holds start [] :=
  ⟨[], rfl, rfl, by simp [start], by simp, by simp⟩

/-- A run is one piece. -/
theorem pieces_run {numeric : Bool} (nonempty : cs ≠ [])
    (run : ∀ c ∈ cs, CharClass.of c = classOf numeric) : pieces cs = [cs] := by
  have token : IsToken (String.ofList cs) :=
    isToken_of_isRun (joins_classOf numeric) (by simpa [IsRun, nonempty] using run)
  simpa using token.pieces_toList

/-- The pending characters are a token of what was read. So a flush leaves the tokens of all that
was read. -/
theorem Holds.tokens_flush (h : pass.Holds cs) :
    pass.flush.tokens.reverse = (pieces cs).map String.ofList := by
  obtain ⟨front, rfl, settles⟩ := h
  unfold flush
  split
  · next empty =>
      rw [List.isEmpty_iff.1 empty]
      simpa using settles.tokens
  · next some =>
      have nonempty : pass.pending.reverse ≠ [] := by simpa using some
      have run : ∀ c ∈ pass.pending.reverse, CharClass.of c = classOf pass.numeric := by
        simpa using settles.pending
      rw [pieces_append settles.apart, pieces_run nonempty run]
      simp [settles.tokens]

theorem pending_flush (pass : Pass) : pass.flush.pending = [] := by
  unfold flush
  split
  · next empty => exact List.isEmpty_iff.1 empty
  · rfl

/-- A character that joins nothing ends what is pending, and stands in a token of its own, or in
none. -/
theorem Holds.of_not_joins (h : pass.Holds cs) (alone : (CharClass.of c).joins = false)
    {next : Pass} (pending : next.pending = [])
    (tokens : next.tokens.reverse = pass.flush.tokens.reverse ++ (pieces [c]).map String.ofList) :
    next.Holds (cs ++ [c]) := by
  have between : ∀ x ∈ cs.getLast?, ∀ y ∈ [c].head?, inOneToken x y = false := by
    rintro x - y first
    obtain rfl : c = y := by simpa using first
    rw [inOneToken_comm, inOneToken, alone, Bool.and_false]
  refine ⟨cs ++ [c], by simp [pending], ?_, by simp [pending], by simp [pending], ?_⟩
  · rw [tokens, h.tokens_flush, pieces_append between, List.map_append]
  · rintro - x last
    obtain rfl : c = x := by simpa using last
    exact alone

/-- A character of a class that joins is pending, after a run of its class or alone. What was
pending is a token first if it is of the other class. -/
theorem Holds.join (h : pass.Holds cs) {numeric : Bool} (kind : CharClass.of c = classOf numeric) :
    (pass.join numeric c).Holds (cs ++ [c]) := by
  have flushed := h.tokens_flush
  obtain ⟨front, rfl, settles⟩ := h
  unfold Pass.join
  split
  · next other =>
      -- The pending characters are of the other class.
      simp only [Bool.and_eq_true, Bool.not_eq_true', List.isEmpty_eq_false_iff, bne_iff_ne]
        at other
      obtain ⟨some, differs⟩ := other
      refine ⟨front ++ pass.pending.reverse, by simp [pending_flush], flushed, ?_, ?_, ?_⟩
      · simp [pending_flush, kind]
      · intro x last y first
        obtain rfl : c = y := by simpa [pending_flush] using first
        have member : x ∈ pass.pending := by
          rw [List.getLast?_append_of_ne_nil _ (by simpa using some)] at last
          simpa using List.mem_of_mem_getLast? last
        have classes : CharClass.of x ≠ CharClass.of c := by
          rw [settles.pending x member, kind]
          exact classOf_injective.ne differs
        simp [inOneToken, classes]
      · simp
  · next same =>
      simp only [Bool.and_eq_true, Bool.not_eq_true', List.isEmpty_eq_false_iff, bne_iff_ne,
        not_and, not_not] at same
      refine ⟨front, by simp, settles.tokens, ?_, ?_, by simp⟩
      · refine List.forall_mem_cons.2 ⟨kind, fun d member => ?_⟩
        rw [settles.pending d member, same (List.ne_nil_of_mem member)]
      · intro x last y first
        cases there : pass.pending.reverse with
        | nil =>
            -- Nothing is pending, so it does not matter what the flag was left at.
            have alone := settles.idle (List.reverse_eq_nil_iff.1 there) x last
            simp [inOneToken, alone]
        | cons d run =>
            obtain rfl : d = y := by simpa [there] using first
            exact settles.apart x last d (by simp [there])

/-- **What a step preserves.** A character that is not refused is read. -/
theorem Holds.exists_step (h : pass.Holds cs) {strict : Bool}
    (taken : strict = true → CharClass.of c ≠ .other) :
    ∃ next, pass.step strict c = .ok next ∧ next.Holds (cs ++ [c]) := by
  unfold step
  cases kind : CharClass.of c with
  | blank =>
      have blank : ∀ d ∈ [c], Text.isBlank d = true := by
        simpa using CharClass.of_eq_blank_iff.1 kind
      refine ⟨_, rfl, h.of_not_joins (by rw [kind]; rfl) pass.pending_flush ?_⟩
      rw [pieces_of_isBlank blank, List.map_nil, List.append_nil]
  | numeric => exact ⟨_, rfl, h.join kind⟩
  | symbol =>
      have token : IsToken (String.singleton c) := .inl ⟨c, CharClass.of_eq_symbol_iff.1 kind, rfl⟩
      have piece : pieces [c] = [[c]] := by simpa using token.pieces_toList
      refine ⟨_, rfl, h.of_not_joins (by rw [kind]; rfl) pass.pending_flush ?_⟩
      rw [piece]
      simp
  | other =>
      have lenient : ¬ strict = true := fun isStrict => taken isStrict kind
      exact ⟨_, if_neg lenient, h.join kind⟩

/-- **What a run preserves.** Characters of which none is refused are read. -/
theorem Holds.exists_run (h : pass.Holds cs) {strict : Bool} {more : List Char}
    (taken : strict = true → ∀ c ∈ more, CharClass.of c ≠ .other) :
    ∃ next, more.foldlM (step strict) pass = .ok next ∧ next.Holds (cs ++ more) := by
  induction more generalizing pass cs with
  | nil => exact ⟨pass, rfl, by simpa using h⟩
  | cons c more ih =>
      obtain ⟨next, stepped, held⟩ :=
        h.exists_step (c := c) fun isStrict => taken isStrict c List.mem_cons_self
      obtain ⟨final, run, done⟩ :=
        ih held fun isStrict d member => taken isStrict d (List.mem_cons_of_mem c member)
      refine ⟨final, ?_, by simpa using done⟩
      rw [List.foldlM_cons, stepped]
      exact run

end Pass

/-! ### Scans -/

/-- A scan cuts a text in which it refuses nothing. A lenient one refuses nothing in any text. -/
theorem scan_eq_cut {strict : Bool} {text : String}
    (taken : strict = true → ∀ c ∈ text.toList, CharClass.of c ≠ .other) :
    scan strict text = .ok (cut text) := by
  obtain ⟨final, run, held⟩ := Pass.holds_start.exists_run taken
  rw [scan, run]
  exact congrArg Except.ok held.tokens_flush

/-- **A lenient scan cuts every text.** This is all that is known of a scan from here on; no other
proof looks into the pass. -/
@[simp]
theorem scan_false (text : String) : scan false text = .ok (cut text) :=
  scan_eq_cut (by simp)

/-- **A strict scan names the first stray character,** and cuts a text without any. -/
theorem scan_true (text : String) :
    scan true text = (match firstStray? text with
      | some c => .error (.invalidCharacter c)
      | none => .ok (cut text)) := by
  cases stray : firstStray? text with
  | none =>
      refine scan_eq_cut fun _ c member => ?_
      simpa using List.find?_eq_none.1 stray c member
  | some c =>
      obtain ⟨other, before, after, split, clean⟩ := List.find?_eq_some_iff_append.1 stray
      obtain ⟨next, run, -⟩ : ∃ next, before.foldlM (Pass.step true) .start = .ok next ∧
          next.Holds ([] ++ before) :=
        Pass.holds_start.exists_run fun _ d member => by simpa using clean d member
      have refused : next.step true c = .error (.invalidCharacter c) := by
        rw [Pass.step, beq_iff_eq.1 other]
        rfl
      rw [scan, split, List.foldlM_append, run]
      change Except.map _ ((c :: after).foldlM (Pass.step true) next) = _
      rw [List.foldlM_cons, refused]
      rfl

/-- A scan of a text that is taken cuts it, strict or not. So strictness is a matter of whether
there are tokens, and never of which. -/
theorem eq_cut_of_scan {strict : Bool} {text : String} {tokens : List String}
    (h : scan strict text = .ok tokens) : tokens = cut text := by
  cases strict with
  | false =>
      rw [scan_false] at h
      exact (Except.ok.inj h).symm
  | true =>
      rw [scan_true] at h
      cases stray : firstStray? text with
      | none =>
          rw [stray] at h
          exact (Except.ok.inj h).symm
      | some c => simp [stray] at h

/-- A scan depends on the tokens that a text writes, and not on where the blanks stand. -/
theorem Writes.scan_eq {text text' : String} (h : Writes (cut text) text'.toList)
    (strict : Bool) : scan strict text' = scan strict text := by
  have strays : firstStray? text' = firstStray? text := by
    rw [firstStray?, firstStray?, h.find?_other_eq, (writes_cut text).find?_other_eq]
  have tokens : cut text' = cut text := cut_eq_iff_writes.2 h
  cases strict with
  | false => rw [scan_false, scan_false, tokens]
  | true => rw [scan_true, scan_true, strays, tokens]

/-- A scan does not see the blanks at the ends. -/
theorem scan_trim (strict : Bool) (text : String) :
    scan strict (Text.trim text) = scan strict text :=
  (writes_trim text).scan_eq strict

end Abacus.Token
