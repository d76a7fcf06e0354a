import Abacus.Proofs.Token.Pass

/-!
# Tokens as stretches of a text

Where a text is cut can be said without saying how it is cut: the tokens hold its visible
characters, in order, and two of these stand in one token exactly if everything from the one to the
other is of one class of runs. Blanks, symbols and changes between the two classes of runs are
therefore cuts, and there are no others. Only one list of tokens is like that.

## Main definitions

* `Token.visible` — the characters of a text that are no blanks; `Token.rank`, the place of one of
  them among all.
* `Token.IsStretch` — a part of a text that is of one class of runs.
* `Token.HeldByOne` — two places among the characters of tokens that are in one token.
* `Token.IsCut` — the tokens are what a text has to be cut into.

## Main statements

* `Token.Writes.heldByOne_iff` — what is written in one token is one stretch of the text.
* `Token.isCut_iff` — a text is cut into the one list of tokens that it has to be.
* `Token.scan_isCut` — what a lenient scan gives.
-/

namespace Abacus.Token

/-! ### Places in texts and in tokens -/

/-- The characters of a text that are no blanks. They are all that tokens are made of. -/
def visible (text : List Char) : List Char := text.filter fun c => !Text.isBlank c

/-- An index of a text at which there is a visible character. Its rank among these is where the
character stands in the tokens, one after the other. -/
def IsVisible (text : List Char) (i : Nat) : Prop := ∃ c ∈ text[i]?, Text.isBlank c = false

/-- The number of visible characters before an index of a text. The character at the index, if it is
visible, has this place among all of them. -/
def rank (text : List Char) (i : Nat) : Nat := (visible (text.take i)).length

/-- The characters from one index of a text to another are of one class, and it is one of those that
make runs. -/
def IsStretch (text : List Char) (i j : Nat) : Prop :=
  ∃ k : CharClass, k.joins = true ∧ ∀ m, i ≤ m → m ≤ j → ∃ c ∈ text[m]?, CharClass.of c = k

/-- The characters of tokens, one token after the other. -/
def joined (tokens : List String) : List Char := tokens.flatMap String.toList

/-- One token holds both places, the first of which is not after the second, among the characters of
all tokens. -/
def HeldByOne (tokens : List String) (m n : Nat) : Prop :=
  ∃ before t after, tokens = before ++ t :: after ∧
    (joined before).length ≤ m ∧ n < (joined before).length + t.toList.length

/-- **What a text has to be cut into.** -/
structure IsCut (text : List Char) (tokens : List String) : Prop where
  /-- No visible character is lost, made twice or moved. -/
  joined_eq : joined tokens = visible text
  /-- Every token is a symbol, a run of digits and points, or a run of characters of no known
  class. -/
  isToken : ∀ t ∈ tokens, IsToken t
  /-- Two visible characters are in one token if and only if they are the same, or in one stretch of
  the text. -/
  heldByOne_iff : ∀ i j, i ≤ j → IsVisible text i → IsVisible text j →
    (HeldByOne tokens (rank text i) (rank text j) ↔ i = j ∨ IsStretch text i j)

/-! ### Visible characters -/

theorem visible_append (xs ys : List Char) : visible (xs ++ ys) = visible xs ++ visible ys :=
  List.filter_append ..

theorem visible_of_isBlank {gap : List Char} (h : ∀ c ∈ gap, Text.isBlank c = true) :
    visible gap = [] := by
  rw [visible, List.filter_eq_nil_iff]
  intro c member
  simp [h c member]

theorem visible_eq_self {cs : List Char} (h : ∀ c ∈ cs, Text.isBlank c = false) :
    visible cs = cs := by
  rw [visible, List.filter_eq_self]
  intro c member
  simp [h c member]

theorem isVisible_append_add {xs ys : List Char} {i : Nat} :
    IsVisible (xs ++ ys) (xs.length + i) ↔ IsVisible ys i := by
  rw [IsVisible, IsVisible, List.getElem?_append_right (Nat.le_add_right _ _),
    Nat.add_sub_cancel_left]

theorem rank_append_add (xs ys : List Char) (i : Nat) :
    rank (xs ++ ys) (xs.length + i) = (visible xs).length + rank ys i := by
  rw [rank, List.take_length_add_append, visible_append, List.length_append, rank]

/-- Where all characters are visible, the place of each is its index. -/
theorem rank_append_of_le {xs ys : List Char} (h : ∀ c ∈ xs, Text.isBlank c = false) {i : Nat}
    (le : i ≤ xs.length) : rank (xs ++ ys) i = i := by
  rw [rank, List.take_append_of_le_length le,
    visible_eq_self fun c member => h c (List.mem_of_mem_take member), List.length_take,
    Nat.min_eq_left le]

theorem isStretch_append_add {xs ys : List Char} {i j : Nat} :
    IsStretch (xs ++ ys) (xs.length + i) (xs.length + j) ↔ IsStretch ys i j := by
  refine exists_congr fun k => and_congr_right fun _ => ?_
  constructor
  · intro h m le le'
    have here := h (xs.length + m) (by omega) (by omega)
    rwa [List.getElem?_append_right (Nat.le_add_right _ _), Nat.add_sub_cancel_left] at here
  · intro h m le le'
    rw [List.getElem?_append_right (by omega)]
    exact h (m - xs.length) (by omega) (by omega)

/-- No stretch goes over a place where tokens end. Both sides of such a place differ in class, or
are of a class that does not join. -/
theorem not_isStretch_append {xs ys : List Char}
    (apart : ∀ x ∈ xs.getLast?, ∀ y ∈ ys.head?, inOneToken x y = false) {i j : Nat}
    (before : i < xs.length) (after : xs.length ≤ j) : ¬ IsStretch (xs ++ ys) i j := by
  rintro ⟨k, joins, same⟩
  obtain ⟨x, last, kindX⟩ := same (xs.length - 1) (by omega) (by omega)
  obtain ⟨y, first, kindY⟩ := same xs.length (by omega) (by omega)
  rw [List.getElem?_append_left (by omega), ← List.getLast?_eq_getElem?] at last
  rw [List.getElem?_append_right (Nat.le_refl _), Nat.sub_self, ← List.head?_eq_getElem?] at first
  have together : inOneToken x y = true := inOneToken_iff.2 ⟨k, joins, kindX, kindY⟩
  rw [apart x last y first] at together
  cases together

/-- Any two characters of a token are the same or in one stretch. It does not matter what the token
stands in front of. -/
theorem IsToken.eq_or_isStretch {t : String} (h : IsToken t) (rest : List Char) {i j : Nat}
    (le : i ≤ j) (lt : j < t.toList.length) : i = j ∨ IsStretch (t.toList ++ rest) i j := by
  have ofRun {k : CharClass} (joins : k.joins = true) (run : IsRun k t.toList) :
      IsStretch (t.toList ++ rest) i j := by
    refine ⟨k, joins, fun m _ le' => ?_⟩
    have inside : m < t.toList.length := by omega
    rw [List.getElem?_append_left inside, List.getElem?_eq_getElem inside]
    exact ⟨_, rfl, run.2 _ (List.getElem_mem inside)⟩
  rcases h with ⟨c, -, rfl⟩ | run | run
  · left
    simp only [String.toList_singleton, List.length_singleton] at lt
    omega
  · exact .inr (ofRun rfl run)
  · exact .inr (ofRun rfl run)

/-! ### Tokens that hold places -/

/-- The first token holds two places, or the others do, behind its characters. Places are counted
over all tokens, one after the other. -/
theorem heldByOne_cons {t : String} {tokens : List String} {m n : Nat} :
    HeldByOne (t :: tokens) m n ↔ n < t.toList.length ∨
      ∃ m' n', m = t.toList.length + m' ∧ n = t.toList.length + n' ∧ HeldByOne tokens m' n' := by
  constructor
  · rintro ⟨before, u, after, split, le, lt⟩
    cases before with
    | nil =>
        obtain ⟨rfl, rfl⟩ := List.cons.inj split
        exact .inl (by simpa [joined] using lt)
    | cons _ before =>
        obtain ⟨rfl, rfl⟩ := List.cons.inj split
        simp only [joined, List.flatMap_cons, List.length_append] at le lt
        by_cases first : n < t.toList.length
        · exact .inl first
        · refine .inr ⟨m - t.toList.length, n - t.toList.length, by omega, by omega,
            before, u, after, rfl, ?_, ?_⟩ <;> simp only [joined] <;> omega
  · rintro (first | ⟨m', n', rfl, rfl, before, u, after, rfl, le, lt⟩)
    · exact ⟨[], t, tokens, rfl, Nat.zero_le m, by simpa [joined] using first⟩
    · refine ⟨t :: before, u, after, rfl, ?_, ?_⟩ <;>
        simp only [joined, List.flatMap_cons, List.length_append] at le lt ⊢ <;> omega

/-- Behind the first token, the others hold what they hold by themselves. -/
theorem heldByOne_cons_add {t : String} {tokens : List String} {m n : Nat} :
    HeldByOne (t :: tokens) (t.toList.length + m) (t.toList.length + n) ↔
      HeldByOne tokens m n := by
  rw [heldByOne_cons, or_iff_right (by omega)]
  constructor
  · rintro ⟨m', n', same, same', held⟩
    rwa [Nat.add_left_cancel same, Nat.add_left_cancel same']
  · exact fun held => ⟨m, n, rfl, rfl, held⟩

/-- No token holds characters of the first token and of others. -/
theorem not_heldByOne_cons {t : String} {tokens : List String} {m n : Nat}
    (before : m < t.toList.length) (after : t.toList.length ≤ n) :
    ¬ HeldByOne (t :: tokens) m n := by
  rw [heldByOne_cons]
  rintro (_ | ⟨_, _, _, _, -⟩) <;> omega

/-! ### What is written in one token -/

/-- **What is written in one token is one stretch of the text,** and every stretch is written in one
token. -/
theorem Writes.heldByOne_iff {tokens : List String} {text : List Char} (h : Writes tokens text)
    {i j : Nat} (le : i ≤ j) (seen : IsVisible text i) (seen' : IsVisible text j) :
    HeldByOne tokens (rank text i) (rank text j) ↔ i = j ∨ IsStretch text i j := by
  induction h generalizing i j with
  | nil blank =>
      obtain ⟨c, there, noBlank⟩ := seen
      rw [blank c (List.mem_of_getElem? there)] at noBlank
      cases noBlank
  | @cons gap t tokens rest blank token apart written ih =>
      have behind {i : Nat} (seen : IsVisible (gap ++ t.toList ++ rest) i) :
          ∃ p, i = gap.length + p := by
        by_contra inGap
        have inside : i < gap.length := by
          by_contra beyond
          exact inGap ⟨i - gap.length, by omega⟩
        obtain ⟨c, there, noBlank⟩ := seen
        rw [List.append_assoc, List.getElem?_append_left inside] at there
        rw [blank c (List.mem_of_getElem? there)] at noBlank
        cases noBlank
      -- The blanks in front are not visible, so both places are counted from behind them.
      obtain ⟨p, rfl⟩ := behind seen
      obtain ⟨q, rfl⟩ := behind seen'
      obtain ⟨-, noBlank, -⟩ := token.chars
      simp only [List.append_assoc, rank_append_add gap, isStretch_append_add,
        isVisible_append_add, visible_of_isBlank blank, List.length_nil, Nat.zero_add,
        Nat.add_left_cancel_iff] at seen seen' ⊢
      replace le : p ≤ q := by omega
      -- Both are in the first token, or its end is between them, or both are in the others.
      by_cases first : q < t.toList.length
      · rw [rank_append_of_le noBlank first.le]
        exact iff_of_true (heldByOne_cons.2 (.inl first)) (token.eq_or_isStretch rest le first)
      · obtain ⟨q, rfl⟩ := Nat.exists_eq_add_of_le (not_lt.1 first)
        by_cases across : p < t.toList.length
        · rw [rank_append_of_le noBlank across.le, rank_append_add, visible_eq_self noBlank]
          refine iff_of_false (not_heldByOne_cons across (Nat.le_add_right _ _)) ?_
          rintro (rfl | stretch)
          · omega
          · exact not_isStretch_append (inOneToken_of_writes token apart written) across
              (Nat.le_add_right _ _) stretch
        · obtain ⟨p, rfl⟩ := Nat.exists_eq_add_of_le (not_lt.1 across)
          rw [isVisible_append_add] at seen seen'
          rw [rank_append_add, rank_append_add, visible_eq_self noBlank, heldByOne_cons_add,
            isStretch_append_add, Nat.add_left_cancel_iff]
          exact ih (by omega) seen seen'

/-- The characters of the tokens that a text writes are its visible ones. -/
theorem Writes.joined_eq {tokens : List String} {text : List Char} (h : Writes tokens text) :
    joined tokens = visible text := by
  induction h with
  | nil blank =>
      rw [visible_of_isBlank blank]
      rfl
  | cons blank token _ _ ih =>
      rw [visible_append, visible_append, visible_of_isBlank blank,
        visible_eq_self token.chars.2.1, ← ih]
      rfl

/-- A text writes what it has to be cut into. -/
theorem Writes.isCut {tokens : List String} {text : List Char} (h : Writes tokens text) :
    IsCut text tokens :=
  ⟨h.joined_eq, h.isToken, fun _ _ => h.heldByOne_iff⟩

/-! ### There is only one cut -/

theorem rank_cons_succ (c : Char) (text : List Char) (i : Nat) :
    rank (c :: text) (i + 1) = (visible [c]).length + rank text i := by
  rw [Nat.add_comm i 1]
  exact rank_append_add [c] text i

/-- Every visible character has an index. -/
theorem exists_rank_eq {text : List Char} {n : Nat} (h : n < (visible text).length) :
    ∃ i, IsVisible text i ∧ rank text i = n := by
  induction text generalizing n with
  | nil => simp [visible] at h
  | cons c text ih =>
      have later (n' : Nat) (lt : n' < (visible text).length) :
          ∃ i, IsVisible (c :: text) i ∧ rank (c :: text) i = (visible [c]).length + n' := by
        obtain ⟨i, seen, place⟩ := ih lt
        exact ⟨i + 1, by simpa [IsVisible] using seen, by rw [rank_cons_succ, place]⟩
      rw [← List.singleton_append, visible_append, List.length_append] at h
      cases blank : Text.isBlank c with
      | true =>
          have none : visible [c] = [] := visible_of_isBlank (by simpa using blank)
          obtain ⟨i, seen, place⟩ := later n (by simpa [none] using h)
          exact ⟨i, seen, by simpa [none] using place⟩
      | false =>
          have one : visible [c] = [c] := visible_eq_self (by simpa using blank)
          cases n with
          | zero => exact ⟨0, ⟨c, rfl, blank⟩, rfl⟩
          | succ n =>
              obtain ⟨i, seen, place⟩ := later n (by
                rw [one, List.length_singleton] at h
                omega)
              refine ⟨i, seen, ?_⟩
              rw [place, one, List.length_singleton, Nat.add_comm]

/-- Visible characters keep their order. -/
theorem rank_lt_rank {text : List Char} {i j : Nat} (lt : i < j) (seen : IsVisible text i) :
    rank text i < rank text j := by
  induction text generalizing i j with
  | nil => simp [IsVisible] at seen
  | cons c text ih =>
      obtain ⟨j, rfl⟩ := Nat.exists_eq_succ_of_ne_zero (Nat.ne_of_gt (Nat.zero_lt_of_lt lt))
      cases i with
      | zero =>
          have noBlank : Text.isBlank c = false := by simpa [IsVisible] using seen
          have one : visible [c] = [c] := visible_eq_self (by simpa using noBlank)
          rw [rank_cons_succ, one]
          simp [rank, visible]
      | succ i =>
          have later := ih (Nat.lt_of_succ_lt_succ lt) (by simpa [IsVisible] using seen)
          rw [rank_cons_succ, rank_cons_succ]
          omega

/-- Cuts of one text hold the same places. -/
theorem IsCut.heldByOne_congr {text : List Char} {tokens tokens' : List String}
    (h : IsCut text tokens) (h' : IsCut text tokens') {m n : Nat} (le : m ≤ n)
    (lt : n < (joined tokens).length) : HeldByOne tokens m n ↔ HeldByOne tokens' m n := by
  rw [h.joined_eq] at lt
  obtain ⟨i, seen, rfl⟩ := exists_rank_eq (Nat.lt_of_le_of_lt le lt)
  obtain ⟨j, seen', rfl⟩ := exists_rank_eq lt
  have order : i ≤ j := by
    by_contra later
    have := rank_lt_rank (not_le.1 later) seen'
    omega
  rw [h.heldByOne_iff i j order seen seen', h'.heldByOne_iff i j order seen seen']

/-- The first token is not shorter than the first of other tokens that hold the same places. -/
theorem length_le_of_heldByOne {t t' : String} {tokens tokens' : List String}
    (nonempty : t.toList ≠ [])
    (congr : ∀ m n, m ≤ n → n < (joined (t' :: tokens')).length →
      (HeldByOne (t :: tokens) m n ↔ HeldByOne (t' :: tokens') m n)) :
    t'.toList.length ≤ t.toList.length := by
  by_contra longer
  have positive := List.length_pos_iff.2 nonempty
  have held : HeldByOne (t' :: tokens') 0 t.toList.length := heldByOne_cons.2 (.inl (by omega))
  have within : t.toList.length < (joined (t' :: tokens')).length := by
    simp only [joined, List.flatMap_cons, List.length_append]
    omega
  exact not_heldByOne_cons positive (Nat.le_refl _) ((congr 0 _ (Nat.zero_le _) within).2 held)

/-- Tokens are known by their characters and by the places that they hold. -/
theorem eq_of_heldByOne_congr {tokens tokens' : List String}
    (nonempty : ∀ t ∈ tokens, t.toList ≠ []) (nonempty' : ∀ t ∈ tokens', t.toList ≠ [])
    (same : joined tokens = joined tokens')
    (congr : ∀ m n, m ≤ n → n < (joined tokens).length →
      (HeldByOne tokens m n ↔ HeldByOne tokens' m n)) : tokens = tokens' := by
  induction tokens generalizing tokens' with
  | nil =>
      cases tokens' with
      | nil => rfl
      | cons t' tokens' =>
          have empty := List.append_eq_nil_iff.1 same.symm
          exact absurd empty.1 (nonempty' t' List.mem_cons_self)
  | cons t tokens ih =>
      cases tokens' with
      | nil =>
          have empty := List.append_eq_nil_iff.1 same
          exact absurd empty.1 (nonempty t List.mem_cons_self)
      | cons t' tokens' =>
          rw [List.forall_mem_cons] at nonempty nonempty'
          have lengths : t.toList.length = t'.toList.length := by
            refine Nat.le_antisymm ?_ (length_le_of_heldByOne nonempty.1 (same ▸ congr))
            exact length_le_of_heldByOne nonempty'.1 fun m n le lt => (congr m n le lt).symm
          obtain ⟨first, others⟩ := List.append_inj same lengths
          obtain rfl : t = t' := String.toList_injective first
          rw [List.cons.injEq]
          refine ⟨rfl, ih nonempty.2 nonempty'.2 others fun m n le lt => ?_⟩
          rw [← heldByOne_cons_add, congr _ _ (by omega), heldByOne_cons_add]
          simp only [joined, List.flatMap_cons, List.length_append] at lt ⊢
          omega

/-- **A text has to be cut into the tokens that it is cut into,** and into no others: tokens that
hold the visible characters in order and agree on what stands together are the same tokens. -/
theorem isCut_iff {text : String} {tokens : List String} :
    IsCut text.toList tokens ↔ cut text = tokens := by
  have found := (writes_cut text).isCut
  constructor
  · intro h
    refine eq_of_heldByOne_congr (fun t among => (found.isToken t among).chars.1)
      (fun t among => (h.isToken t among).chars.1) (found.joined_eq.trans h.joined_eq.symm)
      fun m n le lt => found.heldByOne_congr h le lt
  · rintro rfl
    exact found

/-- **Lenient scans cut at blanks, around symbols and where digits meet other characters, and
nowhere else.** Every text is scanned into the one list of tokens that hold its visible characters
in order, each a symbol or a run, two characters in one token exactly if they are in one stretch of
the text. There are none if and only if the text is blank. -/
theorem scan_isCut (text : String) :
    ∃ tokens, scan false text = .ok tokens ∧ IsCut text.toList tokens ∧
      (∀ other, IsCut text.toList other → other = tokens) ∧
      (tokens = [] ↔ ∀ c ∈ text.toList, Text.isBlank c = true) := by
  refine ⟨cut text, scan_false text, isCut_iff.2 rfl, ?_, cut_eq_nil_iff⟩
  intro other h
  exact (isCut_iff.1 h).symm

/-- Digits are cut from the letter after them and, by the blank, from further digits. -/
theorem scan_isCut_letter_among_digits :
    IsCut "12a 3".toList ["12", "a", "3"] ∧ scan false "12a 3" = .ok ["12", "a", "3"] ∧
      scan false "\t " = .ok [] := by
  have isCut : IsCut "12a 3".toList ["12", "a", "3"] := isCut_iff.2 (by decide)
  refine ⟨isCut, ?_, ?_⟩
  · obtain ⟨tokens, scanned, -, only, -⟩ := scan_isCut "12a 3"
    rwa [only _ isCut]
  · obtain ⟨tokens, scanned, -, -, nothing⟩ := scan_isCut "\t "
    rwa [nothing.2 (List.all_eq_true.1 (by decide))] at scanned

end Abacus.Token
