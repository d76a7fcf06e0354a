import Abacus.Proofs.Json.Writing

/-!
# Strings without lone surrogates

The strings of a text may escape single code units, and of these one half of a surrogate pair may
stand alone. A string of characters cannot hold it, so reading puts U+FFFD in its place. Texts in
which no half stands alone are read exactly; all that is written are such texts.

## Main definitions

* `Json.Quoted.Denotes` — code points and code units of characters.
* `Json.Quoted.bodies` — what stands between the quotes of a text.
* `Json.IsPaired` — a text in which every surrogate stands in a pair.

## Main statements

* `Json.exists_denotes_of_scan` — strings of such a text are read exactly.
* `Json.isPaired_write` — what is written is such a text.
-/

namespace Abacus.Json

namespace Quoted

/-- `Denotes units cs`: the code points and code units are those of the characters, and nothing is
left over. A character may stand for itself, or be a pair of surrogates. -/
inductive Denotes : List Nat → List Char → Prop
  | nil : Denotes [] []
  | point {c : Char} {units : List Nat} {cs : List Char} :
      Denotes units cs → Denotes (c.toNat :: units) (c :: cs)
  | pair {c : Char} {units : List Nat} {cs : List Char} : 0x10000 ≤ c.toNat →
      Denotes units cs → Denotes (highSurrogate c :: lowSurrogate c :: units) (c :: cs)

/-- Code points and code units that are those of characters are read as these. Pairs are put
together, and nothing is replaced. -/
theorem Denotes.ofUnits_eq {units : List Nat} {cs : List Char} (h : Denotes units cs) :
    ofUnits units = cs := by
  induction h with
  | nil => rfl
  | @point c units cs _ ih =>
      have valid : c.toNat < 0xD800 ∨ 0xDFFF < c.toNat ∧ c.toNat < 0x110000 := c.valid
      have high : isHigh c.toNat = false := by
        simp [isHigh]
        omega
      have low : isLow c.toNat = false := by
        simp [isLow]
        omega
      have same : ofUnit c.toNat = c := by simp [ofUnit, high, low, Char.ofNat_toNat]
      cases units with
      | nil => rw [ofUnits, same, ← ih, ofUnits]
      | cons next units => simp [ofUnits, high, same, ih]
  | @pair c units cs large _ ih =>
      have apart : unitsOf c = [highSurrogate c, lowSurrogate c] := if_neg (by omega)
      have read := ofUnits_unitsOf_append c units
      rwa [apart, ih] at read

/-- The code units of characters are theirs. -/
theorem denotes_flatMap_unitsOf (cs : List Char) : Denotes (cs.flatMap unitsOf) cs := by
  induction cs with
  | nil => exact .nil
  | cons c cs ih =>
      rw [List.flatMap_cons]
      by_cases small : c.toNat < 0x10000
      · rw [unitsOf, if_pos small]
        exact .point ih
      · rw [unitsOf, if_neg small]
        exact .pair (by omega) ih

/-- What stands between the quotes of a text, as far as they are closed. Nothing is said of what
stands outside of strings, so this makes sense of texts that are no JSON too. -/
def bodies (cs : List Char) : List (List Char) :=
  match cs with
  | [] => []
  | c :: rest =>
    if c = '"' then
      match h : close? rest with
      | none => []
      | some (body, after) =>
        have := close?_length h
        body :: bodies after
    else bodies rest
termination_by cs.length

theorem bodies_cons {c : Char} (other : c ≠ '"') (rest : List Char) :
    bodies (c :: rest) = bodies rest := by
  rw [bodies, if_neg other]

theorem bodies_append {cs : List Char} (h : ∀ c ∈ cs, c ≠ '"') (rest : List Char) :
    bodies (cs ++ rest) = bodies rest := by
  induction cs with
  | nil => rfl
  | cons c cs ih =>
      obtain ⟨other, others⟩ := List.forall_mem_cons.1 h
      rw [List.cons_append, bodies_cons other, ih others]

theorem bodies_quote {rest body after : List Char} (closed : close? rest = some (body, after)) :
    bodies ('"' :: rest) = body :: bodies after := by
  rw [bodies, if_pos rfl]
  split
  · next none => simp [closed] at none
  · next found =>
      rw [closed] at found
      cases found
      rfl

end Quoted

/-! ### Texts -/

/-- What stands between quotes has the code points and code units of characters, if it has any. A
lone surrogate is the one way to fail: its code unit is that of no character. -/
def Quoted.IsPaired (body : List Char) : Prop :=
  ∀ units, units? body = some units → ∃ cs, Denotes units cs

/-- Every surrogate in a string of the text stands in a pair. Then reading the text loses nothing.
Whatever is written by this library is of this kind. -/
def IsPaired (text : String) : Prop := ∀ body ∈ Quoted.bodies text.toList, Quoted.IsPaired body

/-- A word is no string. -/
theorem ofWord_ne_str (word : List Char) (s : String) : ofWord word ≠ .ok (.str s) := by
  have number (negative : Bool) (body : List Char) : ofNumber negative body ≠ .ok (.str s) := by
    unfold ofNumber
    dsimp only
    split
    · simp
    · split
      · split <;> simp
      · split <;> simp
  unfold ofWord
  split
  case h_7 => split <;> exact number _ _
  all_goals simp

theorem ne_quote_of_isWordChar {c : Char} (h : isWordChar c = true) : c ≠ '"' := by
  rintro rfl
  cases h

/-- A string that is read stands between quotes. So a condition on what stands between quotes is one
on all strings of a text. -/
theorem exists_body_of_scan {cs : List Char} {s : String}
    (h : .scalar (.str s) ∈ Token.scan cs) :
    ∃ body ∈ Quoted.bodies cs, Quoted.decode? body = some s.toList := by
  fun_induction Token.scan cs with
  | case1 => simp at h
  | case2 c rest space ih =>
      have other : c ≠ '"' := by
        rintro rfl
        cases space
      rw [Quoted.bodies_cons other]
      exact ih h
  | case9 | case10 | case14 => simp at h
  | case11 rest body after closed _ decoded read _ _ _ _ _ _ _ ih =>
      rw [Quoted.bodies_quote closed]
      rcases List.mem_cons.1 h with same | later
      · obtain rfl : s = String.ofList decoded := by simpa using same
        exact ⟨body, List.mem_cons_self, by rw [read, String.toList_ofList]⟩
      · obtain ⟨inner, member, value⟩ := ih later
        exact ⟨inner, List.mem_cons_of_mem _ member, value⟩
  | case12 => simp at h
  | case13 c rest _ _ _ _ _ _ _ _ word _ v read ih =>
      have word' : ∀ d ∈ c :: rest.takeWhile isWordChar, d ≠ '"' :=
        List.forall_mem_cons.2 ⟨ne_quote_of_isWordChar word,
          fun d member => ne_quote_of_isWordChar (List.mem_takeWhile_imp member)⟩
      have same := Quoted.bodies_append word' (rest.dropWhile isWordChar)
      rw [List.cons_append, List.takeWhile_append_dropWhile] at same
      rw [same]
      rcases List.mem_cons.1 h with scalar | later
      · cases scalar
        exact absurd read (ofWord_ne_str _ s)
      · exact ih later
  | _ =>
      rw [Quoted.bodies_cons (by decide)]
      rename_i ih
      exact ih (by simpa using h)

/-- **Strings are read exactly,** if no surrogate stands alone: what is between the quotes has the
code points and code units of the string, and no others. -/
theorem exists_denotes_of_scan {text s : String} (paired : IsPaired text)
    (h : .scalar (.str s) ∈ Token.scan text.toList) :
    ∃ body ∈ Quoted.bodies text.toList, ∃ units, Quoted.units? body = some units ∧
      Quoted.Denotes units s.toList := by
  obtain ⟨body, member, decoded⟩ := exists_body_of_scan h
  obtain ⟨units, read, same⟩ := Option.map_eq_some_iff.1 decoded
  obtain ⟨cs, denotes⟩ := paired body member units read
  obtain rfl : cs = s.toList := denotes.ofUnits_eq.symm.trans same
  exact ⟨body, member, units, read, denotes⟩

/-! ### What is written -/

/-- Text whose quotes are all closed within it, around code points and code units of characters.
Such texts can be put one after the other, which is how a writer makes a text. -/
def IsSettled (cs : List Char) : Prop :=
  ∃ bodies, (∀ body ∈ bodies, Quoted.IsPaired body) ∧
    ∀ rest, Quoted.bodies (cs ++ rest) = bodies ++ Quoted.bodies rest

theorem isSettled_of_isBare {cs : List Char} (h : IsBare cs) : IsSettled cs :=
  ⟨[], List.forall_mem_nil _, Quoted.bodies_append fun c member => (h c member).2⟩

theorem isSettled_writeString (s : String) : IsSettled (writeString s) := by
  have paired : Quoted.IsPaired (Quoted.encode s.toList) := by
    intro units read
    obtain rfl := Option.some.inj ((Quoted.units?_encode s.toList).symm.trans read)
    exact ⟨s.toList, Quoted.denotes_flatMap_unitsOf s.toList⟩
  refine ⟨[Quoted.encode s.toList], List.forall_mem_singleton.2 paired, fun rest => ?_⟩
  have shape : writeString s ++ rest = '"' :: (Quoted.encode s.toList ++ '"' :: rest) := by
    simp [writeString]
  rw [shape, Quoted.bodies_quote (Quoted.close?_encode_append s.toList rest)]
  rfl

theorem IsSettled.append {cs ds : List Char} (h : IsSettled cs) (h' : IsSettled ds) :
    IsSettled (cs ++ ds) := by
  obtain ⟨front, paired, found⟩ := h
  obtain ⟨back, paired', found'⟩ := h'
  refine ⟨front ++ back, List.forall_mem_append.2 ⟨paired, paired'⟩, fun rest => ?_⟩
  rw [List.append_assoc, found, found', List.append_assoc]

/-- **What is written has no lone surrogates,** since it is made of characters. So a report that was
saved is never among those that are left out for them. -/
theorem isPaired_write (v : Json) : IsPaired v.write := by
  obtain ⟨bodies, paired, found⟩ : IsSettled (v.writeAt 0) :=
    Composes.writeAt ⟨fun _ => isSettled_of_isBare, isSettled_writeString,
      fun _ _ => IsSettled.append⟩ 0 v
  have all := found []
  rw [List.append_nil, Quoted.bodies, List.append_nil] at all
  rwa [IsPaired, write, String.toList_ofList, all]

end Abacus.Json
