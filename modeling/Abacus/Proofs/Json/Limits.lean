import Abacus.Proofs.Json.Nesting
import Abacus.Proofs.Json.Reading

/-!
# What is read is within the limits

A reader that limits the digits of integers and the nesting of arrays and objects reads only values
within these limits. So whatever is read can be written by a writer with the same limits, and read
again.

## Main definitions

* `Json.Frame.HoldsFits`, `Json.StackFits` — the open frames hold values within the limits.
* `Json.State.IsWithin` — a reader has only read values within the limits.

## Main statements

* `Json.isWithin_step` — what a step of the reader preserves.
* `Json.isWithin_of_foldlM` — what a run of the reader preserves.
* `Json.fits_of_read` — what is read is within the limits.
-/

namespace Abacus.Json

/-! ### Scalars -/

/-- What the reader takes for a whole number has no needless zeros. -/
theorem numeral_isWhole {ds : List Char} (h : isWhole ds = true) : Numeral.IsWhole ds := by
  fun_cases isWhole ds with
  | case1 => cases h
  | case2 => exact ⟨⟨List.cons_ne_nil _ _, List.forall_mem_singleton.2 rfl⟩, fun _ => rfl⟩
  | case3 c cs notZero =>
      rw [isWhole, Bool.and_eq_true, bne_iff_ne] at h
      · exact ⟨⟨List.cons_ne_nil _ _, List.all_eq_true.1 h.2⟩,
          fun zero => absurd (Option.some.inj zero) h.1⟩
      · exact notZero

/-- A number that is read is no integer with too many digits. -/
theorem fits_of_ofNumber {negative : Bool} {body : List Char} {v : Json}
    (h : ofNumber negative body = .ok v) (depth : Nat) : Fits depth v := by
  unfold ofNumber at h
  dsimp only at h
  split at h
  · cases h
  · next spelled =>
      split at h
      · split at h
        · cases h
        · next short =>
            cases h
            rw [Bool.or_eq_true, not_or, Bool.not_eq_true', Bool.not_eq_false] at spelled
            have whole := numeral_isWhole spelled.1
            refine .int ?_
            rw [← signed, natAbs_signed, Decimal.digitCount, Decimal.digits_ofDigits whole]
            exact Nat.le_of_not_lt short
      · split at h
        · cases h
          exact .float _
        · cases h

theorem fits_of_ofWord {word : List Char} {v : Json} (h : ofWord word = .ok v) (depth : Nat) :
    Fits depth v := by
  unfold ofWord at h
  split at h
  case h_1 => cases h; exact .null
  case h_2 | h_3 => cases h; exact .bool _
  case h_4 | h_5 | h_6 => cases h; exact .float _
  case h_7 => split at h <;> exact fits_of_ofNumber h depth

/-- The scalars among the tokens of a text fit at any depth. Strings and constants have no limits; a
number that is read is within its own. -/
theorem fits_of_mem_scan {cs : List Char} {v : Json} (h : .scalar v ∈ Token.scan cs)
    (depth : Nat) : Fits depth v := by
  fun_induction Token.scan cs with
  | case1 => simp at h
  | case2 c rest space ih => exact ih h
  | case9 | case10 | case12 | case14 => simp at h
  | case11 rest body after closed _ decoded read _ _ _ _ _ _ _ ih =>
      rcases List.mem_cons.1 h with same | later
      · obtain rfl : v = .str (String.ofList decoded) := by simpa using same
        exact .str _
      · exact ih later
  | case13 c rest _ _ _ _ _ _ _ _ word _ w read ih =>
      rcases List.mem_cons.1 h with same | later
      · obtain rfl : v = w := by simpa using same
        exact fits_of_ofWord read depth
      · exact ih later
  | _ =>
      rename_i ih
      exact ih (by simpa using h)

/-! ### Frames -/

/-- The members make an object whose values fit. Their names differ, as setting a member replaces an
earlier one of its name. -/
def MembersFit (depth : Nat) (members : List (String × Json)) : Prop :=
  (members.map Prod.fst).Nodup ∧ ∀ member ∈ members, Fits depth member.2

theorem membersFit_nil (depth : Nat) : MembersFit depth [] :=
  ⟨List.nodup_nil, List.forall_mem_nil _⟩

theorem eq_or_mem_of_mem_insertMember {name : String} {v : Json} {members : List (String × Json)}
    {member : String × Json} (h : member ∈ insertMember name v members) :
    member = (name, v) ∨ member ∈ members := by
  induction members with
  | nil => exact .inl (List.mem_singleton.1 h)
  | cons first rest ih =>
      rw [insertMember] at h
      split at h
      · exact (List.mem_cons.1 h).imp_right (List.mem_cons_of_mem first)
      · rcases List.mem_cons.1 h with same | later
        · exact .inr (same ▸ List.mem_cons_self)
        · exact (ih later).imp_right (List.mem_cons_of_mem first)

/-- Setting a member brings no name twice. It stands in place of an earlier one of its name, if
there is one. -/
theorem nodup_insertMember {members : List (String × Json)} (h : (members.map Prod.fst).Nodup)
    (name : String) (v : Json) : ((insertMember name v members).map Prod.fst).Nodup := by
  induction members with
  | nil => exact List.nodup_singleton name
  | cons first rest ih =>
      obtain ⟨new, distinct⟩ := List.nodup_cons.1 h
      rw [insertMember]
      split
      · next same => exact List.nodup_cons.2 ⟨same ▸ new, distinct⟩
      · next other =>
          refine List.nodup_cons.2 ⟨fun again => ?_, ih distinct⟩
          obtain ⟨member, there, same⟩ := List.mem_map.1 again
          rcases eq_or_mem_of_mem_insertMember there with rfl | before
          · exact other same.symm
          · exact new (List.mem_map.2 ⟨member, before, same⟩)

theorem MembersFit.insertMember {depth : Nat} {members : List (String × Json)}
    (h : MembersFit depth members) (name : String) {v : Json} (fits : Fits depth v) :
    MembersFit depth (Json.insertMember name v members) := by
  refine ⟨nodup_insertMember h.1 name v, fun member there => ?_⟩
  rcases eq_or_mem_of_mem_insertMember there with rfl | before
  · exact fits
  · exact h.2 member before

/-- The values in a frame fit. The depth is what is left inside the frame, not around it. -/
def Frame.HoldsFits (depth : Nat) : Frame → Prop
  | .array items => ∀ v ∈ items, Fits depth v
  | .object members _ => MembersFit depth members

/-- `StackFits depth around`: inside the frames there is room for a value of this depth, and the
values that are in them had room as well. -/
inductive StackFits : Nat → List Frame → Prop
  | nil : StackFits nestingLimit []
  | cons {depth : Nat} {frame : Frame} {around : List Frame} :
      frame.HoldsFits depth → StackFits (depth + 1) around → StackFits depth (frame :: around)

/-- Every open frame takes one level. So the room that is left inside them is what the reader
counts. -/
theorem StackFits.depth_add_length {depth : Nat} {around : List Frame}
    (h : StackFits depth around) : depth + around.length = nestingLimit := by
  induction h with
  | nil => rfl
  | cons _ _ ih =>
      rw [List.length_cons]
      omega

/-- All that was read so far is within the limits. This is the invariant of a reader. The depth that
is left need not be known from outside: a state has one, and it fits all the frames. -/
def State.IsWithin : State → Prop
  | .value around => ∃ depth, StackFits depth around
  | .firstItem around | .firstName around => ∃ depth, StackFits (depth + 1) around
  | .afterItem items around =>
    ∃ depth, (∀ v ∈ items, Fits depth v) ∧ StackFits (depth + 1) around
  | .name members around | .afterName members _ around | .afterMember members around =>
    ∃ depth, MembersFit depth members ∧ StackFits (depth + 1) around
  | .finished v => Fits nestingLimit v

/-- A value that fits is completed in the frames around it. The frames keep their room, whatever
comes next in them. -/
theorem isWithin_complete {depth : Nat} {around : List Frame} (stack : StackFits depth around)
    {v : Json} (fits : Fits depth v) : (State.complete v around).IsWithin := by
  cases stack with
  | nil => exact fits
  | @cons _ frame around held outer =>
      cases frame with
      | array items => exact ⟨depth, List.forall_mem_cons.2 ⟨fits, held⟩, outer⟩
      | object members key => exact ⟨depth, held.insertMember key fits, outer⟩

/-- A value begins within the limits. An array or an object begins only where there is room for a
further frame. -/
theorem isWithin_begin {depth : Nat} {around : List Frame} (stack : StackFits depth around)
    {token : Token} (scalar : ∀ v, token = .scalar v → ∀ depth, Fits depth v) {next : State}
    (h : State.begin around token = .ok next) : next.IsWithin := by
  have level := stack.depth_add_length
  cases token with
  | scalar v =>
      cases h
      exact isWithin_complete stack (scalar v rfl depth)
  | openArray | openObject =>
      simp only [State.begin] at h
      split at h
      · cases h
      · cases h
        obtain ⟨inner, rfl⟩ : ∃ inner, depth = inner + 1 := ⟨depth - 1, by omega⟩
        exact ⟨inner, stack⟩
  | _ => cases h

/-- **What a step of the reader preserves.** The frames keep track of the room that is left inside
them, so a value that is completed fits where it stands. -/
theorem isWithin_step {state next : State} (within : state.IsWithin) {token : Token}
    (scalar : ∀ v, token = .scalar v → ∀ depth, Fits depth v)
    (h : step state token = .ok next) : next.IsWithin := by
  unfold step at h
  split at h
  · cases h
  · obtain ⟨depth, stack⟩ := within
    exact isWithin_begin stack scalar h
  · cases h
    obtain ⟨depth, stack⟩ := within
    exact isWithin_complete stack (.arr (List.forall_mem_nil _))
  · obtain ⟨depth, stack⟩ := within
    have held : (Frame.array []).HoldsFits depth := List.forall_mem_nil _
    exact isWithin_begin (.cons held stack) scalar h
  · cases h
    obtain ⟨depth, items, stack⟩ := within
    exact ⟨depth, .cons items stack⟩
  · cases h
    obtain ⟨depth, items, stack⟩ := within
    exact isWithin_complete stack (.arr fun v member => items v (List.mem_reverse.1 member))
  · cases h
    obtain ⟨depth, stack⟩ := within
    exact isWithin_complete stack (.obj List.nodup_nil (List.forall_mem_nil _))
  · cases h
    obtain ⟨depth, stack⟩ := within
    exact ⟨depth, membersFit_nil depth, stack⟩
  · cases h
    exact within
  · cases h
    obtain ⟨depth, members, stack⟩ := within
    exact ⟨depth, .cons members stack⟩
  · cases h
    exact within
  · cases h
    obtain ⟨depth, members, stack⟩ := within
    exact isWithin_complete stack (.obj members.1 members.2)
  · cases h

/-- **What a run of the reader preserves,** if the scalars among its tokens are within the
limits. -/
theorem isWithin_of_foldlM {tokens : List Token} {state next : State} (within : state.IsWithin)
    (scalars : ∀ v, .scalar v ∈ tokens → ∀ depth, Fits depth v)
    (h : tokens.foldlM step state = .ok next) : next.IsWithin := by
  induction tokens generalizing state with
  | nil =>
      cases h
      exact within
  | cons token tokens ih =>
      rw [List.foldlM_cons] at h
      cases first : step state token with
      | error error =>
          rw [first] at h
          cases h
      | ok between =>
          rw [first] at h
          have scalar : ∀ v, token = .scalar v → ∀ depth, Fits depth v :=
            fun v same => scalars v (same ▸ List.mem_cons_self)
          exact ih (isWithin_step within scalar first)
            (fun v member => scalars v (List.mem_cons_of_mem _ member)) h

/-- **What is read is within the limits.** So a value that was read can be written by a writer with
the same limits. -/
theorem fits_of_read {text : String} {v : Json} (h : read text = .ok v) : Fits nestingLimit v := by
  unfold read at h
  split at h
  · next final run =>
      cases h
      have start : (State.value []).IsWithin := ⟨nestingLimit, .nil⟩
      exact isWithin_of_foldlM start (fun _ member => fits_of_mem_scan member) run
  · cases h
  · cases h

end Abacus.Json
