import Mathlib
import Abacus.Text.Line
import Abacus.Text.Utf8

/-!
# Sizes of texts

Bytes hold no more characters than there are bytes, and a text has no more lines than characters.

## Main statements

* `Text.length_lines_le_of_decode` — a file has no more lines than bytes.
-/

namespace Abacus

theorem Utf8.length_le_of_decodeFrom {position : Nat} {bytes : List UInt8} {cs : List Char}
    (h : decodeFrom position bytes = .ok cs) : cs.length ≤ bytes.length := by
  fun_induction decodeFrom position bytes generalizing cs with
  | case1 position =>
      cases h
      exact le_rfl
  | case4 position byte rest lead _ window tail whole others decoded =>
      rename_i ih
      cases h
      have shorter := ih decoded
      simp only [List.length_cons, List.length_drop] at shorter ⊢
      omega
  | _ => cases h

namespace Text

theorem length_normaliseNewlines_le (cs : List Char) :
    (normaliseNewlines cs).length ≤ cs.length := by
  fun_induction normaliseNewlines cs with
  | case1 => exact le_rfl
  | case2 rest ih => simpa using Nat.le_succ_of_le ih
  | case3 c rest _ ih => simpa using ih

theorem length_splitLines_le (cs : List Char) : (splitLines cs).length ≤ cs.length := by
  fun_induction splitLines cs with
  | case1 => exact le_rfl
  | case2 c rest _ ih => simpa using ih
  | case3 c rest _ none ih => simp
  | case4 c rest _ line others split ih =>
      rw [split] at ih
      simpa using Nat.le_succ_of_le ih

theorem length_lines_le (text : String) : (lines text).length ≤ text.toList.length := by
  rw [lines, List.length_map]
  exact (length_splitLines_le _).trans (length_normaliseNewlines_le _)

/-- **A file has no more lines than bytes.** -/
theorem length_lines_le_of_decode {content : List UInt8} {text : String}
    (h : Utf8.decode content = .ok text) : (lines text).length ≤ content.length := by
  unfold Utf8.decode at h
  cases decoded : Utf8.decodeFrom 0 content with
  | error fault => simp [decoded, Except.map] at h
  | ok cs =>
      rw [decoded] at h
      obtain rfl : String.ofList cs = text := Except.ok.inj h
      have shorter := length_lines_le (String.ofList cs)
      rw [String.toList_ofList] at shorter
      exact shorter.trans (Utf8.length_le_of_decodeFrom decoded)

end Text

end Abacus
