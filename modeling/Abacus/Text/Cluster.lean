import Abacus.Text.Width

/-!
# Clusters

A terminal shows some characters together: a mark on the letter before it, what a joiner joins, a
picture with its selector. Text is divided between such clusters only, never inside one.

## Main definitions

* `Text.Cluster` — characters that stay together, and their columns.
* `Text.clusters` — the clusters of a text.
* `Text.columns` — the columns of clusters side by side.

## Main results

* `Text.flatMap_chars_clusters` — the clusters of a text are its characters, in order.
* `Text.columns_clusters` — they take the columns of the text, unless a joiner starts it.
-/

namespace Abacus.Text

/-- Characters that stay together, and the columns they take. A display cuts between clusters
only. -/
structure Cluster where
  chars : List Char
  width : Nat
  deriving DecidableEq, Repr

namespace Cluster

/-- The cluster that a character starts. -/
def ofChar (c : Char) : Cluster := ⟨[c], charWidth c⟩

/-- The cluster with characters added that take a number of columns more. -/
def add (cluster : Cluster) (cs : List Char) (columns : Nat) : Cluster :=
  ⟨cluster.chars ++ cs, cluster.width + columns⟩

@[simp]
theorem chars_ofChar (c : Char) : (ofChar c).chars = [c] := rfl

@[simp]
theorem chars_add (cluster : Cluster) (cs : List Char) (columns : Nat) :
    (cluster.add cs columns).chars = cluster.chars ++ cs := rfl

end Cluster

/-- Completes the cluster in progress and goes on with the text; `last` is the last character that
takes columns and is not a picture yet. -/
def clustersFrom (current : Cluster) (last : Option Char) : List Char → List Cluster
  | [] => [current]
  | c :: rest =>
    if c = joiner then
      match rest with
      | [] => [current.add [c] 0]
      | joined :: rest => clustersFrom (current.add [c, joined] 0) last rest
    else if c = selector then clustersFrom (current.add [c] (pictureGain last)) none rest
    else if charWidth c = 0 then clustersFrom (current.add [c] 0) last rest
    else current :: clustersFrom (.ofChar c) (some c) rest

/-- The clusters of a text. The first character starts one whatever it is. Their characters, one
cluster after the other, are the text. -/
def clusters : List Char → List Cluster
  | [] => []
  | c :: rest => clustersFrom (.ofChar c) (if charWidth c = 0 then none else some c) rest

/-- The columns of clusters side by side. -/
def columns : List Cluster → Nat
  | [] => 0
  | cluster :: rest => cluster.width + columns rest

theorem flatMap_chars_clustersFrom (current : Cluster) (last : Option Char) (cs : List Char) :
    (clustersFrom current last cs).flatMap Cluster.chars = current.chars ++ cs := by
  fun_induction clustersFrom current last cs <;> simp_all

/-- Clusters divide a text: they are its characters, in order. -/
theorem flatMap_chars_clusters (cs : List Char) :
    (clusters cs).flatMap Cluster.chars = cs := by
  cases cs with
  | nil => rfl
  | cons c rest => simp [clusters, flatMap_chars_clustersFrom]

theorem columns_clustersFrom (current : Cluster) (last : Option Char) (cs : List Char) :
    columns (clustersFrom current last cs) = current.width + widthAfter last cs := by
  fun_induction clustersFrom current last cs with
  | case1 => rfl
  | case2 current last => simp [columns, widthAfter, Cluster.add]
  | case3 current last joined rest ih => simpa [widthAfter_joiner_cons, Cluster.add] using ih
  | case4 current last rest _ ih =>
    rw [ih, widthAfter_selector_cons]
    simp [Cluster.add, Nat.add_assoc]
  | case5 current last c rest unjoined unselected empty ih =>
    rw [ih, widthAfter_cons last rest unjoined unselected, if_pos empty]
    rfl
  | case6 current last c rest unjoined unselected taken ih =>
    rw [widthAfter_cons last rest unjoined unselected, if_neg taken, columns, ih]
    rfl

/-- Clusters take the columns of the text they divide. A joiner at the start is the exception: it
hides the character after it, which is a cluster nevertheless. -/
theorem columns_clusters {cs : List Char} (h : cs.head? ≠ some joiner) :
    columns (clusters cs) = width cs := by
  cases cs with
  | nil => rfl
  | cons c rest =>
    have unjoined : c ≠ joiner := fun same => h (by simp [same])
    simp only [clusters, columns_clustersFrom, Cluster.ofChar, width]
    by_cases selects : c = selector
    · have empty : charWidth selector = 0 := by decide +kernel
      simp [selects, widthAfter_selector_cons, pictureGain, empty]
    · rw [widthAfter_cons none rest unjoined selects]
      split <;> simp_all

end Abacus.Text
