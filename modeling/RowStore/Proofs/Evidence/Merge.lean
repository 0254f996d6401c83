import Mathlib
import RowStore.Proofs.Evidence.Width

/-! Evidence of the same columns from several passes.

Merging is a commutative monoid on evidence with no open field. Feeding a field adds its own evidence,
whatever was seen before it, so merging the evidence of two passes is feeding the fields of the one
after those of the other.
-/

namespace RowStore

namespace IntWidth

theorem eq_of_rank_eq {left right : IntWidth} (same : left.rank = right.rank) : left = right := by
  cases left <;> cases right <;> first | rfl | exact absurd same (by decide)

end IntWidth

namespace Magnitude

theorem eq_of_rank_eq {left right : Magnitude} (same : left.rank = right.rank) : left = right := by
  have beyondAll (width : IntWidth) : width.rank ≠ 4 := by cases width <;> decide
  cases left with
  | within first =>
      cases right with
      | within second => exact congrArg within (IntWidth.eq_of_rank_eq same)
      | beyond => exact absurd same (beyondAll first)
  | beyond =>
      cases right with
      | within second => exact absurd same.symm (beyondAll second)
      | beyond => rfl

theorem rank_max (left right : Magnitude) :
    (left.max right).rank = Max.max left.rank right.rank := by
  rw [max]
  split <;> omega

theorem max_comm (left right : Magnitude) : left.max right = right.max left :=
  eq_of_rank_eq (by rw [rank_max, rank_max, Nat.max_comm])

theorem max_assoc (first second third : Magnitude) :
    (first.max second).max third = first.max (second.max third) :=
  eq_of_rank_eq (by simp only [rank_max, Nat.max_assoc])

@[simp] theorem max_least (magnitude : Magnitude) : magnitude.max (within .w8) = magnitude :=
  eq_of_rank_eq (by rw [rank_max]; exact Nat.max_eq_left (Nat.zero_le _))

@[simp] theorem least_max (magnitude : Magnitude) : (within .w8).max magnitude = magnitude := by
  rw [max_comm, max_least]

end Magnitude

namespace Evidence

variable {first second third evidence before since : Evidence}

section Monoid

@[simp] theorem merge_none (evidence : Evidence) : evidence.merge none = evidence := by
  simp [merge, none]

theorem none_merge (closed : evidence.field = .empty) : none.merge evidence = evidence := by
  cases evidence
  simp_all [merge, none]

theorem field_merge (first second : Evidence) : (first.merge second).field = first.field := rfl

theorem merge_assoc (first second third : Evidence) :
    (first.merge second).merge third = first.merge (second.merge third) := by
  simp only [merge, Bool.or_assoc, Magnitude.max_assoc, max_assoc, Nat.add_assoc]

theorem merge_comm (closed : first.field = second.field) :
    first.merge second = second.merge first := by
  simp only [merge, closed, Bool.or_comm, Magnitude.max_comm, max_comm, Nat.add_comm]

/-- What is open in the evidence that is added to does not matter here. -/
theorem merge_right_comm (evidence first second : Evidence) :
    (evidence.merge first).merge second = (evidence.merge second).merge first := by
  simp only [merge, Bool.or_right_comm, Magnitude.max_assoc, Magnitude.max_comm first.magnitude,
    max_right_comm, Nat.add_right_comm]

end Monoid

section Field

/-- The evidence from before a point, with what has been seen since: its open field is the one of
since. -/
def followedBy (before since : Evidence) : Evidence :=
  { before.merge since with field := since.field }

theorem followedBy_none (closed : before.field = .empty) : before.followedBy none = before := by
  rw [followedBy, merge_none, none, ← closed]

theorem followedBy_eq_merge (closed : before.field = since.field) : before.followedBy since = before.merge since := by
  rw [followedBy, ← closed, ← field_merge before since]

theorem pushDigit_followedBy (before since : Evidence) (value : Nat) :
    (before.followedBy since).pushDigit value = before.followedBy (since.pushDigit value) := rfl

theorem pushSign_followedBy (before since : Evidence) (minus : Bool) :
    (before.followedBy since).pushSign minus = before.followedBy (since.pushSign minus) := by
  have field : (before.followedBy since).field = since.field := rfl
  rw [pushSign, pushSign, field]
  split_ifs <;> simp only [followedBy, merge, Bool.or_true]

theorem pushPoint_followedBy (before since : Evidence) :
    (before.followedBy since).pushPoint = before.followedBy since.pushPoint := by
  simp only [pushPoint, followedBy, merge, Bool.or_assoc, Bool.or_true]
  rfl

theorem pushMark_followedBy (before since : Evidence) :
    (before.followedBy since).pushMark = before.followedBy since.pushMark := by
  simp only [pushMark, followedBy, merge, Bool.or_assoc, Bool.or_true]
  rfl

theorem classify_followedBy (before since : Evidence) (c : Char) :
    (before.followedBy since).classify c = before.followedBy (since.classify c) := by
  rw [classify, classify]
  split_ifs
  · exact pushDigit_followedBy ..
  · exact pushSign_followedBy ..
  · exact pushPoint_followedBy ..
  · exact pushMark_followedBy ..
  · simp only [followedBy, merge, Bool.or_true]

theorem push_followedBy (before since : Evidence) (c : Char) :
    (before.followedBy since).push c = before.followedBy (since.push c) := by
  rw [push, push, classify_followedBy]
  rfl

theorem foldl_push_followedBy (before since : Evidence) (text : List Char) :
    text.foldl push (before.followedBy since) = before.followedBy (text.foldl push since) := by
  induction text generalizing since with
  | nil => rfl
  | cons c text ih => rw [List.foldl_cons, List.foldl_cons, push_followedBy, ih]

theorem settle_followedBy (before since : Evidence) (scan : FieldScan) :
    (before.followedBy since).settle scan = before.followedBy (since.settle scan) := by
  simp only [settle, followedBy, merge]
  split_ifs <;> simp [Magnitude.max_assoc]

theorem endField_followedBy (before since : Evidence) (width : Nat) :
    (before.followedBy since).endField width = before.followedBy (since.endField width) := by
  have settled := settle_followedBy before
    { since with
      field := .empty
      nonEmpty := since.nonEmpty + 1
      width := max since.width (min (max width since.field.encoded) widthLimit) } since.field
  have field : (before.followedBy since).field = since.field := rfl
  rw [endField, endField, field]
  split_ifs
  · rfl
  · rw [← settled]
    simp only [followedBy, merge, Nat.add_assoc, max_assoc]

theorem field_endField (evidence : Evidence) (width : Nat) :
    (evidence.endField width).field = .empty := by
  simp only [endField, settle]
  split_ifs <;> rfl

/-- Feeding a whole field to evidence with no open field adds the evidence of the field by itself. -/
theorem endField_foldl_push (closed : evidence.field = .empty) (text : List Char) (width : Nat) :
    (text.foldl push evidence).endField width =
      evidence.merge ((text.foldl push none).endField width) := by
  rw [← followedBy_eq_merge (closed.trans (field_endField _ _).symm), ← endField_followedBy,
    ← foldl_push_followedBy, followedBy_none closed]

end Field

section Fields

/-- Feed the bytes of a whole field, each as a character of its own. -/
def feed (evidence : Evidence) (field : Bytes) : Evidence :=
  ((field.map Text.Bmp.latin1).foldl push evidence).endField field.length

/-- Steps that leave no field open and add what they add to no evidence at all. -/
def Adds {α : Type} (step : Evidence → α → Evidence) : Prop :=
  ∀ (evidence : Evidence) (x : α), evidence.field = .empty →
    (step evidence x).field = .empty ∧ step evidence x = evidence.merge (step none x)

theorem adds_feed : Adds feed := fun _ _ closed =>
  ⟨field_endField .., endField_foldl_push closed ..⟩

theorem adds_observe : Adds observe := fun _ _ closed =>
  ⟨field_endField .., endField_foldl_push closed ..⟩

namespace Adds

variable {α : Type} {step : Evidence → α → Evidence}

theorem field_foldl (adds : Adds step) (closed : evidence.field = .empty) (list : List α) :
    (list.foldl step evidence).field = .empty := by
  induction list generalizing evidence with
  | nil => exact closed
  | cons x list ih => exact ih (adds evidence x closed).1

theorem foldl_eq_merge (adds : Adds step) (closed : evidence.field = .empty) (list : List α) :
    list.foldl step evidence = evidence.merge (list.foldl step none) := by
  induction list generalizing evidence with
  | nil => rw [List.foldl_nil, List.foldl_nil, merge_none]
  | cons x list ih =>
      obtain ⟨rested, added⟩ := adds evidence x closed
      obtain ⟨rested', -⟩ := adds none x rfl
      rw [List.foldl_cons, List.foldl_cons, ih rested, ih rested', added, merge_assoc]

theorem foldl_append (adds : Adds step) (first second : List α) :
    (first ++ second).foldl step none =
      (first.foldl step none).merge (second.foldl step none) := by
  rw [List.foldl_append, adds.foldl_eq_merge (adds.field_foldl rfl first)]

end Adds

end Fields

section Columns

/-- What a list says of a column; of one behind the last it says nothing. -/
def known (file : List Evidence) (column : Nat) : Evidence := file[column]?.getD none

variable {file added : List Evidence}

theorem known_of_length_le {column : Nat} (behind : file.length ≤ column) : known file column = none := by
  rw [known, List.getElem?_eq_none behind]
  rfl

theorem getElem?_eq_known {column : Nat} (inside : column < file.length) :
    file[column]? = some (known file column) := by
  rw [known, List.getElem?_eq_getElem inside]
  rfl

theorem ext_known {first second : List Evidence} (length : first.length = second.length)
    (same : ∀ column, known first column = known second column) : first = second := by
  refine List.ext_getElem length fun column here there => ?_
  have found := same column
  rwa [known, known, List.getElem?_eq_getElem here, List.getElem?_eq_getElem there] at found

theorem known_padded (length : Nat) (file : List Evidence) (column : Nat) :
    known (padded length file) column = known file column := by
  rw [padded, known, known]
  by_cases inside : column < file.length
  · rw [List.getElem?_append_left inside]
  · rw [List.getElem?_append_right (not_lt.mp inside), List.getElem?_eq_none (not_lt.mp inside),
      List.getElem?_replicate]
    split_ifs <;> rfl

theorem length_update (file : List Evidence) (column : Nat) (change : Evidence → Evidence) :
    (update file column change).length = max file.length (column + 1) := by
  rw [update, List.length_modify, length_padded]

theorem known_update (file : List Evidence) (column : Nat) (change : Evidence → Evidence) :
    known (update file column change) =
      Function.update (known file) column (change (known file column)) := by
  have room : known file = known (padded (column + 1) file) :=
    funext fun other => (known_padded (column + 1) file other).symm
  rw [room]
  funext other
  rw [known, update, List.getElem?_modify, Function.update_apply, known, known]
  split_ifs with here there there
  · subst here
    rw [List.getElem?_eq_getElem (length_le_padded ..)]
    rfl
  · exact absurd here.symm there
  · exact absurd there.symm here
  · cases (padded (column + 1) file)[other]? <;> rfl

theorem length_mergeEach (room : added.length ≤ file.length) :
    (mergeEach file added).length = file.length := by
  induction file generalizing added with
  | nil =>
      obtain rfl := List.length_eq_zero_iff.mp (Nat.le_zero.mp room)
      rfl
  | cons first file ih =>
      cases added with
      | nil => rfl
      | cons second added => exact congrArg (· + 1) (ih (Nat.le_of_succ_le_succ room))

theorem length_mergeAll (file added : List Evidence) :
    (mergeAll file added).length = max file.length added.length := by
  rw [mergeAll, length_mergeEach (length_le_padded ..), length_padded]

/-- Merging lists merges what they say of each column. -/
theorem known_mergeAll (file added : List Evidence) (column : Nat) :
    known (mergeAll file added) column = (known file column).merge (known added column) := by
  rw [← known_padded added.length file, known, known, known, mergeAll,
    getElem?_mergeEach (length_le_padded ..)]
  cases here : (padded added.length file)[column]? with
  | none =>
      have behind := (length_le_padded added.length file).trans (List.getElem?_eq_none_iff.mp here)
      rw [List.getElem?_eq_none behind]
      rfl
  | some found => cases added[column]? <;> simp

/-- The order in which two lists are merged into a third does not matter. -/
theorem mergeAll_right_comm (file first second : List Evidence) :
    mergeAll (mergeAll file first) second = mergeAll (mergeAll file second) first := by
  refine ext_known ?_ fun column => ?_
  · simp only [length_mergeAll, max_right_comm]
  · simp only [known_mergeAll]
    exact merge_right_comm ..

end Columns

end Evidence

end RowStore
