import Mathlib
import RowStore.Proofs.Evidence.Deduction
import RowStore.Proofs.Evidence.Merge

/-! How the type of a column moves when more of the column is seen.

The types that are deduced form a ladder from the narrowest to the widest. All that is kept of a
column only grows, and the type climbs with it, but for one step down: integers beyond the widest
integer type make a column text, and a fraction seen later makes it a floating point number.
-/

namespace RowStore

section Ladder

/-- The types that can be deduced, from the narrowest to the widest. -/
def ladder : List ColumnType :=
  [.integer .int8, .integer .int16, .integer .int32, .integer .int64, .double, .string]

/-- Place of a type on the ladder. -/
def rung (type : ColumnType) : Nat := ladder.idxOf type

namespace Magnitude

theorem eq_beyond_iff {magnitude : Magnitude} : magnitude = .beyond ↔ 4 ≤ magnitude.rank := by
  rcases magnitude with (_ | _ | _ | _) | _ <;> decide

theorem rung_type? (magnitude : Magnitude) :
    rung (magnitude.type?.getD .string) = if 4 ≤ magnitude.rank then 5 else magnitude.rank := by
  rcases magnitude with (_ | _ | _ | _) | _ <;> decide

end Magnitude

end Ladder

/-- Only whole numbers, and one of them beyond the widest integer type. -/
def WholeBeyond (fields : List String) : Prop :=
  (∀ field ∈ fields, Text.IsDecimal field.toList ∧ ¬ Text.IsFractional field.toList) ∧
    ∃ field ∈ fields, ¬ IntType.int64.Holds (Text.integerValue field.toList)

instance (fields : List String) : Decidable (WholeBeyond fields) :=
  inferInstanceAs (Decidable (_ ∧ _))

namespace Evidence

variable {before more evidence : Evidence} {fields : List String}

section Deduced

theorem deduce_type_mem_ladder (evidence : Evidence) : evidence.deduce.type ∈ ladder := by
  by_cases counts : evidence.Counts
  · rw [deduce_type counts]
    split_ifs
    · decide
    · decide
    · rcases evidence.magnitude with (_ | _ | _ | _) | _ <;> decide
  · have blank : evidence.nonEmpty = 0 := not_not.mp (not_or.mp counts).2
    rw [deduce, if_pos blank]
    decide

theorem rung_deduce (counts : evidence.Counts) :
    rung evidence.deduce.type =
      if evidence.textual then 5
      else if evidence.fractional then 4
      else if 4 ≤ evidence.magnitude.rank then 5
      else evidence.magnitude.rank := by
  rw [deduce_type counts, ← Magnitude.rung_type?]
  split_ifs <;> rfl

end Deduced

section Growing

theorem Counts.merge (counts : before.Counts) (more : Evidence) : (before.merge more).Counts := by
  rcases counts with empty | nonEmpty
  · exact .inl (by simp [Evidence.merge, empty])
  · exact .inr (by simp [Evidence.merge, nonEmpty])

theorem textual_merge (before more : Evidence) :
    (before.merge more).textual = (before.textual || more.textual) := by
  rw [Bool.eq_iff_iff]
  simp only [textual, merge, Bool.or_eq_true, decide_eq_true_eq, Nat.add_pos_iff_pos_or_pos]
  tauto

theorem fractional_merge (before more : Evidence) :
    (before.merge more).fractional = (before.fractional || more.fractional) := by
  simp only [fractional, merge, Bool.or_assoc, Bool.or_left_comm]

/-- What more evidence makes of the type: it stays on its rung or climbs, unless the only reason for
text were integers beyond all types and a fraction is added to them. -/
theorem rung_le_merge_iff (counts : before.Counts) (more : Evidence) :
    rung before.deduce.type ≤ rung (before.merge more).deduce.type ↔
      ¬ ((before.textual = false ∧ before.fractional = false ∧ before.magnitude = .beyond) ∧
        more.textual = false ∧ more.fractional = true) := by
  have grown : (before.merge more).magnitude.rank =
      max before.magnitude.rank more.magnitude.rank := Magnitude.rank_max ..
  rw [rung_deduce counts, rung_deduce (counts.merge more), textual_merge, fractional_merge, grown,
    Magnitude.eq_beyond_iff]
  cases before.textual with
  | true => simp
  | false =>
      cases before.fractional with
      | true => cases more.textual <;> simp
      -- Whole numbers so far: the type stands where their magnitude does.
      | false =>
          cases more.textual <;> cases more.fractional <;> simp <;> split_ifs <;> omega

end Growing

section Fields

namespace Summarises

theorem wholeBeyond_iff (summary : Summarises fields evidence) :
    evidence.textual = false ∧ evidence.fractional = false ∧ evidence.magnitude = .beyond ↔
      WholeBeyond fields := by
  have whole : evidence.fractional = false ↔
      ∀ field ∈ fields, ¬ Text.IsFractional field.toList := by
    rw [← Bool.not_eq_true, summary.fractional_iff]
    push Not
    rfl
  rw [WholeBeyond, forall₂_and, summary.textual_eq_false_iff, whole, ← and_assoc]
  refine and_congr_right fun ⟨decimals, wholes⟩ => ?_
  have graded := summary.magnitude
    (fun field found => ⟨decimals field found, wholes field found⟩) .w64
  rw [Magnitude.eq_beyond_iff, ← not_lt, Nat.lt_succ_iff]
  refine (not_congr graded).trans ?_
  push Not
  rfl

end Summarises

theorem mergeCounted_eq_ok (merged : before.mergeCounted more = .ok evidence) :
    before.merge more = evidence :=
  (counted_eq_ok_iff.mp merged).2

end Fields

end Evidence

end RowStore
