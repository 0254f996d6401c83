import Mathlib
import RowStore.Text.Blank

/-! What is left of a list that is trimmed.

The core of a list is what stands between its longest beginning and its longest end of elements of a
kind. Trimming a text is taking its core, and so is cutting it out between the first and the last of
its elements that are not of the kind.
-/

namespace RowStore

section Ends

variable {α : Type} {kind : α → Bool} {inner after : List α}

theorem takeWhile_eq_nil (head : ∀ element, inner.head? = some element → kind element = false) :
    inner.takeWhile kind = [] := by
  cases inner with
  | nil => rfl
  | cons element rest => exact List.takeWhile_cons_of_neg (by simp [head element rfl])

theorem drop_length_takeWhile (kind : α → Bool) (list : List α) :
    list.drop (list.takeWhile kind).length = list.dropWhile kind := by
  have joined : list.takeWhile kind ++ list.dropWhile kind = list := List.takeWhile_append_dropWhile
  have dropped : (list.takeWhile kind ++ list.dropWhile kind).drop (list.takeWhile kind).length =
      list.dropWhile kind := List.drop_left
  rwa [joined] at dropped

theorem rdropWhile_eq_take (kind : α → Bool) (list : List α) :
    list.rdropWhile kind = list.take (list.length - (list.reverse.takeWhile kind).length) := by
  rw [List.rdropWhile, ← drop_length_takeWhile, List.drop_reverse, List.reverse_reverse]

theorem rdropWhile_append (back : ∀ element ∈ after, kind element = true) :
    (inner ++ after).rdropWhile kind = inner.rdropWhile kind := by
  rw [List.rdropWhile, List.reverse_append, List.dropWhile_append_of_pos (by simpa using back),
    List.rdropWhile]

end Ends

section Core

variable {α : Type} {kind : α → Bool} {whole inner : List α}

/-- The list without its longest beginning and its longest end of elements of a kind. -/
def core (kind : α → Bool) (whole : List α) : List α := (whole.dropWhile kind).rdropWhile kind

/-- Elements of a kind stand around the inner list, and it neither begins nor ends with one. -/
structure IsCore (kind : α → Bool) (whole inner : List α) : Prop where
  around : ∃ before after, whole = before ++ inner ++ after ∧
    (∀ element ∈ before, kind element = true) ∧ ∀ element ∈ after, kind element = true
  head : ∀ element, inner.head? = some element → kind element = false
  last : ∀ element, inner.getLast? = some element → kind element = false

theorem isCore_core (kind : α → Bool) (whole : List α) : IsCore kind whole (core kind whole) where
  around := by
    refine ⟨whole.takeWhile kind, (whole.dropWhile kind).rtakeWhile kind, ?_, ?_, ?_⟩
    · rw [core, List.append_assoc, List.rdropWhile_append_rtakeWhile,
        List.takeWhile_append_dropWhile]
    · exact fun element => List.mem_takeWhile_imp
    · exact fun element => List.mem_rtakeWhile_imp
  head element head := by
    -- The core begins where the rest behind the longest beginning does.
    obtain ⟨after, joined⟩ : core kind whole <+: whole.dropWhile kind := List.rdropWhile_prefix ..
    have head' : (whole.dropWhile kind).head? = some element := by
      rw [← joined, List.head?_append, head, Option.some_or]
    have kept := List.head?_dropWhile_not kind whole
    rwa [head'] at kept
  last element last := by
    obtain ⟨some, rfl⟩ := List.mem_getLast?_eq_getLast last
    exact Bool.eq_false_of_not_eq_true (List.rdropWhile_last_not _ _ some)

/-- A list has one core. -/
theorem IsCore.eq (isCore : IsCore kind whole inner) : inner = core kind whole := by
  obtain ⟨⟨before, after, rfl, front, back⟩, head, last⟩ := isCore
  rw [core, List.append_assoc, List.dropWhile_append_of_pos front]
  cases inner with
  | nil => rw [List.nil_append, List.dropWhile_eq_nil_iff.mpr back, List.rdropWhile_nil]
  | cons first rest =>
      have kept : (first :: rest).rdropWhile kind = first :: rest := by
        refine List.rdropWhile_eq_self_iff.mpr fun some => ?_
        simp [last _ (List.getLast?_eq_some_getLast some)]
      rw [List.cons_append, List.dropWhile_cons_of_neg (by simp [head first rfl]),
        ← List.cons_append, rdropWhile_append back, kept]

theorem core_eq_self (head : ∀ element, inner.head? = some element → kind element = false)
    (last : ∀ element, inner.getLast? = some element → kind element = false) :
    core kind inner = inner :=
  (IsCore.eq ⟨⟨[], [], by simp, by simp, by simp⟩, head, last⟩).symm

theorem core_core : core kind (core kind whole) = core kind whole :=
  core_eq_self (isCore_core kind whole).head (isCore_core kind whole).last

theorem core_eq_nil_iff : core kind whole = [] ↔ ∀ element ∈ whole, kind element = true := by
  constructor
  · intro empty
    obtain ⟨before, after, joined, front, back⟩ := (isCore_core kind whole).around
    rw [empty, List.append_nil] at joined
    rw [joined]
    exact List.forall_mem_append.mpr ⟨front, back⟩
  · intro all
    exact (IsCore.eq ⟨⟨whole, [], by simp, all, by simp⟩, by simp, by simp⟩).symm

theorem core_sublist (kind : α → Bool) (whole : List α) : (core kind whole).Sublist whole :=
  (List.rdropWhile_prefix ..).sublist.trans (List.dropWhile_sublist kind)

end Core

section Slice

variable {α : Type} {kind : α → Bool} {whole inner before : List α}

/-- The slice of a list from its first element that is not of a kind to behind its last one. There is
none if these are no bounds of a slice. -/
def coreSlice? (kind : α → Bool) (whole : List α) : Option (List α) :=
  let start := (whole.findIdx? (!kind ·)).getD whole.length
  let stop := ((whole.reverse.findIdx? (!kind ·)).map (whole.length - ·)).getD start
  if start ≤ stop ∧ stop ≤ whole.length then some ((whole.take stop).drop start) else none

theorem findIdx?_not_eq_none (all : ∀ element ∈ whole, kind element = true) :
    whole.findIdx? (!kind ·) = none :=
  List.findIdx?_eq_none_iff.mpr (by simpa using all)

theorem findIdx?_not_append (front : ∀ element ∈ before, kind element = true) (held : inner ≠ [])
    (head : ∀ element, inner.head? = some element → kind element = false) :
    (before ++ inner).findIdx? (!kind ·) = some before.length := by
  obtain ⟨first, rest, rfl⟩ := List.exists_cons_of_ne_nil held
  rw [List.findIdx?_append, findIdx?_not_eq_none front, List.findIdx?_cons, head first rfl]
  simp

theorem IsCore.slice (isCore : IsCore kind whole inner) : coreSlice? kind whole = some inner := by
  obtain ⟨⟨before, after, rfl, front, back⟩, head, last⟩ := isCore
  rw [coreSlice?]
  by_cases empty : inner = []
  · subst empty
    have all : ∀ element ∈ before ++ [] ++ after, kind element = true := by
      rw [List.append_nil]
      exact List.forall_mem_append.mpr ⟨front, back⟩
    rw [findIdx?_not_eq_none all,
      findIdx?_not_eq_none fun element mem => all element (List.mem_reverse.mp mem)]
    simp
  · have start : (before ++ inner ++ after).findIdx? (!kind ·) = some before.length := by
      rw [List.append_assoc]
      refine findIdx?_not_append front (by simp [empty]) fun element first => head element ?_
      rwa [List.head?_append_of_ne_nil _ empty] at first
    have stop : (before ++ inner ++ after).reverse.findIdx? (!kind ·) = some after.length := by
      rw [List.reverse_append, ← List.length_reverse]
      refine findIdx?_not_append (by simpa using back) (by simp [empty]) fun element first =>
        last element ?_
      rwa [List.head?_reverse, List.getLast?_append_of_ne_nil _ empty] at first
    have size : (before ++ inner ++ after).length - after.length = (before ++ inner).length :=
      Nat.sub_eq_of_eq_add List.length_append
    rw [start, stop]
    simp only [Option.getD_some, Option.map_some, size, List.take_left, List.drop_left]
    exact if_pos (by simp)

end Slice

theorem Text.trim_eq_core (text : List Char) : trim text = core isBlank text := rfl

end RowStore
