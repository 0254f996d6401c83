import Mathlib
import RowStore.Proofs.Csv.Exporting
import RowStore.Proofs.Window.Trimming

/-! Column names that are written and read again.

A name is read from its field without the blanks and one pair of double quotes around it, and it is
written like any other text. Reading takes off the quotes that writing put around a name, but none of
the escapes, and it takes off quotes of its own.
-/

namespace RowStore.Csv

open Text.Utf8 (ofString)
open Csv.Field (stands needsEscape escaped render renderLine)

section Reading

variable {field : Bytes} {name : String}

def IsQuoted (text : List Char) : Prop :=
  2 ≤ text.length ∧ text.head? = some '"' ∧ text.getLast? = some '"'

instance (text : List Char) : Decidable (IsQuoted text) := inferInstanceAs (Decidable (_ ∧ _ ∧ _))

/-- The text without one pair of double quotes around it. -/
def unquoted (text : List Char) : List Char :=
  if IsQuoted text then text.tail.dropLast else text

theorem isQuoted_quoted (between : List Char) : IsQuoted ('"' :: (between ++ ['"'])) := by
  simp [IsQuoted, List.getLast?_cons]

theorem unquoted_quoted (between : List Char) : unquoted ('"' :: (between ++ ['"'])) = between := by
  rw [unquoted, if_pos (isQuoted_quoted between), List.tail_cons, List.dropLast_concat]

/-- What is left of some characters without the blanks and one pair of double quotes around them. -/
theorem content_trim_unquote (chars : List Char) :
    (CharWindow.unquote (Window.ofList chars)).2.trim.content =
      Text.trim (unquoted (Text.trim chars)) := by
  have inBounds := Window.ofList_inBounds chars
  have strips := Window.strips inBounds.wellFormed '"' '"'
  have left : (Window.strip (Window.ofList chars) '"' '"').2.InBounds :=
    inBounds.apply (.strip '"' '"')
  have trimmed : (Window.ofList chars).trim.content = Text.trim chars := by
    rw [Window.trim, Window.content_shrinkWhile inBounds.wellFormed, Window.content_ofList]
    rfl
  have shrunk : (Window.strip (Window.ofList chars) '"' '"').2.trim.content =
      Text.trim (Window.strip (Window.ofList chars) '"' '"').2.content :=
    Window.content_shrinkWhile left.wellFormed _
  rw [CharWindow.unquote, shrunk]
  cases found : (Window.strip (Window.ofList chars) '"' '"').1 with
  | true =>
      have enclosed := strips.enclosed found
      rw [trimmed] at enclosed
      rw [enclosed, unquoted_quoted]
  | false =>
      have bare : ¬ IsQuoted (Text.trim chars) := by
        rw [IsQuoted, ← trimmed, ← strips.found_iff, found]
        exact Bool.false_ne_true
      rw [strips.untouched found, Window.content_ofList, unquoted, if_neg bare]
      exact core_core.symm

theorem columnName_eq (field : Bytes) :
    columnName field = (Text.Bmp.decode field).map fun chars =>
      String.ofList (Text.trim (unquoted (Text.trim chars))) := by
  rw [columnName]
  cases Text.Bmp.decode field with
  | error reason => rfl
  | ok chars =>
      exact congrArg (fun text => Except.ok (String.ofList text)) (content_trim_unquote chars)

/-- What is true of each name that is read: it is trimmed, and in the Basic Multilingual Plane. -/
structure IsName (name : String) : Prop where
  bmp : ∀ c ∈ name.toList, Text.Bmp.IsBmp c
  trimmed : Text.trim name.toList = name.toList

theorem unquoted_sublist (text : List Char) : (unquoted text).Sublist text := by
  rw [unquoted]
  split
  · exact (List.dropLast_sublist _).trans (List.tail_sublist _)
  · exact List.Sublist.refl _

theorem isName_of_columnName (named : columnName field = .ok name) : IsName name := by
  rw [columnName_eq, Outcome.map_eq_ok_iff] at named
  obtain ⟨chars, decoded, rfl⟩ := named
  have kept : (Text.trim (unquoted (Text.trim chars))).Sublist chars :=
    (core_sublist _ _).trans ((unquoted_sublist _).trans (core_sublist _ _))
  constructor
  · intro c mem
    rw [String.toList_ofList] at mem
    exact (Text.Bmp.decode_bounds decoded).1 c (kept.subset mem)
  · rw [String.toList_ofList]
    exact core_core

end Reading

section Again

variable {chars : List Char} {name : String}

theorem escaped_cons (c : Char) (chars : List Char) :
    escaped (c :: chars) = (if needsEscape c then ['\\', c] else [c]) ++ escaped chars :=
  List.flatMap_cons ..

theorem length_escaped (chars : List Char) :
    (escaped chars).length = chars.length + chars.countP needsEscape := by
  induction chars with
  | nil => rfl
  | cons c chars ih =>
      rw [escaped_cons, List.length_append, ih, List.countP_cons, List.length_cons]
      split <;> simp only [List.length_cons, List.length_nil] <;> omega

theorem escaped_eq_self_iff : escaped chars = chars ↔ ∀ c ∈ chars, needsEscape c = false := by
  constructor
  · intro same
    have length := length_escaped chars
    rw [same] at length
    have none : chars.countP needsEscape = 0 := by omega
    simpa using List.countP_eq_zero.mp none
  · intro plain
    induction chars with
    | nil => rfl
    | cons c chars ih =>
        obtain ⟨here, later⟩ := List.forall_mem_cons.mp plain
        rw [escaped_cons, here, ih later]
        rfl

/-- Escapes neither begin nor end with a blank where the text does not. -/
theorem trim_escaped (trimmed : Text.trim chars = chars) :
    Text.trim (escaped chars) = escaped chars := by
  have isCore := isCore_core Text.isBlank chars
  rw [← Text.trim_eq_core, trimmed] at isCore
  have escape : Text.isBlank '\\' = false := by decide
  refine core_eq_self (fun c first => ?_) (fun c last => ?_)
  · cases chars with
    | nil => cases first
    | cons d chars =>
        rw [escaped_cons] at first
        split at first
        · cases first
          exact escape
        · cases first
          exact isCore.head c rfl
  · refine isCore.last c ?_
    rcases List.eq_nil_or_concat chars with rfl | ⟨before, d, rfl⟩
    · cases last
    · have parts : escaped (before ++ [d]) = escaped before ++ escaped [d] := List.flatMap_append
      have final : (escaped [d]).getLast? = some d := by
        rw [escaped_cons]
        split <;> rfl
      rw [List.concat_eq_append, parts, List.getLast?_append, final, Option.some_or] at last
      rwa [List.concat_eq_append, List.getLast?_concat]

/-- What is read where a name was written: the text itself without quotes of its own, or the text
between the quotes that were put around it. -/
def reread (name : String) : String :=
  String.ofList (if stands name then Text.trim (unquoted name.toList) else escaped name.toList)

/-- The name is written as it is and has no quotes of its own, or it is written in quotes and has
nothing to escape. -/
def Survives (name : String) : Prop :=
  if stands name then ¬ IsQuoted name.toList else ∀ c ∈ name.toList, needsEscape c = false

theorem columnName_render (isName : IsName name) :
    columnName (ofString (render name)) = .ok (reread name) := by
  rw [columnName_eq, decode_render isName.bmp, reread, render]
  cases stands name with
  | true =>
      rw [if_pos rfl, if_pos rfl, Except.map, isName.trimmed]
  | false =>
      have kept : Text.trim ('"' :: (escaped name.toList ++ ['"'])) =
          '"' :: (escaped name.toList ++ ['"']) := by
        obtain ⟨-, first, last⟩ := isQuoted_quoted (escaped name.toList)
        have shown : Text.isBlank '"' = false := by decide
        refine core_eq_self (fun c found => ?_) fun c found => ?_
        · rwa [← Option.some.inj (first.symm.trans found)]
        · rwa [← Option.some.inj (last.symm.trans found)]
      rw [if_neg Bool.false_ne_true, if_neg Bool.false_ne_true, Except.map, String.toList_ofList,
        List.cons_append, kept, unquoted_quoted, trim_escaped isName.trimmed]

theorem reread_eq_self_iff (isName : IsName name) : reread name = name ↔ Survives name := by
  have same (text : List Char) : String.ofList text = name ↔ text = name.toList := by
    rw [← String.toList_inj, String.toList_ofList]
  rw [reread, Survives, same]
  cases stands name with
  | false =>
      rw [if_neg Bool.false_ne_true, if_neg Bool.false_ne_true]
      exact escaped_eq_self_iff
  | true =>
      rw [if_pos rfl, if_pos rfl, unquoted]
      by_cases quoted : IsQuoted name.toList
      · have long := quoted.1
        have short := (core_sublist Text.isBlank name.toList.tail.dropLast).length_le
        rw [List.length_dropLast, List.length_tail] at short
        rw [if_pos quoted]
        refine ⟨fun kept => ?_, fun bare => absurd quoted bare⟩
        have length := congrArg List.length kept
        rw [Text.trim_eq_core] at length
        omega
      · rw [if_neg quoted]
        exact iff_of_true isName.trimmed quoted

end Again

section Header

variable {bytes rest : Bytes} {names : List String} {found : ReadLine}

theorem Table.isName_of_header (read : Table.header bytes = .ok (names, found)) :
    names ≠ [] ∧ ∀ name ∈ names, IsName name := by
  obtain ⟨first, length⟩ := Table.header_eq_ok read
  rw [Table.header_eq, first, Outcome.map_eq_ok_iff] at read
  obtain ⟨names', named, same⟩ := read
  obtain ⟨rfl, -⟩ := Prod.mk.inj same
  rw [← List.drop_zero (l := bytes)] at first
  obtain ⟨origin, -, split⟩ := Line.foundAt_of_first? first
  constructor
  · rintro rfl
    exact split.nonempty (List.length_eq_zero_iff.mp length.symm)
  · have each : ∃ others, columnNames bytes found.line.fields = .ok others ∧
        ∀ name ∈ others, IsName name := by
      refine Outcome.exists_mapM_eq_ok fun span mem => ?_
      obtain ⟨name, read⟩ := Outcome.exists_of_mapM_eq_ok named mem
      exact ⟨name, read, isName_of_columnName read⟩
    obtain ⟨others, named', all⟩ := each
    rwa [Except.ok.inj (named.symm.trans named')]

/-- The names of a header that are written as a line give a header again, with the names that survived
and with what is read in place of the others. -/
theorem Table.header_renderLine (read : Table.header bytes = .ok (names, found))
    (content : names ≠ [""]) (ends : ∀ byte ∈ rest.head?, isLineBreak byte = true) :
    (∃ again, Table.header (ofString (renderLine names) ++ rest) =
        .ok (names.map reread, again)) ∧
      (names.map reread = names ↔ ∀ name ∈ names, Survives name) := by
  obtain ⟨nonempty, all⟩ := Table.isName_of_header read
  constructor
  · obtain ⟨line, there, slices, -⟩ := foundAt_renderLine_of_ends (Nat.zero_le _)
      (List.drop_zero (l := ofString (renderLine names) ++ rest)) ends nonempty content
    obtain ⟨again, first, rfl⟩ := there.first? none
    rw [List.drop_zero] at first
    have named : columnNames (ofString (renderLine names) ++ rest) again.line.fields =
        .ok (names.map reread) := by
      rw [columnNames_eq, slices, List.mapM_map, Outcome.mapM_eq_ok_iff, List.forall₂_map_right_iff,
        List.forall₂_same]
      exact fun name mem => columnName_render (all name mem)
    refine ⟨again, ?_⟩
    rw [Table.header_eq, first]
    exact congrArg (Except.map fun names => (names, again)) named
  · have each := List.map_inj_left (f := reread) (g := id) (l := names)
    rw [List.map_id] at each
    exact each.trans (forall₂_congr fun name mem => reread_eq_self_iff (all name mem))

/-- A name with a comma and a name without are read again behind a line feed. -/
theorem Table.header_renderLine_comma : ∃ names found again,
    Table.header (ofString " \"a, b\" ,n\n1,2\n") = .ok (names, found) ∧ names ≠ [""] ∧
      names = ["a, b", "n"] ∧
      Table.header (ofString (renderLine names) ++ [0x0A]) = .ok (names, again) := by
  have named : (Table.header (ofString " \"a, b\" ,n\n1,2\n")).map Prod.fst =
      .ok ["a, b", "n"] := by decide +kernel
  have survive : ∀ name ∈ ["a, b", "n"], Survives name := by
    have divided : stands "a, b" = false := by decide +kernel
    have whole : stands "n" = true := by decide +kernel
    simp [Survives, divided, whole, IsQuoted, needsEscape]
  have ends : ∀ byte ∈ [(0x0A : UInt8)].head?, isLineBreak byte = true := by simp [isLineBreak]
  obtain ⟨⟨names, found⟩, read, rfl⟩ := Outcome.map_eq_ok_iff.mp named
  obtain ⟨⟨again, written⟩, kept⟩ := Table.header_renderLine read (by decide) ends
  rw [kept.mpr survive] at written
  exact ⟨_, found, again, read, by decide, rfl, written⟩

/-- A name loses quotes of its own, and keeps the escapes that it was written with. -/
theorem Table.header_renderLine_changed : ∃ names found again,
    Table.header (ofString "\"\"x\"\",it's\n1,2\n") = .ok (names, found) ∧ names ≠ [""] ∧
      names = ["\"x\"", "it's"] ∧
      Table.header (ofString (renderLine names)) = .ok (["x", "it\\'s"], again) ∧
      ["x", "it\\'s"] ≠ names := by
  have named : (Table.header (ofString "\"\"x\"\",it's\n1,2\n")).map Prod.fst =
      .ok ["\"x\"", "it's"] := by decide +kernel
  have written : (Table.header (ofString (renderLine ["\"x\"", "it's"]))).map Prod.fst =
      .ok ["x", "it\\'s"] := by decide +kernel
  obtain ⟨⟨names, found⟩, read, rfl⟩ := Outcome.map_eq_ok_iff.mp named
  obtain ⟨⟨others, again⟩, read', rfl⟩ := Outcome.map_eq_ok_iff.mp written
  exact ⟨_, found, again, read, by decide, rfl, read', by decide⟩

end Header

end RowStore.Csv
