import Mathlib
import RowStore.Cursor
import RowStore.Proofs.Outcome

/-! Projections, one after another.

A projection lists columns of the cursor that it is made from, and that cursor lists columns of its
source. However many projections there are, a cursor only shows columns of the source, and a column
that it shows is the one that was asked for.
-/

namespace RowStore

/-- One choice among the visible columns. -/
inductive Projection where
  | select (indices : List Nat)
  | selectRange (start stop : Nat)
  | selectNames (names : List String)
  | exclude (indices : List Nat)
  | excludeNames (names : List String)
deriving Repr, DecidableEq

namespace RowCursor

variable {cursor next selected : RowCursor} {source : RowSource} {indices positions : List Nat}
  {index position : Nat}

def project (cursor : RowCursor) : Projection → Except Error RowCursor
  | .select indices => cursor.select indices
  | .selectRange start stop => cursor.selectRange start stop
  | .selectNames names => cursor.selectNames names
  | .exclude indices => .ok (cursor.exclude indices)
  | .excludeNames names => cursor.excludeNames names

def projectAll (cursor : RowCursor) : List Projection → Except Error RowCursor
  | [] => .ok cursor
  | projection :: chain => do
      let next ← cursor.project projection
      next.projectAll chain

/-- The indices at some positions of a list. A position behind its end is refused like the index of
a column that is not visible. -/
def lookUp (indices positions : List Nat) : Except Error (List Nat) :=
  positions.mapM fun position =>
    match indices[position]? with
    | some index => .ok index
    | none => .error (.columnIndex position indices.length)

/-- The second cursor shows the columns of the first one at some indices, and is projected on like
it. -/
structure Shows (cursor : RowCursor) (indices : List Nat) (selected : RowCursor) : Prop where
  length : selected.length = cursor.length
  width : selected.width = indices.length
  value : ∀ (position index : Nat), indices[position]? = some index →
    ∀ row, selected.value row position = cursor.value row index
  cellColumn : ∀ (position index : Nat), indices[position]? = some index →
    ∀ row, selected.cellColumn row position = cursor.cellColumn row index
  columns : ∀ (position index : Nat), indices[position]? = some index →
    selected.columns[position]? = cursor.columns[index]?
  names : ∀ (position index : Nat), indices[position]? = some index →
    selected.names[position]? = cursor.names[index]?
  select : ∀ positions, selected.select positions = lookUp indices positions >>= cursor.select

section Lists

variable {α β : Type} {find : α → Option β} {list : List α} {found : List β}

theorem getElem?_of_forall₂ (related : List.Forall₂ (fun x y => find x = some y) list found)
    (position : Nat) : found[position]? = list[position]?.bind find := by
  induction related generalizing position with
  | nil => rfl
  | cons here _ ih =>
      cases position with
      | zero => exact here.symm
      | succ position => exact ih position

theorem forall₂_filterMap (each : ∀ x ∈ list, (find x).isSome) :
    List.Forall₂ (fun x y => find x = some y) list (list.filterMap find) := by
  induction list with
  | nil => exact .nil
  | cons x list ih =>
      obtain ⟨here, others⟩ := List.forall_mem_cons.mp each
      obtain ⟨y, here⟩ := Option.isSome_iff_exists.mp here
      rw [List.filterMap_cons_some here]
      exact .cons here (ih others)

end Lists

section LookUp

variable {found : List Nat}

theorem lookUp_eq_ok_iff : lookUp indices positions = .ok found ↔
    List.Forall₂ (fun position index => indices[position]? = some index) positions found := by
  rw [lookUp, Outcome.mapM_eq_ok_iff]
  refine iff_of_eq (congrArg (List.Forall₂ · positions found) ?_)
  funext position index
  cases indices[position]? <;> simp

theorem lookUp_of_find? (outside : positions.find? (indices.length ≤ ·) = some position) :
    lookUp indices positions = .error (.columnIndex position indices.length) := by
  induction positions with
  | nil => cases outside
  | cons first positions ih =>
      rw [List.find?_cons] at outside
      rw [lookUp, List.mapM_cons]
      by_cases inside : first < indices.length
      · rw [decide_eq_false (not_le.mpr inside)] at outside
        have later := ih outside
        rw [lookUp] at later
        rw [List.getElem?_eq_getElem inside, later]
        rfl
      · rw [decide_eq_true (not_lt.mp inside)] at outside
        obtain rfl := Option.some.inj outside
        rw [List.getElem?_eq_none (not_lt.mp inside)]
        rfl

theorem exists_lookUp (inside : ∀ position ∈ positions, position < indices.length) :
    ∃ found, lookUp indices positions = .ok found := by
  refine ⟨_, lookUp_eq_ok_iff.mpr (forall₂_filterMap fun position mem => ?_)⟩
  rw [List.getElem?_eq_getElem (inside position mem)]
  rfl

/-- Positions are either looked up, or the first one behind the end is refused. -/
theorem lookUp_cases (indices positions : List Nat) :
    (∃ position, positions.find? (indices.length ≤ ·) = some position ∧
        lookUp indices positions = .error (.columnIndex position indices.length)) ∨
      ((∀ position ∈ positions, position < indices.length) ∧
        ∃ found, lookUp indices positions = .ok found) := by
  cases outside : positions.find? (indices.length ≤ ·) with
  | some position => exact .inl ⟨position, rfl, lookUp_of_find? outside⟩
  | none =>
      have inside : ∀ position ∈ positions, position < indices.length := by
        simpa using outside
      exact .inr ⟨inside, exists_lookUp inside⟩

theorem length_of_lookUp (done : lookUp indices positions = .ok found) :
    found.length = positions.length :=
  (lookUp_eq_ok_iff.mp done).length_eq.symm

theorem getElem?_of_lookUp (done : lookUp indices positions = .ok found) (position : Nat) :
    found[position]? = positions[position]?.bind (indices[·]?) :=
  getElem?_of_forall₂ (lookUp_eq_ok_iff.mp done) position

theorem mem_of_lookUp (done : lookUp indices positions = .ok found) :
    ∀ index ∈ found, index ∈ indices := by
  intro index mem
  obtain ⟨position, here⟩ := List.mem_iff_getElem?.mp mem
  rw [getElem?_of_lookUp done, Option.bind_eq_some_iff] at here
  obtain ⟨_, -, here⟩ := here
  exact List.mem_of_getElem? here

theorem lt_of_lookUp (done : lookUp indices positions = .ok found) :
    ∀ position ∈ positions, position < indices.length := by
  obtain ⟨position, -, refused⟩ | ⟨inside, -⟩ := lookUp_cases indices positions
  · rw [done] at refused
    contradiction
  · exact inside

/-- Looking up in what was looked up is looking up through it. -/
theorem lookUp_of_lookUp {list : List Nat} (done : lookUp list indices = .ok found)
    (positions : List Nat) : lookUp found positions = lookUp indices positions >>= lookUp list := by
  have length := length_of_lookUp done
  obtain ⟨position, outside, refused⟩ | ⟨inside, middle, looked⟩ := lookUp_cases indices positions
  · rw [← length] at outside
    rw [lookUp_of_find? outside, refused, length]
    rfl
  · obtain ⟨last, looked'⟩ := exists_lookUp fun index mem =>
      lt_of_lookUp done index (mem_of_lookUp looked index mem)
    obtain ⟨direct, looked''⟩ := exists_lookUp (length ▸ inside)
    have same : direct = last := by
      refine List.ext_getElem? fun position => ?_
      rw [getElem?_of_lookUp looked'', getElem?_of_lookUp looked', getElem?_of_lookUp looked,
        Option.bind_assoc]
      exact congrArg (Option.bind _) (funext (getElem?_of_lookUp done))
    rw [looked'', looked, same]
    exact looked'.symm

end LookUp

section Reached

theorem select_eq_lookUp (cursor : RowCursor) (indices : List Nat) : cursor.select indices =
    (lookUp cursor.visible indices).map fun visible => { cursor with visible } := rfl

theorem select_eq_ok (done : cursor.select indices = .ok selected) :
    selected.source = cursor.source ∧ lookUp cursor.visible indices = .ok selected.visible := by
  rw [select_eq_lookUp] at done
  obtain ⟨found, looked, rfl⟩ := Outcome.map_eq_ok_iff.mp done
  exact ⟨rfl, looked⟩

/-- A projection shows columns that were visible before. -/
theorem mem_of_project {projection : Projection} (done : cursor.project projection = .ok next) :
    next.source = cursor.source ∧ ∀ column ∈ next.visible, column ∈ cursor.visible := by
  have selected {indices : List Nat} (done : cursor.select indices = .ok next) :
      next.source = cursor.source ∧ ∀ column ∈ next.visible, column ∈ cursor.visible := by
    obtain ⟨same, looked⟩ := select_eq_ok done
    exact ⟨same, mem_of_lookUp looked⟩
  have excluded (indices : List Nat) :
      ∀ column ∈ (cursor.exclude indices).visible, column ∈ cursor.visible := by
    intro column mem
    obtain ⟨⟨_, position⟩, kept, rfl⟩ := List.mem_map.mp mem
    exact List.mem_of_getElem? (List.mem_zipIdx_iff_getElem?.mp (List.mem_of_mem_filter kept))
  cases projection with
  | select indices => exact selected done
  | selectRange start stop =>
      rw [project, selectRange] at done
      split at done
      · contradiction
      · exact selected done
  | selectNames names =>
      obtain ⟨indices, -, done⟩ := Outcome.bind_eq_ok_iff.mp done
      exact selected done
  | exclude indices =>
      cases done
      exact ⟨rfl, excluded indices⟩
  | excludeNames names =>
      obtain ⟨indices, -, rfl⟩ := Outcome.map_eq_ok_iff.mp done
      exact ⟨rfl, excluded indices⟩

theorem mem_of_projectAll {chain : List Projection} (done : cursor.projectAll chain = .ok next) :
    next.source = cursor.source ∧ ∀ column ∈ next.visible, column ∈ cursor.visible := by
  induction chain generalizing cursor with
  | nil =>
      cases done
      exact ⟨rfl, fun _ => id⟩
  | cons projection chain ih =>
      obtain ⟨middle, first, rest⟩ := Outcome.bind_eq_ok_iff.mp done
      obtain ⟨same, before⟩ := mem_of_project first
      obtain ⟨same', between⟩ := ih rest
      exact ⟨same'.trans same, fun column mem => before column (between column mem)⟩

/-- Every visible column is a column of the source. -/
def Within (cursor : RowCursor) : Prop := ∀ column ∈ cursor.visible, column < cursor.source.width

theorem within_of_projectAll {chain : List Projection}
    (reached : (ofSource source).projectAll chain = .ok cursor) :
    cursor.source = source ∧ cursor.Within := by
  obtain ⟨same, before⟩ := mem_of_projectAll reached
  refine ⟨same, fun column mem => ?_⟩
  rw [same]
  exact List.mem_range.mp (before column mem)

theorem Within.forall₂_columns (within : cursor.Within) :
    List.Forall₂ (fun column found => cursor.source.columns[column]? = some found) cursor.visible
      cursor.columns :=
  forall₂_filterMap fun column mem => by
    rw [List.getElem?_eq_getElem (within column mem)]
    rfl

/-- A value is refused, or it is a cell of the source. -/
theorem Within.value_cases (within : cursor.Within) (row column : Nat) :
    cursor.value row column = .error (.rowIndex row cursor.length) ∨
      cursor.value row column = .error (.columnIndex column cursor.width) ∨
      ∃ index < cursor.source.width, row < cursor.source.length ∧
        cursor.value row column = cursor.source.cell row index := by
  rw [value, checkRow]
  split_ifs with inside
  · refine .inr ?_
    simp only [bind, Except.bind, cell, sourceColumn]
    cases found : cursor.visible[column]? with
    | none => exact .inl rfl
    | some index => exact .inr ⟨index, within index (List.mem_of_getElem? found), inside, rfl⟩
  · exact .inl rfl

end Reached

section Selected

theorem sourceColumn_of_select (done : cursor.select indices = .ok selected)
    (here : indices[position]? = some index) :
    selected.sourceColumn position = cursor.sourceColumn index := by
  obtain ⟨-, looked⟩ := select_eq_ok done
  have inside : position < selected.visible.length := by
    rw [length_of_lookUp looked]
    exact (List.getElem?_eq_some_iff.mp here).1
  have shown := List.getElem?_eq_getElem inside
  have found := getElem?_of_lookUp looked position
  rw [here, Option.bind_some, shown] at found
  rw [sourceColumn, sourceColumn, shown, ← found]

theorem Within.getElem?_columns_of_select (within : cursor.Within)
    (done : cursor.select indices = .ok selected) (here : indices[position]? = some index) :
    selected.columns[position]? = cursor.columns[index]? := by
  obtain ⟨same, looked⟩ := select_eq_ok done
  have within' : selected.Within := by
    intro column mem
    rw [same]
    exact within column (mem_of_lookUp looked column mem)
  rw [getElem?_of_forall₂ within'.forall₂_columns, getElem?_of_forall₂ within.forall₂_columns,
    getElem?_of_lookUp looked, here, Option.bind_some, same]

/-- What is selected answers like the columns that it was selected from. -/
theorem Within.shows (within : cursor.Within) (done : cursor.select indices = .ok selected) :
    Shows cursor indices selected := by
  obtain ⟨same, looked⟩ := select_eq_ok done
  have length : selected.length = cursor.length := congrArg RowSource.length same
  have checkRow (row : Nat) : selected.checkRow row = cursor.checkRow row := by
    rw [RowCursor.checkRow, RowCursor.checkRow, length]
  exact {
    length
    width := length_of_lookUp looked
    value := fun position index here row => by
      rw [value, value, cell, cell, sourceColumn_of_select done here, checkRow, same]
    cellColumn := fun position index here row => by
      rw [cellColumn, cellColumn, sourceColumn_of_select done here, checkRow, same]
    columns := fun position index here => within.getElem?_columns_of_select done here
    names := fun position index here => by
      rw [names, names, List.getElem?_map, List.getElem?_map,
        within.getElem?_columns_of_select done here]
    select := fun positions => by
      rw [select_eq_lookUp, lookUp_of_lookUp looked]
      cases lookUp indices positions with
      | error reason => rfl
      | ok middle =>
          simp only [bind, Except.bind, select_eq_lookUp, same] }

theorem select_exclude (cursor : RowCursor) (indices : List Nat) :
    cursor.select ((List.range cursor.width).filter fun index => !indices.contains index) =
      .ok (cursor.exclude indices) := by
  have kept : (List.range cursor.width).filter (fun index => !indices.contains index) =
      (cursor.visible.zipIdx.filter fun pair => !indices.contains pair.2).map Prod.snd := by
    have numbers : List.range cursor.width = cursor.visible.zipIdx.map Prod.snd := by
      rw [List.zipIdx_map_snd, List.range_eq_range']
      rfl
    rw [numbers, List.filter_map]
    rfl
  rw [select_eq_lookUp, Outcome.map_eq_ok_iff]
  refine ⟨_, lookUp_eq_ok_iff.mpr ?_, rfl⟩
  rw [kept, List.forall₂_map_left_iff, List.forall₂_map_right_iff, List.forall₂_same]
  exact fun pair mem => List.mem_zipIdx_iff_getElem?.mp (List.mem_of_mem_filter mem)

end Selected

/-- Projections compose. Whatever chain of them leads to a cursor, each visible column is one of the
source, so that a value that is not refused is a cell of the source. Selecting fails at the first
index that is not visible, and shows the columns at the indices if there is none. Excluding is
selecting the other indices in their order. -/
theorem projections_compose {chain : List Projection}
    (reached : (ofSource source).projectAll chain = .ok cursor) :
    ((∀ column ∈ cursor.visible, column < source.width) ∧
      cursor.columns.length = cursor.width ∧
      ∀ row column : Nat, cursor.value row column = .error (.rowIndex row cursor.length) ∨
        cursor.value row column = .error (.columnIndex column cursor.width) ∨
        ∃ index < source.width, row < source.length ∧
          cursor.value row column = source.cell row index) ∧
    (∀ indices : List Nat,
      (∃ index, indices.find? (cursor.width ≤ ·) = some index ∧
        cursor.select indices = .error (.columnIndex index cursor.width)) ∨
      ((∀ index ∈ indices, index < cursor.width) ∧
        ∃ selected, cursor.select indices = .ok selected ∧ Shows cursor indices selected)) ∧
    ∀ indices : List Nat,
      .ok (cursor.exclude indices) =
        cursor.select ((List.range cursor.width).filter fun index => !indices.contains index) := by
  obtain ⟨rfl, within⟩ := within_of_projectAll reached
  refine ⟨⟨within, within.forall₂_columns.length_eq.symm, within.value_cases⟩, fun indices => ?_,
    fun indices => (select_exclude cursor indices).symm⟩
  obtain ⟨index, outside, refused⟩ | ⟨inside, found, looked⟩ := lookUp_cases cursor.visible indices
  · refine .inl ⟨index, outside, ?_⟩
    rw [select_eq_lookUp, refused]
    rfl
  · have done : cursor.select indices = .ok { cursor with visible := found } := by
      rw [select_eq_lookUp, looked]
      rfl
    exact .inr ⟨inside, _, done, within.shows done⟩

/-- Columns in another order and one of them twice, of which the first is dropped again. -/
theorem projections_compose_repeated :
    let columns : Layout := [.text "a" .string, .text "b" .string, .text "c" .string]
    let source : RowSource := .ofRows columns [[.string "1", .string "2", .string "3"]]
    ∃ cursor, (ofSource source).projectAll [.select [2, 0, 2], .exclude [0, 7]] = .ok cursor ∧
      cursor.visible = [0, 2] ∧
      cursor.select [1, 2, 3] = .error (.columnIndex 2 2) ∧
      ∃ selected, cursor.select [1, 1] = .ok selected ∧
        selected.value 0 1 = .ok (.string "3") ∧ selected.names[0]? = some "c" := by
  intro columns source
  have reached : (ofSource source).projectAll [.select [2, 0, 2], .exclude [0, 7]] =
      .ok ⟨source, [0, 2]⟩ := rfl
  obtain ⟨-, selections, -⟩ := projections_compose reached
  refine ⟨_, reached, rfl, ?_, ?_⟩
  · obtain ⟨index, outside, refused⟩ | ⟨inside, -⟩ := selections [1, 2, 3]
    · obtain rfl : 2 = index := Option.some.inj outside
      exact refused
    · exact absurd (inside 2 (by decide)) (by decide)
  · obtain ⟨index, outside, -⟩ | ⟨-, selected, done, shows'⟩ := selections [1, 1]
    · cases outside
    · exact ⟨selected, done, shows'.value 1 1 rfl 0, shows'.names 0 1 rfl⟩

end RowCursor

end RowStore
