import Mathlib.Data.List.Range
import Mathlib.Data.List.Sort
import Mathlib.Tactic.Linarith

/-!
# Square matrices in arrays

A square matrix is sent as a dynamic array that holds one element of it, the diagonal, the upper right
triangle or all elements. The receiver tells from the size of the array what it holds. The elements are
integers of some type, compared exactly. The source reads its matrix row by row through an iterator, here a
function of the index.
-/

namespace Uavcan

namespace SquareMatrix

open List

variable {α : Type}

def isIndexOnDiagonal (n index : ℕ) : Bool := index / n == index % n

def computeElementIndexAtRowCol (n row col : ℕ) : ℕ := row * n + col

def numElementsInTriangle (n : ℕ) : ℕ := (1 + n) * n / 2

/-! ## The analyzer -/

inductive PackingMode where
  | empty
  | scalar
  | diagonal
  | symmetric
  | full
  deriving DecidableEq

/-- `isNaN` of an integer. -/
def isNaN (_ : α) : Bool := false

variable (n : ℕ) (src : ℕ → α)

def areAllElementsNan : Bool := (range (n * n)).all fun index => isNaN (src index)

def isScalar [DecidableEq α] [Zero α] : Bool :=
  (range (n * n)).all fun index => if isIndexOnDiagonal n index then src index == src 0 else src index == 0

def isDiagonal [DecidableEq α] [Zero α] : Bool :=
  (range (n * n)).all fun index => isIndexOnDiagonal n index || src index == 0

/-- `accessElementAtRowCol` -/
def element (cell : ℕ × ℕ) : α := src (computeElementIndexAtRowCol n cell.1 cell.2)

def isSymmetric [DecidableEq α] : Bool :=
  (range n).all fun i => (range n).all fun k => i == k || element n src (i, k) == element n src (k, i)

def detectOptimalPackingMode [DecidableEq α] [Zero α] : PackingMode :=
  if areAllElementsNan n src then .empty
  else if isScalar n src then .scalar
  else if isDiagonal n src then .diagonal
  else if isSymmetric n src then .symmetric
  else .full

/-! ## Packing and unpacking -/

/-- The cells in the order of the two loops over the rows and the columns. -/
def cells : List (ℕ × ℕ) := (range n).flatMap fun row => (range n).map fun col => (row, col)

/-- The cells of the loops where the column starts from the row. -/
def upperCells : List (ℕ × ℕ) := (range n).flatMap fun row => (range' row (n - row)).map fun col => (row, col)

/-- Calls of `push_back` on an array that was cleared; an array that is full cannot grow. -/
def pushAll (capacity : ℕ) (items : List α) : Option (List α) :=
  items.foldlM (fun array value => if array.length ≥ capacity then none else some (array ++ [value])) []

def packSquareMatrix [DecidableEq α] [Zero α] : Option (List α) :=
  match detectOptimalPackingMode n src with
  | .empty => some []
  | .scalar => pushAll (n * n) [src 0]
  | .diagonal => pushAll (n * n) ((range n).map fun i => element n src (i, i))
  | .symmetric => pushAll (n * n) ((upperCells n).map (element n src))
  | .full => pushAll (n * n) ((range (n * n)).map src)

/-- One cell of a symmetric matrix: what was written so far, and the index of the next element of the array. -/
def unpackCell (array : List α) (state : List α × ℕ) (cell : ℕ × ℕ) : Option (List α × ℕ) :=
  if cell.2 ≥ cell.1 then array[state.2]?.map fun value => (state.1 ++ [value], state.2 + 1)
  -- the lower left triangle is read from the matrix itself
  else state.1[computeElementIndexAtRowCol n cell.2 cell.1]?.map fun value => (state.1 ++ [value], state.2)

/-- The matrix, unless an index is out of the range of the array. -/
def unpackSquareMatrix [Zero α] (array : List α) : Option (List α) :=
  if array.length = n ∨ array.length = 1 then
    (range (n * n)).mapM fun index =>
      if isIndexOnDiagonal n index then array[if array.length = 1 then 0 else index / n]? else some 0
  else if array.length = numElementsInTriangle n then ((cells n).foldlM (unpackCell n array) ([], 0)).map Prod.fst
  else if array.length = n * n then (range (n * n)).mapM fun index => array[index]?
  else some (replicate (n * n) 0)

/-! ## The forms of a matrix -/

/-- All elements of the diagonal are equal, and the others are zero. -/
def Scalar [Zero α] : Prop := ∀ i < n, ∀ k < n, element n src (i, k) = if i = k then src 0 else 0

def Diagonal [Zero α] : Prop := ∀ i < n, ∀ k < n, i ≠ k → element n src (i, k) = 0

def Symmetric : Prop := ∀ i < n, ∀ k < n, element n src (i, k) = element n src (k, i)

variable {n src}

theorem div_mod_of_lt {i k : ℕ} (col : k < n) : (i * n + k) / n = i ∧ (i * n + k) % n = k := by
  rw [Nat.mul_comm, Nat.mul_add_div (by omega), Nat.mul_add_mod, Nat.div_eq_of_lt col, Nat.mod_eq_of_lt col]
  exact ⟨rfl, rfl⟩

theorem forall_index_iff {P : ℕ → ℕ → ℕ → Prop} :
    (∀ index < n * n, P index (index / n) (index % n)) ↔ ∀ i < n, ∀ k < n, P (i * n + k) i k := by
  constructor
  · intro all i row k col
    have inside : i * n + k < n * n := by
      have := Nat.mul_le_mul_right n (Nat.succ_le_of_lt row)
      rw [Nat.succ_mul] at this
      omega
    have cell := all _ inside
    rwa [(div_mod_of_lt col).1, (div_mod_of_lt col).2] at cell
  · intro all index inside
    have some : 0 < n := Nat.pos_of_ne_zero fun zero => by simp [zero] at inside
    have cell := all _ (Nat.div_lt_of_lt_mul inside) _ (Nat.mod_lt index some)
    rwa [Nat.div_add_mod'] at cell

theorem isScalar_iff [DecidableEq α] [Zero α] : isScalar n src = true ↔ Scalar n src := by
  unfold isScalar Scalar isIndexOnDiagonal element computeElementIndexAtRowCol
  rw [← forall_index_iff (P := fun index i k => src index = if i = k then src 0 else 0)]
  simp only [all_eq_true, mem_range, beq_iff_eq]
  refine forall₂_congr fun index _ => ?_
  split <;> simp

theorem isDiagonal_iff [DecidableEq α] [Zero α] : isDiagonal n src = true ↔ Diagonal n src := by
  unfold isDiagonal Diagonal isIndexOnDiagonal element computeElementIndexAtRowCol
  rw [← forall_index_iff (P := fun index i k => i ≠ k → src index = 0)]
  simp only [all_eq_true, mem_range, Bool.or_eq_true, beq_iff_eq]
  exact forall₂_congr fun index _ => or_iff_not_imp_left

theorem isSymmetric_iff [DecidableEq α] : isSymmetric n src = true ↔ Symmetric n src := by
  unfold isSymmetric Symmetric
  simp only [all_eq_true, mem_range, Bool.or_eq_true, beq_iff_eq]
  refine forall₂_congr fun i _ => forall₂_congr fun k _ => or_iff_right_of_imp ?_
  rintro rfl
  rfl

/-! ## The cells -/

theorem cells_eq (n : ℕ) : cells n = (range (n * n)).map fun index => (index / n, index % n) := by
  have rows : ∀ count, ((range count).flatMap fun row => (range n).map fun col => (row, col)) =
      (range (count * n)).map fun index => (index / n, index % n) := by
    intro count
    induction count with
    | zero => simp
    | succ count ih =>
      rw [range_succ, flatMap_append, ih, flatMap_singleton, Nat.succ_mul, range_add, map_append, map_map]
      refine congrArg _ (map_congr_left fun col inside => ?_)
      obtain ⟨row, column⟩ := div_mod_of_lt (i := count) (mem_range.mp inside)
      rw [Function.comp_apply, row, column]
  exact rows n

theorem upperCells_eq (n : ℕ) : upperCells n = (cells n).filter fun cell => cell.1 ≤ cell.2 := by
  unfold upperCells cells
  rw [filter_flatMap]
  refine flatMap_congr fun row inside => ?_
  have split : range n = range row ++ range' row (n - row) := by
    have joined := range'_append_1 (s := 0) (m := row) (n := n - row)
    rw [Nat.zero_add, Nat.add_sub_cancel' (mem_range.mp inside).le] at joined
    rw [range_eq_range', range_eq_range', joined]
  rw [split, map_append, filter_append, filter_eq_nil_iff.mpr, filter_eq_self.mpr, nil_append]
  · simp
    omega
  · simp

theorem two_mul_length_upperCells (n : ℕ) : 2 * (upperCells n).length = n * n + n := by
  have rows : ∀ count ≤ n, 2 * ((range count).flatMap fun row =>
      (range' row (n - row)).map fun col => (row, col)).length + count * count = count * (2 * n + 1) := by
    intro count
    induction count with
    | zero => simp
    | succ count ih =>
      intro inside
      have before := ih (by omega)
      obtain ⟨rest, rfl⟩ := Nat.exists_eq_add_of_le inside
      rw [range_succ, flatMap_append, length_append, flatMap_singleton, length_map, length_range']
      have here : count + 1 + rest - count = rest + 1 := by omega
      nlinarith
  have total : 2 * (upperCells n).length + n * n = n * (2 * n + 1) := rows n (Nat.le_refl n)
  nlinarith

theorem length_upperCells (n : ℕ) : (upperCells n).length = numElementsInTriangle n := by
  rw [numElementsInTriangle, Nat.add_mul, Nat.one_mul, Nat.add_comm, ← two_mul_length_upperCells,
    Nat.mul_div_cancel_left _ Nat.two_pos]

/-! ## The way back -/

theorem pushAll_eq {capacity : ℕ} {items : List α} (fits : items.length ≤ capacity) :
    pushAll capacity items = some items := by
  have from_ : ∀ (rest array : List α), array.length + rest.length ≤ capacity →
      rest.foldlM (fun array value => if array.length ≥ capacity then none else some (array ++ [value])) array =
        some (array ++ rest) := by
    intro rest
    induction rest with
    | nil => simp
    | cons value rest ih =>
      intro array room
      rw [length_cons] at room
      rw [foldlM_cons, if_neg (by omega)]
      simpa using ih (array ++ [value]) (by rw [length_append, length_singleton]; omega)
  have all := from_ items [] (by simpa using fits)
  rwa [nil_append] at all

theorem mapM_eq_map {β γ : Type} {f : β → Option γ} {g : β → γ} {l : List β} (all : ∀ x ∈ l, f x = some (g x)) :
    l.mapM f = some (l.map g) := by
  induction l with
  | nil => rfl
  | cons x l ih =>
    obtain ⟨here, rest⟩ := forall_mem_cons.mp all
    rw [mapM_cons, here, ih rest]
    rfl

/-- A symmetric matrix is unpacked cell by cell: `done` is what was written. -/
theorem unpackCells (symmetric : Symmetric n src) {done rest : List (ℕ × ℕ)} (split : cells n = done ++ rest) :
    rest.foldlM (unpackCell n ((upperCells n).map (element n src)))
        (done.map (element n src), (done.filter fun cell => cell.1 ≤ cell.2).length) =
      some ((cells n).map (element n src), ((cells n).filter fun cell => cell.1 ≤ cell.2).length) := by
  induction rest generalizing done with
  | nil => simp [split]
  | cons cell rest ih =>
    have next := @ih (done ++ [cell]) (by simp [split])
    have upper := upperCells_eq n
    rw [split] at upper
    have position : (cells n)[done.length]? = some cell := by simp [split]
    rw [cells_eq, getElem?_map] at position
    obtain ⟨index, inside, rfl⟩ := Option.map_eq_some_iff.mp position
    obtain ⟨below, rfl⟩ := List.getElem?_eq_some_iff.mp inside
    rw [length_range] at below
    rw [getElem_range] at *
    have positive : 0 < n := Nat.pos_of_ne_zero fun zero => by simp [zero] at below
    have row : done.length / n < n := Nat.div_lt_of_lt_mul below
    have col : done.length % n < n := Nat.mod_lt _ positive
    have here : unpackCell n ((upperCells n).map (element n src))
        (done.map (element n src), (done.filter fun cell => cell.1 ≤ cell.2).length)
        (done.length / n, done.length % n) =
        some ((done ++ [(done.length / n, done.length % n)]).map (element n src),
          ((done ++ [(done.length / n, done.length % n)]).filter fun cell => cell.1 ≤ cell.2).length) := by
      unfold unpackCell
      by_cases up : done.length / n ≤ done.length % n
      · rw [upper]
        simp [up]
      · -- the transposed cell was written before
        have rows := Nat.mul_le_mul_right n (show done.length % n + 1 ≤ done.length / n by omega)
        have whole := Nat.div_add_mod' done.length n
        rw [Nat.succ_mul] at rows
        have transposed := congrArg (fun cells => cells[done.length % n * n + done.length / n]?) split
        simp only [cells_eq, getElem?_map,
          getElem?_append_left (show done.length % n * n + done.length / n < done.length by omega),
          getElem?_range (show done.length % n * n + done.length / n < n * n by omega), Option.map_some,
          div_mod_of_lt row] at transposed
        simp [computeElementIndexAtRowCol, ← transposed, symmetric _ col _ row, up]
    rw [foldlM_cons, here]
    exact next

variable [Zero α]

theorem unpack_scalar (form : Scalar n src) : unpackSquareMatrix n [src 0] = some ((range (n * n)).map src) := by
  rw [unpackSquareMatrix, if_pos (.inr rfl)]
  refine mapM_eq_map fun index inside => ?_
  have cell := forall_index_iff (P := fun index i k => src index = if i = k then src 0 else 0).mpr form index
    (mem_range.mp inside)
  rw [cell, isIndexOnDiagonal]
  by_cases on : index / n = index % n
  · simp [on]
  · simp [on]

theorem unpack_diagonal (form : Diagonal n src) (two : 1 < n) :
    unpackSquareMatrix n ((range n).map fun i => element n src (i, i)) = some ((range (n * n)).map src) := by
  rw [unpackSquareMatrix, if_pos (.inl (by simp))]
  refine mapM_eq_map fun index inside => ?_
  have cell := forall_index_iff (P := fun index i k => i ≠ k → src index = 0).mpr form index (mem_range.mp inside)
  have row : index / n < n := Nat.div_lt_of_lt_mul (mem_range.mp inside)
  have whole := Nat.div_add_mod' index n
  rw [isIndexOnDiagonal]
  by_cases on : index / n = index % n
  · rw [← on] at whole
    simp [on.symm, row, two.ne', element, computeElementIndexAtRowCol, whole]
  · simp [on, cell on]

theorem unpack_symmetric (form : Symmetric n src) (two : 1 < n) :
    unpackSquareMatrix n ((upperCells n).map (element n src)) = some ((range (n * n)).map src) := by
  have size := two_mul_length_upperCells n
  have square := Nat.mul_le_mul_right n two
  have unpacked := unpackCells form (List.nil_append (cells n)).symm
  rw [map_nil, filter_nil, length_nil] at unpacked
  rw [length_upperCells] at size
  rw [unpackSquareMatrix, length_map, length_upperCells, if_neg (by omega), if_pos rfl, unpacked, cells_eq,
    map_map]
  refine congrArg some (map_congr_left fun index _ => ?_)
  rw [Function.comp_apply, element, computeElementIndexAtRowCol, Nat.div_add_mod']

theorem unpack_full (two : 1 < n) (src : ℕ → α) :
    unpackSquareMatrix n ((range (n * n)).map src) = some ((range (n * n)).map src) := by
  have size := two_mul_length_upperCells n
  have square := Nat.mul_le_mul_right n two
  rw [length_upperCells] at size
  rw [unpackSquareMatrix, length_map, length_range, if_neg (by omega), if_neg (by omega), if_pos rfl]
  exact mapM_eq_map fun index inside => by simp [mem_range.mp inside]

/-- What is packed is unpacked, and no form that fits the matrix is smaller. -/
theorem packing_lossless [DecidableEq α] (positive : 0 < n) (src : ℕ → α) :
    ∃ array, packSquareMatrix n src = some array ∧ unpackSquareMatrix n array = some ((range (n * n)).map src) ∧
      IsLeast {size | size = 1 ∧ Scalar n src ∨ size = n ∧ Diagonal n src ∨ size = n * (n + 1) / 2 ∧ Symmetric n src ∨
        size = n * n} array.length := by
  have nan : ¬areAllElementsNan n src = true := by
    have some : 0 < n * n := Nat.mul_pos positive positive
    simpa [areAllElementsNan, isNaN] using ⟨0, some⟩
  have size := two_mul_length_upperCells n
  have triangle : n * (n + 1) / 2 = (upperCells n).length := by
    rw [Nat.mul_succ, ← size, Nat.mul_div_cancel_left _ Nat.two_pos]
  have square : n ≤ n * n := Nat.le_mul_self n
  have two : ¬Scalar n src → 1 < n := by
    intro other
    by_contra one
    obtain rfl : n = 1 := by omega
    refine other fun i row k col => ?_
    obtain rfl : i = 0 := by omega
    obtain rfl : k = 0 := by omega
    rfl
  unfold packSquareMatrix detectOptimalPackingMode
  rw [if_neg nan, triangle]
  by_cases scalar : isScalar n src = true
  · rw [if_pos scalar]
    rw [isScalar_iff] at scalar
    refine ⟨[src 0], pushAll_eq (by simp; omega), unpack_scalar scalar, .inl ⟨rfl, scalar⟩, ?_⟩
    rintro _ (⟨rfl, -⟩ | ⟨rfl, -⟩ | ⟨rfl, -⟩ | rfl) <;> simp only [length_singleton] <;> omega
  rw [if_neg scalar]
  rw [isScalar_iff] at scalar
  have large := two scalar
  by_cases diagonal : isDiagonal n src = true
  · rw [if_pos diagonal]
    rw [isDiagonal_iff] at diagonal
    refine ⟨_, pushAll_eq (by simpa using square), unpack_diagonal diagonal large, ?_⟩
    rw [length_map, length_range]
    refine ⟨.inr (.inl ⟨rfl, diagonal⟩), ?_⟩
    rintro _ (⟨-, form⟩ | ⟨rfl, -⟩ | ⟨rfl, -⟩ | rfl)
    · exact absurd form scalar
    all_goals omega
  rw [if_neg diagonal]
  rw [isDiagonal_iff] at diagonal
  by_cases symmetric : isSymmetric n src = true
  · rw [if_pos symmetric]
    rw [isSymmetric_iff] at symmetric
    refine ⟨_, pushAll_eq (by rw [length_map]; omega), unpack_symmetric symmetric large, ?_⟩
    rw [length_map]
    refine ⟨.inr (.inr (.inl ⟨rfl, symmetric⟩)), ?_⟩
    rintro _ (⟨-, form⟩ | ⟨-, form⟩ | ⟨rfl, -⟩ | rfl)
    · exact absurd form scalar
    · exact absurd form diagonal
    all_goals omega
  · rw [if_neg symmetric]
    rw [isSymmetric_iff] at symmetric
    refine ⟨_, pushAll_eq (by simp), unpack_full large src, ?_⟩
    rw [length_map, length_range]
    refine ⟨.inr (.inr (.inr rfl)), ?_⟩
    rintro _ (⟨-, form⟩ | ⟨-, form⟩ | ⟨-, form⟩ | rfl)
    · exact absurd form scalar
    · exact absurd form diagonal
    · exact absurd form symmetric
    · exact Nat.le_refl _

/-- A symmetric matrix of two rows. -/
theorem packing_lossless_sample :
    ∃ array, packSquareMatrix 2 (fun i => [1, 5, 5, 2].getD i (0 : ℤ)) = some array ∧
      unpackSquareMatrix 2 array = some [1, 5, 5, 2] :=
  (packing_lossless (by decide) fun i => [1, 5, 5, 2].getD i (0 : ℤ)).imp fun _ packed => ⟨packed.1, packed.2.1⟩

end SquareMatrix

end Uavcan
