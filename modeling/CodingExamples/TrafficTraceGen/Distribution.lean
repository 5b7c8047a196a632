import CodingExamples.Library.Interpolation

/-!
# The flow size distribution of the trace generator

`load_dist_file` reads a table of flow sizes and cumulative probabilities;
`gen_size` inverts it at a number between 0 and 1.  Numbers are rational, so
that no step rounds; `float` reads the numerals that stand for a rational
number.
-/

namespace CodingExamples.TrafficTraceGen.Distribution

open CodingExamples.Library.Interpolation

/-- A character string. -/
abbrev Str := List Char

/-- The exceptions that the modelled functions can raise. -/
inductive PyError where
  | valueError
  | indexError
  | zeroDivisionError
deriving DecidableEq, Repr

/-- A row of the table: `[CDF, flow size]`. -/
abbrev Row := ℚ × ℚ

/-! ## Reading the file -/

/-- The characters at which `split` separates words. -/
def isSpace (c : Char) : Bool :=
  c ∈ [' ', '\t', '\n', '\r', '\x0b', '\x0c']

/-- `line.split()`. -/
def split (line : Str) : List Str :=
  (line.splitOnP isSpace).filter fun word => !word.isEmpty

/-- The number that a string of decimal digits stands for. -/
def decimal (digits : Str) : Nat :=
  digits.foldl (fun number c => 10 * number + (c.toNat - '0'.toNat)) 0

/-- An optional sign and the rest of the word. -/
def sign : Str → ℤ × Str
  | '-' :: rest => (-1, rest)
  | '+' :: rest => (1, rest)
  | word => (1, word)

/-- The part of a numeral after its fraction. -/
def exponent : Str → Except PyError ℤ
  | [] => .ok 0
  | letter :: rest =>
      let digits := (sign rest).2
      if (letter = 'e' ∨ letter = 'E') ∧ digits ≠ [] ∧
          digits.all Char.isDigit then
        .ok ((sign rest).1 * decimal digits)
      else
        .error .valueError

/-- `float(word)`, for numerals that stand for a rational number. -/
def float (word : Str) : Except PyError ℚ := do
  let (factor, unsigned) := sign word
  let (whole, rest) := unsigned.span Char.isDigit
  let (fraction, rest) :=
    match rest with
    | '.' :: rest => rest.span Char.isDigit
    | rest => ([], rest)
  if whole = [] ∧ fraction = [] then
    throw .valueError
  let power ← exponent rest
  return factor * decimal (whole ++ fraction) *
    10 ^ (power - fraction.length)

/-- `load_dist_file` on the lines of the file. -/
def loadDistFile : List Str → Except PyError (List Row)
  | [] => .ok []
  | line :: lines =>
      match split line with
      | [size, cdf] => do
          let cdf ← float cdf
          let size ← float size
          let flowDist ← loadDistFile lines
          return (cdf, size) :: flowDist
      | _ => loadDistFile lines

/-! ## Generating a size -/

/-- `dist[index]`; a negative index counts from the end. -/
def item (dist : List Row) (index : Int) : Except PyError Row :=
  let position := if index < 0 then index + dist.length else index
  if position < 0 then
    .error .indexError
  else
    match dist[position.toNat]? with
    | some row => .ok row
    | none => .error .indexError

/-- `left / right`. -/
def divide (left right : ℚ) : Except PyError ℚ :=
  if right = 0 then .error .zeroDivisionError else .ok (left / right)

/-- `int(val)`: truncation towards zero. -/
def int (val : ℚ) : Int :=
  if 0 ≤ val then ⌊val⌋ else ⌈val⌉

/-- The loop of `gen_size` over the rows from number `i` on. -/
def genSizeFrom (dist : List Row) (x : ℚ) :
    List Row → Nat → Except PyError Int
  | [], _ => .ok 0
  | var :: rest, i =>
      if var.1 > x then do
        let (x1, y1) ← item dist (i - 1)
        let (x2, y2) ← item dist i
        let slope ← divide (y2 - y1) (x2 - x1)
        let offset ← divide (x2 * y1 - x1 * y2) (x2 - x1)
        return int (slope * x + offset)
      else if var.1 = x then
        .ok (int var.2)
      else
        genSizeFrom dist x rest (i + 1)

/-- `gen_size(dist, x)`. -/
def genSize (dist : List Row) (x : ℚ) : Except PyError Int :=
  genSizeFrom dist x dist 0

/-! ## Truncation -/

theorem int_of_nonneg {val : ℚ} (nonnegative : 0 ≤ val) : int val = ⌊val⌋ :=
  if_pos nonnegative

theorem int_monotone : Monotone int := by
  intro low high order
  rw [int, int]
  by_cases lowSign : 0 ≤ low
  · rw [if_pos lowSign, if_pos (lowSign.trans order)]
    exact Int.floor_le_floor order
  · rw [if_neg lowSign]
    by_cases highSign : 0 ≤ high
    · have negative : ⌈low⌉ ≤ 0 :=
        Int.ceil_le.mpr (by exact_mod_cast (not_le.mp lowSign).le)
      rw [if_pos highSign]
      exact negative.trans (Int.floor_nonneg.mpr highSign)
    · rw [if_neg highSign]
      exact Int.ceil_le_ceil order

/-- Truncation hides a loss down to the next integer, or to minus one. -/
theorem int_le_int_iff {size : ℚ} (nonnegative : 0 ≤ size) (val : ℚ) :
    int size ≤ int val ↔ (⌊size⌋ : ℚ) ≤ val ∨ size < 1 ∧ -1 < val := by
  have whole : 0 ≤ ⌊size⌋ := Int.floor_nonneg.mpr nonnegative
  have small : size < 1 ↔ ⌊size⌋ < 1 := by
    rw [Int.floor_lt, Int.cast_one]
  rw [int_of_nonneg nonnegative, int]
  by_cases above : 0 ≤ val
  · rw [if_pos above, Int.le_floor]
    constructor
    · exact Or.inl
    · rintro (bounded | ⟨below, _⟩)
      · exact bounded
      · have zero : ⌊size⌋ = 0 := by
          have := small.mp below
          omega
        rw [zero]
        exact_mod_cast above
  · have negative : val < 0 := not_le.mp above
    have ceiling : ⌈val⌉ ≤ 0 := Int.ceil_le.mpr (by exact_mod_cast negative.le)
    have bound : -1 < val ↔ -1 < ⌈val⌉ := by
      rw [Int.lt_ceil]
      norm_num
    have outside : ¬ (⌊size⌋ : ℚ) ≤ val := by
      have : (0 : ℚ) ≤ ⌊size⌋ := by
        exact_mod_cast whole
      linarith
    rw [if_neg above, or_iff_right outside, small, bound]
    constructor
    · intro order
      constructor <;> omega
    · rintro ⟨below, atLeast⟩
      omega

/-! ## The scan -/

theorem item_length (before : List Row) (row : Row) (after : List Row) :
    item (before ++ row :: after) before.length = .ok row := by
  have inside : ¬ (before.length : Int) < 0 := by
    omega
  simp [item, inside]

theorem item_last {dist : List Row} {last : Row}
    (isLast : dist.getLast? = some last) :
    item dist (-1) = .ok last := by
  have nonempty : dist ≠ [] := by
    rintro rfl
    simp at isLast
  have positive : 0 < dist.length := List.length_pos_of_ne_nil nonempty
  have position : (-1 + (dist.length : Int)).toNat = dist.length - 1 := by
    omega
  have inside : ¬ (-1 + (dist.length : Int)) < 0 := by
    omega
  rw [List.getLast?_eq_getElem?] at isLast
  simp [item, inside, position, isLast]

/-- Between two rows with different values, the line is computed. -/
theorem divide_line
    {left right : Row} (apart : right.1 - left.1 ≠ 0) (x : ℚ) :
    (do
      let slope ← divide (right.2 - left.2) (right.1 - left.1)
      let offset ←
        divide (right.1 * left.2 - left.1 * right.2) (right.1 - left.1)
      return int (slope * x + offset)) =
      Except.ok (ε := PyError) (int (line left right x)) := by
  rw [divide, divide, if_neg apart, if_neg apart]
  rfl

/-- Behind a row below the argument, the loop scans the rest of the table. -/
theorem genSizeFrom_eq_scan
    {dist before rest : List Row} {previous : Row} {x : ℚ}
    (split : dist = before ++ previous :: rest)
    (ascending : Ascending (previous :: rest)) (below : previous.1 < x) :
    genSizeFrom dist x rest (before.length + 1) =
      .ok (((scan previous rest x).map int).getD 0) := by
  induction rest generalizing before previous with
  | nil => rfl
  | cons var rest ih =>
      have next : dist = (before ++ [previous]) ++ var :: rest := by
        rw [split, List.append_assoc]
        rfl
      have nextLength : (before ++ [previous]).length = before.length + 1 :=
        List.length_append
      rw [genSizeFrom, scan]
      by_cases inside : var.1 > x
      · have first :
            item dist ((before.length + 1 : Nat) - 1) = .ok previous := by
          rw [split, Nat.cast_add, Nat.cast_one, Int.add_sub_cancel]
          exact item_length before previous (var :: rest)
        have second : item dist (before.length + 1 : Nat) = .ok var := by
          rw [next, ← nextLength]
          exact item_length (before ++ [previous]) var rest
        have apart : var.1 - previous.1 ≠ 0 :=
          (sub_pos.mpr (below.trans inside)).ne'
        rw [if_pos inside, if_pos inside, first, second]
        exact divide_line apart x
      · rw [if_neg inside, if_neg inside]
        by_cases equal : var.1 = x
        · rw [if_pos equal, if_pos equal]
          rfl
        · rw [if_neg equal, if_neg equal, ← nextLength]
          exact
            ih next (List.pairwise_cons.mp ascending).2
              (lt_of_le_of_ne (not_lt.mp inside) equal)

end CodingExamples.TrafficTraceGen.Distribution
