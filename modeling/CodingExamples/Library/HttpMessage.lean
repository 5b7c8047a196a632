import Mathlib.Data.List.TakeWhile

/-!
# Framing of HTTP messages

A message is read line by line up to an empty line.  What follows is either
counted by a `Content-Length` field, or it is chunked: each chunk says its own
size in hexadecimal digits, and a chunk of size zero is the last one.

The readers are written from the grammar, for bytes that may be anything.
The theorems say what they make of bytes that were written in that grammar.
-/

namespace CodingExamples.Library.HttpMessage

/-- A byte string. -/
abbrev Bytes := List (BitVec 8)

/-- The bytes of a text in ASCII. -/
def ascii (text : String) : Bytes :=
  text.toList.map fun character => BitVec.ofNat 8 character.toNat

/-- The end of a line. -/
def crlf : Bytes := [13, 10]

/-! ## Lines -/

/-- The first line of some bytes, and what follows its end. -/
def takeLine : Bytes → Option (Bytes × Bytes)
  | [] => none
  | first :: rest =>
      if first = 13 ∧ rest.head? = some 10 then
        some ([], rest.tail)
      else
        (takeLine rest).map fun found => (first :: found.1, found.2)

/-- A line without a carriage return is read back. -/
theorem takeLine_append
    {line : Bytes} (plain : 13 ∉ line) (rest : Bytes) :
    takeLine (line ++ (crlf ++ rest)) = some (line, rest) := by
  induction line with
  | nil => rfl
  | cons first line ih =>
      rw [List.mem_cons, not_or] at plain
      have other : ¬ first = 13 := fun same => plain.1 same.symm
      rw [List.cons_append, takeLine, if_neg (not_and_of_not_left _ other),
        ih plain.2]
      rfl

/-- The lines up to the first empty one, and what follows that one. -/
def takeLines : Nat → Bytes → Option (List Bytes × Bytes)
  | 0, _ => none
  | fuel + 1, bytes =>
      match takeLine bytes with
      | none => none
      | some ([], rest) => some ([], rest)
      | some (line, rest) =>
          (takeLines fuel rest).map fun found =>
            (line :: found.1, found.2)

/-- The lines of a message and the bytes behind them. -/
def readHead (message : Bytes) : Option (List Bytes × Bytes) :=
  takeLines (message.length + 1) message

/-- Lines, each with its end. -/
def renderLines (lines : List Bytes) : Bytes :=
  lines.flatMap (· ++ crlf)

/-- A line that is neither empty nor broken. -/
structure IsLine (line : Bytes) : Prop where
  nonempty : line ≠ []
  plain : 13 ∉ line

theorem takeLines_append
    {lines : List Bytes} (each : ∀ line ∈ lines, IsLine line) (rest : Bytes)
    {fuel : Nat} (enough : lines.length < fuel) :
    takeLines fuel (renderLines lines ++ (crlf ++ rest)) =
      some (lines, rest) := by
  induction lines generalizing fuel with
  | nil =>
      cases fuel with
      | zero => omega
      | succ fuel => rfl
  | cons line lines ih =>
      cases fuel with
      | zero => omega
      | succ fuel =>
          have isLine := each line List.mem_cons_self
          have later :=
            ih (fun other member => each other (List.mem_cons_of_mem _ member))
              (Nat.lt_of_succ_lt_succ enough)
          have split :
              renderLines (line :: lines) ++ (crlf ++ rest) =
                line ++ (crlf ++ (renderLines lines ++ (crlf ++ rest))) := by
            simp [renderLines]
          rw [split, takeLines, takeLine_append isLine.plain]
          cases line with
          | nil => exact absurd rfl isLine.nonempty
          | cons first line =>
              show (takeLines fuel _).map _ = _
              rw [later]
              rfl

theorem length_le_length_renderLines (lines : List Bytes) :
    lines.length ≤ (renderLines lines).length := by
  induction lines with
  | nil => exact Nat.le_refl 0
  | cons line lines ih =>
      simp only [renderLines, List.flatMap_cons, List.length_append,
        List.length_cons, crlf] at ih ⊢
      omega

/-- The head of a message that was written line by line is read back. -/
theorem readHead_append
    {lines : List Bytes} (each : ∀ line ∈ lines, IsLine line) (rest : Bytes) :
    readHead (renderLines lines ++ (crlf ++ rest)) = some (lines, rest) := by
  apply takeLines_append each rest
  have := length_le_length_renderLines lines
  rw [List.length_append]
  omega

/-! ## Numerals -/

/-- A number in the digits of a base, with lower-case letters. -/
def numeral (base number : Nat) : Bytes :=
  (Nat.toDigits base number).map fun digit => BitVec.ofNat 8 digit.toNat

/-- The value of a digit. -/
def digitValue (byte : BitVec 8) : Option Nat :=
  if 48 ≤ byte.toNat ∧ byte.toNat ≤ 57 then
    some (byte.toNat - 48)
  else if 97 ≤ byte.toNat ∧ byte.toNat ≤ 102 then
    some (byte.toNat - 87)
  else if 65 ≤ byte.toNat ∧ byte.toNat ≤ 70 then
    some (byte.toNat - 55)
  else
    none

/-- The value of a digit of a base. -/
def baseDigit (base : Nat) (byte : BitVec 8) : Option Nat :=
  (digitValue byte).filter (· < base)

/-- Read a number that consists of digits only. -/
def readNumeral (base : Nat) (digits : Bytes) : Option Nat :=
  if digits = [] then
    none
  else
    digits.foldlM
      (fun number byte =>
        (baseDigit base byte).map (number * base + ·))
      0

/-- Every digit up to 15 has its value. -/
theorem digitValue_digitChar {digit : Nat} (small : digit < 16) :
    digitValue (BitVec.ofNat 8 (Nat.digitChar digit).toNat) = some digit := by
  have all : ∀ digit : Fin 16,
      digitValue (BitVec.ofNat 8 (Nat.digitChar digit).toNat) =
        some digit.val := by
    decide
  exact all ⟨digit, small⟩

theorem baseDigit_digitChar
    {base digit : Nat} (below : digit < base) (small : base ≤ 16) :
    baseDigit base (BitVec.ofNat 8 (Nat.digitChar digit).toNat) =
      some digit := by
  rw [baseDigit, digitValue_digitChar (Nat.lt_of_lt_of_le below small)]
  simp [below]

theorem numeral_ne_nil (base number : Nat) : numeral base number ≠ [] := by
  simp [numeral]

/-- The digits of a number, one more digit at a time. -/
theorem numeral_eq {base : Nat} (positional : 1 < base) (number : Nat) :
    numeral base number =
      if number < base then
        [BitVec.ofNat 8 (Nat.digitChar number).toNat]
      else
        numeral base (number / base) ++
          [BitVec.ofNat 8 (Nat.digitChar (number % base)).toNat] := by
  rw [numeral, Nat.toDigits_eq_if positional]
  split
  · rfl
  · rw [List.map_append]
    rfl

/-- A numeral is read back as its number. -/
theorem readNumeral_numeral
    {base : Nat} (positional : 1 < base) (small : base ≤ 16) (number : Nat) :
    readNumeral base (numeral base number) = some number := by
  rw [readNumeral, if_neg (numeral_ne_nil base number)]
  induction number using Nat.strongRecOn with
  | ind number ih =>
      rw [numeral_eq positional]
      split
      · case isTrue below =>
          simp [baseDigit_digitChar below small]
      · case isFalse large =>
          have smaller : number / base < number :=
            Nat.div_lt_self (by omega) positional
          have digit :=
            baseDigit_digitChar
              (Nat.mod_lt number (Nat.lt_of_succ_lt positional)) small
          rw [List.foldlM_append, ih _ smaller]
          simp [digit, Nat.div_add_mod']

/-- Numerals contain digits only. -/
theorem exists_baseDigit_of_mem_numeral
    {base : Nat} (positional : 1 < base) (small : base ≤ 16) {number : Nat}
    {byte : BitVec 8} (member : byte ∈ numeral base number) :
    ∃ digit, baseDigit base byte = some digit := by
  induction number using Nat.strongRecOn with
  | ind number ih =>
      rw [numeral_eq positional] at member
      split at member
      · case isTrue below =>
          rw [List.mem_singleton.mp member]
          exact ⟨number, baseDigit_digitChar below small⟩
      · case isFalse large =>
          rcases List.mem_append.mp member with earlier | last
          · exact ih _ (Nat.div_lt_self (by omega) positional) earlier
          · rw [List.mem_singleton.mp last]
            exact
              ⟨_, baseDigit_digitChar
                (Nat.mod_lt number (Nat.lt_of_succ_lt positional)) small⟩

theorem not_mem_numeral
    {base : Nat} (positional : 1 < base) (small : base ≤ 16) {number : Nat}
    {byte : BitVec 8} (other : digitValue byte = none) :
    byte ∉ numeral base number := by
  intro member
  rcases exists_baseDigit_of_mem_numeral positional small member with
    ⟨digit, read⟩
  rw [baseDigit, other] at read
  cases read

/-- A numeral of a legal base is a line. -/
theorem isLine_numeral
    {base : Nat} (positional : 1 < base) (small : base ≤ 16) (number : Nat) :
    IsLine (numeral base number) where
  nonempty := numeral_ne_nil base number
  plain := not_mem_numeral positional small (by decide)

/-! ## The chunked coding -/

/-- One chunk. -/
def chunk (data : Bytes) : Bytes :=
  numeral 16 data.length ++ (crlf ++ (data ++ crlf))

/-- The end of a chunked message without trailer fields. -/
def lastChunk : Bytes :=
  ascii "0" ++ (crlf ++ crlf)

/--
A chunked message of some content: chunks that are not empty, whose sizes are
their lengths in hexadecimal digits, and then the last chunk.
-/
inductive Chunked : Bytes → Bytes → Prop where
  | last : Chunked lastChunk []
  | chunk {message content : Bytes} (data : Bytes) (nonempty : data ≠ [])
      (rest : Chunked message content) :
      Chunked (chunk data ++ message) (data ++ content)

/-- The size in the first line of a chunk, in front of its extensions. -/
def readChunkSize (line : Bytes) : Option Nat :=
  let digits := line.takeWhile fun byte => (baseDigit 16 byte).isSome
  let extensions := line.drop digits.length
  if extensions = [] ∨ extensions.head? = some 59 then
    readNumeral 16 digits
  else
    none

/-- Read chunks up to the last one, and the trailer fields behind it. -/
def decodeChunks : Nat → Bytes → Option (Bytes × Bytes)
  | 0, _ => none
  | fuel + 1, message => do
      let (line, rest) ← takeLine message
      let size ← readChunkSize line
      if size = 0 then
        let (_, rest) ← readHead rest
        pure ([], rest)
      else if (rest.drop size).take 2 = crlf then
        let (content, unread) ← decodeChunks fuel (rest.drop (size + 2))
        pure (rest.take size ++ content, unread)
      else
        none

/-- The content of a chunked message, and what follows the message. -/
def decodeChunked (message : Bytes) : Option (Bytes × Bytes) :=
  decodeChunks message.length message

theorem readChunkSize_numeral (number : Nat) :
    readChunkSize (numeral 16 number) = some number := by
  have whole :
      (numeral 16 number).takeWhile
          (fun byte => (baseDigit 16 byte).isSome) =
        numeral 16 number := by
    rw [List.takeWhile_eq_self_iff]
    intro byte member
    exact
      Option.isSome_iff_exists.mpr
        (exists_baseDigit_of_mem_numeral (by decide) (by decide) member)
  simp only [readChunkSize, whole, List.drop_length, true_or, if_true]
  exact readNumeral_numeral (by decide) (by decide) number

theorem decodeChunks_lastChunk (fuel : Nat) (rest : Bytes) :
    decodeChunks (fuel + 1) (lastChunk ++ rest) = some ([], rest) := by
  have plain : 13 ∉ ascii "0" := by
    decide
  have line :
      takeLine (lastChunk ++ rest) = some (ascii "0", crlf ++ rest) :=
    takeLine_append plain (crlf ++ rest)
  have noFields : ∀ line ∈ ([] : List Bytes), IsLine line := by
    simp
  have trailer : readHead (crlf ++ rest) = some ([], rest) :=
    readHead_append noFields rest
  have size : readChunkSize (ascii "0") = some 0 := by
    decide
  simp [decodeChunks, line, size, trailer]

theorem decodeChunks_chunk
    (fuel : Nat) {data : Bytes} (nonempty : data ≠ []) (rest : Bytes) :
    decodeChunks (fuel + 1) (chunk data ++ rest) =
      (decodeChunks fuel rest).map fun found =>
        (data ++ found.1, found.2) := by
  have grouped :
      chunk data ++ rest =
        numeral 16 data.length ++ (crlf ++ (data ++ (crlf ++ rest))) := by
    simp [chunk]
  have line :
      takeLine (chunk data ++ rest) =
        some (numeral 16 data.length, data ++ (crlf ++ rest)) := by
    rw [grouped]
    exact takeLine_append (isLine_numeral (by decide) (by decide) _).plain _
  have positive : data.length ≠ 0 := by
    rwa [ne_eq, List.length_eq_zero_iff]
  have behind :
      (data ++ (crlf ++ rest)).drop (data.length + 2) = rest := by
    rw [← List.append_assoc]
    exact List.drop_left' (by simp [crlf])
  simp only [decodeChunks, line, Option.bind_eq_bind, Option.bind_some,
    readChunkSize_numeral, if_neg positive, behind, List.drop_left,
    List.take_left]
  have ends : (crlf ++ rest).take 2 = crlf :=
    List.take_left' rfl
  rw [if_pos ends]
  cases decodeChunks fuel rest <;> rfl

/-- A chunked message is decoded to its content, and nothing is left over. -/
theorem decodeChunked_of_chunked
    {message content : Bytes} (chunked : Chunked message content)
    (rest : Bytes) :
    decodeChunked (message ++ rest) = some (content, rest) := by
  have enough (fuel : Nat) (bound : message.length ≤ fuel) :
      decodeChunks fuel (message ++ rest) = some (content, rest) := by
    induction chunked generalizing fuel with
    | last =>
        cases fuel with
        | zero => exact absurd bound (by decide)
        | succ fuel => exact decodeChunks_lastChunk fuel rest
    | chunk data nonempty later ih =>
        have size : 1 ≤ (chunk data).length := by
          simp only [chunk, List.length_append, crlf, List.length_cons]
          omega
        rw [List.length_append] at bound
        cases fuel with
        | zero => omega
        | succ fuel =>
            rw [List.append_assoc, decodeChunks_chunk fuel nonempty,
              ih fuel (by omega)]
            rfl
  apply enough
  rw [List.length_append]
  omega

/-! ## Counted messages -/

/-- The name of the field, up to its value. -/
def contentLengthField : Bytes :=
  ascii "Content-Length: "

/-- The number of bytes that the head of a message announces. -/
def contentLength (lines : List Bytes) : Option Nat :=
  (lines.find? (contentLengthField.isPrefixOf ·)).bind fun line =>
    readNumeral 10 (line.drop contentLengthField.length)

/-- A message is followed by as many bytes as its head announces. -/
def LengthMatches (message : Bytes) : Prop :=
  ∃ lines body,
    readHead message = some (lines, body) ∧
      contentLength lines = some body.length

instance (message : Bytes) : Decidable (LengthMatches message) :=
  match read : readHead message with
  | none =>
      isFalse fun ⟨_, _, found, _⟩ => by
        rw [read] at found
        cases found
  | some (lines, body) =>
      if same : contentLength lines = some body.length then
        isTrue ⟨lines, body, read, same⟩
      else
        isFalse fun ⟨_, _, found, announced⟩ => by
          rw [read] at found
          cases found
          exact same announced

/-- The field is found behind lines that are something else. -/
theorem contentLength_append
    {before : List Bytes}
    (others : ∀ line ∈ before, contentLengthField.isPrefixOf line = false)
    (number : Nat) (after : List Bytes) :
    contentLength
        (before ++ (contentLengthField ++ numeral 10 number) :: after) =
      some number := by
  have absent : before.find? (contentLengthField.isPrefixOf ·) = none := by
    rw [List.find?_eq_none]
    intro line member
    simp [others line member]
  have field :
      contentLengthField.isPrefixOf
        (contentLengthField ++ numeral 10 number) = true := by
    rw [List.isPrefixOf_iff_prefix]
    exact List.prefix_append _ _
  rw [contentLength, List.find?_append, absent, Option.none_or,
    List.find?_cons, field]
  show readNumeral 10 ((contentLengthField ++ _).drop _) = _
  rw [List.drop_left]
  exact readNumeral_numeral (by decide) (by decide) number

/-- Only the announced number of bytes may follow the head. -/
theorem lengthMatches_append_iff
    {lines : List Bytes} (each : ∀ line ∈ lines, IsLine line) {number : Nat}
    (announced : contentLength lines = some number) (body : Bytes) :
    LengthMatches (renderLines lines ++ (crlf ++ body)) ↔
      number = body.length := by
  constructor
  · rintro ⟨found, rest, read, same⟩
    rw [readHead_append each] at read
    cases read
    rw [announced] at same
    exact Option.some.inj same
  · rintro rfl
    exact ⟨lines, body, readHead_append each body, announced⟩

example :
    LengthMatches (ascii "A: b\r\nContent-Length: 2\r\n\r\n\r\n") := by
  decide

end CodingExamples.Library.HttpMessage
