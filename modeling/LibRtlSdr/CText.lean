import Mathlib.Data.Nat.Digits.Lemmas
import Mathlib.Data.List.TakeWhile

namespace LibRtlSdr.CText

/-!
# Text as the C library reads it

Lines of a bounded length, words between white space, tokens between separators, and
decimal numbers, over lists of bytes.  Text that is made of such parts is taken apart into
the same parts.
-/

/-- The bytes of a text in ASCII. -/
def bytes (text : String) : List UInt8 :=
  text.toList.map fun char => UInt8.ofNat char.toNat

/-- `isspace` -/
def isSpace (byte : UInt8) : Bool :=
  byte == 0x20 || (0x09 ≤ byte && byte ≤ 0x0d)

/-- `isdigit` -/
def isDigit (byte : UInt8) : Bool :=
  0x30 ≤ byte && byte ≤ 0x39

/-- The rest of a text, when `read` was read since the last `fgets` returned. -/
def readsFrom (room : Nat) (read : List UInt8) : List UInt8 → List (List UInt8)
  | [] => if read = [] then [] else [read]
  | byte :: text =>
      if byte = 0x0a ∨ read.length + 1 = room then
        (read ++ [byte]) :: readsFrom room [] text
      else
        readsFrom room (read ++ [byte]) text

/--
What `fgets` brings, called until it fails: each time as much as goes behind a newline, or
fills the room.
-/
def reads (room : Nat) (text : List UInt8) : List (List UInt8) :=
  readsFrom room [] text

/-- What a `%s` of `sscanf` takes, and what it leaves. -/
def scanWord (text : List UInt8) : List UInt8 × List UInt8 :=
  let word := text.dropWhile isSpace
  (word.takeWhile (!isSpace ·), word.dropWhile (!isSpace ·))

/-- All tokens of `strtok`: what stands between separators, if that is not nothing. -/
def tokens (separator : UInt8) (text : List UInt8) : List (List UInt8) :=
  (text.splitOn separator).filter (· ≠ [])

/-- The value of a string of digits. -/
def digitsValue (digits : List UInt8) : Nat :=
  digits.foldl (fun value digit => 10 * value + (digit.toNat - 0x30)) 0

/-- `strtol` in base ten, before it is cut to the range of a `long`. -/
def decimalValue (text : List UInt8) : Int :=
  match text.dropWhile isSpace with
  | 0x2d :: rest => -(digitsValue (rest.takeWhile isDigit) : Int)
  | 0x2b :: rest => digitsValue (rest.takeWhile isDigit)
  | rest => digitsValue (rest.takeWhile isDigit)

/-- `atoi`, where a `long` has 64 bits. -/
def atoi (text : List UInt8) : Int32 :=
  Int32.ofInt (max (-2 ^ 63) (min (2 ^ 63 - 1) (decimalValue text)))

/-- The digits of a number. -/
def digits (n : Nat) : List UInt8 :=
  if n = 0 then [0x30] else (Nat.digits 10 n).reverse.map fun digit => UInt8.ofNat (0x30 + digit)

/-- A number in decimal. -/
def decimal (n : Int) : List UInt8 :=
  if n < 0 then 0x2d :: digits n.natAbs else digits n.natAbs

/-! ## Lines -/

/-- A line that has room is read as a whole. -/
theorem readsFrom_line
    {room : Nat}
    {read line : List UInt8}
    (noBreak : 0x0a ∉ line)
    (fits : read.length + line.length + 1 ≤ room)
    (text : List UInt8) :
    readsFrom room read (line ++ 0x0a :: text) =
      (read ++ line ++ [0x0a]) :: readsFrom room [] text := by
  induction line generalizing read with
  | nil =>
      rw [List.nil_append, readsFrom, if_pos (.inl rfl), List.append_nil]
  | cons byte line inductionHypothesis =>
      obtain ⟨notHere, notLater⟩ := not_or.mp (mt List.mem_cons.mpr noBreak)
      rw [List.length_cons] at fits
      rw [List.cons_append, readsFrom, if_neg]
      · rw [inductionHypothesis notLater (by rw [List.length_append]; simp; omega)]
        simp
      · rintro (isBreak | full)
        · exact notHere isBreak.symm
        · omega

/-- Text of lines that have room is read line by line. -/
theorem reads_lines
    {room : Nat}
    {lines : List (List UInt8)}
    (fit : ∀ line ∈ lines, 0x0a ∉ line ∧ line.length + 1 ≤ room) :
    reads room (lines.flatMap (· ++ [0x0a])) = lines.map (· ++ [0x0a]) := by
  unfold reads
  induction lines with
  | nil =>
      rfl
  | cons line rest inductionHypothesis =>
      obtain ⟨⟨noBreak, fits⟩, others⟩ := List.forall_mem_cons.mp fit
      rw [List.flatMap_cons, List.append_assoc, List.singleton_append,
        readsFrom_line noBreak (by simpa using fits), inductionHypothesis others]
      rfl

/-! ## Words -/

/-- A word up to white space, or to the end. -/
theorem scanWord_word
    {word rest : List UInt8}
    (some_ : word ≠ [])
    (solid : ∀ byte ∈ word, isSpace byte = false)
    (ends : ∀ byte ∈ rest.head?, isSpace byte = true) :
    scanWord (word ++ rest) = (word, rest) := by
  have inWord : ∀ byte ∈ word, (!isSpace byte) = true := by
    intro byte member
    rw [solid byte member]
    rfl
  have start : (word ++ rest).dropWhile isSpace = word ++ rest := by
    rcases word with _ | ⟨byte, word⟩
    · exact absurd rfl some_
    · rw [List.cons_append]
      exact List.dropWhile_cons_of_neg (by rw [solid byte List.mem_cons_self]; decide)
  have stop : rest.takeWhile (!isSpace ·) = [] ∧ rest.dropWhile (!isSpace ·) = rest := by
    rcases rest with _ | ⟨byte, rest⟩
    · exact ⟨rfl, rfl⟩
    · have space : ¬ (!isSpace byte) = true := by
        rw [ends byte rfl]
        decide
      exact ⟨List.takeWhile_cons_of_neg space, List.dropWhile_cons_of_neg space⟩
  unfold scanWord
  rw [start]
  dsimp only
  rw [List.takeWhile_append_of_pos inWord, List.dropWhile_append_of_pos inWord, stop.1,
    stop.2, List.append_nil]

/-- White space before a word is skipped. -/
theorem scanWord_space
    {byte : UInt8}
    (space : isSpace byte = true)
    (text : List UInt8) :
    scanWord (byte :: text) = scanWord text := by
  unfold scanWord
  rw [List.dropWhile_cons_of_pos space]

/-- White space at the end belongs to no word. -/
theorem scanWord_concat
    {space : UInt8}
    (isSpace_ : isSpace space = true)
    (text : List UInt8) :
    (scanWord (text ++ [space])).1 = (scanWord text).1 ∧
      ((scanWord (text ++ [space])).2 = (scanWord text).2 ++ [space] ∨
        (scanWord text).2 = [] ∧ (scanWord (text ++ [space])).2 = []) := by
  have skipped : [space].dropWhile isSpace = [] := List.dropWhile_cons_of_pos isSpace_
  have stops : ¬ (!isSpace space) = true := by
    rw [isSpace_]
    decide
  have noWord : [space].takeWhile (!isSpace ·) = [] := List.takeWhile_cons_of_neg stops
  have kept : [space].dropWhile (!isSpace ·) = [space] := List.dropWhile_cons_of_neg stops
  unfold scanWord
  dsimp only
  rw [List.dropWhile_append, skipped]
  rcases text.dropWhile isSpace with _ | ⟨byte, word⟩
  · exact ⟨rfl, .inr ⟨rfl, rfl⟩⟩
  · rw [if_neg (by simp)]
    constructor
    · rw [List.takeWhile_append, noWord, List.append_nil]
      split_ifs with whole
      · exact (List.takeWhile_prefix _).eq_of_length whole |>.symm
      · rfl
    · rw [List.dropWhile_append, kept]
      refine .inl ?_
      split_ifs with whole
      · rw [List.isEmpty_iff.mp whole]
        rfl
      · rfl

/-- The second word neither. -/
theorem secondWord_concat
    {space : UInt8}
    (isSpace_ : isSpace space = true)
    (text : List UInt8) :
    (scanWord (scanWord (text ++ [space])).2).1 = (scanWord (scanWord text).2).1 := by
  rcases (scanWord_concat isSpace_ text).2 with left | ⟨none, alsoNone⟩
  · rw [left]
    exact (scanWord_concat isSpace_ _).1
  · rw [none, alsoNone]

/-! ## Tokens -/

/-- Tokens with separators between them are found again. -/
theorem tokens_intercalate
    {separator : UInt8}
    {parts : List (List UInt8)}
    (solid : ∀ part ∈ parts, separator ∉ part ∧ part ≠ []) :
    tokens separator ([separator].intercalate parts) = parts := by
  unfold tokens
  by_cases none : parts = []
  · subst none
    rfl
  · rw [List.splitOn_intercalate _ (fun part member => (solid part member).1) none,
      List.filter_eq_self]
    intro part member
    simpa using (solid part member).2

/-! ## Numbers -/

theorem digitsValue_reverse (values : List Nat) (small : ∀ value ∈ values, value < 10) :
    digitsValue (values.reverse.map fun value => UInt8.ofNat (0x30 + value)) =
      Nat.ofDigits 10 values := by
  unfold digitsValue
  rw [List.foldl_map, List.foldl_reverse, Nat.ofDigits_eq_foldr]
  induction values with
  | nil =>
      rfl
  | cons value rest inductionHypothesis =>
      obtain ⟨isSmall, others⟩ := List.forall_mem_cons.mp small
      have digit : (UInt8.ofNat (0x30 + value)).toNat - 0x30 = value := by
        rw [UInt8.toNat_ofNat']
        omega
      rw [List.foldr_cons, List.foldr_cons, inductionHypothesis others, digit, Nat.cast_id]
      omega

theorem digitsValue_digits (n : Nat) :
    digitsValue (digits n) = n := by
  unfold digits
  by_cases zero : n = 0
  · subst zero
    rfl
  · rw [if_neg zero, digitsValue_reverse _ (fun _ member => Nat.digits_lt_base (by decide) member),
      Nat.ofDigits_digits]

theorem digits_isDigit (n : Nat) :
    ∀ byte ∈ digits n, isDigit byte = true := by
  intro byte member
  unfold digits at member
  by_cases zero : n = 0
  · rw [if_pos zero, List.mem_singleton] at member
    subst member
    rfl
  · rw [if_neg zero, List.mem_map] at member
    obtain ⟨digit, isDigit_, rfl⟩ := member
    have small := Nat.digits_lt_base (by decide) (List.mem_reverse.mp isDigit_)
    have shown : ∀ digit, digit < 10 → isDigit (UInt8.ofNat (0x30 + digit)) = true := by
      decide
    exact shown digit small

/-- A digit is neither white space nor a sign. -/
theorem isDigit_plain
    {byte : UInt8}
    (digit : isDigit byte = true) :
    isSpace byte = false ∧ byte ≠ 0x2d ∧ byte ≠ 0x2b := by
  have all :
      ∀ bits : BitVec 8,
        isDigit ⟨bits⟩ = true →
          isSpace ⟨bits⟩ = false ∧ (⟨bits⟩ : UInt8) ≠ 0x2d ∧ (⟨bits⟩ : UInt8) ≠ 0x2b := by
    decide
  exact all byte.toBitVec digit

theorem digits_ne_nil (n : Nat) : digits n ≠ [] := by
  unfold digits
  by_cases zero : n = 0
  · rw [if_pos zero]
    exact List.cons_ne_nil _ _
  · rw [if_neg zero]
    simpa [Nat.digits_eq_nil_iff_eq_zero] using zero

/-- What stands in a decimal number. -/
theorem mem_decimal
    {n : Int}
    {byte : UInt8}
    (member : byte ∈ decimal n) :
    isDigit byte = true ∨ byte = 0x2d := by
  unfold decimal at member
  split_ifs at member
  · rcases List.mem_cons.mp member with rfl | member
    · exact .inr rfl
    · exact .inl (digits_isDigit _ byte member)
  · exact .inl (digits_isDigit _ byte member)

theorem decimal_ne_nil (n : Int) : decimal n ≠ [] := by
  unfold decimal
  split_ifs
  · exact List.cons_ne_nil _ _
  · exact digits_ne_nil _

theorem length_digits_le
    {n places : Nat}
    (some_ : 0 < places)
    (below : n < 10 ^ places) :
    (digits n).length ≤ places := by
  unfold digits
  split_ifs
  · exact some_
  · rw [List.length_map, List.length_reverse]
    exact (Nat.digits_length_le_iff (by decide) n).mpr below

/-- A word of 32 bits has at most ten digits and a sign. -/
theorem length_decimal_le (n : Int32) : (decimal n.toInt).length ≤ 11 := by
  have low := n.le_toInt
  have high := n.toInt_lt
  have short : (digits n.toInt.natAbs).length ≤ 10 :=
    length_digits_le (by decide) (by omega)
  unfold decimal
  split_ifs
  · rw [List.length_cons]
    omega
  · omega

/-- A number is read back from its decimal form. -/
theorem decimalValue_decimal (n : Int) :
    decimalValue (decimal n) = n := by
  have whole : (digits n.natAbs).takeWhile isDigit = digits n.natAbs :=
    List.takeWhile_eq_self_iff.mpr (digits_isDigit n.natAbs)
  unfold decimal
  by_cases negative : n < 0
  · rw [if_pos negative]
    have value : decimalValue (0x2d :: digits n.natAbs) =
        -(digitsValue ((digits n.natAbs).takeWhile isDigit) : Int) := rfl
    rw [value, whole, digitsValue_digits]
    omega
  · rw [if_neg negative]
    rcases shape : digits n.natAbs with _ | ⟨first, rest⟩
    · exact absurd shape (digits_ne_nil _)
    · have isFirst := digits_isDigit n.natAbs first (by rw [shape]; exact List.mem_cons_self)
      rw [shape] at whole
      have value := digitsValue_digits n.natAbs
      rw [shape] at value
      obtain ⟨solid, notMinus, notPlus⟩ := isDigit_plain isFirst
      unfold decimalValue
      rw [List.dropWhile_cons_of_neg (by rw [solid]; decide)]
      split
      · rename_i same
        exact absurd (List.cons.inj same).1 notMinus
      · rename_i same
        exact absurd (List.cons.inj same).1 notPlus
      · rw [whole, value]
        omega

theorem atoi_decimal (n : Int32) :
    atoi (decimal n.toInt) = n := by
  unfold atoi
  have low := n.le_toInt
  have high := n.toInt_lt
  rw [decimalValue_decimal, min_eq_right (by omega), max_eq_right (by omega), Int32.ofInt_toInt]

end LibRtlSdr.CText
