namespace Rulebook

/-- The ranges of the property `White_Space`, each with both ends. -/
def blankRanges : List (Nat × Nat) :=
  [(0x09, 0x0d), (0x20, 0x20), (0x85, 0x85), (0xa0, 0xa0), (0x1680, 0x1680), (0x2000, 0x200a),
    (0x2028, 0x2029), (0x202f, 0x202f), (0x205f, 0x205f), (0x3000, 0x3000)]

def isBlank (c : Char) : Bool :=
  blankRanges.any fun (low, high) => low ≤ c.toNat && c.toNat ≤ high

def trimBlank (text : List Char) : List Char :=
  ((text.dropWhile isBlank).reverse.dropWhile isBlank).reverse

def isBlankText (text : String) : Bool :=
  text.toList.all isBlank

def isLineBlank (c : Char) : Bool := c = ' ' || c = '\t'

def skipBlanks (text : List Char) : List Char := text.dropWhile isLineBlank

theorem skipBlanks_length (text : List Char) : (skipBlanks text).length ≤ text.length :=
  (List.dropWhile_sublist _).length_le

def piecesAt (mark : Char) : List Char → List (List Char)
  | [] => [[]]
  | c :: rest =>
    if c = mark then [] :: piecesAt mark rest
    else
      match piecesAt mark rest with
      | piece :: pieces => (c :: piece) :: pieces
      | [] => [[c]]

def digitsValue (digits : List Char) : Nat :=
  digits.foldl (fun value digit => value * 10 + (digit.toNat - '0'.toNat)) 0

def spanDigits (text : List Char) : List Char × List Char :=
  (text.takeWhile Char.isDigit, text.dropWhile Char.isDigit)

def readNat? (text : List Char) : Option Nat :=
  if text.isEmpty || !text.all Char.isDigit then none else some (digitsValue text)

def digitValue? (c : Char) : Option Nat :=
  if c.isDigit then some (c.toNat - '0'.toNat)
  else if 'a' ≤ c ∧ c ≤ 'f' then some (c.toNat - 'a'.toNat + 10)
  else if 'A' ≤ c ∧ c ≤ 'F' then some (c.toNat - 'A'.toNat + 10)
  else none

def isDigitOf (base : Nat) (c : Char) : Bool := (digitValue? c).any fun digit => digit < base

def readBased? (base : Nat) (digits : List Char) : Option Nat :=
  if digits.isEmpty then none
  else
    digits.foldlM (fun value c => do
      let digit ← digitValue? c
      if digit < base then some (value * base + digit) else none) 0

/-- Splits a leading sign off a text; `true` stands for minus. -/
def spanSign : List Char → Bool × List Char
  | '-' :: rest => (true, rest)
  | '+' :: rest => (false, rest)
  | text => (false, text)

def readInt? (text : List Char) : Option Int :=
  let (negative, digits) := spanSign text
  (readNat? digits).map fun value => if negative then -(value : Int) else value

structure Decimal where
  negative : Bool
  coefficient : Nat
  exponent : Int
  deriving DecidableEq, Repr

namespace Decimal

def readExponent? : List Char → Option Int
  | [] => some 0
  | mark :: rest => if mark = 'e' || mark = 'E' then readInt? rest else none

/-- Reads an optional sign, digits with at most one point among them, and an optional power of
ten. At least one digit is needed, on either side of the point. -/
def read? (text : List Char) : Option Decimal :=
  let (negative, unsigned) := spanSign text
  let (whole, afterWhole) := spanDigits unsigned
  let (fraction, afterFraction) :=
    match afterWhole with
    | '.' :: rest => spanDigits rest
    | rest => ([], rest)
  if whole.isEmpty && fraction.isEmpty then none
  else (readExponent? afterFraction).map fun exponent =>
    ⟨negative, digitsValue (whole ++ fraction), exponent - fraction.length⟩

end Decimal

def int32? (value : Int) : Option Int32 :=
  if -0x80000000 ≤ value ∧ value < 0x80000000 then some (Int32.ofInt value) else none

def int64? (value : Int) : Option Int64 :=
  if -0x8000000000000000 ≤ value ∧ value < 0x8000000000000000 then some (Int64.ofInt value)
  else none

theorem toInt_of_int32? {value : Int} {word : Int32} (h : int32? value = some word) :
    word.toInt = value := by
  unfold int32? at h
  split at h
  · obtain rfl := Option.some.inj h
    exact Int32.toInt_ofInt_of_le (by omega) (by omega)
  · contradiction

theorem toInt_of_int64? {value : Int} {word : Int64} (h : int64? value = some word) :
    word.toInt = value := by
  unfold int64? at h
  split at h
  · obtain rfl := Option.some.inj h
    exact Int64.toInt_ofInt_of_le (by omega) (by omega)
  · contradiction

end Rulebook
