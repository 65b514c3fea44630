import Rulebook.Json.Numeral

namespace Rulebook

/-- A token. A text literal whose escapes do not pair up to characters has no content. The first
place where no token starts is `malformed`, and nothing is cut behind it. -/
inductive JsonToken where
  | openObject | closeObject | openArray | closeArray | colon | comma
  | text (content : Option String)
  | number (numeral : JsonNumeral)
  | boolean (flag : Bool)
  | null
  | malformed
  deriving DecidableEq, Repr

namespace JsonToken

def hexUnit? (a b c d : Char) : Option Nat := readBased? 16 [a, b, c, d]

def escaped? : Char → Option Char
  | '"' => some '"'
  | '\\' => some '\\'
  | '/' => some '/'
  | 'b' => some '\x08'
  | 'f' => some '\x0c'
  | 'n' => some '\n'
  | 'r' => some '\x0d'
  | 't' => some '\t'
  | _ => none

/-- Reads a text literal after its opening quote, as code points and, from numbered escapes, halves
of surrogate pairs. Gives what follows the closing quote. -/
def textUnits : List Char → Option (List Nat × List Char)
  | [] => none
  | '"' :: rest => some ([], rest)
  | '\\' :: 'u' :: a :: b :: c :: d :: rest => do
    let unit ← hexUnit? a b c d
    let (units, after) ← textUnits rest
    return (unit :: units, after)
  | '\\' :: letter :: rest => do
    let c ← escaped? letter
    let (units, after) ← textUnits rest
    return (c.toNat :: units, after)
  | c :: rest => do
    if c = '\\' || c.toNat < 0x20 then none
    else
      let (units, after) ← textUnits rest
      return (c.toNat :: units, after)

theorem textUnits_shorter {text : List Char} {units : List Nat} {after : List Char}
    (h : textUnits text = some (units, after)) : after.length < text.length := by
  fun_induction textUnits text generalizing units with
  | case1 => simp at h
  | case2 rest =>
      simp only [Option.some.injEq, Prod.mk.injEq] at h
      simp [h.2]
  | case3 a b c d rest ih =>
      simp only [Option.bind_eq_bind, Option.bind_eq_some_iff, Option.pure_def] at h
      obtain ⟨unit, -, ⟨tail, rest'⟩, inner, done⟩ := h
      simp only [Option.some.injEq, Prod.mk.injEq] at done
      have := ih (done.2 ▸ inner)
      simp only [List.length_cons]
      omega
  | case4 letter rest _ ih =>
      simp only [Option.bind_eq_bind, Option.bind_eq_some_iff, Option.pure_def] at h
      obtain ⟨c, -, ⟨tail, rest'⟩, inner, done⟩ := h
      simp only [Option.some.injEq, Prod.mk.injEq] at done
      have := ih (done.2 ▸ inner)
      simp only [List.length_cons]
      omega
  | case5 => simp at h
  | case6 c rest _ _ _ _ ih =>
      simp only [Option.bind_eq_bind, Option.bind_eq_some_iff, Option.pure_def] at h
      obtain ⟨⟨tail, rest'⟩, inner, done⟩ := h
      simp only [Option.some.injEq, Prod.mk.injEq] at done
      have := ih (done.2 ▸ inner)
      simp only [List.length_cons]
      omega

def isHighHalf (unit : Nat) : Bool := 0xd800 ≤ unit && unit < 0xdc00

def isLowHalf (unit : Nat) : Bool := 0xdc00 ≤ unit && unit < 0xe000

def characters? : List Nat → Option (List Char)
  | [] => some []
  | unit :: rest =>
    if isHighHalf unit then
      match rest with
      | low :: rest =>
        if isLowHalf low then
          (characters? rest).map
            (Char.ofNat (0x10000 + (unit - 0xd800) * 0x400 + (low - 0xdc00)) :: ·)
        else none
      | [] => none
    else if isLowHalf unit then none
    else (characters? rest).map (Char.ofNat unit :: ·)

def fraction? : List Char → Option (List Char × List Char)
  | '.' :: rest =>
    let (digits, after) := spanDigits rest
    if digits.isEmpty then none else some (digits, after)
  | rest => some ([], rest)

def exponent? : List Char → Option (Option Int × List Char)
  | [] => some (none, [])
  | mark :: rest =>
    if mark = 'e' || mark = 'E' then
      let (negative, unsigned) := spanSign rest
      let (digits, after) := spanDigits unsigned
      if digits.isEmpty then none
      else
        let size : Int := digitsValue digits
        some (some (if negative then -size else size), after)
    else some (none, mark :: rest)

def numeral? (negative : Bool) (text : List Char) : Option (JsonNumeral × List Char) := do
  let (whole, rest) := spanDigits text
  if whole.isEmpty || (whole.head? = some '0' && 1 < whole.length) then none
  else
    let (fraction, rest) ← fraction? rest
    let (exponent, rest) ← exponent? rest
    return (⟨negative, whole, fraction, exponent⟩, rest)

def head (c : Char) (rest : List Char) : JsonToken × List Char :=
  match c with
  | '\x7b' => (.openObject, rest)
  | '\x7d' => (.closeObject, rest)
  | '[' => (.openArray, rest)
  | ']' => (.closeArray, rest)
  | ':' => (.colon, rest)
  | ',' => (.comma, rest)
  | '"' =>
    match textUnits rest with
    | some (units, after) => (.text ((characters? units).map String.ofList), after)
    | none => (.malformed, [])
  | '-' =>
    match numeral? true rest with
    | some (numeral, after) => (.number numeral, after)
    | none => (.malformed, [])
  | _ =>
    if c.isDigit then
      match numeral? false (c :: rest) with
      | some (numeral, after) => (.number numeral, after)
      | none => (.malformed, [])
    else
      match c, rest with
      | 't', 'r' :: 'u' :: 'e' :: after => (.boolean true, after)
      | 'f', 'a' :: 'l' :: 's' :: 'e' :: after => (.boolean false, after)
      | 'n', 'u' :: 'l' :: 'l' :: after => (.null, after)
      | _, _ => (.malformed, [])

theorem spanDigits_length (text : List Char) : (spanDigits text).2.length ≤ text.length :=
  (List.dropWhile_sublist _).length_le

theorem spanSign_length (text : List Char) : (spanSign text).2.length ≤ text.length := by
  unfold spanSign
  split <;> simp

theorem fraction?_length {text digits after : List Char} (h : fraction? text = some (digits, after)) :
    after.length ≤ text.length := by
  unfold fraction? at h
  split at h
  · rename_i rest
    have := spanDigits_length rest
    simp only at h
    split at h
    · contradiction
    · simp only [Option.some.injEq, Prod.mk.injEq] at h
      rw [← h.2, List.length_cons]
      omega
  · simp only [Option.some.injEq, Prod.mk.injEq] at h
    exact Nat.le_of_eq (congrArg List.length h.2.symm)

theorem exponent?_length {text after : List Char} {exponent : Option Int}
    (h : exponent? text = some (exponent, after)) : after.length ≤ text.length := by
  unfold exponent? at h
  split at h
  · simp only [Option.some.injEq, Prod.mk.injEq] at h
    simp [← h.2]
  · rename_i mark rest
    have signed := spanSign_length rest
    have digits := spanDigits_length (spanSign rest).2
    split at h
    · simp only at h
      split at h
      · contradiction
      · simp only [Option.some.injEq, Prod.mk.injEq] at h
        rw [← h.2, List.length_cons]
        omega
    · simp only [Option.some.injEq, Prod.mk.injEq] at h
      simp [← h.2]

theorem numeral?_shorter {negative : Bool} {text after : List Char} {numeral : JsonNumeral}
    (h : numeral? negative text = some (numeral, after)) : after.length < text.length := by
  unfold numeral? at h
  have split_text : (spanDigits text).1.length + (spanDigits text).2.length = text.length := by
    rw [← List.length_append]
    exact congrArg List.length List.takeWhile_append_dropWhile
  simp only [Option.bind_eq_bind, Option.pure_def] at h
  split at h
  · contradiction
  · rename_i nonempty
    simp only [Bool.or_eq_true, not_or, List.isEmpty_iff] at nonempty
    have positive := List.length_pos_iff.2 nonempty.1
    simp only [Option.bind_eq_some_iff] at h
    obtain ⟨⟨fraction, rest⟩, first, ⟨exponent, rest'⟩, second, done⟩ := h
    have := fraction?_length first
    have := exponent?_length second
    simp only at *
    simp only [Option.some.injEq, Prod.mk.injEq] at done
    rw [← done.2]
    omega

theorem head_length (c : Char) (rest : List Char) : (head c rest).2.length ≤ rest.length := by
  unfold head
  split <;> try exact Nat.le_refl _
  · split
    · rename_i found
      exact Nat.le_of_lt (textUnits_shorter found)
    · exact Nat.zero_le _
  · split
    · rename_i found
      exact Nat.le_of_lt (numeral?_shorter found)
    · exact Nat.zero_le _
  · split
    · split
      · rename_i found
        exact Nat.le_of_lt_succ (numeral?_shorter found)
      · exact Nat.zero_le _
    · split <;> simp only [List.length_cons, List.length_nil] <;> omega

def isJsonBlank (c : Char) : Bool := c = ' ' || c = '\n' || c = '\t' || c = '\x0d'

def scan : List Char → List JsonToken
  | [] => []
  | c :: rest =>
    if isJsonBlank c then scan rest
    else (head c rest).1 :: scan (head c rest).2
  termination_by text => text.length
  decreasing_by
    · exact Nat.lt_succ_self _
    · exact Nat.lt_succ_of_le (head_length c rest)

end JsonToken
end Rulebook
