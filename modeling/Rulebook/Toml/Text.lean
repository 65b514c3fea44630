import Rulebook.Reading
import Rulebook.Text

namespace Rulebook.Toml

abbrev Reader (α : Type) := (text : List Char) → Option (Reading Char α text.length)

def isControl (c : Char) : Bool := (c.toNat < 0x20 && c ≠ '\t') || c.toNat = 0x7f

def startsNewline : List Char → Bool
  | '\n' :: _ | '\x0d' :: '\n' :: _ => true
  | _ => false

def endsLine (text : List Char) : Bool :=
  let rest := skipBlanks text
  rest.isEmpty || rest.head? = some '#' || startsNewline rest

/-- Skips blanks, ends of lines and comments, and stops in front of anything else. A control
character in a comment is something else. -/
def skipGap (inComment : Bool) : List Char → List Char
  | [] => []
  | '\n' :: rest | '\x0d' :: '\n' :: rest => skipGap false rest
  | c :: rest =>
    if inComment then if isControl c then c :: rest else skipGap true rest
    else if isLineBlank c then skipGap false rest
    else if c = '#' then skipGap true rest
    else c :: rest

def skipNewline : List Char → List Char
  | '\n' :: rest | '\x0d' :: '\n' :: rest => rest
  | text => text

theorem skipNewline_length (text : List Char) : (skipNewline text).length ≤ text.length := by
  unfold skipNewline
  split
  · exact Nat.le_succ _
  · exact Nat.le_add_right _ 2
  · exact Nat.le_refl _

theorem skipGap_length (inComment : Bool) (text : List Char) :
    (skipGap inComment text).length ≤ text.length := by
  fun_induction skipGap inComment text <;> simp only [List.length_cons, List.length_nil] <;> omega

def run (accept : Char → Bool) : Reader (List Char)
  | [] => none
  | c :: rest =>
    if accept c then
      some ⟨c :: rest.takeWhile accept, rest.dropWhile accept,
        Nat.lt_succ_of_le (List.dropWhile_sublist _).length_le⟩
    else none

def character? (code : Nat) : Option Char :=
  if code.isValidChar then some (Char.ofNat code) else none

def escaped? : Char → Option Char
  | 'b' => some '\x08'
  | 't' => some '\t'
  | 'n' => some '\n'
  | 'f' => some '\x0c'
  | 'r' => some '\x0d'
  | 'e' => some '\x1b'
  | '"' => some '"'
  | '\\' => some '\\'
  | _ => none

def codeWidth? : Char → Option Nat
  | 'x' => some 2
  | 'u' => some 4
  | 'U' => some 8
  | _ => none

def escape : Reader Char
  | [] => none
  | letter :: rest =>
    match codeWidth? letter with
    | some width => do
      let code ← if width ≤ rest.length then readBased? 16 (rest.take width) else none
      return (Reading.next (← character? code) letter rest).drop width
    | none => do
      return .next (← escaped? letter) letter rest

def takesEscapes (quote : Char) : Bool := quote = '"'

def lineText (quote : Char) : Reader (List Char)
  | [] => none
  | c :: rest =>
    if c = quote then some (.next [] c rest)
    else if c = '\\' && takesEscapes quote then do
      let char ← escape rest
      have := char.shorter
      let whole ← lineText quote char.rest
      return (char.within (whole.map (char.item :: ·)).behind).behind
    else if isControl c then none
    else do
      let whole ← lineText quote rest
      return (whole.map (c :: ·)).behind
  termination_by text => text.length
  decreasing_by all_goals (simp only [List.length_cons]; omega)

/-- Reads a text over several lines after its opening quotes. Up to two quotes more than the three
that close it belong to the text. A backslash at the end of a line leaves out the blanks and the
ends of lines after it; `trimming` says that they are being left out. -/
def blockText (quote : Char) (trimming : Bool) : Reader (List Char)
  | [] => none
  | c :: rest =>
    if trimming && (isLineBlank c || c = '\n') then do
      return (← blockText quote true rest).behind
    else if [quote, quote, quote].isPrefixOf (c :: rest) then
      let extra := min 2 ((rest.drop 2).takeWhile (· = quote)).length
      some (((Reading.next (List.replicate extra quote) c rest).drop 2).drop extra)
    else if startsNewline (c :: rest) then do
      let whole ← blockText quote trimming rest
      return (whole.map fun content => if trimming then content else c :: content).behind
    else if c = '\\' && takesEscapes quote then
      if startsNewline (skipBlanks rest) then do
        return (← blockText quote true rest).behind
      else do
        let char ← escape rest
        have := char.shorter
        let whole ← blockText quote false char.rest
        return (char.within (whole.map (char.item :: ·)).behind).behind
    else if isControl c then none
    else do
      let whole ← blockText quote false rest
      return (whole.map (c :: ·)).behind
  termination_by text => text.length
  decreasing_by all_goals (simp only [List.length_cons]; omega)

def quotedText (quote : Char) : Reader String := fun text =>
  if [quote, quote].isPrefixOf text then do
    let whole ← blockText quote false (skipNewline (text.drop 2))
    return (whole.map String.ofList).widen
      (Nat.le_trans (skipNewline_length _) (List.drop_sublist 2 text).length_le)
  else do
    return (← lineText quote text).map String.ofList

def isKeyPart (c : Char) : Bool := c.isAlphanum || c = '_' || c = '-'

def key : Reader String
  | [] => none
  | c :: rest =>
    if c = '"' || c = '\'' then do
      return ((← lineText c rest).map String.ofList).behind
    else do
      return (← run isKeyPart (c :: rest)).map String.ofList

def keyPath : Reader (List String) := fun text => do
  let first ← key text
  have := first.shorter
  match separated : skipBlanks first.rest with
  | '.' :: rest => do
    have := skipBlanks_length first.rest
    have := skipBlanks_length rest
    have : rest.length + 1 ≤ first.rest.length := by
      rw [separated, List.length_cons] at *; omega
    let others ← keyPath (skipBlanks rest)
    return (others.map (first.item :: ·)).widen (by omega)
  | _ => return first.map ([·])
  termination_by text => text.length
  decreasing_by omega

end Rulebook.Toml
